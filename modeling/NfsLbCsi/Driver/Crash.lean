import NfsLbCsi.ControllerServer.Untouched
import NfsLbCsi.Driver.Addresses

set_option autoImplicit false

/-! # Panics of the controller service

No interceptor recovers a panic, so a handler that uses a `nil` pointer or an empty slice takes the
process down. The LB controller is there whenever `handle` has accepted the flags of a controller,
and its map is never empty, so `ControllerPublishVolume` and `ControllerUnpublishVolume` always
answer. The provisioning RPCs mount through the node server of their own process, and there is none
without `--run-node-server`: then every request that gets as far as its first mount is a crash.
-/

namespace NfsLbCsi

open Tally Optimistic Locks Lts GoString

/-! ## Programs of the node server -/

section

variable {ε : Type} {d : Driver}

theorem neverPanics_perform (o : SysOp) : (perform o : Sys ε o.Answer).NeverPanics :=
  Prog.neverPanics_op (S := sys) o

theorem neverPanics_chmodIfPermissionMismatch (targetPath : String) (mode : ℕ) :
    (chmodIfPermissionMismatch targetPath mode).NeverPanics := by
  refine (neverPanics_perform _).must.bind (fun info => ?_)
  split
  · exact (neverPanics_perform _).must
  · exact Prog.neverPanics_pure ()

theorem neverPanics_updateReadAhead (targetMountPath : String) (readAheadKB : ℤ) :
    (updateReadAhead targetMountPath readAheadKB).NeverPanics := by
  refine (neverPanics_perform _).must.bind (fun output => ?_)
  refine (neverPanics_perform _).must.bind (fun _ => ?_)
  refine (neverPanics_perform _).must.bind (fun op => ?_)
  split
  · exact Prog.neverPanics_fail _
  · split
    · exact Prog.neverPanics_fail _
    · exact Prog.neverPanics_pure ()

theorem neverPanics_checkTarget (targetPath : String) (mountPermissions : ℕ) :
    (checkTarget targetPath mountPermissions).NeverPanics := by
  refine (neverPanics_perform _).bind (fun r => ?_)
  split
  · exact Prog.neverPanics_pure _
  · split
    · exact (neverPanics_perform _).must.bind (fun _ => Prog.neverPanics_pure true)
    · exact Prog.neverPanics_fail _

theorem neverPanics_setPermissions (targetPath : String) (mountPermissions : ℕ) :
    (setPermissions targetPath mountPermissions).NeverPanics := by
  unfold setPermissions
  split
  · exact (neverPanics_chmodIfPermissionMismatch _ _).mapError
  · exact Prog.neverPanics_pure ()

theorem neverPanics_setReadAhead (targetPath : String) (mountOptions : List String) :
    (setReadAhead targetPath mountOptions).NeverPanics := by
  refine (Prog.neverPanics_ofExcept _ _).bind (fun flag => ?_)
  split
  · exact Prog.neverPanics_pure ()
  · exact (neverPanics_updateReadAhead _ _).mapError

theorem neverPanics_publishTarget (volCap : VolumeCapability) (req : NodePublishVolumeRequest) :
    (publishTarget d volCap req).NeverPanics := by
  refine (neverPanics_perform _).bind (fun σ => (neverPanics_perform _).bind (fun ρ => ?_))
  refine (Prog.neverPanics_ofExcept _ _).bind (fun m => ?_)
  refine (neverPanics_checkTarget _ _).bind (fun notMnt => ?_)
  split
  · refine (neverPanics_perform _).must.bind (fun _ => ?_)
    exact (neverPanics_setPermissions _ _).bind (fun _ => neverPanics_setReadAhead _ _)
  · exact Prog.neverPanics_pure ()

/-- On a node server, a body that never panics. -/
theorem neverPanics_onNode (hns : d.ns ≠ none) {volumeID targetPath : String}
    {body : NodeServer → Sys RpcError Unit} (h : ∀ ns, (body ns).NeverPanics) :
    (onNode d volumeID targetPath body).NeverPanics := by
  obtain ⟨ns, hns⟩ := Option.ne_none_iff_exists'.mp hns
  rw [onNode, hns]
  exact neverPanics_withLock (h ns)

theorem neverPanics_nodePublishVolume (hns : d.ns ≠ none) (req : NodePublishVolumeRequest) :
    (nodePublishVolume d req).NeverPanics := by
  unfold nodePublishVolume
  split
  · exact Prog.neverPanics_fail _
  · refine Prog.neverPanics_require_bind (fun _ => Prog.neverPanics_require_bind (fun _ => ?_))
    exact neverPanics_onNode hns (fun _ => neverPanics_publishTarget _ req)

theorem neverPanics_nodeUnpublishVolume (hns : d.ns ≠ none) (req : NodeUnpublishVolumeRequest) :
    (nodeUnpublishVolume d req).NeverPanics := by
  refine Prog.neverPanics_require_bind (fun _ => Prog.neverPanics_require_bind (fun _ => ?_))
  exact neverPanics_onNode hns (fun _ => (neverPanics_perform _).must)

end

/-! ## The internal mount -/

/-- The node server does not refuse to mount the volume before it looks at its own fields. -/
def Mountable (d : Driver) (vol : NfsVolume) : Prop :=
  vol.id ≠ "" ∧ getInternalMountPath d.workingMountDir vol ≠ ""

section

variable {α : Type} {d : Driver} {vol : NfsVolume} {volumeContext : StringMap}
  {volCap : Option VolumeCapability} {failed : String} {body : Rpc α}

theorem Rpc.neverPanics_perform (o : SysOp) : (Rpc.perform o).NeverPanics :=
  Prog.neverPanics_op (S := locked String sys) (.base o)

theorem Rpc.neverPanics_order : Rpc.order.NeverPanics := Rpc.neverPanics_perform .order

theorem neverPanics_withMount (hns : d.ns ≠ none) (hbody : body.NeverPanics) :
    (withMount d vol volumeContext volCap failed body).NeverPanics := by
  have hmount : (internalMount d vol volumeContext volCap).NeverPanics :=
    Rpc.neverPanics_order.bind (fun _ => neverPanics_nodePublishVolume hns _)
  exact hmount.mapError.bind (fun _ => hbody.ensure (neverPanics_nodeUnpublishVolume hns _))

/-- A request without a volume or a target is refused before the node server is used. -/
theorem nodePublishVolume_refused (d : Driver) (req : NodePublishVolumeRequest)
    (h : req.volumeId = "" ∨ req.targetPath = "") : ∃ e, nodePublishVolume d req = Prog.fail e := by
  unfold nodePublishVolume
  cases req.volumeCapability with
  | none => exact ⟨_, rfl⟩
  | some volCap =>
      by_cases hid : req.volumeId = ""
      · simp only [Prog.require, hid, ne_eq, not_true, if_false, Prog.done_throw_bind]
        exact ⟨_, rfl⟩
      · have htarget : req.targetPath = "" := h.resolve_left hid
        simp only [Prog.require, hid, htarget, ne_eq, not_true, not_false_eq_true,
          if_true, if_false, Prog.done_ret_bind, Prog.done_throw_bind]
        exact ⟨_, rfl⟩

/-- Otherwise a driver without a node server panics. -/
theorem nodePublishVolume_panics (hns : d.ns = none) {req : NodePublishVolumeRequest}
    (hcap : req.volumeCapability ≠ none) (hid : req.volumeId ≠ "") (htarget : req.targetPath ≠ "") :
    nodePublishVolume d req = Prog.panic := by
  obtain ⟨volCap, hcap⟩ := Option.ne_none_iff_exists'.mp hcap
  unfold nodePublishVolume
  rw [hcap]
  simp only [Prog.require, onNode, hns, if_pos hid, if_pos htarget, Prog.done_ret_bind]

theorem neverPanics_withMount_of_not_mountable (h : ¬Mountable d vol) :
    (withMount d vol volumeContext volCap failed body).NeverPanics := by
  have hmissing : vol.id = "" ∨ getInternalMountPath d.workingMountDir vol = "" := by
    by_contra hnot
    exact h (not_or.mp hnot)
  -- whatever the order of the loop, the mount fails and `body` is not run
  intro (σ : MapOrder)
  obtain ⟨e, he⟩ := nodePublishVolume_refused d
    (internalMountRequest d σ vol volumeContext volCap) hmissing
  show Prog.NeverPanics ((nodePublishVolume d
    (internalMountRequest d σ vol volumeContext volCap)).mapError _ >>= _)
  rw [he]
  exact Prog.neverPanics_fail _

/-- A mount that the driver can make, or refuses for its arguments, never panics. -/
theorem neverPanics_withMount_of (h : d.ns ≠ none ∨ ¬Mountable d vol)
    (hbody : d.ns ≠ none → body.NeverPanics) :
    (withMount d vol volumeContext volCap failed body).NeverPanics := by
  by_cases hns : d.ns = none
  · exact neverPanics_withMount_of_not_mountable (h.resolve_left (fun hne => hne hns))
  · exact neverPanics_withMount hns (hbody hns)

/-! ## The provisioning RPCs -/

theorem neverPanics_copyVolume (hns : d.ns ≠ none) (req : CreateVolumeRequest) (vol : NfsVolume)
    (source : VolumeContentSource) : (copyVolume d req vol source).NeverPanics := by
  cases source with
  | snapshot snapshotId =>
      refine (Prog.neverPanics_ofExcept _ _).bind (fun snap => ?_)
      exact neverPanics_withMount hns (neverPanics_withMount hns (Rpc.neverPanics_perform _).must)
  | volume volumeId =>
      refine (Prog.neverPanics_ofExcept _ _).bind (fun srcVol => ?_)
      exact neverPanics_withMount hns (neverPanics_withMount hns (Rpc.neverPanics_perform _).must)
  | untyped => exact Prog.neverPanics_fail _

theorem neverPanics_makeVolume (hns : d.ns ≠ none) (req : CreateVolumeRequest) (nfsVol : NfsVolume)
    (mountPermissions : ℕ) : (makeVolume d req nfsVol mountPermissions).NeverPanics := by
  have hcopy := neverPanics_copyVolume hns req nfsVol
  refine (Rpc.neverPanics_perform _).must.bind (fun _ => ?_)
  by_cases hmode : mountPermissions > 0
  · simp only [if_pos hmode]
    refine (Rpc.neverPanics_perform _).bind (fun _ => ?_)
    split
    · exact hcopy _
    · exact Prog.neverPanics_pure ()
  · simp only [if_neg hmode]
    split
    · exact hcopy _
    · exact Prog.neverPanics_pure ()

theorem neverPanics_createNfsVolume (h : d.ns ≠ none ∨ ¬Mountable d vol) (req : CreateVolumeRequest)
    (mountPermissions : ℕ) : (createNfsVolume d req vol mountPermissions).NeverPanics := by
  refine neverPanics_withMount_of h (fun hns => ?_)
  refine (neverPanics_makeVolume hns req vol mountPermissions).bind (fun _ => ?_)
  exact Rpc.neverPanics_order.bind (fun _ => Prog.neverPanics_pure _)

theorem neverPanics_archiveVolume (d : Driver) (nfsVol : NfsVolume) :
    (archiveVolume d nfsVol).NeverPanics := by
  unfold archiveVolume
  simp only
  split
  · refine (Rpc.neverPanics_perform _).must.bind (fun _ => ?_)
    exact (Rpc.neverPanics_perform _).must.bind (fun _ => (Rpc.neverPanics_perform _).must)
  · exact (Rpc.neverPanics_perform _).must.bind (fun _ => (Rpc.neverPanics_perform _).must)

theorem neverPanics_archiveSnapshot (d : Driver) (srcVol : NfsVolume) (snap : NfsSnapshot) :
    (archiveSnapshot d srcVol snap).NeverPanics := by
  refine (Rpc.neverPanics_perform _).must.bind (fun _ => ?_)
  refine (Rpc.neverPanics_perform _).bind (fun _ => ?_)
  exact (Rpc.neverPanics_perform _).bind (fun _ => Prog.neverPanics_pure _)

theorem neverPanics_createNfsSnapshot {snap : NfsSnapshot}
    (h : d.ns ≠ none ∨ ¬Mountable d (volumeFromSnapshot snap)) (srcVol : NfsVolume) :
    (createNfsSnapshot d srcVol snap).NeverPanics := by
  refine neverPanics_withMount_of h (fun hns => ?_)
  refine (Rpc.neverPanics_perform _).must.bind (fun _ => ?_)
  refine (Rpc.neverPanics_perform _).bind (fun visits => ?_)
  refine (Prog.neverPanics_ofExcept _ _).bind (fun _ => ?_)
  exact neverPanics_withMount hns (neverPanics_archiveSnapshot d srcVol snap)

end

/-- The request passes the checks of its RPC, for some order of the loops over its maps, and gets to
an internal mount that the node server does not refuse for its arguments. -/
def ReachesMount (d : Driver) : ControllerRequest → Prop
  | .createVolume req =>
      req.name ≠ "" ∧ isValidVolumeCapabilities req.volumeCapabilities = .ok () ∧
        ∃ σ τ ρ mountPermissions vol,
          validateParameters (MapOrder.range σ req.parameters) d.mountPermissions =
            .ok mountPermissions ∧
          newNFSVolume τ ρ req.name req.requiredBytes req.parameters d.defaultOnDeletePolicy
            = .ok vol ∧ Mountable d vol
  | .deleteVolume req =>
      req.volumeId ≠ "" ∧ ∃ vol, getNfsVolFromID req.volumeId = .ok vol ∧
        deleteBranch (vol.resolvedOnDelete d.defaultOnDeletePolicy) ≠ .keep ∧ Mountable d vol
  | .createSnapshot req =>
      req.name ≠ "" ∧ req.sourceVolumeId ≠ "" ∧ ∃ srcVol σ snap,
        getNfsVolFromID req.sourceVolumeId = .ok srcVol ∧
        newNFSSnapshot σ req.name req.parameters srcVol = .ok snap ∧
        Mountable d (volumeFromSnapshot snap)
  | .deleteSnapshot req =>
      req.snapshotId ≠ "" ∧ ∃ snap, getNfsSnapFromID req.snapshotId = .ok snap ∧
        Mountable d (volumeFromSnapshot snap)
  | _ => False

section

variable {d : Driver}

theorem neverPanics_createVolume {req : CreateVolumeRequest}
    (h : d.ns ≠ none ∨ ¬ReachesMount d (.createVolume req)) : (createVolume d req).NeverPanics := by
  refine Prog.neverPanics_require_bind (fun hname => ?_)
  refine Prog.neverPanics_ofExcept_bind (fun _ hcaps => ?_)
  refine Rpc.neverPanics_order.bind (fun σ => ?_)
  refine Prog.neverPanics_ofExcept_bind (fun mountPermissions hperm => ?_)
  refine Rpc.neverPanics_order.bind (fun τ => Rpc.neverPanics_order.bind (fun ρ => ?_))
  refine Prog.neverPanics_ofExcept_bind (fun vol hvol => ?_)
  refine neverPanics_createNfsVolume (h.imp_right fun hnot hmount => hnot ?_) req mountPermissions
  exact ⟨hname, hcaps, σ, τ, ρ, mountPermissions, vol, hperm, hvol, hmount⟩

theorem neverPanics_deleteVolume {req : DeleteVolumeRequest}
    (h : d.ns ≠ none ∨ ¬ReachesMount d (.deleteVolume req)) : (deleteVolume d req).NeverPanics := by
  refine Prog.neverPanics_require_bind (fun hid => ?_)
  cases hvol : getNfsVolFromID req.volumeId with
  | error err => exact Prog.neverPanics_pure ()
  | ok vol =>
      refine Rpc.neverPanics_order.bind (fun σ => ?_)
      unfold deleteNfsVolume
      split
      · exact Prog.neverPanics_pure ()
      · rename_i hbranch
        refine neverPanics_withMount_of (h.imp_right fun hnot hmount => hnot ?_)
          (fun _ => neverPanics_archiveVolume d vol)
        exact ⟨hid, vol, hvol, by rw [hbranch]; decide, hmount⟩
      · rename_i hbranch
        refine neverPanics_withMount_of (h.imp_right fun hnot hmount => hnot ?_)
          (fun _ => (Rpc.neverPanics_perform _).must)
        exact ⟨hid, vol, hvol, by rw [hbranch]; decide, hmount⟩

theorem neverPanics_createSnapshot {req : CreateSnapshotRequest}
    (h : d.ns ≠ none ∨ ¬ReachesMount d (.createSnapshot req)) :
    (createSnapshot d req).NeverPanics := by
  refine Prog.neverPanics_require_bind (fun hname => Prog.neverPanics_require_bind (fun hsrc => ?_))
  refine Prog.neverPanics_ofExcept_bind (fun srcVol hvol => ?_)
  refine Rpc.neverPanics_order.bind (fun σ => ?_)
  refine Prog.neverPanics_ofExcept_bind (fun snap hsnap => ?_)
  refine neverPanics_createNfsSnapshot (h.imp_right fun hnot hmount => hnot ?_) srcVol
  exact ⟨hname, hsrc, srcVol, σ, snap, hvol, hsnap, hmount⟩

theorem neverPanics_deleteSnapshot {req : DeleteSnapshotRequest}
    (h : d.ns ≠ none ∨ ¬ReachesMount d (.deleteSnapshot req)) :
    (deleteSnapshot d req).NeverPanics := by
  refine Prog.neverPanics_require_bind (fun hid => ?_)
  cases hsnap : getNfsSnapFromID req.snapshotId with
  | error err => exact Prog.neverPanics_pure ()
  | ok snap =>
      refine Rpc.neverPanics_order.bind (fun σ => ?_)
      refine neverPanics_withMount_of (h.imp_right fun hnot hmount => hnot ?_)
        (fun _ => (Rpc.neverPanics_perform _).must)
      exact ⟨hid, snap, hsnap, hmount⟩

end

/-! ## The LB controller -/

/-- **The LB controller of a driver never panics**: its map is never empty. -/
theorem LBReturns.ne_panicked {d : Driver} {ips : List String} (hd : d.lbController = some ips)
    (hne : ips ≠ []) {op : Op} {n v : String} {r : Ret} (h : LBReturns d op n v r) :
    r ≠ .panicked := by
  rintro rfl
  obtain ⟨B, s, s', e, a, -, hstep, hkeys⟩ := h.exists_step hd
  obtain ⟨c, hc, hempty⟩ := hstep.panicked_keys rfl
  rw [hkeys c hc, List.toFinset_eq_empty_iff] at hempty
  exact hne hempty

/-- Every call returns in some run: on an empty cluster it does not find its node. -/
theorem exists_lbReturns {d : Driver} {ips : List String} (hd : d.lbController = some ips)
    (hne : ips ≠ []) (n v : String) :
    (∃ err, LBReturns d .assign n v (.failed err)) ∧ LBReturns d .remove n v .removed := by
  obtain ⟨ip, hip⟩ := List.exists_mem_of_ne_nil ips hne
  obtain ⟨rest, hsort⟩ := exists_sorted_zeroCounts hip
  have hlist : (([] : List (Node Unit)) : Multiset (Node Unit)) = values (cluster []).server := by
    decide
  have hassign : Op.assign.call (startedController [] ips) n (ip :: rest) (.answered "") =
      (.failed _, _) := rfl
  have hremove : Op.remove.call (startedController [] ips) n (ip :: rest) (.answered "") =
      (.removed, _) := rfl
  exact ⟨⟨_, lbReturns_of_call hd hne hlist rfl hassign Ret.noConfusion (fun _ => hsort) rfl v⟩,
    lbReturns_of_call hd hne hlist rfl hremove Ret.noConfusion (fun _ => hsort) rfl v⟩

/-! ## The service -/

/-- What the outside can answer at any time: the LB controller what one of its calls can return, and
the rest of the system anything. -/
def outside (d : Driver) (_ : Unit) : (o : SysOp) → o.Answer → Unit → Prop
  | .assignIPToNode n v, a, _ => LBReturns d .assign n v (assignRet a)
  | .removeIPFromNode n v, a, _ => LBReturns d .remove n v (removeRet a)
  | _, _, _ => True

section

variable {d : Driver} {ips : List String}

theorem outside_answers (hd : d.lbController = some ips) (hne : ips ≠ []) (w : Unit) (o : SysOp) :
    ∃ a w', outside d w o a w' := by
  cases o with
  | assignIPToNode n v =>
      obtain ⟨⟨err, hret⟩, -⟩ := exists_lbReturns hd hne n v
      exact ⟨.throw err, (), hret⟩
  | removeIPFromNode n v => exact ⟨.ret (), (), (exists_lbReturns hd hne n v).2⟩
  | _ => exact ⟨SysOp.refused _, (), trivial⟩

/-- A call of the LB controller under the lock of the pair. -/
theorem wp_onPair {α : Type} (hd : d.lbController = some ips) {nodeID volumeID : String}
    {call : Sys RpcError α} (hcall : call.Wp (outside d) (fun out _ => out ≠ .panic) ())
    (s : Finset String × Unit) :
    (onPair d nodeID volumeID call).Wp (lockedWorld (outside d)) (fun out _ => out ≠ .panic) s := by
  have hbody : (if d.lbController = none then Prog.panic else call) = call :=
    if_neg (by rw [hd]; exact Option.some_ne_none ips)
  rw [onPair, hbody, Prog.wp_iff]
  intro s' out he
  rcases exec_withLock.mp he with ⟨-, -, rfl⟩ | ⟨-, hexec, -⟩
  · exact Outcome.throw_ne_panic
  · exact hcall.exec hexec

theorem wp_controllerPublishVolume (hd : d.lbController = some ips) (hne : ips ≠ [])
    (req : ControllerPublishVolumeRequest) (s : Finset String × Unit) :
    (Service.controllerPublishVolume d req).Wp (lockedWorld (outside d))
    (fun out _ => out ≠ .panic) s := by
  refine Prog.wp_require_bind (fun _ => ?_) (fun _ => Outcome.throw_ne_panic)
  refine Prog.wp_require_bind (fun _ => ?_) (fun _ => Outcome.throw_ne_panic)
  refine Prog.wp_require_bind (fun _ => ?_) (fun _ => Outcome.throw_ne_panic)
  refine wp_onPair hd ?_ s
  intro (a : Outcome String String) _ (hret : LBReturns d .assign _ _ (assignRet a))
  cases a with
  | ret ip => exact Outcome.ret_ne_panic
  | throw err => exact Outcome.throw_ne_panic
  | panic => exact absurd rfl (hret.ne_panicked hd hne)

theorem wp_controllerUnpublishVolume (hd : d.lbController = some ips) (hne : ips ≠ [])
    (req : ControllerUnpublishVolumeRequest) (s : Finset String × Unit) :
    (Service.controllerUnpublishVolume d req).Wp (lockedWorld (outside d))
    (fun out _ => out ≠ .panic)
      s := by
  refine Prog.wp_require_bind (fun _ => ?_) (fun _ => Outcome.throw_ne_panic)
  refine Prog.wp_require_bind (fun _ => ?_) (fun _ => Outcome.throw_ne_panic)
  refine wp_onPair hd ?_ s
  intro (a : Outcome String Unit) _ (hret : LBReturns d .remove _ _ (removeRet a))
  cases a with
  | ret u => exact Outcome.ret_ne_panic
  | throw err => exact Outcome.throw_ne_panic
  | panic => exact absurd rfl (hret.ne_panicked hd hne)

/-- A request that gets to no mount the driver cannot make is answered. -/
theorem wp_serve (hd : d.lbController = some ips) (hne : ips ≠ []) {req : ControllerRequest}
    (h : d.ns ≠ none ∨ ¬ReachesMount d req) (s : Finset String × Unit) :
    (serve d req).Wp (lockedWorld (outside d)) (fun out _ => out ≠ .panic) s := by
  -- provisioning has no panic among its leaves; publishing needs the answers of the LB controller
  have hleaves : (serve d req).NeverPanics →
      (serve d req).Wp (lockedWorld (outside d)) (fun out _ => out ≠ .panic) s :=
    fun hp => Prog.wp_iff.mpr fun _ _ he => Prog.Leaves.exec hp he
  have hmap : ∀ {α : Type} {p : Rpc α} {g : α → ControllerResponse},
      p.Wp (lockedWorld (outside d)) (fun out _ => out ≠ .panic) s →
      (p >>= fun a => pure (g a)).Wp (lockedWorld (outside d)) (fun out _ => out ≠ .panic) s := by
    intro α p g hp
    rw [Prog.wp_bind]
    refine hp.mono (fun out _ hout => ?_)
    cases out with
    | ret a => exact Outcome.ret_ne_panic
    | throw e => exact Outcome.throw_ne_panic
    | panic => exact absurd rfl hout
  cases req with
  | createVolume req =>
      exact hleaves ((neverPanics_createVolume h).bind (fun _ => Prog.neverPanics_pure _))
  | deleteVolume req =>
      exact hleaves ((neverPanics_deleteVolume h).bind (fun _ => Prog.neverPanics_pure _))
  | createSnapshot req =>
      exact hleaves ((neverPanics_createSnapshot h).bind (fun _ => Prog.neverPanics_pure _))
  | deleteSnapshot req =>
      exact hleaves ((neverPanics_deleteSnapshot h).bind (fun _ => Prog.neverPanics_pure _))
  | controllerPublishVolume req => exact hmap (wp_controllerPublishVolume hd hne req s)
  | controllerUnpublishVolume req => exact hmap (wp_controllerUnpublishVolume hd hne req s)
  | validateVolumeCapabilities req =>
      refine hmap (Prog.wp_require_bind (fun _ => ?_) (fun _ => Outcome.throw_ne_panic))
      exact Prog.wp_ofExcept_bind (fun _ _ => Outcome.ret_ne_panic)
        (fun _ _ => Outcome.throw_ne_panic)
  | controllerGetCapabilities => exact Outcome.ret_ne_panic
  | controllerGetVolume => exact Outcome.throw_ne_panic
  | listVolumes => exact Outcome.throw_ne_panic
  | getCapacity => exact Outcome.throw_ne_panic
  | listSnapshots => exact Outcome.throw_ne_panic
  | controllerExpandVolume => exact Outcome.throw_ne_panic
  | controllerModifyVolume => exact Outcome.throw_ne_panic

/-! ## The crash -/

/-- Any order of a loop is possible at any time. -/
theorem exec_order {α : Type} {f : MapOrder → Rpc α} {s s' : Finset String × Unit}
    {out : Outcome RpcError α} (σ : MapOrder)
    (h : Prog.Exec (lockedWorld (outside d)) (f σ) s s' out) :
    Prog.Exec (lockedWorld (outside d)) (Rpc.order >>= f) s s' out := by
  have hworld : lockedWorld (K := String) (S := sys) (outside d) s (.base .order) σ s :=
    ⟨rfl, trivial⟩
  exact .call hworld h

theorem exec_withMount_panic {α : Type} (hns : d.ns = none) {vol : NfsVolume} (hm : Mountable d vol)
    {volumeContext : StringMap} {volCap : Option VolumeCapability} {failed : String} {body : Rpc α}
    (s : Finset String × Unit) :
    Prog.Exec (lockedWorld (outside d))
      (withMount d vol volumeContext volCap failed body) s s .panic := by
  refine Prog.Exec.panic_bind (Prog.exec_mapError.mpr ⟨.panic, exec_order .asWritten ?_, rfl⟩)
  rw [nodePublishVolume_panics hns (Option.some_ne_none _) hm.1 hm.2]
  exact .done _ _

/-- Without a node server, a request that gets to its mount takes the process down. -/
theorem exec_serve_panic (hns : d.ns = none) {req : ControllerRequest} (h : ReachesMount d req)
    (s : Finset String × Unit) :
    Prog.Exec (lockedWorld (outside d)) (serve d req) s s .panic := by
  cases req with
  | createVolume req =>
      obtain ⟨hname, hcaps, σ, τ, ρ, mountPermissions, vol, hperm, hvol, hm⟩ := h
      refine Prog.Exec.panic_bind (.require_bind hname (.ofExcept_bind hcaps ?_))
      refine exec_order σ (.ofExcept_bind hperm ?_)
      refine exec_order τ (exec_order ρ (.ofExcept_bind hvol ?_))
      exact exec_withMount_panic hns hm s
  | deleteVolume req =>
      obtain ⟨hid, vol, hvol, hbranch, hm⟩ := h
      refine Prog.Exec.panic_bind (.require_bind hid ?_)
      rw [hvol]
      refine exec_order .asWritten ?_
      unfold deleteNfsVolume
      split
      · rename_i hkeep
        exact absurd hkeep hbranch
      · exact exec_withMount_panic hns hm s
      · exact exec_withMount_panic hns hm s
  | createSnapshot req =>
      obtain ⟨hname, hsrc, srcVol, σ, snap, hvol, hsnap, hm⟩ := h
      refine Prog.Exec.panic_bind (.require_bind hname
        (.require_bind hsrc (.ofExcept_bind hvol ?_)))
      exact exec_order σ (.ofExcept_bind hsnap (exec_withMount_panic hns hm s))
  | deleteSnapshot req =>
      obtain ⟨hid, snap, hsnap, hm⟩ := h
      refine Prog.Exec.panic_bind (.require_bind hid ?_)
      rw [hsnap]
      exact exec_order .asWritten (exec_withMount_panic hns hm s)
  | _ => exact h.elim

end

/-- Whatever is locked and whatever the outside answers, the request runs to its end, and the end is
a response or an error. -/
def AlwaysAnswered (d : Driver) (req : ControllerRequest) : Prop :=
  ∀ s : Finset String × Unit,
    (∃ s' out, Prog.Exec (lockedWorld (outside d)) (serve d req) s s' out) ∧
    ∀ s' out, Prog.Exec (lockedWorld (outside d)) (serve d req) s s' out →
      (∃ resp, out = .ret resp) ∨ ∃ err, out = .throw err

/-- **No controller RPC crashes the process** exactly when the driver has a node server or the
request does not get to an internal mount. -/
theorem always_answered_iff {linux : Bool} {f : Flags} {d : Driver} (h : handle linux f = some d)
    (hctl : f.runControllerServer = true) (req : ControllerRequest) :
    AlwaysAnswered d req ↔ f.runNodeServer = true ∨ ¬ReachesMount d req := by
  obtain ⟨-, hd, hnode⟩ := handle_eq_some h hctl
  have hne : split ',' f.ipAddresses ≠ [] := split_ne_nil ',' f.ipAddresses
  have hns : d.ns ≠ none ↔ f.runNodeServer = true := by rw [← hnode, Option.isSome_iff_ne_none]
  constructor
  · intro hanswered
    by_contra hnot
    obtain ⟨hno, hreach⟩ := not_or.mp hnot
    have hnone : d.ns = none := by
      by_contra hsome
      exact hno (hns.mp hsome)
    have hcrash := exec_serve_panic hnone (not_not.mp hreach) (∅, ())
    rcases (hanswered (∅, ())).2 _ _ hcrash with ⟨resp, hresp⟩ | ⟨err, herr⟩
    · cases hresp
    · cases herr
  · intro hcond s
    have hworld : ∀ s o, ∃ a s', lockedWorld (K := String) (S := sys) (outside d) s o a s' := by
      intro s o
      cases o with
      | tryAcquire key => exact ⟨_, _, rfl, rfl⟩
      | release key => exact ⟨(), _, rfl⟩
      | base o =>
          obtain ⟨a, w, ha⟩ := outside_answers hd hne s.2 o
          exact ⟨a, (s.1, w), rfl, ha⟩
    refine ⟨Prog.exists_exec hworld _ s, fun s' out he => Outcome.ne_panic_iff.mp ?_⟩
    exact (wp_serve hd hne (hcond.imp_left hns.mpr) s).exec he

/-- The flags of a process that is controller and node server. -/
def bothFlags (ipAddresses : String) : Flags :=
  { ipAddresses := ipAddresses, runControllerServer := true, runNodeServer := true }

theorem always_answered_iff_bothFlags :
    ∃ d, handle true (bothFlags "10.0.0.1") = some d ∧
      AlwaysAnswered d (.createVolume volumeRequest) :=
  ⟨_, rfl, (always_answered_iff (f := bothFlags "10.0.0.1") rfl rfl _).mpr (Or.inl rfl)⟩

/-- A controller without a node server, as the chart deploys it, crashes on a volume. -/
theorem create_crashes_controller :
    ∃ d, handle true (controllerFlags "10.0.0.1") = some d ∧
      Prog.Exec (lockedWorld (outside d)) (serve d (.createVolume volumeRequest)) (∅, ()) (∅, ())
        .panic := by
  refine ⟨_, rfl, exec_serve_panic rfl ?_ _⟩
  exact ⟨by decide, rfl, .asWritten, .asWritten, .asWritten, _, _, rfl, rfl, by decide, by decide⟩

end NfsLbCsi
