import NfsLbCsi.ControllerServer.Service

set_option autoImplicit false

/-! # The provisioning RPCs touch nothing

`NodePublishVolume` takes the address of the NFS server from the publish context, and the request
that `internalMount` makes has none. So the internal mount always fails, before the target path is
looked at; whatever the provisioning RPCs do after it is never reached. The choice of the orders of
the loops is their only operation.
-/

namespace NfsLbCsi

open Locks

/-- The RPCs that create and delete volumes and snapshots. -/
def ControllerRequest.provisions : ControllerRequest → Bool
  | .createVolume _ | .deleteVolume _ | .createSnapshot _ | .deleteSnapshot _ => true
  | _ => false

def ControllerRequest.creates : ControllerRequest → Bool
  | .createVolume _ | .createSnapshot _ => true
  | _ => false

/-! ## The internal mount -/

/-- Without the address of a server there is nothing to mount. -/
theorem mountSpec_of_no_context (d : Driver) (σ ρ : MapOrder) (volCap : VolumeCapability)
    {req : NodePublishVolumeRequest} (h : req.publishContext = ∅) :
    ∃ err, mountSpec d σ ρ volCap req = .error err := by
  unfold mountSpec
  split
  · exact ⟨_, rfl⟩
  · split
    · exact ⟨_, rfl⟩
    · rw [h]
      exact ⟨_, rfl⟩

section

variable {W : Type} {T : W → (o : SysOp) → o.Answer → W → Prop} {d : Driver} {locks : Finset String}
  {s : Finset String × (W × List SysOp)}

/-- The lock set is `locks`, and nothing has been mounted or changed. -/
def Pristine (locks : Finset String) (s : Finset String × (W × List SysOp)) : Prop :=
  s.1 = locks ∧ ∀ o ∈ s.2.2, o.touches = false

/-- The handler fails and leaves everything alone. -/
def FailsPristine {α : Type} (locks : Finset String) (out : Outcome RpcError α)
    (s : Finset String × (W × List SysOp)) : Prop :=
  Pristine locks s ∧ ∃ err, out = .throw err

theorem pristine_log {log : List SysOp} {o : SysOp} (h : ∀ o ∈ log, o.touches = false)
    (ho : o.touches = false) : ∀ o' ∈ log ++ [o], o'.touches = false := by
  intro o' ho'
  rcases List.mem_append.mp ho' with hlog | hnew
  · exact h o' hlog
  · rw [List.mem_singleton.mp hnew]
    exact ho

theorem wp_order {α : Type} {f : MapOrder → Rpc α}
    {Q : Outcome RpcError α → Finset String × (W × List SysOp) → Prop} (hs : Pristine locks s)
    (h : ∀ σ s', Pristine locks s' → (f σ).Wp (lockedWorld (Prog.logged T)) Q s') :
    (Rpc.order >>= f).Wp (lockedWorld (Prog.logged T)) Q s := by
  rintro σ s' ⟨hlocks, -, hlog⟩
  refine h σ s' ⟨hlocks.trans hs.1, ?_⟩
  rw [hlog]
  exact pristine_log hs.2 rfl

/-- Under its lock, `NodePublishVolume` fails on such a request before it looks at the target. -/
theorem publishTarget_fails {volCap : VolumeCapability} {req : NodePublishVolumeRequest}
    (h : req.publishContext = ∅) {v : W × List SysOp} (hv : ∀ o ∈ v.2, o.touches = false) :
    (publishTarget d volCap req).Wp (Prog.logged T) (fun out v' =>
      (∀ o ∈ v'.2, o.touches = false) ∧ ∃ err, out = .throw err) v := by
  rintro σ v₁ ⟨-, hlog₁⟩ ρ v₂ ⟨-, hlog₂⟩
  refine Prog.wp_ofExcept_bind (fun spec hspec => ?_) (fun err _ => ⟨?_, err, rfl⟩)
  · obtain ⟨err, hnone⟩ := mountSpec_of_no_context d σ ρ volCap h
    rw [hnone] at hspec
    cases hspec
  · rw [hlog₂, hlog₁]
    exact pristine_log (pristine_log hv rfl) rfl

theorem nodePublishVolume_fails (hns : d.ns ≠ none) {req : NodePublishVolumeRequest}
    (h : req.publishContext = ∅) (hs : Pristine locks s) :
    (nodePublishVolume d req).Wp (lockedWorld (Prog.logged T)) (FailsPristine locks) s := by
  unfold nodePublishVolume
  cases req.volumeCapability with
  | none => exact ⟨hs, _, rfl⟩
  | some volCap =>
      refine Prog.wp_require_bind (fun _ => ?_) (fun _ => ⟨hs, _, rfl⟩)
      refine Prog.wp_require_bind (fun _ => ?_) (fun _ => ⟨hs, _, rfl⟩)
      obtain ⟨ns, hns⟩ := Option.ne_none_iff_exists'.mp hns
      rw [onNode, hns, Prog.wp_iff]
      intro s' out he
      rcases exec_withLock.mp he with ⟨-, rfl, rfl⟩ | ⟨-, hbody, hend⟩
      · exact ⟨hs, _, rfl⟩
      · obtain ⟨hlog, err, rfl⟩ := (publishTarget_fails h hs.2).exec hbody
        rcases hend with ⟨-, hlocks⟩ | ⟨hpanic, -⟩
        · exact ⟨⟨hlocks.trans hs.1, hlog⟩, err, rfl⟩
        · cases hpanic

/-- **The internal mount always fails**, and leaves everything alone. -/
theorem withMount_fails {α : Type} (hns : d.ns ≠ none) {vol : NfsVolume} {volumeContext : StringMap}
    {volCap : Option VolumeCapability} {failed : String} {body : Rpc α} (hs : Pristine locks s) :
    (withMount d vol volumeContext volCap failed body).Wp (lockedWorld (Prog.logged T))
      (FailsPristine locks) s := by
  rw [withMount, Prog.wp_bind, Prog.wp_mapError]
  refine wp_order hs fun σ s₁ hs₁ => ?_
  refine (nodePublishVolume_fails hns rfl hs₁).mono ?_
  rintro out s₂ ⟨hs₂, err, rfl⟩
  exact ⟨hs₂, _, rfl⟩

/-! ## The RPCs -/

theorem createVolume_fails (hns : d.ns ≠ none) (req : CreateVolumeRequest) (hs : Pristine locks s) :
    (createVolume d req).Wp (lockedWorld (Prog.logged T)) (FailsPristine locks) s := by
  refine Prog.wp_require_bind (fun _ => ?_) (fun _ => ⟨hs, _, rfl⟩)
  refine Prog.wp_ofExcept_bind (fun _ _ => ?_) (fun _ _ => ⟨hs, _, rfl⟩)
  refine wp_order hs fun σ s₁ hs₁ => ?_
  refine Prog.wp_ofExcept_bind (fun _ _ => ?_) (fun _ _ => ⟨hs₁, _, rfl⟩)
  refine wp_order hs₁ fun τ s₂ hs₂ => ?_
  refine wp_order hs₂ fun ρ s₃ hs₃ => ?_
  refine Prog.wp_ofExcept_bind (fun _ _ => ?_) (fun _ _ => ⟨hs₃, _, rfl⟩)
  exact withMount_fails hns hs₃

theorem createSnapshot_fails (hns : d.ns ≠ none) (req : CreateSnapshotRequest)
    (hs : Pristine locks s) :
    (createSnapshot d req).Wp (lockedWorld (Prog.logged T)) (FailsPristine locks) s := by
  refine Prog.wp_require_bind (fun _ => ?_) (fun _ => ⟨hs, _, rfl⟩)
  refine Prog.wp_require_bind (fun _ => ?_) (fun _ => ⟨hs, _, rfl⟩)
  refine Prog.wp_ofExcept_bind (fun _ _ => ?_) (fun _ _ => ⟨hs, _, rfl⟩)
  refine wp_order hs fun σ s₁ hs₁ => ?_
  refine Prog.wp_ofExcept_bind (fun _ _ => ?_) (fun _ _ => ⟨hs₁, _, rfl⟩)
  exact withMount_fails hns hs₁

/-- A deletion may also find that there is nothing to do. -/
theorem deleteVolume_pristine (hns : d.ns ≠ none) (req : DeleteVolumeRequest)
    (hs : Pristine locks s) :
    (deleteVolume d req).Wp (lockedWorld (Prog.logged T)) (fun _ s' => Pristine locks s') s := by
  refine Prog.wp_require_bind (fun _ => ?_) (fun _ => hs)
  cases getNfsVolFromID req.volumeId with
  | error err => exact hs
  | ok vol =>
      refine wp_order hs fun σ s₁ hs₁ => ?_
      unfold deleteNfsVolume
      split
      · exact hs₁
      · exact (withMount_fails hns hs₁).mono fun _ _ h => h.1
      · exact (withMount_fails hns hs₁).mono fun _ _ h => h.1

theorem deleteSnapshot_pristine (hns : d.ns ≠ none) (req : DeleteSnapshotRequest)
    (hs : Pristine locks s) :
    (deleteSnapshot d req).Wp (lockedWorld (Prog.logged T)) (fun _ s' => Pristine locks s') s := by
  refine Prog.wp_require_bind (fun _ => ?_) (fun _ => hs)
  cases getNfsSnapFromID req.snapshotId with
  | error err => exact hs
  | ok snap =>
      refine wp_order hs fun σ s₁ hs₁ => ?_
      exact (withMount_fails hns hs₁).mono fun _ _ h => h.1

/-- **The provisioning RPCs touch nothing** on a driver with a node server: in every world they
mount nothing and change no file, the creations never succeed, and the lock set is as before. -/
theorem provisioning_touches_nothing (hns : d.ns ≠ none) {req : ControllerRequest}
    (hreq : req.provisions = true) {locks' : Finset String} {w w' : W} {log : List SysOp}
    {out : Outcome RpcError ControllerResponse}
    (h : Prog.Exec (lockedWorld (Prog.logged T)) (serve d req) (locks, (w, []))
      (locks', (w', log)) out) :
    (∀ o ∈ log, o.touches = false) ∧ (req.creates = true → ∀ resp, out ≠ .ret resp) ∧
      locks' = locks := by
  have hs : Pristine locks (locks, (w, ([] : List SysOp))) := ⟨rfl, by simp⟩
  suffices hwp : (serve d req).Wp (lockedWorld (Prog.logged T)) (fun out s' =>
      Pristine locks s' ∧ (req.creates = true → ∀ resp, out ≠ .ret resp)) (locks, (w, [])) by
    obtain ⟨⟨hlocks, hlog⟩, hout⟩ := hwp.exec h
    exact ⟨hlog, hout, hlocks⟩
  cases req with
  | createVolume req =>
      rw [serve, Prog.wp_bind]
      refine (createVolume_fails hns req hs).mono ?_
      rintro out s' ⟨hs', err, rfl⟩
      exact ⟨hs', by simp⟩
  | createSnapshot req =>
      rw [serve, Prog.wp_bind]
      refine (createSnapshot_fails hns req hs).mono ?_
      rintro out s' ⟨hs', err, rfl⟩
      exact ⟨hs', by simp⟩
  | deleteVolume req =>
      rw [serve, Prog.wp_bind]
      refine (deleteVolume_pristine hns req hs).mono ?_
      intro out s' hs'
      cases out <;> exact ⟨hs', fun hc => by cases hc⟩
  | deleteSnapshot req =>
      rw [serve, Prog.wp_bind]
      refine (deleteSnapshot_pristine hns req hs).mono ?_
      intro out s' hs'
      cases out <;> exact ⟨hs', fun hc => by cases hc⟩
  | _ => cases hreq

end

/-- A volume on the share `/s`. -/
def volumeRequest : CreateVolumeRequest where
  name := "pvc-1"
  requiredBytes := 0
  volumeCapabilities := [⟨some (.mount [])⟩]
  parameters := ((∅ : StringMap).set "server" "nfs").set "share" "/s"
  volumeContentSource := none

/-- Everything that can fail does. -/
def refusing (_ : Unit) (o : SysOp) (a : o.Answer) (_ : Unit) : Prop := a = o.refused

def refusedAnswer (s : Unit × List SysOp) (o : SysOp) : o.Answer × (Unit × List SysOp) :=
  (o.refused, ((), s.2 ++ [o]))

theorem refusedAnswer_spec (s : Unit × List SysOp) (o : SysOp) :
    Prog.logged (S := sys) refusing s o (refusedAnswer s o).1 (refusedAnswer s o).2 := ⟨rfl, rfl⟩

theorem provisioning_touches_nothing_volumeRequest :
    ∃ log err, Prog.Exec (lockedWorld (Prog.logged refusing))
      (serve fullDriver (.createVolume volumeRequest))
      (∅, ((), [])) (∅, ((), log)) (.throw err) ∧ log.length = 6 ∧
      ∀ o ∈ log, o.touches = false := by
  have hexec := Prog.exec_interp (lockedAnswer_spec refusedAnswer_spec)
    (serve fullDriver (.createVolume volumeRequest)) (∅, ((), []))
  refine ⟨_, _, hexec, by decide, ?_⟩
  exact (provisioning_touches_nothing (by decide) rfl hexec).1

end NfsLbCsi
