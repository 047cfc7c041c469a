import NfsLbCsi.Basic.Places
import NfsLbCsi.Driver.Crash
import NfsLbCsi.Driver.OperationLocks
import NfsLbCsi.NodeServer.MountCall

set_option autoImplicit false

/-! # The mounts of a node

Any number of RPCs of one driver run at the same time and mount and unmount. `NodePublishVolume`
looks whether the target is a mount point and mounts it when it is not; nothing but the lock of the
volume and the target keeps another call from mounting it in between.

The mount points of the node are the places of a world (`mountKernel` says what happens at one of
them); two paths can lead to one mount point. As long as all requests for a mount point lock the
same key, whatever the interleaving,

* at most one mount is at a mount point, and it is one that a request has asked for
  (`mounted_once`),
* a `NodePublishVolume` that returns success leaves its target mounted, and a `NodeUnpublishVolume`
  that returns success leaves it unmounted (`answers_hold`).

Both rest on `IsLikelyNotMountPoint` being right whenever it answers. Two requests for a mount point
that lock different keys can both get to their mounts (`both_reach_mount`).
-/

namespace NfsLbCsi

open Locks Lts

/-! ## What the kernel does at one mount point -/

/-- A line of the mount table. -/
structure MountEntry where
  source : String
  fstype : String
  options : List String
  deriving DecidableEq

/-- A mount goes on top of the others. The kernel refuses the one that is on top already
(`EBUSY`). -/
def MountEntry.Stacks (e : MountEntry) (v v' : List MountEntry) : Prop :=
  v' = e :: v ∧ ∀ top ∈ v.head?, top.source ≠ e.source

/-- What is mounted at a mount point, the newest first, before and after an operation on it. A look
that answers is right, and a path that does not exist is no mount point. A mount that fails may have
happened all the same. A cleanup that succeeds has taken everything away, and one that fails a part
of it. -/
def mountKernel (v : List MountEntry) : (o : SysOp) → o.Answer → List MountEntry → Prop
  | .isLikelyNotMountPoint _, .ok notMnt, v' => v' = v ∧ notMnt = v.isEmpty
  | .isLikelyNotMountPoint _, .error err, v' => v' = v ∧ (err.notExist = true → v = [])
  | .mount source _ fstype options, .ok (), v' => MountEntry.Stacks ⟨source, fstype, options⟩ v v'
  | .mount source _ fstype options, .error _, v' =>
      v' = v ∨ MountEntry.Stacks ⟨source, fstype, options⟩ v v'
  | .cleanupMountPoint _ _, .ok (), v' => v' = []
  | .cleanupMountPoint _ _, .error _, v' => v' <:+ v
  | _, _, v' => v' = v

section

variable {P : Type}

/-- The mount point that an operation is about; `loc` resolves paths. -/
def mountPlace (loc : String → P) : SysOp → Option P
  | .isLikelyNotMountPoint path => some (loc path)
  | .mount _ target _ _ => some (loc target)
  | .cleanupMountPoint path _ => some (loc path)
  | _ => none

/-- `targetWorld` sees the newest mount only. -/
def Sees (v : List MountEntry) (w : Option Mounted) : Prop :=
  w.map Mounted.source = v.head?.map MountEntry.source

/-- **One kernel.** What happens to the mounts at a target is what `targetWorld` says. -/
theorem targetWorld_of_mountKernel {target : String} {o : SysOp} {a : o.Answer}
    {v v' : List MountEntry} {w : Option Mounted} (ho : mountPlace id o = some target)
    (h : mountKernel v o a v') (hsees : Sees v w) :
    ∃ w', targetWorld target w o a w' ∧ Sees v' w' := by
  have hshown : ∀ v' : List MountEntry, ∃ w', Sees v' w' := fun v' =>
    ⟨v'.head?.map (fun e => ⟨e.source, 0, "", 0⟩), by cases v' <;> rfl⟩
  have hstacks : ∀ {e : MountEntry}, e.Stacks v v' →
      ∃ m : Mounted, m.source = e.source ∧ Sees v' (some m) := by
    rintro e ⟨rfl, -⟩
    exact ⟨⟨e.source, 0, "", 0⟩, rfl, rfl⟩
  match o, a, ho, h with
  | .isLikelyNotMountPoint path, .ok true, _, ⟨hv, _⟩ => exact ⟨w, rfl, hv ▸ hsees⟩
  | .isLikelyNotMountPoint path, .ok false, _, ⟨hv, hmounted⟩ =>
      refine ⟨w, ⟨rfl, fun _ hnone => ?_⟩, hv ▸ hsees⟩
      cases v with
      | nil => cases hmounted
      | cons e v => rw [hnone] at hsees; cases hsees
  | .isLikelyNotMountPoint path, .error err, _, ⟨hv, _⟩ => exact ⟨w, rfl, hv ▸ hsees⟩
  | .mount source path fstype options, .ok (), ho, h =>
      obtain ⟨m, hsource, hsees'⟩ := hstacks h
      exact ⟨some m, ⟨fun _ => ⟨m, rfl, hsource⟩, fun hne => absurd (Option.some.inj ho) hne⟩,
        hsees'⟩
  | .mount source path fstype options, .error err, ho, Or.inl hv =>
      exact ⟨w, Or.inl rfl, hv ▸ hsees⟩
  | .mount source path fstype options, .error err, ho, Or.inr h =>
      obtain ⟨m, hsource, hsees'⟩ := hstacks h
      exact ⟨some m, Or.inr ⟨Option.some.inj ho, m, rfl, hsource⟩, hsees'⟩
  | .cleanupMountPoint path force, .ok (), ho, hv =>
      refine ⟨none, ⟨fun _ => rfl, fun hne => absurd (Option.some.inj ho) hne⟩, ?_⟩
      rw [show v' = [] from hv]
      rfl
  | .cleanupMountPoint path force, .error err, ho, _ =>
      obtain ⟨w', hw'⟩ := hshown v'
      exact ⟨w', fun hne => absurd (Option.some.inj ho) hne, hw'⟩

/-- The mount points of the node, each on its own. -/
abbrev mountWorld (loc : String → P) :
    (P → List MountEntry) → (o : SysOp) → o.Answer → (P → List MountEntry) → Prop :=
  placeWorld (S := sys) (mountPlace loc) mountKernel

/-- The calls in flight and what is mounted on the node. -/
abbrev NodeState (P : Type) := LockPool × (P → List MountEntry)

/-- One step of any of the calls. -/
def NodeNext (d : Driver) (loc : String → P) :
    NodeState P → Turn LockingRequest → NodeState P → Prop :=
  Pool.Next (mountWorld loc) (serveLocking d)

/-- No call, and nothing mounted. -/
def bareState : NodeState P := (⟨∅, []⟩, fun _ => [])

/-- The volume and the target of a request to the node server. -/
def LockingRequest.target : LockingRequest → Option (String × String)
  | .nodePublishVolume q => some (q.volumeId, q.targetPath)
  | .nodeUnpublishVolume q => some (q.volumeId, q.targetPath)
  | _ => none

/-- All requests for a mount point lock one key. -/
def OneKey (loc : String → P) (rs : List LockingRequest) : Prop :=
  ∀ r ∈ rs, ∀ r' ∈ rs, ∀ t t', r.target = some t → r'.target = some t' → loc t.2 = loc t'.2 →
    lockKey t.1 t.2 = lockKey t'.1 t'.2

/-- The mount that a specification leads to. -/
def MountSpec.entry (m : MountSpec) : MountEntry :=
  ⟨m.source, "nfs", collectMountOptions m.mountOptions⟩

/-- Nothing is mounted at `x`, or one of the requests `rs` has asked for what is. -/
def AskedFor (d : Driver) (loc : String → P) (rs : List LockingRequest) (x : P)
    (v : List MountEntry) : Prop :=
  v = [] ∨ ∃ q m, .nodePublishVolume q ∈ rs ∧ loc q.targetPath = x ∧ Asks d q m ∧ v = [m.entry]

/-- What success means. -/
def Succeeds (r : LockingRequest) (out : Outcome RpcError LockingResponse) (v : List MountEntry) :
    Prop :=
  ∀ resp, out = .ret resp →
    match r with
    | .nodePublishVolume _ => v ≠ []
    | .nodeUnpublishVolume _ => v = []
    | _ => True

/-- Where and under which key a request works, if it gets that far. -/
def mountJob (d : Driver) (loc : String → P) : LockingRequest → Option (P × String)
  | .nodePublishVolume q =>
      if d.ns.isSome ∧ q.volumeCapability.isSome ∧ q.volumeId ≠ "" ∧ q.targetPath ≠ "" then
        some (loc q.targetPath, lockKey q.volumeId q.targetPath)
      else none
  | .nodeUnpublishVolume q =>
      if d.ns.isSome ∧ q.volumeId ≠ "" ∧ q.targetPath ≠ "" then
        some (loc q.targetPath, lockKey q.volumeId q.targetPath)
      else none
  | _ => none

/-- `NodeUnpublishVolume` under its lock. -/
def unpublishTarget (ns : NodeServer) (q : NodeUnpublishVolumeRequest) : Sys RpcError Unit :=
  Prog.must
    (fun err => internal ("failed to unmount target " ++ GoString.quote q.targetPath
      ++ ": " ++ err.text))
    (perform (.cleanupMountPoint q.targetPath ns.forceUnmounter))

/-! ## Programs that leave the mounts alone -/

section

variable {loc : String → P} {target : String}

theorem nowhere_chmodIfPermissionMismatch (mode : ℕ) :
    (chmodIfPermissionMismatch target mode).Nowhere (mountPlace loc) := by
  refine (Prog.nowhere_must (Prog.nowhere_op rfl)).bind (fun info => ?_)
  split
  · exact Prog.nowhere_must (Prog.nowhere_op rfl)
  · exact Prog.nowhere_done _

theorem nowhere_setPermissions (mountPermissions : ℕ) :
    (setPermissions target mountPermissions).Nowhere (mountPlace loc) := by
  unfold setPermissions
  split
  · exact Prog.nowhere_mapError (nowhere_chmodIfPermissionMismatch _)
  · exact Prog.nowhere_done _

theorem nowhere_updateReadAhead (kb : ℤ) :
    (updateReadAhead target kb).Nowhere (mountPlace loc) := by
  refine (Prog.nowhere_must (Prog.nowhere_op rfl)).bind (fun output => ?_)
  refine (Prog.nowhere_must (Prog.nowhere_op rfl)).bind (fun _ => ?_)
  refine (Prog.nowhere_must (Prog.nowhere_op rfl)).bind (fun op => ?_)
  split
  · exact Prog.nowhere_done _
  · split
    · exact Prog.nowhere_done _
    · exact Prog.nowhere_done _

theorem nowhere_setReadAhead (mountOptions : List String) :
    (setReadAhead target mountOptions).Nowhere (mountPlace loc) := by
  refine Prog.nowhere_ofExcept_bind (fun flag _ => ?_)
  cases flag with
  | none => exact Prog.nowhere_done _
  | some kb => exact Prog.nowhere_mapError (nowhere_updateReadAhead kb)

end

/-! ## One call on its own -/

section

variable {d : Driver} {loc : String → P} {rs : List LockingRequest} {x : P} {target : String}

/-- The mount and what follows it, on a mount point that is free. -/
theorem safe_mountTarget {I : List MountEntry → Prop} {m : MountSpec} (hx : loc target = x)
    (hempty : I []) (hentry : I [m.entry]) :
    (mountTarget target m).Safe (mountPlace loc) mountKernel x I
      (fun out v => out = .ret () → v ≠ []) [] := by
  refine Or.inr ⟨congrArg some hx, fun a v' hmount => ?_⟩
  cases a with
  | error err =>
      refine ⟨?_, fun h => by cases h⟩
      rcases hmount with rfl | ⟨rfl, -⟩
      · exact hempty
      · exact hentry
  | ok u =>
      obtain rfl : v' = [m.entry] := hmount.1
      have hrest : (setPermissions target m.mountPermissions >>= fun _ =>
          setReadAhead target m.mountOptions).Nowhere (mountPlace loc) :=
        (nowhere_setPermissions _).bind (fun _ => nowhere_setReadAhead _)
      exact ⟨hentry, hrest.safe (Prog.leaves_of_forall (fun _ _ => by simp) _)⟩

/-- The look at the target: "not mounted" is right. -/
theorem safe_checkTarget {I : List MountEntry → Prop} (mountPermissions : ℕ) (hx : loc target = x)
    {v : List MountEntry} (hv : I v) :
    (checkTarget target mountPermissions).Safe (mountPlace loc) mountKernel x I
      (fun out v' => v' = v ∧ ∀ notMnt, out = .ret notMnt → notMnt = v.isEmpty) v := by
  refine Or.inr ⟨congrArg some hx, fun a v' hlook => ?_⟩
  cases a with
  | ok notMnt =>
      obtain ⟨rfl, hright⟩ := hlook
      exact ⟨hv, rfl, fun b hb => by cases hb; exact hright⟩
  | error err =>
      obtain ⟨rfl, hmissing⟩ := hlook
      refine ⟨hv, ?_⟩
      show Prog.Safe _ _ _ _ _ (ite _ _ _) _
      split
      · -- the missing directory is created
        rename_i hnot
        refine Or.inl ⟨rfl, fun r => ?_⟩
        cases r with
        | ok u => exact ⟨rfl, fun b hb => by cases hb; rw [hmissing hnot]; rfl⟩
        | error err => exact ⟨rfl, fun b hb => by cases hb⟩
      · exact ⟨rfl, fun b hb => by cases hb⟩

/-- **`NodePublishVolume` under its lock**: a mount point that is free, or carries one mount that
was asked for, stays so, and after success it is mounted. -/
theorem safe_publishTarget {q : NodePublishVolumeRequest} {volCap : VolumeCapability}
    (hq : .nodePublishVolume q ∈ rs) (hcap : q.volumeCapability = some volCap)
    (hx : loc q.targetPath = x) {v : List MountEntry} (hv : AskedFor d loc rs x v) :
    (publishTarget d volCap q).Safe (mountPlace loc) mountKernel x (AskedFor d loc rs x)
      (fun out v => out = .ret () → v ≠ []) v := by
  -- the orders of the two loops
  refine Or.inl ⟨rfl, fun σ => Or.inl ⟨rfl, fun ρ => ?_⟩⟩
  refine Prog.safe_ofExcept_bind (fun m hm => ?_) (fun e _ h => by cases h)
  have hasks : Asks d q m := ⟨volCap, σ, ρ, hcap, hm⟩
  refine Prog.safe_bind ((safe_checkTarget m.mountPermissions hx hv).mono ?_)
  rintro out v' ⟨rfl, hright⟩
  match out, hright with
  | .throw e, _ => exact fun h => by cases h
  | .panic, _ => exact fun h => by cases h
  | .ret true, hright =>
      obtain rfl : v' = [] := List.isEmpty_iff.mp (hright true rfl).symm
      exact safe_mountTarget hx (Or.inl rfl) (Or.inr ⟨q, m, hq, hx, hasks, rfl⟩)
  | .ret false, hright =>
      intro _ hempty
      have hfalse := hright false rfl
      rw [hempty] at hfalse
      cases hfalse

/-- A part of one mount is that mount or nothing. -/
theorem AskedFor.suffix {v v' : List MountEntry} (h : AskedFor d loc rs x v) (hv' : v' <:+ v) :
    AskedFor d loc rs x v' := by
  rcases h with rfl | ⟨q, m, hq, hx, hasks, rfl⟩
  · exact Or.inl (List.suffix_nil.mp hv')
  · rcases List.suffix_cons_iff.mp hv' with rfl | hnil
    · exact Or.inr ⟨q, m, hq, hx, hasks, rfl⟩
    · exact Or.inl (List.suffix_nil.mp hnil)

/-! ## All calls together -/

/-- The postcondition survives the translation of the result. -/
theorem safe_respond {body : Sys RpcError Unit} {r : LockingRequest} {I : List MountEntry → Prop}
    {Q : List MountEntry → Prop} {v : List MountEntry}
    (hQ : ∀ v, Q v → Succeeds r (.ret .done) v)
    (h : body.Safe (mountPlace loc) mountKernel x I (fun out v => out = .ret () → Q v) v) :
    (body >>= fun _ => pure LockingResponse.done).Safe (mountPlace loc) mountKernel x I
      (Succeeds r) v := by
  refine Prog.safe_bind (h.mono ?_)
  intro out v' hout
  cases out with
  | ret u => exact hQ v' (hout rfl)
  | throw e => exact fun resp hresp => by cases hresp
  | panic => exact fun resp hresp => by cases hresp

theorem serveLocking_publish {q : NodePublishVolumeRequest} {volCap : VolumeCapability}
    {ns : NodeServer} (hns : d.ns = some ns) (hcap : q.volumeCapability = some volCap)
    (hid : q.volumeId ≠ "") (htarget : q.targetPath ≠ "") :
    serveLocking d (.nodePublishVolume q)
      = withLock (lockKey q.volumeId q.targetPath)
          ⟨.aborted, volumeOperationAlreadyExists q.volumeId⟩
          (publishTarget d volCap q >>= fun _ => pure .done) := by
  rw [← withLock_bind_pure]
  simp [serveLocking, nodePublishVolume, hcap, Prog.require, hid, htarget, onNode, hns]

theorem serveLocking_unpublish {q : NodeUnpublishVolumeRequest} {ns : NodeServer}
    (hns : d.ns = some ns) (hid : q.volumeId ≠ "") (htarget : q.targetPath ≠ "") :
    serveLocking d (.nodeUnpublishVolume q)
      = withLock (lockKey q.volumeId q.targetPath)
          ⟨.aborted, volumeOperationAlreadyExists q.volumeId⟩
          (unpublishTarget ns q >>= fun _ => pure .done) := by
  rw [← withLock_bind_pure]
  simp [serveLocking, nodeUnpublishVolume, Prog.require, hid, htarget, onNode, hns, unpublishTarget]

theorem safe_unpublishTarget {q : NodeUnpublishVolumeRequest} (ns : NodeServer)
    (hx : loc q.targetPath = x) {v : List MountEntry} (hv : AskedFor d loc rs x v) :
    (unpublishTarget ns q).Safe (mountPlace loc) mountKernel x (AskedFor d loc rs x)
      (fun out v => out = .ret () → v = []) v := by
  refine Or.inr ⟨congrArg some hx, fun a v' hcleanup => ?_⟩
  cases a with
  | ok u => exact ⟨Or.inl hcleanup, fun _ => hcleanup⟩
  | error err => exact ⟨hv.suffix hcleanup, fun h => by cases h⟩

theorem nowhere_onPair {α : Type} {nodeID volumeID : String} {call : Sys RpcError α} {o : SysOp}
    (hcall : call.Nowhere (mountPlace loc))
    (h : (onPair d nodeID volumeID call).Performs (.base o)) :
    mountPlace loc o = none := by
  have hbody := performs_withLock.mp h
  split at hbody
  · exact absurd hbody Prog.performs_done
  · exact hcall o hbody

/-- The calls of the controller service do not mount. -/
theorem nowhere_controllerPublishVolume {req : ControllerPublishVolumeRequest} {o : SysOp}
    (h : (Service.controllerPublishVolume d req).Performs (.base o)) : mountPlace loc o = none := by
  obtain ⟨-, h⟩ := Prog.performs_require_bind.mp h
  obtain ⟨-, h⟩ := Prog.performs_require_bind.mp h
  obtain ⟨-, h⟩ := Prog.performs_require_bind.mp h
  refine nowhere_onPair ((Prog.nowhere_op rfl).bind (fun a => ?_)) h
  exact (Prog.nowhere_done _).bind (fun _ => Prog.nowhere_done _)

theorem nowhere_controllerUnpublishVolume {req : ControllerUnpublishVolumeRequest} {o : SysOp}
    (h : (Service.controllerUnpublishVolume d req).Performs (.base o)) :
    mountPlace loc o = none := by
  obtain ⟨-, h⟩ := Prog.performs_require_bind.mp h
  obtain ⟨-, h⟩ := Prog.performs_require_bind.mp h
  exact nowhere_onPair ((Prog.nowhere_op rfl).bind (fun a => Prog.nowhere_done _)) h

/-- A request to the node server that does not get to its lock fails, or ends the process. -/
theorem serveLocking_eq_done {r : LockingRequest} (hr : mountJob d loc r = none)
    (htarget : r.target ≠ none) :
    ∃ out, serveLocking d r = .done out ∧ ∀ resp, out ≠ .ret resp := by
  cases r with
  | controllerPublishVolume req => exact absurd rfl htarget
  | controllerUnpublishVolume req => exact absurd rfl htarget
  | nodePublishVolume q =>
      rw [mountJob, ite_eq_right_iff] at hr
      rw [serveLocking, nodePublishVolume]
      cases hcap : q.volumeCapability with
      | none => exact ⟨_, rfl, by simp⟩
      | some volCap =>
          by_cases hid : q.volumeId = ""
          · exact ⟨.throw (invalidArgument "Volume ID missing in request"), by
              simp [Prog.require, hid], by simp⟩
          by_cases hpath : q.targetPath = ""
          · exact ⟨.throw (invalidArgument "Target path not provided"), by
              simp [Prog.require, hid, hpath], by simp⟩
          have hns : d.ns = none := by
            by_contra hns
            exact absurd (hr ⟨Option.isSome_iff_ne_none.mpr hns, by rw [hcap]; rfl, hid, hpath⟩)
              (by simp)
          exact ⟨.panic, by simp [Prog.require, hid, hpath, onNode, hns, Prog.panic], by simp⟩
  | nodeUnpublishVolume q =>
      rw [mountJob, ite_eq_right_iff] at hr
      rw [serveLocking, nodeUnpublishVolume]
      by_cases hid : q.volumeId = ""
      · exact ⟨.throw (invalidArgument "Volume ID missing in request"), by
          simp [Prog.require, hid], by simp⟩
      by_cases hpath : q.targetPath = ""
      · exact ⟨.throw (invalidArgument "Target path missing in request"), by
          simp [Prog.require, hid, hpath], by simp⟩
      have hns : d.ns = none := by
        by_contra hns
        exact absurd (hr ⟨Option.isSome_iff_ne_none.mpr hns, hid, hpath⟩) (by simp)
      exact ⟨.panic, by simp [Prog.require, hid, hpath, onNode, hns, Prog.panic], by simp⟩

/-- A call without a job does nothing to the mounts. -/
theorem nowhere_serveLocking {r : LockingRequest} (hr : mountJob d loc r = none) {o : SysOp}
    (h : (serveLocking d r).Performs (.base o)) : mountPlace loc o = none := by
  have hpure : ∀ {β : Type} {g : β → LockingResponse} {p : Rpc β},
      (p >>= fun a => pure (g a)).Performs (.base o) → p.Performs (.base o) := by
    intro β g p hp
    rcases Prog.performs_bind.mp hp with hp | ⟨_, -, hp⟩
    · exact hp
    · exact absurd hp Prog.performs_done
  by_cases htarget : r.target = none
  · cases r with
    | controllerPublishVolume req => exact nowhere_controllerPublishVolume (hpure h)
    | controllerUnpublishVolume req => exact nowhere_controllerUnpublishVolume (hpure h)
    | nodePublishVolume q => cases htarget
    | nodeUnpublishVolume q => cases htarget
  · obtain ⟨out, hdone, -⟩ := serveLocking_eq_done hr htarget
    rw [hdone] at h
    exact absurd h Prog.performs_done

theorem leaves_serveLocking {r : LockingRequest} (hr : mountJob d loc r = none) :
    (serveLocking d r).Leaves (fun out => ∀ v, Succeeds r out v) := by
  by_cases htarget : r.target = none
  · cases r with
    | controllerPublishVolume req => exact Prog.leaves_of_forall (fun _ _ _ _ => trivial) _
    | controllerUnpublishVolume req => exact Prog.leaves_of_forall (fun _ _ _ _ => trivial) _
    | nodePublishVolume q => cases htarget
    | nodeUnpublishVolume q => cases htarget
  · obtain ⟨out, hdone, hfails⟩ := serveLocking_eq_done hr htarget
    rw [hdone]
    exact fun v resp hresp => absurd hresp (hfails resp)

theorem mountJob_target {r : LockingRequest} {key : String} (h : mountJob d loc r = some (x, key)) :
    ∃ t, r.target = some t ∧ loc t.2 = x ∧ lockKey t.1 t.2 = key := by
  cases r with
  | controllerPublishVolume req => cases h
  | controllerUnpublishVolume req => cases h
  | nodePublishVolume q =>
      simp only [mountJob] at h
      split at h
      · cases h; exact ⟨_, rfl, rfl, rfl⟩
      · cases h
  | nodeUnpublishVolume q =>
      simp only [mountJob] at h
      split at h
      · cases h; exact ⟨_, rfl, rfl, rfl⟩
      · cases h

/-- **The handlers keep the discipline** that the rule for all interleavings asks for. -/
theorem discipline_serveLocking (hkey : OneKey loc rs) :
    Discipline (mountPlace loc) mountKernel (serveLocking d) (mountJob d loc) (AskedFor d loc rs)
      Succeeds (· ∈ rs) where
  opening r := (opening_serveLocking d r).weaken
  nowhere r hr o ho := nowhere_serveLocking hr ho
  leaves r hr := leaves_serveLocking hr
  under := by
    intro r x key hr hjob
    cases r with
    | controllerPublishVolume req => cases hjob
    | controllerUnpublishVolume req => cases hjob
    | nodePublishVolume q =>
        simp only [mountJob] at hjob
        split at hjob
        · rename_i hvalid
          obtain ⟨hns, hcap, hid, htarget⟩ := hvalid
          obtain ⟨ns, hns⟩ := Option.isSome_iff_exists.mp hns
          obtain ⟨volCap, hcap⟩ := Option.isSome_iff_exists.mp hcap
          cases hjob
          refine ⟨_, _, serveLocking_publish hns hcap hid htarget, fun v hv => ?_⟩
          exact safe_respond (fun _ hne _ _ => hne) (safe_publishTarget hr hcap rfl hv)
        · cases hjob
    | nodeUnpublishVolume q =>
        simp only [mountJob] at hjob
        split at hjob
        · rename_i hvalid
          obtain ⟨hns, hid, htarget⟩ := hvalid
          obtain ⟨ns, hns⟩ := Option.isSome_iff_exists.mp hns
          cases hjob
          refine ⟨_, _, serveLocking_unpublish hns hid htarget, fun v hv => ?_⟩
          exact safe_respond (fun _ hnil _ _ => hnil) (safe_unpublishTarget ns rfl hv)
        · cases hjob
  one_key := by
    intro r r' x key key' hr hr' hjob hjob'
    obtain ⟨t, ht, hx, hk⟩ := mountJob_target hjob
    obtain ⟨t', ht', hx', hk'⟩ := mountJob_target hjob'
    rw [← hk, ← hk']
    exact hkey r hr r' hr' t t' ht ht' (hx.trans hx'.symm)

/-- **Mounted once.** When all requests for a mount point lock one key and every look at one that
answers is right, then in every state of every interleaving a mount point carries no mount, or
exactly one, and that one a request of the run for this mount point has asked for. -/
theorem mounted_once {s : NodeState P} {ts : List (Turn LockingRequest)}
    (hpath : Path (NodeNext d loc) bareState ts s) (hkey : OneKey loc (requests ts)) (x : P) :
    AskedFor d loc (requests ts) x (s.2 x) := by
  have hgood := Pool.good_of_path (discipline_serveLocking hkey) (fun _ => Or.inl rfl) hpath
    (fun _ hr => hr)
  exact hgood.kept x

/-- A kernel on which mounting works, unless the source is mounted already. -/
def calmKernel (w : String → List MountEntry) : (o : SysOp) → o.Answer × (String → List MountEntry)
  | .isLikelyNotMountPoint path => (.ok (w path).isEmpty, w)
  | .mount source target fstype options =>
      if (w target).head?.all (fun top => top.source ≠ source) then
        (.ok (), Function.update w target (⟨source, fstype, options⟩ :: w target))
      else (.error { text := "mount: device or resource busy" }, w)
  | .cleanupMountPoint path _ => (.ok (), Function.update w path [])
  | o => (o.refused, w)

theorem calmKernel_spec (w : String → List MountEntry) (o : SysOp) :
    mountWorld id w o (calmKernel w o).1 (calmKernel w o).2 := by
  cases o with
  | isLikelyNotMountPoint path => exact ⟨⟨rfl, rfl⟩, fun _ _ => rfl⟩
  | mount source target fstype options =>
      simp only [calmKernel]
      split
      · rename_i hfree
        refine ⟨⟨Function.update_self _ _ _, ?_⟩, fun y hy => Function.update_of_ne hy _ _⟩
        exact fun top htop => of_decide_eq_true ((Option.all_eq_true _ _).mp hfree top htop)
      · exact ⟨Or.inl rfl, fun _ _ => rfl⟩
  | cleanupMountPoint path force =>
      exact ⟨Function.update_self _ _ _, fun y hy => Function.update_of_ne hy _ _⟩
  | _ => exact rfl

/-- The answer to a call that finds the lock taken. -/
def turnedAway (volumeId : String) : Outcome RpcError LockingResponse :=
  .throw ⟨.aborted, volumeOperationAlreadyExists volumeId⟩

/-- Two calls publish one volume at `/t` and a third unpublishes it. The first takes the lock and
mounts the share, the second is turned away, and the third has not come to its lock yet. -/
def contendingTurns : List (Turn LockingRequest) :=
  [.start (.nodePublishVolume (flagRequest "ro")), .start (.nodePublishVolume (flagRequest "rw")),
    .start (.nodeUnpublishVolume ⟨"v", "/t"⟩), .act 0, .act 1, .act 0, .act 0, .act 0, .act 0]

theorem oneKey_of_forall (key : String)
    (h : ∀ r ∈ rs, ∀ t, r.target = some t → lockKey t.1 t.2 = key) : OneKey loc rs :=
  fun r hr r' hr' t t' ht ht' _ => (h r hr t ht).trans (h r' hr' t' ht').symm

/-- While the first call holds the lock, the mount is its own. -/
theorem mounted_once_contendingTurns :
    ∃ s, Path (NodeNext (nodeDriver 0) id) bareState contendingTurns s ∧
      s.1.calls.map Call.outcome = [none, some (turnedAway "v"), none] ∧
      s.2 "/t" = [⟨"10.0.0.1:/s", "nfs", ["ro"]⟩] ∧
      ∀ x, AskedFor (nodeDriver 0) id (requests contendingTurns) x (s.2 x) := by
  obtain ⟨s, hpath, hp⟩ := Pool.exists_path calmKernel_spec (serveLocking (nodeDriver 0)) bareState
    contendingTurns
    (fun s => decide (s.1.calls.map Call.outcome = [none, some (turnedAway "v"), none])
      && decide (s.2 "/t" = [⟨"10.0.0.1:/s", "nfs", ["ro"]⟩])) (by decide)
  simp only [Bool.and_eq_true, decide_eq_true_eq] at hp
  have hkey : OneKey id (requests contendingTurns) := oneKey_of_forall "v-/t" (by decide)
  exact ⟨s, hpath, hp.1, hp.2, mounted_once hpath hkey⟩

/-- **Answers hold.** When all requests for a mount point lock one key and every look at one that
answers is right, then a call that returns success leaves its target mounted (`NodePublishVolume`)
or not mounted (`NodeUnpublishVolume`) at that moment, whatever the other calls have done
meanwhile. -/
theorem answers_hold {s s' : NodeState P} {ts : List (Turn LockingRequest)} {i : ℕ}
    {r : LockingRequest} {t : String × String} {c : Locks.Call String sys RpcError LockingResponse}
    {resp : LockingResponse} (hpath : Path (NodeNext d loc) bareState ts s)
    (hkey : OneKey loc (requests ts)) (hr : (requests ts)[i]? = some r) (ht : r.target = some t)
    (hnext : NodeNext d loc s (.act i) s') (hc : s'.1.calls[i]? = some c)
    (hret : c.rest = .done (.ret resp)) : Succeeds r (.ret resp) (s'.2 (loc t.2)) := by
  have hd := discipline_serveLocking (d := d) hkey
  have hgood := Pool.good_of_path hd (fun _ => Or.inl rfl) hpath (fun _ hr => hr)
  rcases hgood.returns hd hnext hr hc hret with ⟨e, he, -⟩ | ⟨x, key, hjob, hpost⟩ | hpost
  · cases he
  · obtain ⟨t', ht', hx, -⟩ := mountJob_target hjob
    rw [ht] at ht'
    obtain rfl := Option.some.inj ht'
    rw [hx]
    exact hpost
  · exact hpost _

/-- The first call has returned, the third one has cleaned up under the lock, and a fourth one,
which publishes the volume again, was turned away. -/
def cleaningTurns : List (Turn LockingRequest) :=
  contendingTurns ++
    [.act 0, .start (.nodePublishVolume (flagRequest "ro")), .act 2, .act 3, .act 2]

/-- A step in which a call returns success, in the middle of others. -/
theorem exists_return (ts : List (Turn LockingRequest)) (i : ℕ) (p : NodeState String → Bool)
    (h : (Pool.play calmKernel (serveLocking (nodeDriver 0)) bareState (ts ++ [.act i])).any
      (fun s => decide (s.1.calls[i]?.bind Call.outcome = some (.ret .done)) && p s) = true) :
    ∃ s s' c, Path (NodeNext (nodeDriver 0) id) bareState ts s ∧
      NodeNext (nodeDriver 0) id s (.act i) s' ∧ s'.1.calls[i]? = some c ∧
      c.rest = .done (.ret .done) ∧ p s' = true := by
  obtain ⟨s', hpath, hp⟩ := Pool.exists_path calmKernel_spec _ _ _ _ h
  obtain ⟨s, hpath, hnext⟩ := hpath.snoc_inv
  obtain ⟨hret, hp⟩ := Bool.and_eq_true_iff.mp hp
  obtain ⟨c, hc, hout⟩ := Option.bind_eq_some_iff.mp (of_decide_eq_true hret)
  exact ⟨s, s', c, hpath, hnext, hc, Call.rest_of_outcome hout, hp⟩

/-- The publish returns while the unpublish is in flight, and the unpublish after another publish
was turned away. -/
theorem answers_hold_cleaningTurns :
    (∃ s s', Path (NodeNext (nodeDriver 0) id) bareState contendingTurns s ∧
      NodeNext (nodeDriver 0) id s (.act 0) s' ∧
      s'.1.calls.map (fun c => c.outcome.isSome) = [true, true, false] ∧
      Succeeds (.nodePublishVolume (flagRequest "ro")) (.ret .done) (s'.2 "/t")) ∧
    ∃ s s', Path (NodeNext (nodeDriver 0) id) bareState cleaningTurns s ∧
      NodeNext (nodeDriver 0) id s (.act 2) s' ∧
      s'.1.calls[3]?.bind Call.outcome = some (turnedAway "v") ∧
      Succeeds (.nodeUnpublishVolume ⟨"v", "/t"⟩) (.ret .done) (s'.2 "/t") := by
  have hpublish : OneKey id (requests contendingTurns) := oneKey_of_forall "v-/t" (by decide)
  have hunpublish : OneKey id (requests cleaningTurns) := oneKey_of_forall "v-/t" (by decide)
  constructor
  · obtain ⟨s, s', c, hpath, hnext, hc, hret, hp⟩ := exists_return contendingTurns 0
      (fun s => decide (s.1.calls.map (fun c => c.outcome.isSome) = [true, true, false]))
      (by decide)
    exact ⟨s, s', hpath, hnext, of_decide_eq_true hp,
      answers_hold hpath hpublish rfl rfl hnext hc hret⟩
  · obtain ⟨s, s', c, hpath, hnext, hc, hret, hp⟩ := exists_return cleaningTurns 2
      (fun s => decide (s.1.calls[3]?.bind Call.outcome = some (turnedAway "v"))) (by decide)
    exact ⟨s, s', hpath, hnext, of_decide_eq_true hp,
      answers_hold hpath hunpublish rfl rfl hnext hc hret⟩

/-! ## Two keys for one mount point -/

variable (loc) in
theorem steps_look {q : NodePublishVolumeRequest} {volCap : VolumeCapability} {σ ρ : MapOrder}
    {m : MountSpec} {w : P → List MountEntry} (hm : mountSpec d σ ρ volCap q = .ok m)
    (hw : w (loc q.targetPath) = []) :
    Prog.Steps (mountWorld loc) (publishTarget d volCap q >>= fun _ => pure LockingResponse.done) w
      (mountTarget q.targetPath m >>= fun _ => pure LockingResponse.done) w := by
  have hlook : mountWorld loc w (.isLikelyNotMountPoint q.targetPath) (.ok true) w :=
    ⟨⟨rfl, by rw [hw]; rfl⟩, fun _ _ => rfl⟩
  refine .call (a := σ) rfl (.call (a := ρ) rfl ?_)
  show Prog.Steps _ ((Prog.ofExcept id (mountSpec d σ ρ volCap q) >>= _) >>= _) _ _ _
  rw [hm]
  exact .call hlook .refl

/-- The next operation of call `i` is the mount of `m` at `target`. -/
def NextMounts (s : NodeState P) (i : ℕ) (target : String) (m : MountSpec) : Prop :=
  ∃ acquired next, s.1.calls[i]? = some ⟨acquired, .call (S := locked String sys)
    (.base (.mount m.source target "nfs" (collectMountOptions m.mountOptions))) next⟩

/-- **Both mount.** Two requests for one mount point that lock different keys, as those for two
volumes or for two spellings of the path do, can both find it free and go on to mount it; and the
second one goes on also when the first one has mounted it. What comes of the second mount is up to
the kernel. -/
theorem both_reach_mount {q₁ q₂ : NodePublishVolumeRequest} {m₁ m₂ : MountSpec}
    (h₁ : GetsToMount d q₁ m₁) (h₂ : GetsToMount d q₂ m₂)
    (hx : loc q₁.targetPath = loc q₂.targetPath)
    (hkey : lockKey q₁.volumeId q₁.targetPath ≠ lockKey q₂.volumeId q₂.targetPath) :
    ∃ ts s s', Path (NodeNext d loc) bareState ts s ∧
      requests ts = [.nodePublishVolume q₁, .nodePublishVolume q₂] ∧
      s.2 (loc q₁.targetPath) = [] ∧ NextMounts s 0 q₁.targetPath m₁ ∧
      NextMounts s 1 q₂.targetPath m₂ ∧
      NodeNext d loc s (.act 0) s' ∧ s'.2 (loc q₂.targetPath) = [m₁.entry] ∧
      NextMounts s' 1 q₂.targetPath m₂ := by
  classical
  obtain ⟨hns, hid₁, htarget₁, volCap₁, σ₁, ρ₁, hcap₁, hm₁⟩ := h₁
  obtain ⟨-, hid₂, htarget₂, volCap₂, σ₂, ρ₂, hcap₂, hm₂⟩ := h₂
  obtain ⟨ns, hns⟩ := Option.ne_none_iff_exists'.mp hns
  have hcode₁ := serveLocking_publish hns hcap₁ hid₁ htarget₁
  have hcode₂ := serveLocking_publish hns hcap₂ hid₂ htarget₂
  have hnp : ∀ volCap q, (publishTarget d volCap q >>= fun _ =>
      pure LockingResponse.done).NeverPanics := fun volCap q =>
    (neverPanics_publishTarget volCap q).bind (fun _ => Prog.neverPanics_pure _)
  have hnp₁ := hnp volCap₁ q₁
  have hnp₂ := hnp volCap₂ q₂
  -- both calls take their keys
  have hone : Path (NodeNext d loc) bareState _ _ :=
    Pool.path_enter Path.nil hcode₁ hnp₁ (Finset.notMem_empty _)
  have hboth := Pool.path_enter hone hcode₂ hnp₂ (by simpa using hkey.symm)
  -- both look before the first one mounts
  have hlook₁ := steps_look loc (w := fun _ => []) hm₁ rfl
  have hlook₂ := steps_look loc (w := fun _ => []) hm₂ rfl
  obtain ⟨k₁, hpath₁⟩ := Pool.path_steps hlook₁ hnp₁ hboth (i := 0) rfl
  obtain ⟨k₂, hpath₂⟩ := Pool.path_steps hlook₂ hnp₂ hpath₁ (i := 1) rfl
  have hmount : mountWorld loc (fun _ => [])
      (.mount m₁.source q₁.targetPath "nfs" (collectMountOptions m₁.mountOptions)) (.ok ())
      (Function.update (fun _ => []) (loc q₁.targetPath) [m₁.entry]) :=
    ⟨⟨Function.update_self _ _ _, by simp⟩, fun y hy => Function.update_of_ne hy _ _⟩
  have hrest : (mountTarget q₁.targetPath m₁ >>= fun _ =>
      pure LockingResponse.done).NeverPanics := hlook₁.neverPanics hnp₁
  refine ⟨_, _, _, hpath₂, ?_, rfl, ⟨_, _, rfl⟩, ⟨_, _, rfl⟩,
    .act (i := 0) rfl (.base hmount) (panicked_underKey (hrest (.ok ()))), ?_, ⟨_, _, rfl⟩⟩
  · simp only [requests_replicate_act]
    rfl
  · rw [← hx]
    exact Function.update_self (loc q₁.targetPath) [m₁.entry] (fun _ => [])

/-- One volume under two spellings of its target. -/
theorem both_reach_mount_slash :
    ∃ ts s s', Path (NodeNext (nodeDriver 0) (GoString.trimRight '/')) bareState ts s ∧
      requests ts = [.nodePublishVolume (flagRequest "ro"),
        .nodePublishVolume { flagRequest "ro" with targetPath := "/t/" }] ∧
      s.2 "/t" = [] ∧ NextMounts s 0 "/t" ⟨"10.0.0.1:/s", ["ro"], 0⟩ ∧
      NextMounts s 1 "/t/" ⟨"10.0.0.1:/s", ["ro"], 0⟩ ∧
      NodeNext (nodeDriver 0) (GoString.trimRight '/') s (.act 0) s' ∧
      s'.2 "/t" = [⟨"10.0.0.1:/s", "nfs", ["ro"]⟩] ∧
      NextMounts s' 1 "/t/" ⟨"10.0.0.1:/s", ["ro"], 0⟩ := by
  have hgets : ∀ target, target ≠ "" → GetsToMount (nodeDriver 0)
      { flagRequest "ro" with targetPath := target } ⟨"10.0.0.1:/s", ["ro"], 0⟩ :=
      fun target htarget =>
    ⟨nofun, show "v" ≠ "" by decide, htarget, _, .asWritten, .asWritten, rfl, rfl⟩
  exact both_reach_mount (hgets "/t" (by decide)) (hgets "/t/" (by decide)) (by decide) (by decide)

end

end

end NfsLbCsi
