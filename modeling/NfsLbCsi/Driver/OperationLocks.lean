import NfsLbCsi.Basic.Pool
import NfsLbCsi.ControllerServer.Service

set_option autoImplicit false

/-! # Operation locks

The four RPCs that lock run at the same time on one `Driver.volumeLocks`. The set does not know who
holds a key, and `Release` takes out whatever it is told to; the keys of the controller's and the
node's calls are built in different ways and can coincide. It works because each handler takes one
key at most, gives it back as its last step, and ends without giving anything back when the key is
taken: the handlers are `Opening`, and the rest is a fact about pools of such programs.
-/

namespace NfsLbCsi

open Tally Locks Lts

/-! ## The handlers that lock -/

inductive LockingRequest where
  | controllerPublishVolume (req : ControllerPublishVolumeRequest)
  | controllerUnpublishVolume (req : ControllerUnpublishVolumeRequest)
  | nodePublishVolume (req : NodePublishVolumeRequest)
  | nodeUnpublishVolume (req : NodeUnpublishVolumeRequest)

inductive LockingResponse where
  | published (publishContext : Table String String)
  | done
  deriving DecidableEq

/-- The handlers. -/
def serveLocking (d : Driver) : LockingRequest → Rpc LockingResponse
  | .controllerPublishVolume req =>
      Service.controllerPublishVolume d req >>= fun publishContext =>
        pure (.published publishContext)
  | .controllerUnpublishVolume req =>
      Service.controllerUnpublishVolume d req >>= fun _ => pure .done
  | .nodePublishVolume req => nodePublishVolume d req >>= fun _ => pure .done
  | .nodeUnpublishVolume req => nodeUnpublishVolume d req >>= fun _ => pure .done

/-- The calls in flight and the lock set. -/
abbrev LockPool := Pool String sys RpcError LockingResponse

/-- One step of any of the calls. -/
def lockStep (d : Driver) : LockPool → PoolEvent LockingRequest sys → Option (LockPool × Unit) :=
  Pool.step (serveLocking d)

/-- The call has been answered `Aborted`. -/
def Aborted (c : Locks.Call String sys RpcError LockingResponse) : Prop :=
  ∃ message, c.rest = .done (.throw ⟨.aborted, message⟩)

/-! ## Only a taken key is answered `Aborted` -/

/-- Not the answer to a call that finds its key taken. -/
def Unaborted {α : Type} (out : Outcome RpcError α) : Prop :=
  ∀ e, out = .throw e → e.code ≠ .aborted

section

variable {α : Type} {d : Driver}

theorem unaborted_ret (a : α) : Unaborted (.ret a) := by
  intro e he
  cases he

theorem unaborted_panic : Unaborted (.panic : Outcome RpcError α) := by
  intro e he
  cases he

theorem unaborted_throw {e : RpcError} :
    Unaborted (.throw e : Outcome RpcError α) ↔ e.code ≠ .aborted := by
  constructor
  · exact fun h => h e rfl
  · intro h e' he'
    cases he'
    exact h

theorem unaborted_mapError {ε : Type} {f : ε → RpcError} (h : ∀ e, (f e).code ≠ .aborted)
    (out : Outcome ε α) : Unaborted (out.mapError f) := by
  cases out with
  | ret a => exact unaborted_ret a
  | throw e => exact unaborted_throw.mpr (h e)
  | panic => exact unaborted_panic

theorem internal_ne_aborted (message : String) : (internal message).code ≠ .aborted := by
  intro h
  cases h

theorem invalidArgument_ne_aborted (message : String) :
    (invalidArgument message).code ≠ .aborted := by
  intro h
  cases h

theorem mountError_ne_aborted (err : OSError) : (mountError err).code ≠ .aborted := by
  unfold mountError
  split
  · exact Code.noConfusion
  · split
    · exact Code.noConfusion
    · exact Code.noConfusion

theorem read_ne_aborted {p : PublishParams} {x : String × String} {e : RpcError}
    (h : p.read x = .error e) : e.code ≠ .aborted := by
  unfold PublishParams.read at h
  split at h
  case h_8 =>
    split at h
    · cases h
    · split at h
      · cases h
      · cases h
        exact invalidArgument_ne_aborted _
  all_goals cases h

theorem foldlM_read_ne_aborted {l : List (String × String)} {p : PublishParams} {e : RpcError}
    (h : l.foldlM PublishParams.read p = .error e) : e.code ≠ .aborted := by
  induction l generalizing p with
  | nil => cases h
  | cons x l ih =>
      rw [List.foldlM_cons] at h
      cases hx : p.read x with
      | error e' =>
          rw [hx] at h
          cases h
          exact read_ne_aborted hx
      | ok p' =>
          rw [hx] at h
          exact ih h

theorem mountSpec_ne_aborted {σ ρ : MapOrder} {volCap : VolumeCapability}
    {req : NodePublishVolumeRequest} {e : RpcError} (h : mountSpec d σ ρ volCap req = .error e) :
    e.code ≠ .aborted := by
  unfold mountSpec at h
  split at h
  · rename_i e' hread
    cases h
    exact foldlM_read_ne_aborted hread
  · split at h
    · cases h
      exact invalidArgument_ne_aborted _
    · split at h
      · cases h
        exact invalidArgument_ne_aborted _
      · cases h

/-! ## The handlers take one key and give it back -/

theorem leaves_unaborted_bind {β : Type} {p : Sys RpcError α} {f : α → Sys RpcError β}
    (hp : p.Leaves Unaborted) (hf : ∀ a, (f a).Leaves Unaborted) : (p >>= f).Leaves Unaborted :=
  hp.bind (fun a _ => hf a) (fun _ h => unaborted_throw.mpr (unaborted_throw.mp h))
    (fun _ => unaborted_panic)

theorem leaves_mapError_internal (p : Sys String α) :
    (p.mapError internal).Leaves Unaborted :=
  Prog.leaves_mapError (Prog.leaves_of_forall (unaborted_mapError internal_ne_aborted) p)

theorem leaves_setPermissions (targetPath : String) (mountPermissions : ℕ) :
    (setPermissions targetPath mountPermissions).Leaves Unaborted := by
  unfold setPermissions
  split
  · exact leaves_mapError_internal _
  · exact unaborted_ret ()

theorem leaves_setReadAhead (targetPath : String) (mountOptions : List String) :
    (setReadAhead targetPath mountOptions).Leaves Unaborted := by
  unfold setReadAhead
  cases extractReadAheadKBMountFlag mountOptions with
  | error message => exact unaborted_throw.mpr (invalidArgument_ne_aborted message)
  | ok flag =>
      cases flag with
      | none => exact unaborted_ret ()
      | some readAheadKB => exact leaves_mapError_internal _

theorem leaves_mountTarget (targetPath : String) (m : MountSpec) :
    (mountTarget targetPath m).Leaves Unaborted := by
  intro (r : Except OSError Unit)
  cases r with
  | error err => exact unaborted_throw.mpr (mountError_ne_aborted err)
  | ok u =>
      show Prog.Leaves Unaborted (setPermissions targetPath m.mountPermissions >>= fun _ =>
        setReadAhead targetPath m.mountOptions)
      exact leaves_unaborted_bind (leaves_setPermissions targetPath m.mountPermissions)
        (fun _ => leaves_setReadAhead targetPath m.mountOptions)

theorem leaves_checkTarget (targetPath : String) (mountPermissions : ℕ) :
    (checkTarget targetPath mountPermissions).Leaves Unaborted := by
  intro (r : Except OSError Bool)
  cases r with
  | ok notMnt => exact unaborted_ret notMnt
  | error err =>
      show Prog.Leaves Unaborted (if err.notExist then _ else _)
      split
      · intro (r : Except OSError Unit)
        cases r with
        | ok u => exact unaborted_ret true
        | error err => exact unaborted_throw.mpr (internal_ne_aborted err.text)
      · exact unaborted_throw.mpr (internal_ne_aborted err.text)

theorem leaves_publishTarget (volCap : VolumeCapability) (req : NodePublishVolumeRequest) :
    (publishTarget d volCap req).Leaves Unaborted := by
  intro (σ : MapOrder) (ρ : MapOrder)
  show Prog.Leaves Unaborted (Prog.ofExcept id (mountSpec d σ ρ volCap req) >>= _)
  cases hspec : mountSpec d σ ρ volCap req with
  | error e => exact unaborted_throw.mpr (mountSpec_ne_aborted hspec)
  | ok m =>
      show Prog.Leaves Unaborted (checkTarget req.targetPath m.mountPermissions >>= fun notMnt =>
        if notMnt then mountTarget req.targetPath m else pure ())
      refine leaves_unaborted_bind (leaves_checkTarget req.targetPath m.mountPermissions)
        (fun notMnt => ?_)
      cases notMnt with
      | true => exact leaves_mountTarget req.targetPath m
      | false => exact unaborted_ret ()

theorem leaves_lbResult (failed : String) (a : Outcome String α) :
    (lbResult failed a).Leaves Unaborted :=
  unaborted_mapError (fun _ => internal_ne_aborted _) a

theorem opening_onPair {nodeID volumeID : String} {call : Sys RpcError α}
    (h : call.Leaves Unaborted) : Opening Unaborted (onPair d nodeID volumeID call) := by
  refine opening_withLock ?_
  split
  · exact unaborted_panic
  · exact h

theorem opening_onNode {volumeID targetPath : String} {body : NodeServer → Sys RpcError Unit}
    (h : ∀ ns, (body ns).Leaves Unaborted) :
    Opening Unaborted (onNode d volumeID targetPath body) := by
  unfold onNode
  split
  · trivial
  · exact opening_withLock (h _)

theorem opening_controllerPublishVolume (req : ControllerPublishVolumeRequest) :
    Opening Unaborted (Service.controllerPublishVolume d req) := by
  refine opening_require_bind (opening_require_bind (opening_require_bind (opening_onPair ?_)))
  intro (a : Outcome String String)
  show Prog.Leaves Unaborted (lbResult _ a >>= fun ip => pure (assignedContext ip))
  exact leaves_unaborted_bind (leaves_lbResult _ a) (fun ip => unaborted_ret (assignedContext ip))

theorem opening_controllerUnpublishVolume (req : ControllerUnpublishVolumeRequest) :
    Opening Unaborted (Service.controllerUnpublishVolume d req) := by
  refine opening_require_bind (opening_require_bind (opening_onPair ?_))
  intro (a : Outcome String Unit)
  exact leaves_lbResult _ a

theorem opening_nodePublishVolume (req : NodePublishVolumeRequest) :
    Opening Unaborted (nodePublishVolume d req) := by
  unfold nodePublishVolume
  split
  · trivial
  · exact opening_require_bind (opening_require_bind
      (opening_onNode (fun _ => leaves_publishTarget _ req)))

theorem opening_nodeUnpublishVolume (req : NodeUnpublishVolumeRequest) :
    Opening Unaborted (nodeUnpublishVolume d req) := by
  refine opening_require_bind (opening_require_bind (opening_onNode (fun ns => ?_)))
  intro (r : Except OSError Unit)
  cases r with
  | ok u => exact unaborted_ret u
  | error err => exact unaborted_throw.mpr (internal_ne_aborted _)

/-- **Every handler** takes one key at most and gives it back last, and only a call that finds its
key taken is answered `Aborted`. -/
theorem opening_serveLocking (d : Driver) (req : LockingRequest) :
    Opening Unaborted (serveLocking d req) := by
  have hmap : ∀ {β : Type} {g : β → LockingResponse} {p : Rpc β}, Opening Unaborted p →
      Opening Unaborted (p >>= fun a => pure (g a)) := fun h =>
    h.map (fun _ _ => unaborted_ret _) (fun _ he => unaborted_throw.mpr (unaborted_throw.mp he))
      (fun _ => unaborted_panic)
  cases req with
  | controllerPublishVolume req => exact hmap (opening_controllerPublishVolume req)
  | controllerUnpublishVolume req => exact hmap (opening_controllerUnpublishVolume req)
  | nodePublishVolume req => exact hmap (opening_nodePublishVolume req)
  | nodeUnpublishVolume req => exact hmap (opening_nodeUnpublishVolume req)

end

/-! ## The lock set over whole runs -/

/-- **Operation locks.** In every state of every run the lock set is the set of the keys of the
calls that have acquired one and not yet returned, each held by one call. Only the call that holds a
key takes it out, a call that has been answered `Aborted` has not changed the set in any of its
steps, and when no call is in flight the set is empty. -/
theorem locks_are_held_keys {d : Driver}
    {tr : List (Transition LockPool (PoolEvent LockingRequest sys) Unit)} {s : LockPool}
    (hrun : Run (lockStep d) ⟨∅, []⟩ tr s) :
    (∀ key, key ∈ s.locks ↔ ∃ i, s.Holds i key) ∧
    (∀ i j key, s.Holds i key → s.Holds j key → i = j) ∧
    (∀ t ∈ tr, ∀ i reply, t.event = .act i reply →
      ∀ key ∈ t.pre.locks, key ∉ t.post.locks → t.pre.Holds i key) ∧
    (∀ i c, s.calls[i]? = some c → Aborted c →
      ∀ t ∈ tr, ∀ reply, t.event = .act i reply → t.post.locks = t.pre.locks) ∧
    ((∀ c ∈ s.calls, ¬c.InFlight) → s.locks = ∅) := by
  have hsound : s.Sound Unaborted := Pool.sound_of_run (opening_serveLocking d) hrun
  refine ⟨hsound.held, hsound.exclusive, ?_, ?_, ?_⟩
  · intro t ht i reply he key hkey hgone
    obtain ⟨tr₁, tr₂, -, hrun₁, hstep, -⟩ := hrun.reached ht
    have hpre : t.pre.Sound Unaborted := Pool.sound_of_run (opening_serveLocking d) hrun₁
    rw [he] at hstep
    exact (Pool.step_cases hstep).removed hpre hkey hgone
  · rintro i c hc ⟨message, hdone⟩ t ht reply he
    -- it cannot have acquired its key, for then its answer would be another one
    have hnil : c.acquired = [] := (hsound.disciplined i c hc).acquired_eq_nil hdone (by simp)
      (fun h => unaborted_throw.mp h rfl)
    exact Pool.locks_eq_of_run (opening_serveLocking d) hrun hc hnil ht he
  · intro hidle
    refine Finset.eq_empty_iff_forall_notMem.mpr (fun key hkey => ?_)
    obtain ⟨i, c, hc, hflight, -⟩ := (hsound.held key).mp hkey
    exact hidle c (List.mem_of_getElem? hc) hflight

/-- A controller call for node `n` and volume `x-t` and a node call for volume `n/x` at `t`: both
lock `n/x-t`, and the second one comes while the first one holds it. -/
def clash : List (PoolEvent LockingRequest sys) :=
  [.start (.controllerPublishVolume ⟨"x-t", "n", some {}⟩),
    .start (.nodeUnpublishVolume ⟨"n/x", "t"⟩), .act 0 SysOp.refused, .act 1 SysOp.refused]

theorem locks_are_held_keys_clash :
    ∃ tr s, Run (lockStep fullDriver) ⟨∅, []⟩ tr s ∧ (∃ c, s.calls[1]? = some c ∧ Aborted c) ∧
      s.locks = {"n/x-t"} ∧ ∃ i, s.Holds i "n/x-t" := by
  have hexec : exec (lockStep fullDriver) ⟨∅, []⟩ clash = some (_, _) := rfl
  have hrun := exec_run hexec
  have hlocks := locks_are_held_keys hrun
  exact ⟨_, _, hrun, ⟨_, rfl, _, rfl⟩, by decide, (hlocks.1 "n/x-t").mp (by decide)⟩

end NfsLbCsi
