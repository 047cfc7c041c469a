import NfsLbCsi.ControllerServer.Provisioning

set_option autoImplicit false

/-! # The controller service

All RPCs of `ControllerServer` as programs, and `serve`, which answers any of them.
`ControllerPublishVolume` and `ControllerUnpublishVolume` have been modelled before as functions of
the server's state (`controllerPublishVolume`, `controllerUnpublishVolume`); run against an LB
controller, the programs do the same (`exec_controllerPublishVolume`,
`exec_controllerUnpublishVolume`).
-/

namespace NfsLbCsi

open Tally Locks

/-! ## Publish and unpublish -/

/-- The result of a call of the LB controller. -/
def lbResult {α : Type} (failed : String) (a : Outcome String α) : Sys RpcError α :=
  .done (a.mapError (fun err => internal (failed ++ ": " ++ err)))

/-- Call the LB controller under the lock of the pair. The use of a `nil` controller panics. -/
def onPair {α : Type} (d : Driver) (nodeID volumeID : String) (call : Sys RpcError α) : Rpc α :=
  withLock (lockingVolumeID nodeID volumeID)
    ⟨.aborted, volumeOperationAlreadyExists (lockingVolumeID nodeID volumeID)⟩
    (if d.lbController = none then Prog.panic else call)

def Service.controllerPublishVolume (d : Driver) (req : ControllerPublishVolumeRequest) :
    Rpc (Table String String) := do
  Prog.require (req.volumeId ≠ "")
    (invalidArgument "ControllerPublishVolume Volume ID must be provided")
  Prog.require (req.nodeId ≠ "")
    (invalidArgument "ControllerPublishVolume Node ID must be provided")
  Prog.require (req.volumeCapability ≠ none)
    (invalidArgument "ControllerPublishVolume Volume capability must be provided")
  onPair d req.nodeId req.volumeId (do
    let a ← perform (.assignIPToNode req.nodeId req.volumeId)
    let ip ← lbResult ("failed to assign a NFS server IP to node " ++ req.nodeId) a
    pure (assignedContext ip))

def Service.controllerUnpublishVolume (d : Driver) (req : ControllerUnpublishVolumeRequest) :
    Rpc Unit := do
  Prog.require (req.volumeId ≠ "")
    (invalidArgument "ControllerUnpublishVolume Volume ID must be provided")
  Prog.require (req.nodeId ≠ "")
    (invalidArgument "ControllerUnpublishVolume Node ID must be provided")
  onPair d req.nodeId req.volumeId (do
    let a ← perform (.removeIPFromNode req.nodeId req.volumeId)
    lbResult ("failed to remove IP annotation from node " ++ req.nodeId) a)

/-! ## The other RPCs -/

structure ValidateVolumeCapabilitiesRequest where
  volumeId : String
  volumeCapabilities : List VolumeCapability

/-- `ValidateVolumeCapabilities`: the capabilities that are confirmed. -/
def validateVolumeCapabilities (req : ValidateVolumeCapabilitiesRequest) :
    Rpc (List VolumeCapability) := do
  Prog.require (req.volumeId ≠ "") (invalidArgument "Volume ID missing in request")
  Prog.ofExcept invalidArgument (isValidVolumeCapabilities req.volumeCapabilities)
  pure req.volumeCapabilities

/-- The RPCs that are not implemented. -/
def unimplemented {α : Type} (message : String) : Rpc α := Prog.fail ⟨.unimplemented, message⟩

inductive ControllerRequest where
  | createVolume (req : CreateVolumeRequest)
  | deleteVolume (req : DeleteVolumeRequest)
  | controllerPublishVolume (req : ControllerPublishVolumeRequest)
  | controllerUnpublishVolume (req : ControllerUnpublishVolumeRequest)
  | controllerGetVolume
  | validateVolumeCapabilities (req : ValidateVolumeCapabilitiesRequest)
  | listVolumes
  | getCapacity
  | controllerGetCapabilities
  | createSnapshot (req : CreateSnapshotRequest)
  | deleteSnapshot (req : DeleteSnapshotRequest)
  | listSnapshots
  | controllerExpandVolume
  | controllerModifyVolume

inductive ControllerResponse where
  | volume (resp : CreateVolumeResponse)
  | published (publishContext : Table String String)
  | confirmed (volumeCapabilities : List VolumeCapability)
  | capabilities (cscap : List ControllerCapability)
  | snapshot (resp : CreateSnapshotResponse)
  | done
  deriving DecidableEq

/-- Every RPC of the controller service. -/
def serve (d : Driver) : ControllerRequest → Rpc ControllerResponse
  | .createVolume req => createVolume d req >>= fun resp => pure (.volume resp)
  | .deleteVolume req => deleteVolume d req >>= fun _ => pure .done
  | .controllerPublishVolume req =>
      Service.controllerPublishVolume d req >>= fun publishContext =>
        pure (.published publishContext)
  | .controllerUnpublishVolume req =>
      Service.controllerUnpublishVolume d req >>= fun _ => pure .done
  | .controllerGetVolume => unimplemented ""
  | .validateVolumeCapabilities req =>
      validateVolumeCapabilities req >>= fun volCaps => pure (.confirmed volCaps)
  | .listVolumes => unimplemented ""
  | .getCapacity => unimplemented ""
  | .controllerGetCapabilities => pure (.capabilities d.cscap)
  | .createSnapshot req => createSnapshot d req >>= fun resp => pure (.snapshot resp)
  | .deleteSnapshot req => deleteSnapshot d req >>= fun _ => pure .done
  | .listSnapshots => unimplemented ""
  | .controllerExpandVolume => unimplemented ""
  | .controllerModifyVolume => unimplemented "ControllerModifyVolume unsupported"

/-! ## The programs and the functions -/

/-- What a call of `AssignIPToNode` returns, in the words of the LB controller. -/
def assignRet : Outcome String String → Ret
  | .ret ip => .assigned ip
  | .throw err => .failed err
  | .panic => .panicked

/-- What a call of `RemoveIPFromNode` returns. -/
def removeRet : Outcome String Unit → Ret
  | .ret () => .removed
  | .throw err => .failed err
  | .panic => .panicked

/-- An LB controller on which nothing else happens. -/
def lbWorld {B : Type} (lb : LBController B) : (o : SysOp) → o.Answer → LBController B → Prop
  | .assignIPToNode n v, a, lb' => ∃ ips reply, assignIPToNode lb n v ips reply = (assignRet a, lb')
  | .removeIPFromNode n v, a, lb' => ∃ reply, removeIPFromNode lb n v reply = (removeRet a, lb')
  | _, _, lb' => lb' = lb

/-- The response to the outcome of a program; none after a panic. -/
def rpcResponse {α : Type} (response : α → Response) : Outcome RpcError α → Option Response
  | .ret a => some (response a)
  | .throw e => some (.error e.code e.message)
  | .panic => none

instance : Inhabited Reply := ⟨.unsent ""⟩

section

variable {B : Type} {d : Driver} {lb lb' : LBController B} {locks locks' : VolumeLocks}

theorem ne_panic_of_rpcResponse {α : Type} {response : α → Response} {out : Outcome RpcError α}
    {resp : Response} (h : rpcResponse response out = some resp) : out ≠ .panic := by
  rintro rfl
  cases h

/-- A request that is refused changes nothing. -/
theorem exec_refuse {α ι : Type} [Nonempty ι] {response : α → Response} {e : RpcError}
    {resp : Response} :
    (∃ out, Prog.Exec (lockedWorld lbWorld) (Prog.done (.throw e) : Rpc α) (locks, lb)
      (locks', lb') out ∧ rpcResponse response out = some resp) ↔
    ∃ _ : ι, some (Response.error e.code e.message, (⟨some lb, locks⟩ : ControllerServer B)) =
      some (resp, ⟨some lb', locks'⟩) := by
  rw [exists_const]
  constructor
  · rintro ⟨out, he, hresp⟩
    obtain ⟨hs, rfl⟩ := Prog.exec_done.mp he
    obtain ⟨rfl, rfl⟩ := Prod.mk.inj hs
    rw [← Option.some.inj hresp]
  · intro h
    obtain ⟨rfl, hcs⟩ := Prod.mk.inj (Option.some.inj h)
    obtain ⟨hlb, rfl⟩ := ControllerServer.mk.inj hcs
    obtain rfl := Option.some.inj hlb
    exact ⟨_, .done _ _, rfl⟩

/-- A field that must be given, on both sides. -/
theorem exec_require_ne {α ι γ : Type} [Nonempty ι] {x a : γ} [Decidable (x = a)]
    [Decidable (x ≠ a)]
    {e : RpcError} {rest : Unit → Rpc α} {response : α → Response} {resp : Response}
    {f : ι → Option (Response × ControllerServer B)}
    (hrest : (∃ out, Prog.Exec (lockedWorld lbWorld) (rest ()) (locks, lb) (locks', lb') out ∧
      rpcResponse response out = some resp) ↔ ∃ i, f i = some (resp, ⟨some lb', locks'⟩)) :
    (∃ out, Prog.Exec (lockedWorld lbWorld) (Prog.require (x ≠ a) e >>= rest) (locks, lb)
        (locks', lb') out ∧ rpcResponse response out = some resp) ↔
    ∃ i, (if x = a then some (Response.error e.code e.message,
      (⟨some lb, locks⟩ : ControllerServer B))
      else f i) = some (resp, ⟨some lb', locks'⟩) := by
  by_cases hx : x = a
  · simp only [Prog.require, if_neg (not_not.mpr hx), if_pos hx]
    exact exec_refuse
  · simp only [Prog.require, if_pos (show x ≠ a from hx), if_neg hx]
    exact hrest

/-- A call under the lock of the pair does what `ControllerServer.withLock` does. The index of `f`
stands for what the call leaves open. -/
theorem exec_onPair {α ι : Type} [Nonempty ι] {nodeID volumeID : String} {call : Sys RpcError α}
    {response : α → Response} {f : ι → LBController B → Option (Response × LBController B)}
    {resp : Response} (hd : d.lbController ≠ none)
    (hcall : (∃ out, Prog.Exec lbWorld call lb lb' out ∧ rpcResponse response out = some resp) ↔
      ∃ i, f i lb = some (resp, lb')) :
    (∃ out, Prog.Exec (lockedWorld lbWorld) (onPair d nodeID volumeID call) (locks, lb)
      (locks', lb') out ∧ rpcResponse response out = some resp) ↔
    ∃ i, ControllerServer.withLock ⟨some lb, locks⟩ nodeID volumeID (f i) =
      some (resp, ⟨some lb', locks'⟩) := by
  have hbody : (if d.lbController = none then Prog.panic else call) = call := if_neg hd
  rw [onPair, hbody]
  by_cases hkey : lockingVolumeID nodeID volumeID ∈ locks
  · -- both answer that the lock is taken
    have hbusy : ∀ i, ControllerServer.withLock ⟨some lb, locks⟩ nodeID volumeID (f i) =
        some (.error .aborted (volumeOperationAlreadyExists (lockingVolumeID nodeID volumeID)),
          ⟨some lb, locks⟩) := by
      intro i
      simp only [ControllerServer.withLock, VolumeLocks.tryAcquire, if_pos hkey]
    simp only [hbusy, exists_const]
    constructor
    · rintro ⟨out, he, hresp⟩
      rcases exec_withLock.mp he with ⟨-, hs, rfl⟩ | ⟨hfree, -⟩
      · obtain ⟨rfl, rfl⟩ := Prod.mk.inj hs
        rw [← Option.some.inj hresp]
      · exact absurd hkey hfree
    · intro h
      obtain ⟨rfl, hcs⟩ := Prod.mk.inj (Option.some.inj h)
      obtain ⟨hlb, rfl⟩ := ControllerServer.mk.inj hcs
      obtain rfl := Option.some.inj hlb
      exact ⟨_, exec_withLock.mpr (Or.inl ⟨hkey, rfl, rfl⟩), rfl⟩
  · -- both make the call and give the lock back
    have hfree : ∀ i, ControllerServer.withLock ⟨some lb, locks⟩ nodeID volumeID (f i) =
        (f i lb).map (fun r => (r.1, ⟨some r.2, locks⟩)) := by
      intro i
      simp only [ControllerServer.withLock, VolumeLocks.tryAcquire, if_neg hkey, Option.bind_some]
      cases f i lb with
      | none => rfl
      | some r => simp only [VolumeLocks.release, Finset.erase_insert hkey, Option.map_some]
    simp only [hfree]
    constructor
    · rintro ⟨out, he, hresp⟩
      rcases exec_withLock.mp he with ⟨hin, -⟩ | ⟨-, hexec, ⟨-, hlocks⟩ | ⟨rfl, -⟩⟩
      · exact absurd hin hkey
      · obtain ⟨i, hi⟩ := hcall.mp ⟨out, hexec, hresp⟩
        refine ⟨i, ?_⟩
        rw [hi, Option.map_some, show locks' = locks from hlocks]
      · cases hresp
    · rintro ⟨i, hi⟩
      obtain ⟨⟨resp', lb₁⟩, hf, heq⟩ := Option.map_eq_some_iff.mp hi
      obtain ⟨rfl, hcs⟩ := Prod.mk.inj heq
      obtain ⟨hlb, rfl⟩ := ControllerServer.mk.inj hcs
      obtain rfl := Option.some.inj hlb
      obtain ⟨out, hexec, hresp⟩ := hcall.mpr ⟨i, hf⟩
      refine ⟨out, exec_withLock.mpr (Or.inr ⟨hkey, hexec, Or.inl ⟨?_, rfl⟩⟩), hresp⟩
      exact ne_panic_of_rpcResponse hresp

/-- **`ControllerPublishVolume`**, run against an LB controller on which nothing else happens, has
the responses and effects of the function of the server's state. -/
theorem exec_controllerPublishVolume {req : ControllerPublishVolumeRequest} {resp : Response}
    (hd : d.lbController ≠ none) :
    (∃ out, Prog.Exec (lockedWorld lbWorld) (Service.controllerPublishVolume d req) (locks, lb)
      (locks', lb') out ∧ rpcResponse .published out = some resp) ↔
    ∃ i : List String × Reply, controllerPublishVolume ⟨some lb, locks⟩ req i.1 i.2 =
      some (resp, ⟨some lb', locks'⟩) := by
  unfold Service.controllerPublishVolume controllerPublishVolume
  refine exec_require_ne (exec_require_ne (exec_require_ne ?_))
  refine exec_onPair hd ⟨?_, ?_⟩
  · rintro ⟨out, he, hresp⟩
    obtain ⟨a, lb₁, ⟨ips, reply, hcall⟩, he⟩ := Prog.exec_call.mp he
    refine ⟨(ips, reply), ?_⟩
    simp only [hcall]
    cases a with
    | ret ip =>
        obtain ⟨rfl, rfl⟩ := Prog.exec_done.mp he
        exact congrArg (Option.map _) hresp
    | throw err =>
        obtain ⟨rfl, rfl⟩ := Prog.exec_done.mp he
        exact congrArg (Option.map _) hresp
    | panic =>
        obtain ⟨rfl, rfl⟩ := Prog.exec_done.mp he
        cases hresp
  · rintro ⟨⟨ips, reply⟩, h⟩
    simp only at h
    obtain ⟨resp', hresp, heq⟩ := Option.map_eq_some_iff.mp h
    obtain ⟨rfl, rfl⟩ := Prod.mk.inj heq
    have hworld : ∀ a, (assignIPToNode lb req.nodeId req.volumeId ips reply).1 = assignRet a →
        lbWorld lb (.assignIPToNode req.nodeId req.volumeId) a
          (assignIPToNode lb req.nodeId req.volumeId ips reply).2 :=
      fun a ha => ⟨ips, reply, Prod.ext ha rfl⟩
    cases hr : (assignIPToNode lb req.nodeId req.volumeId ips reply).1 with
    | assigned ip =>
        rw [hr] at hresp
        exact ⟨_, .call (hworld (.ret ip) hr) (.done _ _), hresp⟩
    | failed err =>
        rw [hr] at hresp
        exact ⟨_, .call (hworld (.throw err) hr) (.done _ _), hresp⟩
    | removed =>
        rw [hr] at hresp
        cases hresp
    | panicked =>
        rw [hr] at hresp
        cases hresp

/-- **`ControllerUnpublishVolume`** likewise. -/
theorem exec_controllerUnpublishVolume {req : ControllerUnpublishVolumeRequest} {resp : Response}
    (hd : d.lbController ≠ none) :
    (∃ out, Prog.Exec (lockedWorld lbWorld) (Service.controllerUnpublishVolume d req) (locks, lb)
      (locks', lb') out ∧ rpcResponse (fun _ => .unpublished) out = some resp) ↔
    ∃ reply, controllerUnpublishVolume ⟨some lb, locks⟩ req reply =
      some (resp, ⟨some lb', locks'⟩) := by
  unfold Service.controllerUnpublishVolume controllerUnpublishVolume
  refine exec_require_ne (exec_require_ne ?_)
  refine exec_onPair hd ⟨?_, ?_⟩
  · rintro ⟨out, he, hresp⟩
    obtain ⟨a, lb₁, ⟨reply, hcall⟩, he⟩ := Prog.exec_call.mp he
    refine ⟨reply, ?_⟩
    simp only [hcall]
    cases a with
    | ret u =>
        obtain ⟨rfl, rfl⟩ := Prog.exec_done.mp he
        exact congrArg (Option.map _) hresp
    | throw err =>
        obtain ⟨rfl, rfl⟩ := Prog.exec_done.mp he
        exact congrArg (Option.map _) hresp
    | panic =>
        obtain ⟨rfl, rfl⟩ := Prog.exec_done.mp he
        cases hresp
  · rintro ⟨reply, h⟩
    simp only at h
    obtain ⟨resp', hresp, heq⟩ := Option.map_eq_some_iff.mp h
    obtain ⟨rfl, rfl⟩ := Prod.mk.inj heq
    have hworld : ∀ a, (removeIPFromNode lb req.nodeId req.volumeId reply).1 = removeRet a →
        lbWorld lb (.removeIPFromNode req.nodeId req.volumeId) a
          (removeIPFromNode lb req.nodeId req.volumeId reply).2 :=
      fun a ha => ⟨reply, Prod.ext ha rfl⟩
    cases hr : (removeIPFromNode lb req.nodeId req.volumeId reply).1 with
    | removed =>
        rw [hr] at hresp
        exact ⟨_, .call (hworld (.ret ()) hr) (.done _ _), hresp⟩
    | failed err =>
        rw [hr] at hresp
        exact ⟨_, .call (hworld (.throw err) hr) (.done _ _), hresp⟩
    | assigned ip =>
        rw [hr] at hresp
        cases hresp
    | panicked =>
        rw [hr] at hresp
        cases hresp

end

end NfsLbCsi
