import NfsLbCsi.LBController.Call

set_option autoImplicit false

/-! # `ControllerPublishVolume` and `ControllerUnpublishVolume`

The two handlers of `pkg/nfs/controllerserver.go` that lead to the LB controller. They check the
request, take the lock of the (node, volume) pair, make the call, and release the lock on every way
out. A handler that panics takes the process with it: there is neither an answer nor a server left,
and the result is `none`.
-/

namespace NfsLbCsi

open Tally Optimistic Lts

/-! ## `VolumeLocks` -/

/-- The keys that are locked. -/
abbrev VolumeLocks := Finset String

/-- `TryAcquire`. -/
def VolumeLocks.tryAcquire (vl : VolumeLocks) (volumeID : String) : Bool × VolumeLocks :=
  if volumeID ∈ vl then (false, vl) else (true, insert volumeID vl)

/-- `Release`. -/
def VolumeLocks.release (vl : VolumeLocks) (volumeID : String) : VolumeLocks := vl.erase volumeID

/-- `volumeOperationAlreadyExistsFmt`. -/
def volumeOperationAlreadyExists (volumeID : String) : String :=
  "An operation with the given Volume ID " ++ volumeID ++ " already exists"

/-! ## Requests and responses -/

/-- How a volume is to be used: as a block device, or mounted with the given flags. -/
inductive AccessType where
  | block
  | mount (mountFlags : List String)
  deriving DecidableEq

/-- The two handlers only ask whether there is one. -/
structure VolumeCapability where
  accessType : Option AccessType := none
  deriving DecidableEq

structure ControllerPublishVolumeRequest where
  volumeId : String
  nodeId : String
  volumeCapability : Option VolumeCapability

structure ControllerUnpublishVolumeRequest where
  volumeId : String
  nodeId : String

/-- The gRPC status codes that the handlers use. -/
inductive Code where
  | unknown
  | invalidArgument
  | notFound
  | alreadyExists
  | permissionDenied
  | aborted
  | unimplemented
  | internal
  deriving DecidableEq

inductive Response where
  | published (publishContext : Table String String)
  | unpublished
  | error (code : Code) (message : String)
  deriving DecidableEq

/-- The server: the LB controller, `nil` when the driver has no IP list, and the lock set. -/
structure ControllerServer (B : Type) where
  lbController : Option (LBController B)
  volumeLocks : VolumeLocks

/-! ## The handlers -/

section

variable {B : Type}

/-- `fmt.Sprintf("%s/%s", nodeID, volumeID)`. -/
def lockingVolumeID (nodeID volumeID : String) : String := nodeID ++ "/" ++ volumeID

/-- Make the call under the lock of the pair. `call` is `none` when it panics, and so is the use of
a `nil` controller. -/
def ControllerServer.withLock (cs : ControllerServer B) (nodeID volumeID : String)
    (call : LBController B → Option (Response × LBController B)) :
    Option (Response × ControllerServer B) :=
  let key := lockingVolumeID nodeID volumeID
  match cs.volumeLocks.tryAcquire key with
  | (false, _) => some (.error .aborted (volumeOperationAlreadyExists key), cs)
  | (true, locks) =>
      match cs.lbController.bind call with
      | none => none
      | some (resp, lb) => some (resp, ⟨some lb, locks.release key⟩)

/-- `map[string]string{lbcontroller.NodeAnnotation: ip}`. -/
def assignedContext (ip : String) : Table String String :=
  (∅ : Table String String).insert nodeAnnotationKey ip

/-- The response of `ControllerPublishVolume` to what `AssignIPToNode` returns; none after a
panic. -/
def publishResponse (nodeID : String) : Ret → Option Response
  | .assigned ip => some (.published (assignedContext ip))
  | .failed err =>
      some (.error .internal
        ("failed to assign a NFS server IP to node " ++ nodeID ++ ": " ++ err))
  | _ => none

/-- The response of `ControllerUnpublishVolume` to what `RemoveIPFromNode` returns. -/
def unpublishResponse (nodeID : String) : Ret → Option Response
  | .removed => some .unpublished
  | .failed err =>
      some (.error .internal
        ("failed to remove IP annotation from node " ++ nodeID ++ ": " ++ err))
  | _ => none

/-- `ControllerPublishVolume`. -/
def controllerPublishVolume (cs : ControllerServer B) (req : ControllerPublishVolumeRequest)
    (ips : List String) (reply : Reply) : Option (Response × ControllerServer B) :=
  if req.volumeId = "" then
    some (.error .invalidArgument "ControllerPublishVolume Volume ID must be provided", cs)
  else if req.nodeId = "" then
    some (.error .invalidArgument "ControllerPublishVolume Node ID must be provided", cs)
  else if req.volumeCapability = none then
    some (.error .invalidArgument "ControllerPublishVolume Volume capability must be provided", cs)
  else
    cs.withLock req.nodeId req.volumeId (fun lb =>
      let (r, lb') := assignIPToNode lb req.nodeId req.volumeId ips reply
      (publishResponse req.nodeId r).map (fun resp => (resp, lb')))

/-- `ControllerUnpublishVolume`. -/
def controllerUnpublishVolume (cs : ControllerServer B) (req : ControllerUnpublishVolumeRequest)
    (reply : Reply) : Option (Response × ControllerServer B) :=
  if req.volumeId = "" then
    some (.error .invalidArgument "ControllerUnpublishVolume Volume ID must be provided", cs)
  else if req.nodeId = "" then
    some (.error .invalidArgument "ControllerUnpublishVolume Node ID must be provided", cs)
  else
    cs.withLock req.nodeId req.volumeId (fun lb =>
      let (r, lb') := removeIPFromNode lb req.nodeId req.volumeId reply
      (unpublishResponse req.nodeId r).map (fun resp => (resp, lb')))

/-! ## What a handler can do -/

variable {cs cs' : ControllerServer B} {resp : Response}

/-- With a free lock, the lock set after the call is the one before it. -/
theorem withLock_cases {n v : String} {call : LBController B → Option (Response × LBController B)}
    (h : cs.withLock n v call = some (resp, cs')) :
    (resp = .error .aborted (volumeOperationAlreadyExists (lockingVolumeID n v)) ∧ cs' = cs ∧
      lockingVolumeID n v ∈ cs.volumeLocks) ∨
    (lockingVolumeID n v ∉ cs.volumeLocks ∧ ∃ lb lb', cs.lbController = some lb ∧
      call lb = some (resp, lb') ∧ cs' = ⟨some lb', cs.volumeLocks⟩) := by
  unfold ControllerServer.withLock VolumeLocks.tryAcquire at h
  by_cases hkey : lockingVolumeID n v ∈ cs.volumeLocks
  · simp only [if_pos hkey, Option.some.injEq, Prod.mk.injEq] at h
    exact Or.inl ⟨h.1.symm, h.2.symm, hkey⟩
  · simp only [if_neg hkey] at h
    refine Or.inr ⟨hkey, ?_⟩
    split at h
    · cases h
    · rename_i resp₀ lb' hcall
      obtain ⟨lb, hlb, hcall⟩ := Option.bind_eq_some_iff.mp hcall
      obtain ⟨rfl, rfl⟩ := Prod.mk.inj (Option.some.inj h)
      refine ⟨lb, lb', hlb, hcall, ?_⟩
      rw [VolumeLocks.release, Finset.erase_insert hkey]

/-- **`ControllerPublishVolume`**: an error that changes nothing, or a call of `AssignIPToNode` and
its outcome. -/
theorem controllerPublishVolume_cases {req : ControllerPublishVolumeRequest} {ips : List String}
    {reply : Reply} (h : controllerPublishVolume cs req ips reply = some (resp, cs')) :
    ((∃ code msg, resp = .error code msg) ∧ cs' = cs) ∨
    (req.volumeId ≠ "" ∧ req.nodeId ≠ "" ∧ ∃ lb r lb', cs.lbController = some lb ∧
      Op.assign.call lb req.nodeId ips reply = (r, lb') ∧
      publishResponse req.nodeId r = some resp ∧ cs' = ⟨some lb', cs.volumeLocks⟩) := by
  unfold controllerPublishVolume at h
  split at h
  · obtain ⟨rfl, rfl⟩ := Prod.mk.inj (Option.some.inj h)
    exact Or.inl ⟨⟨_, _, rfl⟩, rfl⟩
  · rename_i hv
    split at h
    · obtain ⟨rfl, rfl⟩ := Prod.mk.inj (Option.some.inj h)
      exact Or.inl ⟨⟨_, _, rfl⟩, rfl⟩
    · rename_i hn
      split at h
      · obtain ⟨rfl, rfl⟩ := Prod.mk.inj (Option.some.inj h)
        exact Or.inl ⟨⟨_, _, rfl⟩, rfl⟩
      · rcases withLock_cases h with ⟨rfl, rfl, -⟩ | ⟨-, lb, lb', hlb, hcall, rfl⟩
        · exact Or.inl ⟨⟨_, _, rfl⟩, rfl⟩
        · obtain ⟨resp₀, hresp, heq⟩ := Option.map_eq_some_iff.mp hcall
          obtain ⟨rfl, rfl⟩ := Prod.mk.inj heq
          exact Or.inr ⟨hv, hn, lb, _, _, hlb, rfl, hresp, rfl⟩

/-- **`ControllerUnpublishVolume`**: an error that changes nothing, or a call of `RemoveIPFromNode`
and its outcome. -/
theorem controllerUnpublishVolume_cases {req : ControllerUnpublishVolumeRequest} {reply : Reply}
    (h : controllerUnpublishVolume cs req reply = some (resp, cs')) :
    ((∃ code msg, resp = .error code msg) ∧ cs' = cs ∧
      (req.volumeId = "" ∨ req.nodeId = "" ∨
        lockingVolumeID req.nodeId req.volumeId ∈ cs.volumeLocks)) ∨
    (req.volumeId ≠ "" ∧ req.nodeId ≠ "" ∧ ∃ lb r lb', cs.lbController = some lb ∧
      Op.remove.call lb req.nodeId [] reply = (r, lb') ∧
      unpublishResponse req.nodeId r = some resp ∧ cs' = ⟨some lb', cs.volumeLocks⟩) := by
  unfold controllerUnpublishVolume at h
  split at h
  · rename_i hv
    obtain ⟨rfl, rfl⟩ := Prod.mk.inj (Option.some.inj h)
    exact Or.inl ⟨⟨_, _, rfl⟩, rfl, Or.inl hv⟩
  · rename_i hv
    split at h
    · rename_i hn
      obtain ⟨rfl, rfl⟩ := Prod.mk.inj (Option.some.inj h)
      exact Or.inl ⟨⟨_, _, rfl⟩, rfl, Or.inr (Or.inl hn)⟩
    · rename_i hn
      rcases withLock_cases h with ⟨rfl, rfl, hkey⟩ | ⟨-, lb, lb', hlb, hcall, rfl⟩
      · exact Or.inl ⟨⟨_, _, rfl⟩, rfl, Or.inr (Or.inr hkey)⟩
      · obtain ⟨resp₀, hresp, heq⟩ := Option.map_eq_some_iff.mp hcall
        obtain ⟨rfl, rfl⟩ := Prod.mk.inj heq
        exact Or.inr ⟨hv, hn, lb, _, _, hlb, rfl, hresp, rfl⟩

end

end NfsLbCsi
