import NfsLbCsi.Basic.Sections
import NfsLbCsi.Driver.Crash

set_option autoImplicit false

/-! # The process as a whole

A plugin process serves the RPCs of its controller service and of its node service at the same time,
all of them over one `Driver.volumeLocks`. `Driver.OperationLocks` is about the four RPCs that lock
themselves. The provisioning RPCs lock as well: `internalMount` and `internalUnmount` are calls of
the node server's handlers in the same process, up to three mounts deep, and each of them takes a
key and gives it back. So a call can lock many times, and what is left is that it never holds two
keys at once.

`Driver.Run` hands both servers to `serve`, as interfaces: a server that does not run is a `nil`
pointer in an interface that is not `nil`, and its service is registered all the same. A request for
it runs until the handler uses its receiver.

* `plugin_locks`: whatever is asked of the process, the operation locks are the keys that calls
  hold.
* `calls_drain`: requests for what the process runs never wait for one another and always end.

`NodeGetVolumeStats` takes no key; it has a model of its own (`cachedStats`).
-/

namespace NfsLbCsi

open Locks Lts GoString

/-! ## The services -/

/-- The RPCs of a controller service whose server is a `nil` pointer. -/
def serveNil (d : Driver) : ControllerRequest → Rpc ControllerResponse
  | .createVolume req => do
      Prog.require (req.name ≠ "") (invalidArgument "CreateVolume name must be provided")
      Prog.ofExcept invalidArgument (isValidVolumeCapabilities req.volumeCapabilities)
      -- `cs.Driver.mountPermissions`
      Prog.panic
  | .deleteVolume req => do
      Prog.require (req.volumeId ≠ "") (invalidArgument "volume id is empty")
      match getNfsVolFromID req.volumeId with
      | .error _ => pure .done
      | .ok nfsVol =>
          -- `cs.Driver` is asked for the default policy, or else for the working directory
          if nfsVol.onDelete ≠ "" ∧ deleteBranch nfsVol.onDelete = .keep then pure .done
          else Prog.panic
  | .controllerPublishVolume req => do
      Prog.require (req.volumeId ≠ "")
        (invalidArgument "ControllerPublishVolume Volume ID must be provided")
      Prog.require (req.nodeId ≠ "")
        (invalidArgument "ControllerPublishVolume Node ID must be provided")
      Prog.require (req.volumeCapability ≠ none)
        (invalidArgument "ControllerPublishVolume Volume capability must be provided")
      Prog.panic
  | .controllerUnpublishVolume req => do
      Prog.require (req.volumeId ≠ "")
        (invalidArgument "ControllerUnpublishVolume Volume ID must be provided")
      Prog.require (req.nodeId ≠ "")
        (invalidArgument "ControllerUnpublishVolume Node ID must be provided")
      Prog.panic
  | .controllerGetCapabilities => Prog.panic
  | .createSnapshot req => do
      Prog.require (req.name ≠ "") (invalidArgument "CreateSnapshot name must be provided")
      Prog.require (req.sourceVolumeId ≠ "")
        (invalidArgument "CreateSnapshot source volume ID must be provided")
      let srcVol ← Prog.ofExcept (fun err => ⟨.notFound, "failed to create source volume: " ++ err⟩)
        (getNfsVolFromID req.sourceVolumeId)
      let σ ← Rpc.order
      let _ ← Prog.ofExcept (fun err => ⟨.notFound, "failed to create nfsSnapshot: " ++ err⟩)
        (newNFSSnapshot σ req.name req.parameters srcVol)
      Prog.panic
  | .deleteSnapshot req => do
      Prog.require (req.snapshotId ≠ "") (invalidArgument "Snapshot ID is required for deletion")
      match getNfsSnapFromID req.snapshotId with
      | .error _ => pure .done
      | .ok _ => Prog.panic
  -- the others do not look at their receiver
  | req => serve d req

/-- The requests to a process. -/
inductive PluginRequest where
  | controller (req : ControllerRequest)
  | nodePublishVolume (req : NodePublishVolumeRequest)
  | nodeUnpublishVolume (req : NodeUnpublishVolumeRequest)

inductive PluginResponse where
  | controller (resp : ControllerResponse)
  | done
  deriving DecidableEq

/-- The services that the gRPC server of a process has registered. -/
def servePlugin (d : Driver) : PluginRequest → Rpc PluginResponse
  | .controller req =>
      (if d.cs.isSome then serve d req else serveNil d req) >>= fun resp => pure (.controller resp)
  | .nodePublishVolume req => nodePublishVolume d req >>= fun _ => pure .done
  | .nodeUnpublishVolume req => nodeUnpublishVolume d req >>= fun _ => pure .done

/-- The calls in flight and the lock set. -/
abbrev PluginPool := Pool String sys RpcError PluginResponse

/-- One step of any of the calls. -/
def pluginStep (d : Driver) :
    PluginPool → PoolEvent PluginRequest sys → Option (PluginPool × Unit) :=
  Pool.step (servePlugin d)

/-! ## Every handler locks in turn -/

section

variable {α : Type} {d : Driver}

theorem inTurn_perform (o : SysOp) : InTurn none (Rpc.perform o) := fun _ => trivial

theorem inTurn_order_bind {f : MapOrder → Rpc α} (h : ∀ σ, InTurn none (f σ)) :
    InTurn none (Rpc.order >>= f) :=
  (inTurn_perform .order).bind h

theorem inTurn_ofExcept_bind {ε β : Type} {g : ε → RpcError} {r : Except ε β} {f : β → Rpc α}
    (h : ∀ b, InTurn none (f b)) : InTurn none (Prog.ofExcept g r >>= f) :=
  InTurn.bind (p := Prog.ofExcept g r) trivial h

theorem inTurn_onNode {volumeID targetPath : String} {body : NodeServer → Sys RpcError Unit} :
    InTurn none (onNode d volumeID targetPath body) := by
  unfold onNode
  split
  · trivial
  · exact inTurn_withLock _ _ _

theorem inTurn_nodePublishVolume (req : NodePublishVolumeRequest) :
    InTurn none (nodePublishVolume d req) := by
  unfold nodePublishVolume
  split
  · trivial
  · exact inTurn_require_bind (inTurn_require_bind inTurn_onNode)

theorem inTurn_nodeUnpublishVolume (req : NodeUnpublishVolumeRequest) :
    InTurn none (nodeUnpublishVolume d req) :=
  inTurn_require_bind (inTurn_require_bind inTurn_onNode)

/-- **The internal mount**: the mount is one section, the unmount another, and `body` runs between
them. -/
theorem inTurn_withMount {vol : NfsVolume} {volumeContext : StringMap}
    {volCap : Option VolumeCapability} {failed : String} {body : Rpc α} (hbody : InTurn none body) :
    InTurn none (withMount d vol volumeContext volCap failed body) := by
  have hmount : InTurn none (internalMount d vol volumeContext volCap) :=
    inTurn_order_bind (fun _ => inTurn_nodePublishVolume _)
  exact hmount.mapError.bind (fun _ => hbody.ensure (inTurn_nodeUnpublishVolume _))

theorem inTurn_copyVolume (req : CreateVolumeRequest) (vol : NfsVolume)
    (source : VolumeContentSource) : InTurn none (copyVolume d req vol source) := by
  cases source with
  | snapshot snapshotId =>
      refine inTurn_ofExcept_bind (fun snap => ?_)
      exact inTurn_withMount (inTurn_withMount (inTurn_perform _).must)
  | volume volumeId =>
      refine inTurn_ofExcept_bind (fun srcVol => ?_)
      exact inTurn_withMount (inTurn_withMount (inTurn_perform _).must)
  | untyped => trivial

theorem inTurn_makeVolume (req : CreateVolumeRequest) (nfsVol : NfsVolume) (mountPermissions : ℕ) :
    InTurn none (makeVolume d req nfsVol mountPermissions) := by
  refine (inTurn_perform _).must.bind (fun _ => ?_)
  by_cases hmode : mountPermissions > 0
  · simp only [if_pos hmode]
    refine (inTurn_perform _).bind (fun _ => ?_)
    split
    · exact inTurn_copyVolume req nfsVol _
    · trivial
  · simp only [if_neg hmode]
    split
    · exact inTurn_copyVolume req nfsVol _
    · trivial

theorem inTurn_createVolume (req : CreateVolumeRequest) : InTurn none (createVolume d req) := by
  refine inTurn_require_bind (inTurn_ofExcept_bind (fun _ => inTurn_order_bind (fun σ => ?_)))
  refine inTurn_ofExcept_bind (fun mountPermissions => ?_)
  refine inTurn_order_bind (fun τ =>
    inTurn_order_bind (fun ρ => inTurn_ofExcept_bind (fun nfsVol => ?_)))
  refine inTurn_withMount ((inTurn_makeVolume req nfsVol mountPermissions).bind (fun _ => ?_))
  exact inTurn_order_bind (fun _ => trivial)

theorem inTurn_archiveVolume (nfsVol : NfsVolume) : InTurn none (archiveVolume d nfsVol) := by
  unfold archiveVolume
  simp only
  split
  · refine (inTurn_perform _).must.bind (fun _ => ?_)
    exact (inTurn_perform _).must.bind (fun _ => (inTurn_perform _).must)
  · exact (inTurn_perform _).must.bind (fun _ => (inTurn_perform _).must)

theorem inTurn_deleteVolume (req : DeleteVolumeRequest) : InTurn none (deleteVolume d req) := by
  refine inTurn_require_bind ?_
  split
  · trivial
  · refine inTurn_order_bind (fun σ => ?_)
    unfold deleteNfsVolume
    split
    · trivial
    · exact inTurn_withMount (inTurn_archiveVolume _)
    · exact inTurn_withMount (inTurn_perform _).must

theorem inTurn_createSnapshot (req : CreateSnapshotRequest) :
    InTurn none (createSnapshot d req) := by
  refine inTurn_require_bind (inTurn_require_bind (inTurn_ofExcept_bind (fun srcVol => ?_)))
  refine inTurn_order_bind (fun σ => inTurn_ofExcept_bind (fun snap => ?_))
  refine inTurn_withMount ((inTurn_perform _).must.bind (fun _ => ?_))
  refine (inTurn_perform _).bind (fun visits => inTurn_ofExcept_bind (fun _ => inTurn_withMount ?_))
  refine (inTurn_perform _).must.bind (fun _ => ?_)
  exact (inTurn_perform _).bind (fun _ => (inTurn_perform _).bind (fun _ => trivial))

theorem inTurn_deleteSnapshot (req : DeleteSnapshotRequest) :
    InTurn none (deleteSnapshot d req) := by
  refine inTurn_require_bind ?_
  split
  · trivial
  · exact inTurn_order_bind (fun σ => inTurn_withMount (inTurn_perform _).must)

theorem inTurn_controllerPublishVolume (req : ControllerPublishVolumeRequest) :
    InTurn none (Service.controllerPublishVolume d req) :=
  inTurn_require_bind (inTurn_require_bind (inTurn_require_bind (inTurn_withLock _ _ _)))

theorem inTurn_controllerUnpublishVolume (req : ControllerUnpublishVolumeRequest) :
    InTurn none (Service.controllerUnpublishVolume d req) :=
  inTurn_require_bind (inTurn_require_bind (inTurn_withLock _ _ _))

theorem inTurn_serve (req : ControllerRequest) : InTurn none (serve d req) := by
  cases req with
  | createVolume req => exact (inTurn_createVolume req).bind (fun _ => trivial)
  | deleteVolume req => exact (inTurn_deleteVolume req).bind (fun _ => trivial)
  | controllerPublishVolume req =>
      exact (inTurn_controllerPublishVolume req).bind (fun _ => trivial)
  | controllerUnpublishVolume req =>
      exact (inTurn_controllerUnpublishVolume req).bind (fun _ => trivial)
  | validateVolumeCapabilities req =>
      exact InTurn.bind (inTurn_require_bind (inTurn_ofExcept_bind (fun _ => trivial)))
        (fun _ => trivial)
  | createSnapshot req => exact (inTurn_createSnapshot req).bind (fun _ => trivial)
  | deleteSnapshot req => exact (inTurn_deleteSnapshot req).bind (fun _ => trivial)
  | _ => trivial

theorem inTurn_serveNil (req : ControllerRequest) : InTurn none (serveNil d req) := by
  cases req with
  | createVolume req => exact inTurn_require_bind (inTurn_ofExcept_bind (fun _ => trivial))
  | deleteVolume req =>
      refine inTurn_require_bind ?_
      split
      · trivial
      · split
        · trivial
        · trivial
  | controllerPublishVolume req =>
      exact inTurn_require_bind (inTurn_require_bind (inTurn_require_bind trivial))
  | controllerUnpublishVolume req => exact inTurn_require_bind (inTurn_require_bind trivial)
  | controllerGetCapabilities => trivial
  | createSnapshot req =>
      refine inTurn_require_bind (inTurn_require_bind (inTurn_ofExcept_bind (fun srcVol => ?_)))
      exact inTurn_order_bind (fun σ => inTurn_ofExcept_bind (fun _ => trivial))
  | deleteSnapshot req =>
      refine inTurn_require_bind ?_
      split
      · trivial
      · trivial
  | validateVolumeCapabilities req => exact inTurn_serve (d := d) (.validateVolumeCapabilities req)
  | _ => trivial

/-- **Every RPC** holds one key at most at any time. -/
theorem inTurn_servePlugin (req : PluginRequest) : InTurn none (servePlugin d req) := by
  cases req with
  | controller req =>
      refine InTurn.bind ?_ (fun _ => trivial)
      split
      · exact inTurn_serve req
      · exact inTurn_serveNil req
  | nodePublishVolume req => exact (inTurn_nodePublishVolume req).bind (fun _ => trivial)
  | nodeUnpublishVolume req => exact (inTurn_nodeUnpublishVolume req).bind (fun _ => trivial)

end

/-! ## The operation locks of a process -/

/-- **The operation locks of a process.** Whatever the process runs and whatever is asked of it, in
every state of every interleaving the lock set is the set of the keys that calls have taken and not
given back, each held by one call. A call takes a key only while it holds none, only the holder of a
key takes it out of the set, and a call that has returned holds nothing; when no call is in flight
the set is empty. -/
theorem plugin_locks {d : Driver}
    {tr : List (Transition PluginPool (PoolEvent PluginRequest sys) Unit)} {s : PluginPool}
    (hrun : Run (pluginStep d) ⟨∅, []⟩ tr s) :
    (∀ key, key ∈ s.locks ↔ ∃ i, heldBy tr i = some key) ∧
    (∀ i j key, heldBy tr i = some key → heldBy tr j = some key → i = j) ∧
    (∀ tr₁ t tr₂, tr = tr₁ ++ t :: tr₂ → ∀ i reply key, t.event = .act i reply →
      (key ∈ t.pre.locks → key ∉ t.post.locks → heldBy tr₁ i = some key) ∧
      (key ∉ t.pre.locks → key ∈ t.post.locks → heldBy tr₁ i = none)) ∧
    (∀ i c out, s.calls[i]? = some c → c.rest = .done out → heldBy tr i = none) ∧
    ((∀ c ∈ s.calls, ¬c.InFlight) → s.locks = ∅) := by
  have horderly : s.Orderly (heldBy tr) := Pool.orderly_of_run inTurn_servePlugin hrun
  refine ⟨horderly.locks, horderly.exclusive, ?_, fun i c out hc => horderly.held_eq_none hc,
    horderly.locks_eq_empty⟩
  rintro tr₁ t tr₂ rfl i reply key he
  obtain ⟨hrun₁, hstep, -⟩ := hrun.split
  have hpre : t.pre.Orderly (heldBy tr₁) := Pool.orderly_of_run inTurn_servePlugin hrun₁
  rw [he] at hstep
  exact hpre.changed (Pool.step_cases hstep)

/-- A volume is created while another one is unmounted. Each of the two calls has got to its
lock. -/
def mountingEvents : List (PoolEvent PluginRequest sys) :=
  [.start (.controller (.createVolume volumeRequest)), .start (.nodeUnpublishVolume ⟨"v", "/t"⟩),
    .act 0 SysOp.refused, .act 0 SysOp.refused, .act 0 SysOp.refused, .act 0 SysOp.refused,
    .act 1 SysOp.refused, .act 0 SysOp.refused]

/-- The key of the internal mount. -/
def mountingKey : String := "nfs#s#pvc-1##-/tmp/pvc-1"

theorem exists_mounting : ∃ tr s, Run (pluginStep fullDriver) ⟨∅, []⟩ tr s ∧
    s.locks = {mountingKey, "v-/t"} ∧ heldBy tr 0 = some mountingKey := by
  have hexec : exec (pluginStep fullDriver) ⟨∅, []⟩ mountingEvents = some (_, _) := rfl
  exact ⟨_, _, exec_run hexec, by decide, by decide⟩

theorem plugin_locks_mountingEvents :
    ∃ tr s, Run (pluginStep fullDriver) ⟨∅, []⟩ tr s ∧ heldBy tr 0 = some mountingKey ∧
      (∃ i, heldBy tr i = some "v-/t") ∧ ∀ i, heldBy tr i = some mountingKey → i = 0 := by
  obtain ⟨tr, s, hrun, hlocks, hheld⟩ := exists_mounting
  obtain ⟨hmem, hexclusive, -⟩ := plugin_locks hrun
  refine ⟨tr, s, hrun, hheld, (hmem "v-/t").mp ?_, fun i hi => hexclusive i 0 _ hi hheld⟩
  rw [hlocks]
  decide

/-! ## Requests for what the process runs -/

/-- The server that the request is for runs, and if the request gets to an internal mount the node
server does too. -/
def Supported (f : Flags) (d : Driver) : PluginRequest → Prop
  | .controller req => f.runControllerServer = true ∧ (f.runNodeServer = true ∨ ¬ReachesMount d req)
  | .nodePublishVolume _ => f.runNodeServer = true
  | .nodeUnpublishVolume _ => f.runNodeServer = true

/-- The LB controller panics. -/
def LBPanics : (o : SysOp) → o.Answer → Prop
  | .assignIPToNode _ _, a => a = .panic
  | .removeIPFromNode _ _, a => a = .panic
  | _, _ => False

section

variable {α : Type} {d : Driver} {ips : List String}

theorem panicsOnly_onPair (hd : d.lbController = some ips) {nodeID volumeID : String}
    {call : Sys RpcError α} (hcall : call.PanicsOnly LBPanics) :
    (onPair d nodeID volumeID call).PanicsOnly (lockedBad String LBPanics) := by
  have hbody : (if d.lbController = none then Prog.panic else call) = call :=
    if_neg (by rw [hd]; exact Option.some_ne_none ips)
  rw [onPair, hbody]
  exact panicsOnly_withLock hcall

theorem panicsOnly_controllerPublishVolume (hd : d.lbController = some ips)
    (req : ControllerPublishVolumeRequest) :
    (Service.controllerPublishVolume d req).PanicsOnly (lockedBad String LBPanics) := by
  refine Prog.panicsOnly_require_bind (Prog.panicsOnly_require_bind (Prog.panicsOnly_require_bind
    (panicsOnly_onPair hd ?_)))
  intro (a : Outcome String String)
  cases a with
  | ret ip => exact Or.inr Outcome.ret_ne_panic
  | throw err => exact Or.inr Outcome.throw_ne_panic
  | panic => exact Or.inl ⟨rfl, rfl⟩

theorem panicsOnly_controllerUnpublishVolume (hd : d.lbController = some ips)
    (req : ControllerUnpublishVolumeRequest) :
    (Service.controllerUnpublishVolume d req).PanicsOnly (lockedBad String LBPanics) := by
  refine Prog.panicsOnly_require_bind (Prog.panicsOnly_require_bind (panicsOnly_onPair hd ?_))
  intro (a : Outcome String Unit)
  cases a with
  | ret u => exact Or.inr Outcome.ret_ne_panic
  | throw err => exact Or.inr Outcome.throw_ne_panic
  | panic => exact Or.inl ⟨rfl, rfl⟩

theorem panicsOnly_serve (hd : d.lbController = some ips) {req : ControllerRequest}
    (h : d.ns ≠ none ∨ ¬ReachesMount d req) :
    (serve d req).PanicsOnly (lockedBad String LBPanics) := by
  cases req with
  | createVolume req =>
      exact ((neverPanics_createVolume h).bind (fun _ => Prog.neverPanics_pure _)).panicsOnly
  | deleteVolume req =>
      exact ((neverPanics_deleteVolume h).bind (fun _ => Prog.neverPanics_pure _)).panicsOnly
  | createSnapshot req =>
      exact ((neverPanics_createSnapshot h).bind (fun _ => Prog.neverPanics_pure _)).panicsOnly
  | deleteSnapshot req =>
      exact ((neverPanics_deleteSnapshot h).bind (fun _ => Prog.neverPanics_pure _)).panicsOnly
  | controllerPublishVolume req =>
      exact (panicsOnly_controllerPublishVolume hd req).bind (fun _ => Outcome.ret_ne_panic)
  | controllerUnpublishVolume req =>
      exact (panicsOnly_controllerUnpublishVolume hd req).bind (fun _ => Outcome.ret_ne_panic)
  | validateVolumeCapabilities req =>
      have hcheck : (validateVolumeCapabilities req).NeverPanics :=
        Prog.neverPanics_require_bind (fun _ =>
          Prog.neverPanics_ofExcept_bind (fun _ _ => Prog.neverPanics_pure _))
      exact (hcheck.bind (fun _ => Prog.neverPanics_pure _)).panicsOnly
  | controllerGetCapabilities => exact Outcome.ret_ne_panic
  | controllerGetVolume => exact Outcome.throw_ne_panic
  | listVolumes => exact Outcome.throw_ne_panic
  | getCapacity => exact Outcome.throw_ne_panic
  | listSnapshots => exact Outcome.throw_ne_panic
  | controllerExpandVolume => exact Outcome.throw_ne_panic
  | controllerModifyVolume => exact Outcome.throw_ne_panic

end

/-- The node server runs when the flag says so. -/
theorem ns_ne_none {linux : Bool} {f : Flags} {d : Driver} (h : handle linux f = some d)
    (hnode : f.runNodeServer = true) : d.ns ≠ none := by
  unfold handle at h
  split at h
  · cases h
  · obtain rfl := Option.some.inj h
    simp [Driver.run, newDriver, hnode]

/-- **A supported request** makes the process panic only if the LB controller does. -/
theorem panicsOnly_servePlugin {linux : Bool} {f : Flags} {d : Driver} (h : handle linux f = some d)
    {req : PluginRequest} (hreq : Supported f d req) :
    (servePlugin d req).PanicsOnly (lockedBad String LBPanics) := by
  cases req with
  | controller req =>
      obtain ⟨hctl, hmount⟩ := hreq
      obtain ⟨-, hd, -⟩ := handle_eq_some h hctl
      have hcs : d.cs.isSome = true := by
        cases hcs : d.cs with
        | none => simp [Driver.lbController, hcs] at hd
        | some cs => rfl
      refine Prog.PanicsOnly.bind ?_ (fun _ => Outcome.ret_ne_panic)
      rw [if_pos hcs]
      exact panicsOnly_serve hd (hmount.imp_left (ns_ne_none h))
  | nodePublishVolume req =>
      exact ((neverPanics_nodePublishVolume (ns_ne_none h hreq) req).bind
        (fun _ => Prog.neverPanics_pure _)).panicsOnly
  | nodeUnpublishVolume req =>
      exact ((neverPanics_nodeUnpublishVolume (ns_ne_none h hreq) req).bind
        (fun _ => Prog.neverPanics_pure _)).panicsOnly

/-- **Calls drain.** In every state of every interleaving of supported requests, each call in flight
can make its next operation, whatever the others do; without new requests the calls do not go on for
ever; and whatever the outside answers from now on (as long as the LB controller does not panic),
they can all be brought to a response or an error, after which no operation lock is left. -/
theorem calls_drain {linux : Bool} {f : Flags} {d : Driver} (h : handle linux f = some d)
    {tr : List (Transition PluginPool (PoolEvent PluginRequest sys) Unit)} {s : PluginPool}
    (hrun : Run (pluginStep d) ⟨∅, []⟩ tr s)
    (hreq : ∀ t ∈ tr, ∀ req, t.event = .start req → Supported f d req) :
    (∀ reply : (o : SysOp) → o.Answer, (∀ o, ¬LBPanics o (reply o)) →
      ∀ i c, s.calls[i]? = some c → c.InFlight →
        ∃ s', pluginStep d s (.act i reply) = some (s', ())) ∧
    (∀ u : ℕ → PluginPool, u 0 = s →
      ¬∀ n, ∃ i reply, pluginStep d (u n) (.act i reply) = some (u (n + 1), ())) ∧
    ∀ reply : (o : SysOp) → o.Answer, (∀ o, ¬LBPanics o (reply o)) →
      ∃ tr' s', Run (pluginStep d) s tr' s' ∧ (∀ t ∈ tr', ∃ i, t.event = .act i reply) ∧
        s'.calls.length = s.calls.length ∧ s'.locks = ∅ ∧
        ∀ c ∈ s'.calls, (∃ resp, c.rest = .done (.ret resp)) ∨
          ∃ err, c.rest = .done (.throw err) := by
  have hsteady : s.Steady LBPanics := Pool.steady_of_run hrun
    (fun t ht req he => panicsOnly_servePlugin h (hreq t ht req he))
  refine ⟨fun reply hreply i c hc hflight => hsteady.exists_step hc hflight hreply,
    fun u _ => Pool.not_forever u, fun reply hreply => ?_⟩
  obtain ⟨tr', s', hrun', hacts, hlen, hidle⟩ :=
    Pool.exists_drained (servePlugin d) hsteady hreply
  have horderly : s'.Orderly (heldBy (tr ++ tr')) :=
    Pool.orderly_of_run inTurn_servePlugin (hrun.append hrun')
  refine ⟨tr', s', hrun', hacts, hlen, horderly.locks_eq_empty hidle, fun c hc => ?_⟩
  have hdone := hidle c hc
  simp only [Call.InFlight, not_forall, not_not] at hdone
  obtain ⟨out, hout⟩ := hdone
  have hp := horderly.alive c hc
  cases out with
  | ret resp => exact Or.inl ⟨resp, hout⟩
  | throw err => exact Or.inr ⟨err, hout⟩
  | panic =>
      rw [Call.panicked, hout] at hp
      cases hp

theorem calls_drain_mountingEvents :
    ∃ tr s tr' s', Run (pluginStep fullDriver) ⟨∅, []⟩ tr s ∧ s.locks = {mountingKey, "v-/t"} ∧
      Run (pluginStep fullDriver) s tr' s' ∧ s'.locks = ∅ := by
  obtain ⟨tr, s, hrun, hlocks, -⟩ := exists_mounting
  have hboth : handle true (bothFlags "10.0.0.1") = some fullDriver := rfl
  have hsupported : ∀ req, Supported (bothFlags "10.0.0.1") fullDriver req := by
    intro req
    cases req with
    | controller req => exact ⟨rfl, Or.inl rfl⟩
    | nodePublishVolume req => rfl
    | nodeUnpublishVolume req => rfl
  have hrefused : ∀ o, ¬LBPanics o o.refused := by
    intro o
    cases o <;> exact fun h => by cases h
  obtain ⟨-, -, hdrain⟩ := calls_drain hboth hrun (fun _ _ req _ => hsupported req)
  obtain ⟨tr', s', hrun', -, -, hempty, -⟩ := hdrain SysOp.refused hrefused
  exact ⟨tr, s, tr', s', hrun, hlocks, hrun', hempty⟩

end NfsLbCsi
