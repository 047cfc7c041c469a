import NfsLbCsi.Basic.Run
import NfsLbCsi.LBController.Functions

set_option autoImplicit false

/-! # The controller among its goroutines, its API server and the other clients

`System` is the API server with the lister's cache (a `Replica`) and the controller process, when
it is up. The process has its `ipMap`, the calls that have read the lister and wait for the mutex,
and at most one call that holds it. `step` performs one `Event`:

* `start`: a new process runs `NewLBController`: the informer lists all nodes, `resyncIPMap` counts
  them. `crash`: the process dies, with every call in flight;
* `get`, `lock`, `update`, `count`: the four pieces of a call. `get` reads the lister and returns or
  queues for the mutex; `lock` takes the mutex and returns or decides what to write; `update` sends
  the write; `count` changes `ipMap`, returns and releases the mutex;
* `deliver`: one watch event reaches the lister's cache;
* `create`, `write`, `delete`: other clients create nodes without the annotation, change nodes and
  leave the annotation alone, and delete nodes.

Any of them can happen between any two others; in particular other clients and the cache go on
while a call holds the mutex. `Step` says what a step can do, one constructor per case, and
`step_cases` is the only place where `step` is unfolded.
-/

namespace NfsLbCsi

open Tally Optimistic Lts

/-! ## States -/

/-- Who makes a call: a number of its own, and its arguments. -/
structure CallInfo where
  ticket : Nat
  op : Op
  nodeName : String
  volumeID : String
  deriving DecidableEq

/-- A call past its lister `Get`, with the node object it has read. -/
structure Call (B : Type) where
  info : CallInfo
  node : Node B

/-- The call that holds the mutex: about to update the node, or about to change the counter. -/
inductive Critical (B : Type) where
  | updating (call : Call B) (ip : String) (nodeCopy : Node B)
  | counting (call : Call B) (ip : String)

def Critical.call {B : Type} : Critical B → Call B
  | .updating call _ _ => call
  | .counting call _ => call

/-- The controller process. -/
structure Controller (B : Type) where
  ipMap : IPMap
  waiting : List (Call B)
  critical : Option (Critical B)

/-- The calls in flight, the one that holds the mutex first. -/
def Controller.calls {B : Type} (c : Controller B) : List (Call B) :=
  (c.critical.map Critical.call).toList ++ c.waiting

structure System (B : Type) where
  api : Replica String (NodeData B)
  ctl : Option (Controller B)
  tickets : Nat

/-- The annotation that the node `name` carries on the API server. -/
def System.assignedAt {B : Type} (s : System B) (name : String) : Option String :=
  NfsLbCsi.assignedAt s.api.server name

/-- The number of nodes on the API server annotated with `ip`. -/
def System.nodesAt {B : Type} (s : System B) (ip : String) : Nat :=
  tally assigned s.api.server ip

/-! ## Steps -/

inductive Event (B : Type) where
  | start (ipList : List String) (clusterNodes : List (Node B))
  | crash
  | get (op : Op) (nodeName volumeID : String)
  | lock (i : Nat) (ips : List String)
  | update (reply : Reply)
  | count
  | deliver (nodeName : String)
  | create (nodeName : String) (data : NodeData B)
  | write (nodeName : String) (data : NodeData B)
  | delete (nodeName : String)

/-- What a step shows: the call that took it, and what the call returned. -/
structure Obs where
  actor : Option CallInfo := none
  ret : Option Ret := none
  deriving DecidableEq

/-- One step of a run. -/
abbrev Move (B : Type) := Transition (System B) (Event B) Obs

/-- The steps of a run, oldest first. -/
abbrev Trace (B : Type) := List (Move B)

/-- The call whose update commits in the step. The writes of other clients are nobody's. -/
def writer {B : Type} (t : Move B) : Option CallInfo :=
  if t.post.api.revision = t.pre.api.revision then none else t.obs.actor

/-- A node is deleted. -/
def Event.deletes {B : Type} : Event B → Bool
  | .delete _ => true
  | _ => false

/-- An update reaches the server and its answer is lost. -/
def Event.loses {B : Type} : Event B → Bool
  | .update (.lost _) => true
  | _ => false

/-- A call begins: it reads the lister. -/
def Event.gets {B : Type} : Event B → Bool
  | .get _ _ _ => true
  | _ => false

/-- A waiting call takes the mutex. -/
def Event.locks {B : Type} : Event B → Bool
  | .lock _ _ => true
  | _ => false

/-- The controller process starts or dies. -/
def Event.restarts {B : Type} : Event B → Bool
  | .start _ _ => true
  | .crash => true
  | _ => false

section

variable {B : Type}

/-- `NewLBController`. -/
def System.start [DecidableEq B] (s : System B) (ipList : List String)
    (clusterNodes : List (Node B)) : Option (System B × Obs) :=
  -- `handle` refuses to start without addresses; the informer has listed every node
  if s.ctl.isNone ∧ ipList ≠ [] ∧ (clusterNodes : Multiset (Node B)) = values s.api.server then
    match resyncIPMap ipList (.ok clusterNodes) with
    | .error _ => none
    | .ok ipMap => some ({ s with api := s.api.relist, ctl := some ⟨ipMap, [], none⟩ }, {})
  else none

/-- The lister `Get` of a call, and what follows it up to `c.mutex.Lock()`. -/
def System.get (s : System B) (c : Controller B) (info : CallInfo) : System B × Obs :=
  match info.op.beforeLock (listerGet s.api.cache info.nodeName) with
  | .error r => ({ s with tickets := s.tickets + 1 }, { actor := some info, ret := some r })
  | .ok node =>
      ({ s with ctl := some { c with waiting := c.waiting ++ [⟨info, node⟩] },
                tickets := s.tickets + 1 },
        { actor := some info })

/-- The `i`-th waiting call takes the mutex. A panic ends the process. -/
def System.lock (s : System B) (c : Controller B) (i : Nat) (ips : List String) :
    Option (System B × Obs) :=
  match c.critical, c.waiting[i]? with
  | none, some call =>
      -- only an assignment sorts the map
      if call.info.op = .assign → SortedByCount c.ipMap ips then
        let c' := { c with waiting := c.waiting.eraseIdx i }
        match call.info.op.afterLock c.ipMap call.node ips with
        | .ret .panicked =>
            some ({ s with ctl := none }, { actor := some call.info, ret := some .panicked })
        | .ret r => some ({ s with ctl := some c' }, { actor := some call.info, ret := some r })
        | .update ip nodeCopy =>
            some ({ s with ctl := some { c' with critical := some (.updating call ip nodeCopy) } },
              { actor := some call.info })
      else none
  | _, _ => none

/-- The call that holds the mutex updates the node. -/
def System.update (s : System B) (c : Controller B) (reply : Reply) : Option (System B × Obs) :=
  match c.critical with
  | some (.updating call ip nodeCopy) =>
      match nodesUpdate s.api call.info.nodeName nodeCopy reply with
      -- the call returns with an error, whether or not the update has committed
      | (api, some err) =>
          some ({ s with api := api, ctl := some { c with critical := none } },
            { actor := some call.info
              ret := some (call.info.op.updateFailed ip call.info.nodeName err) })
      | (api, none) =>
          some ({ s with api := api, ctl := some { c with critical := some (.counting call ip) } },
            { actor := some call.info })
  | _ => none

/-- The call that holds the mutex changes the counter, returns and releases the mutex. -/
def System.count (s : System B) (c : Controller B) : Option (System B × Obs) :=
  match c.critical with
  | some (.counting call ip) =>
      some ({ s with ctl := some { c with ipMap := IPMap.add c.ipMap ip call.info.op.delta,
                                          critical := none } },
        { actor := some call.info, ret := some (call.info.op.done ip) })
  | _ => none

/-- One event; `none` when it cannot happen in the state `s`. -/
def step [DecidableEq B] (s : System B) : Event B → Option (System B × Obs)
  | .start ipList clusterNodes => s.start ipList clusterNodes
  | .crash => s.ctl.map (fun _ => ({ s with ctl := none }, {}))
  | .get op nodeName volumeID =>
      s.ctl.map (fun c => s.get c ⟨s.tickets, op, nodeName, volumeID⟩)
  | .lock i ips => s.ctl.bind (fun c => s.lock c i ips)
  | .update reply => s.ctl.bind (fun c => s.update c reply)
  | .count => s.ctl.bind s.count
  | .deliver nodeName => (s.api.deliver nodeName).map (fun api => ({ s with api := api }, {}))
  | .create nodeName data =>
      -- other clients leave the annotation to the controller
      if s.api.server.lookup nodeName = none ∧ data.assignedIP = none then
        some ({ s with api := s.api.commit nodeName (some data) }, {})
      else none
  | .write nodeName data =>
      if (s.api.server.lookup nodeName).isSome ∧ data.assignedIP = s.assignedAt nodeName then
        some ({ s with api := s.api.commit nodeName (some data) }, {})
      else none
  | .delete nodeName =>
      if (s.api.server.lookup nodeName).isSome then
        some ({ s with api := s.api.commit nodeName none }, {})
      else none

end

/-! ## What a step can do -/

/-- The cases of a step, with everything that is known in each. -/
inductive Step {B : Type} (s : System B) : Event B → Obs → System B → Prop where
  | start {ipList : List String} {clusterNodes : List (Node B)} {ipMap : IPMap}
      (hctl : s.ctl = none) (hne : ipList ≠ [])
      (hlist : (clusterNodes : Multiset (Node B)) = values s.api.server)
      (hmap : resyncIPMap ipList (.ok clusterNodes) = .ok ipMap) :
      Step s (.start ipList clusterNodes) {}
        { s with api := s.api.relist, ctl := some ⟨ipMap, [], none⟩ }
  | crash {c : Controller B} (hctl : s.ctl = some c) : Step s .crash {} { s with ctl := none }
  | getReturn {c : Controller B} {op : Op} {n v : String} {r : Ret} (hctl : s.ctl = some c)
      (hget : op.beforeLock (listerGet s.api.cache n) = .error r) :
      Step s (.get op n v) { actor := some ⟨s.tickets, op, n, v⟩, ret := some r }
        { s with tickets := s.tickets + 1 }
  | getWait {c : Controller B} {op : Op} {n v : String} {node : Node B} (hctl : s.ctl = some c)
      (hget : op.beforeLock (listerGet s.api.cache n) = .ok node) :
      Step s (.get op n v) { actor := some ⟨s.tickets, op, n, v⟩ }
        { s with ctl := some { c with waiting := c.waiting ++ [⟨⟨s.tickets, op, n, v⟩, node⟩] },
                 tickets := s.tickets + 1 }
  | lockPanic {c : Controller B} {i : Nat} {ips : List String} {call : Call B}
      (hctl : s.ctl = some c) (hfree : c.critical = none) (hcall : c.waiting[i]? = some call)
      (hsort : call.info.op = .assign → SortedByCount c.ipMap ips)
      (hnext : call.info.op.afterLock c.ipMap call.node ips = .ret .panicked) :
      Step s (.lock i ips) { actor := some call.info, ret := some .panicked }
        { s with ctl := none }
  | lockReturn {c : Controller B} {i : Nat} {ips : List String} {call : Call B} {r : Ret}
      (hctl : s.ctl = some c) (hfree : c.critical = none) (hcall : c.waiting[i]? = some call)
      (hsort : call.info.op = .assign → SortedByCount c.ipMap ips)
      (hnext : call.info.op.afterLock c.ipMap call.node ips = .ret r) (hr : r ≠ .panicked) :
      Step s (.lock i ips) { actor := some call.info, ret := some r }
        { s with ctl := some { c with waiting := c.waiting.eraseIdx i } }
  | lockUpdate {c : Controller B} {i : Nat} {ips : List String} {call : Call B} {ip : String}
      {nodeCopy : Node B}
      (hctl : s.ctl = some c) (hfree : c.critical = none) (hcall : c.waiting[i]? = some call)
      (hsort : call.info.op = .assign → SortedByCount c.ipMap ips)
      (hnext : call.info.op.afterLock c.ipMap call.node ips = .update ip nodeCopy) :
      Step s (.lock i ips) { actor := some call.info }
        { s with ctl := some { c with waiting := c.waiting.eraseIdx i,
                                      critical := some (.updating call ip nodeCopy) } }
  | updateRefused {c : Controller B} {reply : Reply} {call : Call B} {ip err : String}
      {nodeCopy : Node B} (hctl : s.ctl = some c)
      (hcrit : c.critical = some (.updating call ip nodeCopy)) :
      Step s (.update reply)
        { actor := some call.info
          ret := some (call.info.op.updateFailed ip call.info.nodeName err) }
        { s with ctl := some { c with critical := none } }
  | updateLost {c : Controller B} {call : Call B} {ip err : String} {nodeCopy : Node B}
      {api : Replica String (NodeData B)} (hctl : s.ctl = some c)
      (hcrit : c.critical = some (.updating call ip nodeCopy))
      (happ : s.api.update call.info.nodeName nodeCopy = some api) :
      Step s (.update (.lost err))
        { actor := some call.info
          ret := some (call.info.op.updateFailed ip call.info.nodeName err) }
        { s with api := api, ctl := some { c with critical := none } }
  | updateDone {c : Controller B} {call : Call B} {ip err : String} {nodeCopy : Node B}
      {api : Replica String (NodeData B)} (hctl : s.ctl = some c)
      (hcrit : c.critical = some (.updating call ip nodeCopy))
      (happ : s.api.update call.info.nodeName nodeCopy = some api) :
      Step s (.update (.answered err)) { actor := some call.info }
        { s with api := api, ctl := some { c with critical := some (.counting call ip) } }
  | count {c : Controller B} {call : Call B} {ip : String} (hctl : s.ctl = some c)
      (hcrit : c.critical = some (.counting call ip)) :
      Step s .count { actor := some call.info, ret := some (call.info.op.done ip) }
        { s with ctl := some { c with ipMap := IPMap.add c.ipMap ip call.info.op.delta,
                                      critical := none } }
  | deliver {n : String} {api : Replica String (NodeData B)} (happ : s.api.deliver n = some api) :
      Step s (.deliver n) {} { s with api := api }
  | create {n : String} {data : NodeData B} (hnew : s.api.server.lookup n = none)
      (hdata : data.assignedIP = none) :
      Step s (.create n data) {} { s with api := s.api.commit n (some data) }
  | write {n : String} {data : NodeData B} {old : Node B}
      (hold : s.api.server.lookup n = some old) (hdata : data.assignedIP = assigned old) :
      Step s (.write n data) {} { s with api := s.api.commit n (some data) }
  | delete {n : String} {old : Node B} (hold : s.api.server.lookup n = some old) :
      Step s (.delete n) {} { s with api := s.api.commit n none }

section

variable {B : Type}

theorem nodesUpdate_cases (api : Replica String (NodeData B)) (n : String) (nodeCopy : Node B)
    (reply : Reply) :
    (∃ err, nodesUpdate api n nodeCopy reply = (api, some err)) ∨
    (∃ err api', reply = .lost err ∧ api.update n nodeCopy = some api' ∧
      nodesUpdate api n nodeCopy reply = (api', some err)) ∨
    (∃ err api', reply = .answered err ∧ api.update n nodeCopy = some api' ∧
      nodesUpdate api n nodeCopy reply = (api', none)) := by
  cases reply with
  | unsent err => exact Or.inl ⟨err, rfl⟩
  | answered err =>
      cases h : api.update n nodeCopy with
      | none => exact Or.inl ⟨err, by simp [nodesUpdate, h]⟩
      | some api' => exact Or.inr (Or.inr ⟨err, api', rfl, rfl, by simp [nodesUpdate, h]⟩)
  | lost err =>
      cases h : api.update n nodeCopy with
      | none => exact Or.inl ⟨err, by simp [nodesUpdate, h]⟩
      | some api' => exact Or.inr (Or.inl ⟨err, api', rfl, rfl, by simp [nodesUpdate, h]⟩)

variable {s s' : System B} {o : Obs}

theorem start_cases [DecidableEq B] {ipList : List String} {clusterNodes : List (Node B)}
    (h : s.start ipList clusterNodes = some (s', o)) :
    Step s (.start ipList clusterNodes) o s' := by
  unfold System.start at h
  split at h
  · rename_i hguard
    obtain ⟨hctl, hne, hlist⟩ := hguard
    have hctl' : s.ctl = none := by simpa using hctl
    split at h
    · cases h
    · rename_i ipMap hmap
      obtain ⟨rfl, rfl⟩ := Prod.mk.inj (Option.some.inj h)
      exact Step.start hctl' hne hlist hmap
  · cases h

theorem get_cases {c : Controller B} {op : Op} {n v : String} (hctl : s.ctl = some c)
    (h : s.get c ⟨s.tickets, op, n, v⟩ = (s', o)) : Step s (.get op n v) o s' := by
  unfold System.get at h
  split at h
  · rename_i r hget
    obtain ⟨rfl, rfl⟩ := Prod.mk.inj h
    exact Step.getReturn hctl hget
  · rename_i node hget
    obtain ⟨rfl, rfl⟩ := Prod.mk.inj h
    exact Step.getWait hctl hget

theorem lock_cases {c : Controller B} {i : Nat} {ips : List String} (hctl : s.ctl = some c)
    (h : s.lock c i ips = some (s', o)) : Step s (.lock i ips) o s' := by
  unfold System.lock at h
  split at h
  · rename_i call hfree hcall
    split at h
    · rename_i hsort
      simp only at h
      split at h
      · rename_i hnext
        obtain ⟨rfl, rfl⟩ := Prod.mk.inj (Option.some.inj h)
        exact Step.lockPanic hctl hfree hcall hsort hnext
      · rename_i r hr hnext
        obtain ⟨rfl, rfl⟩ := Prod.mk.inj (Option.some.inj h)
        exact Step.lockReturn hctl hfree hcall hsort hnext (fun e => hr (e ▸ rfl))
      · rename_i ip nodeCopy hnext
        obtain ⟨rfl, rfl⟩ := Prod.mk.inj (Option.some.inj h)
        exact Step.lockUpdate hctl hfree hcall hsort hnext
    · cases h
  · cases h

theorem update_cases {c : Controller B} {reply : Reply} (hctl : s.ctl = some c)
    (h : s.update c reply = some (s', o)) : Step s (.update reply) o s' := by
  unfold System.update at h
  split at h
  · rename_i call ip nodeCopy hcrit
    rcases nodesUpdate_cases s.api call.info.nodeName nodeCopy reply with
      ⟨err, hu⟩ | ⟨err, api, rfl, happ, hu⟩ | ⟨err, api, rfl, happ, hu⟩
    · simp only [hu] at h
      obtain ⟨rfl, rfl⟩ := Prod.mk.inj (Option.some.inj h)
      exact Step.updateRefused hctl hcrit
    · simp only [hu] at h
      obtain ⟨rfl, rfl⟩ := Prod.mk.inj (Option.some.inj h)
      exact Step.updateLost hctl hcrit happ
    · simp only [hu] at h
      obtain ⟨rfl, rfl⟩ := Prod.mk.inj (Option.some.inj h)
      exact Step.updateDone hctl hcrit happ
  · cases h

theorem count_cases {c : Controller B} (hctl : s.ctl = some c)
    (h : s.count c = some (s', o)) : Step s .count o s' := by
  unfold System.count at h
  split at h
  · rename_i call ip hcrit
    obtain ⟨rfl, rfl⟩ := Prod.mk.inj (Option.some.inj h)
    exact Step.count hctl hcrit
  · cases h

/-- **Inversion of a step.** -/
theorem step_cases [DecidableEq B] {e : Event B} (h : step s e = some (s', o)) : Step s e o s' := by
  cases e with
  | start ipList clusterNodes => exact start_cases h
  | crash =>
      obtain ⟨c, hctl, heq⟩ := Option.map_eq_some_iff.mp h
      obtain ⟨rfl, rfl⟩ := Prod.mk.inj heq
      exact Step.crash hctl
  | get op n v =>
      obtain ⟨c, hctl, heq⟩ := Option.map_eq_some_iff.mp h
      exact get_cases hctl heq
  | lock i ips =>
      obtain ⟨c, hctl, heq⟩ := Option.bind_eq_some_iff.mp h
      exact lock_cases hctl heq
  | update reply =>
      obtain ⟨c, hctl, heq⟩ := Option.bind_eq_some_iff.mp h
      exact update_cases hctl heq
  | count =>
      obtain ⟨c, hctl, heq⟩ := Option.bind_eq_some_iff.mp h
      exact count_cases hctl heq
  | deliver n =>
      obtain ⟨api, happ, heq⟩ := Option.map_eq_some_iff.mp h
      obtain ⟨rfl, rfl⟩ := Prod.mk.inj heq
      exact Step.deliver happ
  | create n data =>
      simp only [step, Option.ite_none_right_eq_some, Option.some.injEq, Prod.mk.injEq] at h
      obtain ⟨⟨hnew, hdata⟩, rfl, rfl⟩ := h
      exact Step.create hnew hdata
  | write n data =>
      simp only [step, Option.ite_none_right_eq_some, Option.some.injEq, Prod.mk.injEq] at h
      obtain ⟨⟨hsome, hdata⟩, rfl, rfl⟩ := h
      obtain ⟨old, hold⟩ := Option.isSome_iff_exists.mp hsome
      rw [System.assignedAt, NfsLbCsi.assignedAt, hold, Option.bind_some] at hdata
      exact Step.write hold hdata
  | delete n =>
      simp only [step, Option.ite_none_right_eq_some, Option.some.injEq, Prod.mk.injEq] at h
      obtain ⟨hsome, rfl, rfl⟩ := h
      obtain ⟨old, hold⟩ := Option.isSome_iff_exists.mp hsome
      exact Step.delete hold

/-- Every call reads the lister when its cache has caught up. -/
def UpToDate (tr : Trace B) : Prop := ∀ t ∈ tr, t.event.gets = true → t.pre.api.Synced

instance [DecidableEq B] (tr : Trace B) : Decidable (UpToDate tr) :=
  inferInstanceAs (Decidable (∀ t ∈ tr, t.event.gets = true → t.pre.api.cache = t.pre.api.server))

/-! ## Concrete runs -/

/-- A computed run that ends with the controller up and passes the test `p`. -/
theorem exists_run [DecidableEq B] (s₀ : System B) (es : List (Event B))
    (p : Trace B → System B → Controller B → Bool)
    (h : (exec step s₀ es).any (fun r => r.2.ctl.any (fun c => p r.1 r.2 c)) = true) :
    ∃ tr s c, Run step s₀ tr s ∧ s.ctl = some c ∧ p tr s c = true := by
  obtain ⟨tr, s, hrun, hp⟩ := run_of_exec (p := fun tr (s : System B) =>
    s.ctl.any (fun c => p tr s c)) h
  obtain ⟨c, hc, hpc⟩ := (Option.any_eq_true _ _).mp hp
  exact ⟨tr, s, c, hrun, hc, hpc⟩

end

/-- A node without annotations. -/
def bareNode : NodeData Unit := ⟨none, ()⟩

/-- An API server with the given nodes, all without annotations, and a synced cache. -/
def cluster (names : List String) : Replica String (NodeData Unit) :=
  (names.foldl (fun api n => api.commit n (some bareNode)) Replica.empty).relist

/-- The process just after it has been started on such a cluster. -/
def booted (names ipList : List String) : System Unit :=
  ⟨cluster names, some ⟨zeroCounts ipList, [], none⟩, 0⟩

end NfsLbCsi
