import NfsLbCsi.LBController.Counting

set_option autoImplicit false

/-! # Calls that run undisturbed

`assignIPToNode` and `removeIPFromNode` perform a whole call with nothing happening in between. They
are the special runs of the system in which the four pieces of a call follow one another
(`call_run`), so whatever holds of every run holds of them. With a cache that has caught up, what a
call returns says what the API server has (`call_assigned`, `call_removed`).
-/

namespace NfsLbCsi

open Tally Optimistic Lts

section

variable {B : Type}

/-- The cases of an undisturbed call. -/
inductive Called (op : Op) (lb : LBController B) (n : String) (ips : List String) (reply : Reply) :
    Ret → LBController B → Prop where
  | before {r : Ret} (hget : op.beforeLock (listerGet lb.api.cache n) = .error r) :
      Called op lb n ips reply r lb
  | decided {node : Node B} {r : Ret}
      (hget : op.beforeLock (listerGet lb.api.cache n) = .ok node)
      (hnext : op.afterLock lb.ipMap node ips = .ret r) : Called op lb n ips reply r lb
  | failed {node nodeCopy : Node B} {ip err : String} {api : Replica String (NodeData B)}
      (hget : op.beforeLock (listerGet lb.api.cache n) = .ok node)
      (hnext : op.afterLock lb.ipMap node ips = .update ip nodeCopy)
      (hupdate : nodesUpdate lb.api n nodeCopy reply = (api, some err)) :
      Called op lb n ips reply (op.updateFailed ip n err) ⟨api, lb.ipMap⟩
  | done {node nodeCopy : Node B} {ip : String} {api : Replica String (NodeData B)}
      (hget : op.beforeLock (listerGet lb.api.cache n) = .ok node)
      (hnext : op.afterLock lb.ipMap node ips = .update ip nodeCopy)
      (hupdate : nodesUpdate lb.api n nodeCopy reply = (api, none)) :
      Called op lb n ips reply (op.done ip) ⟨api, IPMap.add lb.ipMap ip op.delta⟩

variable {op : Op} {lb lb' : LBController B} {n : String} {ips : List String} {reply : Reply}
  {r : Ret}

theorem call_cases (h : op.call lb n ips reply = (r, lb')) : Called op lb n ips reply r lb' := by
  unfold Op.call at h
  split at h
  · rename_i r₀ hget
    obtain ⟨rfl, rfl⟩ := Prod.mk.inj h
    exact Called.before hget
  · rename_i node hget
    split at h
    · rename_i r₀ hnext
      obtain ⟨rfl, rfl⟩ := Prod.mk.inj h
      exact Called.decided hget hnext
    · rename_i ip nodeCopy hnext
      split at h
      · rename_i api err hupdate
        obtain ⟨rfl, rfl⟩ := Prod.mk.inj h
        exact Called.failed hget hnext hupdate
      · rename_i api hupdate
        obtain ⟨rfl, rfl⟩ := Prod.mk.inj h
        exact Called.done hget hnext hupdate

/-! ## An undisturbed call is a run -/

/-- The system between two calls. -/
def LBController.system (lb : LBController B) (tickets : Nat) : System B :=
  ⟨lb.api, some ⟨lb.ipMap, [], none⟩, tickets⟩

theorem system_idle (lb : LBController B) (k : Nat) : (lb.system k).Idle := by
  intro c hc
  obtain rfl := Option.some.inj hc
  exact ⟨rfl, rfl⟩

/-- The steps of a run that neither restarts the process, nor deletes a node, nor loses an
answer. -/
def Plain (tr : Trace B) : Prop :=
  ∀ t ∈ tr, t.event.restarts = false ∧ t.event.deletes = false ∧ t.event.loses = false

theorem plain_nil : Plain ([] : Trace B) := by
  intro t ht
  cases ht

theorem Plain.append {tr tr' : Trace B} (h : Plain tr) (h' : Plain tr') : Plain (tr ++ tr') := by
  intro t ht
  rcases List.mem_append.mp ht with ht | ht
  · exact h t ht
  · exact h' t ht

theorem Plain.snoc {tr : Trace B} {t : Move B} (h : Plain tr) (hstart : t.event.restarts = false)
    (hdel : t.event.deletes = false) (hloss : t.event.loses = false) : Plain (tr ++ [t]) := by
  refine h.append (fun u hu => ?_)
  obtain rfl := List.mem_singleton.mp hu
  exact ⟨hstart, hdel, hloss⟩

theorem update_loses (h : reply.isLost = false) : (Event.update reply : Event B).loses = false := by
  cases reply <;> first | rfl | cases h

/-- **Simulation.** The pieces of the call, one after the other, return the same and leave the same
behind. -/
theorem call_run [DecidableEq B] (h : op.call lb n ips reply = (r, lb')) (hr : r ≠ .panicked)
    (hsort : op = .assign → SortedByCount lb.ipMap ips) (hreply : reply.isLost = false)
    (v : String) (k : Nat) :
    ∃ tr t, Run step (lb.system k) (tr ++ [t]) (lb'.system (k + 1)) ∧ Plain (tr ++ [t]) ∧
      t.obs = { actor := some ⟨k, op, n, v⟩, ret := some r } := by
  have hloses : (Event.update reply : Event B).loses = false := update_loses hreply
  -- the lister `Get` that queues for the mutex, and the decision under the mutex
  have hwait : ∀ {node : Node B}, op.beforeLock (listerGet lb.api.cache n) = .ok node →
      step (lb.system k) (.get op n v) = some
        (⟨lb.api, some ⟨lb.ipMap, [⟨⟨k, op, n, v⟩, node⟩], none⟩, k + 1⟩,
          { actor := some ⟨k, op, n, v⟩ }) := by
    intro node hget
    simp [step, LBController.system, System.get, hget]
  have hupdating : ∀ {node nodeCopy : Node B} {ip : String},
      op.afterLock lb.ipMap node ips = .update ip nodeCopy →
      step ⟨lb.api, some ⟨lb.ipMap, [⟨⟨k, op, n, v⟩, node⟩], none⟩, k + 1⟩ (.lock 0 ips) = some
        (⟨lb.api, some ⟨lb.ipMap, [], some (.updating ⟨⟨k, op, n, v⟩, node⟩ ip nodeCopy)⟩, k + 1⟩,
          { actor := some ⟨k, op, n, v⟩ }) := by
    intro node nodeCopy ip hnext
    simpa [step, System.lock, hnext] using hsort
  cases call_cases h with
  | before hget =>
      refine ⟨[], _, Run.nil.snoc (e := .get op n v) ?_, plain_nil.snoc rfl rfl rfl, rfl⟩
      simp only [step, LBController.system, Option.map_some, System.get, hget]
  | @decided node _ hget hnext =>
      have hlock : step ⟨lb.api, some ⟨lb.ipMap, [⟨⟨k, op, n, v⟩, node⟩], none⟩, k + 1⟩
          (.lock 0 ips)
          = some (lb.system (k + 1), { actor := some ⟨k, op, n, v⟩, ret := some r }) := by
        cases r with
        | panicked => exact absurd rfl hr
        | _ => simpa [step, LBController.system, System.lock, hnext] using hsort
      exact ⟨_, _, (Run.nil.snoc (hwait hget)).snoc hlock,
        (plain_nil.snoc rfl rfl rfl).snoc rfl rfl rfl, rfl⟩
  | @failed node nodeCopy ip err api hget hnext hupdate =>
      have hfail : step ⟨lb.api,
          some ⟨lb.ipMap, [], some (.updating ⟨⟨k, op, n, v⟩, node⟩ ip nodeCopy)⟩, k + 1⟩
          (.update reply) = some (LBController.system ⟨api, lb.ipMap⟩ (k + 1),
            { actor := some ⟨k, op, n, v⟩, ret := some (op.updateFailed ip n err) }) := by
        simp [step, LBController.system, System.update, hupdate]
      exact ⟨_, _, ((Run.nil.snoc (hwait hget)).snoc (hupdating hnext)).snoc hfail,
        ((plain_nil.snoc rfl rfl rfl).snoc rfl rfl rfl).snoc rfl rfl hloses, rfl⟩
  | @done node nodeCopy ip api hget hnext hupdate =>
      have hsend : step ⟨lb.api,
          some ⟨lb.ipMap, [], some (.updating ⟨⟨k, op, n, v⟩, node⟩ ip nodeCopy)⟩, k + 1⟩
          (.update reply) = some
            (⟨api, some ⟨lb.ipMap, [], some (.counting ⟨⟨k, op, n, v⟩, node⟩ ip)⟩, k + 1⟩,
              { actor := some ⟨k, op, n, v⟩ }) := by
        simp [step, System.update, hupdate]
      have hcount : step ⟨api, some ⟨lb.ipMap, [], some (.counting ⟨⟨k, op, n, v⟩, node⟩ ip)⟩,
          k + 1⟩ .count = some (LBController.system ⟨api, IPMap.add lb.ipMap ip op.delta⟩ (k + 1),
            { actor := some ⟨k, op, n, v⟩, ret := some (op.done ip) }) := by
        simp [step, LBController.system, System.count]
      exact ⟨_, _, (((Run.nil.snoc (hwait hget)).snoc (hupdating hnext)).snoc hsend).snoc hcount,
        (((plain_nil.snoc rfl rfl rfl).snoc rfl rfl rfl).snoc rfl rfl hloses).snoc rfl rfl rfl, rfl⟩

/-! ## Reading the answer -/

/-- The annotations of the nodes on the API server. -/
def LBController.assignedAt (lb : LBController B) (n : String) : Option String :=
  NfsLbCsi.assignedAt lb.api.server n

/-- An update that has been acknowledged has committed. -/
theorem nodesUpdate_none {api api' : Replica String (NodeData B)} {nodeCopy : Node B}
    (h : nodesUpdate api n nodeCopy reply = (api', none)) :
    api' = api.commit n (some nodeCopy.value) := by
  rcases nodesUpdate_cases api n nodeCopy reply with
    ⟨err, hu⟩ | ⟨err, api₁, -, -, hu⟩ | ⟨err, api₁, -, happ, hu⟩
  · rw [hu] at h
    cases h
  · rw [hu] at h
    cases h
  · rw [hu] at h
    obtain ⟨rfl, -⟩ := Prod.mk.inj h
    obtain ⟨cur, -, -, heq⟩ := Replica.update_eq_some happ
    exact heq

/-- An update that returns an error has had no effect, unless the answer was lost. -/
theorem nodesUpdate_some {api api' : Replica String (NodeData B)} {nodeCopy : Node B} {err : String}
    (h : nodesUpdate api n nodeCopy reply = (api', some err)) (hreply : reply.isLost = false) :
    api' = api := by
  rcases nodesUpdate_cases api n nodeCopy reply with
    ⟨err₁, hu⟩ | ⟨err₁, api₁, rfl, -, -⟩ | ⟨err₁, api₁, -, -, hu⟩
  · rw [hu] at h
    exact (Prod.mk.inj h).1.symm
  · cases hreply
  · rw [hu] at h
    cases h

/-- A call touches no node but its own. -/
theorem call_other (h : op.call lb n ips reply = (r, lb')) {n' : String} (hn : n' ≠ n)
    (hreply : reply.isLost = false) : lb'.assignedAt n' = lb.assignedAt n' := by
  cases call_cases h with
  | before => rfl
  | decided => rfl
  | failed hget hnext hupdate =>
      obtain rfl := nodesUpdate_some hupdate hreply
      rfl
  | done hget hnext hupdate =>
      obtain rfl := nodesUpdate_none hupdate
      rw [LBController.assignedAt, assignedAt_commit, if_neg hn, LBController.assignedAt]

/-- No call changes the set of IPs. -/
theorem call_keys (h : op.call lb n ips reply = (r, lb'))
    (hsort : op = .assign → SortedByCount lb.ipMap ips) : lb'.ipMap.keys = lb.ipMap.keys := by
  cases call_cases h with
  | before => rfl
  | decided => rfl
  | failed => rfl
  | done hget hnext hupdate => exact keys_add (afterLock_mem hsort hnext) _

/-- A call that fails leaves everything as it is. -/
theorem call_failed (h : op.call lb n ips reply = (r, lb')) (hr : r ≠ .removed)
    (hr' : ∀ ip, r ≠ .assigned ip) (hreply : reply.isLost = false) : lb' = lb := by
  cases call_cases h with
  | before => rfl
  | decided => rfl
  | failed hget hnext hupdate =>
      obtain rfl := nodesUpdate_some hupdate hreply
      rfl
  | done =>
      cases op with
      | assign => exact absurd rfl (hr' _)
      | remove => exact absurd rfl hr

/-- The object that a call has read is the one on the API server. -/
theorem assignedAt_of_synced (hsync : lb.api.Synced) {node : Node B}
    (hget : op.beforeLock (listerGet lb.api.cache n) = .ok node) :
    lb.assignedAt n = assigned node := by
  have hcache := beforeLock_ok hget
  rw [hsync] at hcache
  rw [LBController.assignedAt, NfsLbCsi.assignedAt, hcache, Option.bind_some]

/-- **The IP that `AssignIPToNode` returns is the annotation of the node**, and a known one. -/
theorem call_assigned {ip : String} (h : op.call lb n ips reply = (.assigned ip, lb'))
    (hsync : lb.api.Synced) (hsort : op = .assign → SortedByCount lb.ipMap ips) :
    lb'.assignedAt n = some ip ∧ ip ∈ lb.ipMap := by
  generalize hr : Ret.assigned ip = r at h
  cases call_cases h with
  | before hget => exact absurd hr.symm (beforeLock_error hget ip)
  | decided hget hnext =>
      subst hr
      obtain ⟨-, hassigned, hmem⟩ := afterLock_ret_assigned hnext
      rw [assignedAt_of_synced hsync hget]
      exact ⟨hassigned, hmem⟩
  | failed => exact absurd hr.symm (updateFailed_ne_assigned _ _ _ _ ip)
  | @done node nodeCopy ip₀ api hget hnext hupdate =>
      obtain rfl := nodesUpdate_none hupdate
      have hmem := afterLock_mem hsort hnext
      have hwritten := afterLock_written hnext
      cases op with
      | remove => cases hr
      | assign =>
          obtain rfl := Ret.assigned.inj hr
          rw [LBController.assignedAt, assignedAt_commit, if_pos rfl, Option.bind_some, hwritten]
          exact ⟨rfl, hmem⟩

/-- **After `RemoveIPFromNode` has returned `nil` the node has no annotation**, if it had none with
an unknown IP. -/
theorem call_removed (h : Op.remove.call lb n ips reply = (.removed, lb')) (hsync : lb.api.Synced)
    (hknown : ∀ ip, lb.assignedAt n = some ip → ip ∈ lb.ipMap) : lb'.assignedAt n = none := by
  generalize hr : Ret.removed = r at h
  cases call_cases h with
  | before hget =>
      subst hr
      have hnone := (removeBeforeLock_error hget).2
      rw [hsync] at hnone
      exact hnone
  | decided hget hnext =>
      have hunknown := (removeAfterLock_ret hnext).2
      have hat := assignedAt_of_synced hsync hget
      rw [← hat] at hunknown
      cases hnode : lb.assignedAt n with
      | none => rfl
      | some ip => exact absurd (hknown ip hnode) (hunknown ip hnode)
  | failed => exact absurd hr.symm (updateFailed_ne_removed _ _ _ _)
  | done hget hnext hupdate =>
      obtain rfl := nodesUpdate_none hupdate
      rw [LBController.assignedAt, assignedAt_commit, if_pos rfl, Option.bind_some,
        afterLock_written hnext]
      rfl

/-- A node with a known IP keeps it: `AssignIPToNode` returns it and writes nothing. -/
theorem call_hit {ip : String} (hsync : lb.api.Synced) (hat : lb.assignedAt n = some ip)
    (hmem : ip ∈ lb.ipMap) : Op.assign.call lb n ips reply = (.assigned ip, lb) := by
  obtain ⟨node, hnode, hassigned⟩ := Option.bind_eq_some_iff.mp hat
  rw [← hsync] at hnode
  simp only [Op.call, Op.beforeLock, listerGet, hnode, assignBeforeLock, Op.afterLock,
    assignAfterLock, hassigned, if_pos hmem]

/-- An update that is made from the current object and reaches the server commits. -/
theorem nodesUpdate_synced {api : Replica String (NodeData B)} {node nodeCopy : Node B}
    {err : String} (hsync : api.Synced) (hcache : api.cache.lookup n = some node)
    (hversion : nodeCopy.version = node.version) :
    nodesUpdate api n nodeCopy (.answered err) = (api.commit n (some nodeCopy.value), none) := by
  rw [hsync] at hcache
  simp [nodesUpdate, Replica.update, hcache, hversion]

/-- With a cache that has caught up and a server that answers, `RemoveIPFromNode` returns `nil`. -/
theorem remove_succeeds {err : String} (h : Op.remove.call lb n ips (.answered err) = (r, lb'))
    (hsync : lb.api.Synced) : r = .removed := by
  cases call_cases h with
  | before hget => exact (removeBeforeLock_error hget).1
  | decided hget hnext => exact (removeAfterLock_ret hnext).1
  | failed hget hnext hupdate =>
      rw [nodesUpdate_synced hsync (beforeLock_ok hget) (afterLock_version hnext)] at hupdate
      cases hupdate
  | done => rfl

/-! ## The others -/

/-- The cache catches up by one step, or another client creates or writes a node. -/
def Event.environment : Event B → Bool
  | .deliver _ => true
  | .create _ _ => true
  | .write _ _ => true
  | _ => false

/-- What the others do does not depend on the controller. -/
theorem environment_step [DecidableEq B] {api : Replica String (NodeData B)} {e : Event B}
    {s' : System B} {o : Obs} (he : e.environment = true) (h : step ⟨api, none, 0⟩ e = some (s', o))
    (ctl : Option (Controller B)) (k : Nat) :
    step ⟨api, ctl, k⟩ e = some (⟨s'.api, ctl, k⟩, o) := by
  cases e with
  | deliver m =>
      obtain ⟨api', hdeliver, heq⟩ := Option.map_eq_some_iff.mp h
      obtain ⟨rfl, rfl⟩ := Prod.mk.inj heq
      exact Option.map_eq_some_iff.mpr ⟨api', hdeliver, rfl⟩
  | create m data =>
      simp only [step, Option.ite_none_right_eq_some, Option.some.injEq, Prod.mk.injEq] at h ⊢
      obtain ⟨hguard, rfl, rfl⟩ := h
      exact ⟨hguard, rfl, rfl⟩
  | write m data =>
      simp only [step, Option.ite_none_right_eq_some, Option.some.injEq, Prod.mk.injEq] at h ⊢
      obtain ⟨hguard, rfl, rfl⟩ := h
      exact ⟨hguard, rfl, rfl⟩
  | _ => cases he

/-- The others leave the assigned IPs alone. -/
theorem environment_assignedAt [DecidableEq B] {api : Replica String (NodeData B)} {e : Event B}
    {s' : System B} {o : Obs} (he : e.environment = true) (h : step ⟨api, none, 0⟩ e = some (s', o))
    (n : String) : assignedAt s'.api.server n = assignedAt api.server n := by
  have hsound : System.Sound (⟨api, none, 0⟩ : System B) := by
    intro c hc
    cases hc
  rcases (step_cases h).assignedAt_cases hsound n with ⟨hsame, -⟩ | ⟨rfl, -⟩ | ⟨c, _, _, _, hc, -⟩
  · exact hsame
  · cases he
  · cases hc

end

end NfsLbCsi
