import NfsLbCsi.LBController.Counting

set_option autoImplicit false

/-! # Lost answers and deleted nodes

The two ways in which `ipMap` and the annotations come apart while the process stays up.

* An update commits and its answer is lost. The counter is not changed, and neither is it by the
  retry, which finds the annotation as it wants it and returns early. As long as every update that
  returns an error has had no effect, there is no drift (`noDrift_of_acknowledged`).
* A node is deleted with its annotation. `RemoveIPFromNode` does not find the node and returns
  `nil` before it reaches the counter, so the slot stays taken until the process is restarted
  (`count_eq_nodesAt_add_deleted`).

Both are readings of the `ledger`.
-/

namespace NfsLbCsi

open Tally Optimistic Lts

section

variable {B : Type}

/-! ## Calls and their returns -/

/-- The call has returned without an error. -/
def Ret.ok : Ret → Bool
  | .assigned _ => true
  | .removed => true
  | .failed _ => false
  | .panicked => false

/-- The step ends, without an error, a call with the arguments of `a`. -/
def Obs.succeeds (o : Obs) (a : CallInfo) : Bool :=
  match o.actor, o.ret with
  | some b, some r => b.op == a.op && b.nodeName == a.nodeName && b.volumeID == a.volumeID && r.ok
  | _, _ => false

/-- Every call that has returned an error has been made again until it returned none. -/
def retried : Trace B → Bool
  | [] => true
  | t :: tr =>
      (match t.obs.actor, t.obs.ret with
        | some a, some r => r.ok || tr.any (fun u => u.obs.succeeds a)
        | _, _ => true) && retried tr

/-! ## Lost answers -/

/-- Runs of calls on one process, with a cache that has caught up whenever a call reads it. Updates
may fail, and may also commit and return an error all the same. -/
structure RetryRun [DecidableEq B] (ipList : List String) (s₀ : System B) (tr : Trace B)
    (s : System B) : Prop where
  balanced : s₀.Balanced ipList
  run : Run step s₀ tr s
  no_restart : ∀ t ∈ tr, t.event.restarts = false
  no_delete : ∀ t ∈ tr, t.event.deletes = false
  up_to_date : UpToDate tr

/-- No count is negative, and once every call has been retried until it returned `nil` the counts
are right. -/
def NoDrift (tr : Trace B) (s : System B) : Prop :=
  ∀ c, s.ctl = some c →
    (∀ ip, 0 ≤ IPMap.count c.ipMap ip) ∧
    (retried tr = true → c.waiting = [] → c.critical = none →
      ∀ ip ∈ c.ipMap, IPMap.count c.ipMap ip = s.nodesAt ip)

/-- The count of an IP that is no key. -/
theorem count_eq_zero {m : IPMap} {ip : String} (h : ip ∉ m) : IPMap.count m ip = 0 := by
  rw [IPMap.count, Finmap.lookup_eq_none.mpr h, Option.getD_none]

/-- Without slips, no count is ever negative, inside a critical section or not. -/
theorem count_nonneg [DecidableEq B] {ipList : List String} {s₀ s : System B} {tr : Trace B}
    (h₀ : s₀.Balanced ipList) (hrun : Run step s₀ tr s)
    (hplain : ∀ t ∈ tr, t.event.deletes = false ∧ t.event.loses = false) :
    ∀ c, s.ctl = some c → ∀ ip, 0 ≤ IPMap.count c.ipMap ip := by
  have hfreeCase : ∀ {tr : Trace B} {s : System B}, Run step s₀ tr s →
      (∀ t ∈ tr, t.event.deletes = false ∧ t.event.loses = false) →
      ∀ c, s.ctl = some c → c.critical = none → ∀ ip, 0 ≤ IPMap.count c.ipMap ip := by
    intro tr s hrun hplain c hc hfree ip
    by_cases hip : ip ∈ c.ipMap
    · have hcount := count_eq_of_free h₀ hrun hc hfree hip
      rw [drift_eq_zero (fun t ht => (hplain t ht).1) (fun t ht => (hplain t ht).2)] at hcount
      omega
    · rw [count_eq_zero hip]
  -- the map changes only in steps that leave the mutex free, and there the ledger applies
  refine Run.traceInvariant
    (I := fun _ s => ∀ c, s.ctl = some c → ∀ ip, 0 ≤ IPMap.count c.ipMap ip)
    (P := fun t => t.event.deletes = false ∧ t.event.loses = false) ?_ ?_ hrun hplain
  · intro c hc
    exact hfreeCase Run.nil (by simp) c hc (h₀.idle c hc).2
  · intro tr t hpre hstep ht hold ih c' hc'
    have hchange : c'.critical = none ∨ ∃ c, t.pre.ctl = some c ∧ c'.ipMap = c.ipMap := by
      rcases (step_cases hstep).ipMap_cases hc' with
        ⟨_, _, -, hfree⟩ | ⟨c, hc, hsame | ⟨_, _, -, -, hfree, -⟩⟩
      · exact Or.inl hfree
      · exact Or.inr ⟨c, hc, hsame⟩
      · exact Or.inl hfree
    rcases hchange with hfree | ⟨c, hc, hsame⟩
    · refine hfreeCase (hpre.snoc hstep) (fun u hu => ?_) c' hc' hfree
      rcases List.mem_append.mp hu with hu | hu
      · exact hold u hu
      · rw [List.mem_singleton.mp hu]; exact ht
    · rw [hsame]; exact ih c hc

/-- **No drift while every error means that nothing was written.** With lost answers, the counts are
right exactly as long as the effects of the updates whose answers were lost cancel. -/
theorem noDrift_of_acknowledged [DecidableEq B] {ipList : List String} {s₀ s : System B}
    {tr : Trace B} (h : RetryRun ipList s₀ tr s) :
    ((∀ t ∈ tr, t.event.loses = false) → NoDrift tr s) ∧
    ∀ c, s.ctl = some c → c.critical = none → ∀ ip ∈ c.ipMap,
      (IPMap.count c.ipMap ip = s.nodesAt ip ↔ drift tr ip = 0) := by
  constructor
  · intro hack c hc
    refine ⟨?_, fun _ _ hfree ip hip => ?_⟩
    · exact count_nonneg h.balanced h.run (fun t ht => ⟨h.no_delete t ht, hack t ht⟩) c hc
    · have hcount := count_eq_of_free h.balanced h.run hc hfree hip
      rw [drift_eq_zero h.no_delete hack, Int.add_zero] at hcount
      exact hcount
  · intro c hc hfree ip hip
    have hcount := count_eq_of_free h.balanced h.run hc hfree hip
    omega

end

/-- The answer to an assignment is lost; the retry finds the node annotated and returns; the
removal is acknowledged. -/
def lostEvents : List (Event Unit) :=
  [.get .assign "n1" "v1", .lock 0 ["10.0.0.1"], .update (.lost "timeout"), .deliver "n1",
   .get .assign "n1" "v1", .lock 0 ["10.0.0.1"],
   .get .remove "n1" "v1", .lock 0 [], .update (.answered ""), .count]

/-- Every call has returned `nil` in the end, no node is annotated, and the count is `-1`. -/
theorem drift_after_lost_answer :
    ∃ tr s c, RetryRun ["10.0.0.1"] (booted ["n1"] ["10.0.0.1"]) tr s ∧ s.ctl = some c ∧
      retried tr = true ∧ c.waiting = [] ∧ c.critical = none ∧
      c.ipMap.lookup "10.0.0.1" = some (-1) ∧ s.nodesAt "10.0.0.1" = 0 ∧ ¬ NoDrift tr s := by
  obtain ⟨tr, s, c, hrun, hup, hp⟩ := exists_run (booted ["n1"] ["10.0.0.1"]) lostEvents
    (fun tr s c => tr.all (fun t => !t.event.restarts && !t.event.deletes)
      && decide (UpToDate tr) && retried tr && c.waiting.isEmpty && c.critical.isNone
      && decide (c.ipMap.lookup "10.0.0.1" = some (-1)) && decide (s.nodesAt "10.0.0.1" = 0))
    (by decide)
  simp only [Bool.and_eq_true, decide_eq_true_eq, List.all_eq_true, Bool.not_eq_true',
    Option.isNone_iff_eq_none, List.isEmpty_iff] at hp
  obtain ⟨⟨⟨⟨⟨⟨hplain, hsync⟩, hret⟩, hwait⟩, hfree⟩, hcount⟩, hnodes⟩ := hp
  refine ⟨tr, s, c, ⟨booted_balanced _ _, hrun, fun t ht => (hplain t ht).1,
    fun t ht => (hplain t ht).2, hsync⟩, hup, hret, hwait, hfree, hcount, hnodes, fun hno => ?_⟩
  have hneg := (hno c hup).1 "10.0.0.1"
  rw [IPMap.count, hcount] at hneg
  exact absurd hneg (by decide)

/-- The same with a request that fails before it reaches the server: the retry makes it good. -/
def retryEvents : List (Event Unit) :=
  [.get .assign "n1" "v1", .lock 0 ["10.0.0.1"], .update (.unsent "connection refused"),
   .get .assign "n1" "v1", .lock 0 ["10.0.0.1"], .update (.answered ""), .count]

theorem noDrift_of_acknowledged_retryEvents :
    ∃ tr s, RetryRun ["10.0.0.1"] (booted ["n1"] ["10.0.0.1"]) tr s ∧ retried tr = true ∧
      NoDrift tr s := by
  obtain ⟨tr, s, c, hrun, hup, hp⟩ := exists_run (booted ["n1"] ["10.0.0.1"]) retryEvents
    (fun tr _ _ => tr.all (fun t => !t.event.restarts && !t.event.deletes && !t.event.loses)
      && decide (UpToDate tr) && retried tr) (by decide)
  simp only [Bool.and_eq_true, decide_eq_true_eq, List.all_eq_true, Bool.not_eq_true'] at hp
  obtain ⟨⟨hplain, hsync⟩, hret⟩ := hp
  have h : RetryRun ["10.0.0.1"] (booted ["n1"] ["10.0.0.1"]) tr s :=
    ⟨booted_balanced _ _, hrun, fun t ht => (hplain t ht).1.1, fun t ht => (hplain t ht).1.2, hsync⟩
  exact ⟨tr, s, h, hret, (noDrift_of_acknowledged h).1 (fun t ht => (hplain t ht).2)⟩

/-! ## Deleted nodes -/

section

variable {B : Type}

/-- The node that a step deletes. -/
def Event.deletedNode : Event B → Option String
  | .delete n => some n
  | _ => none

/-- How often the run has deleted a node annotated with `ip`. -/
def deletedWith (tr : Trace B) (ip : String) : Nat :=
  tr.countP (fun t => t.event.deletedNode.bind t.pre.assignedAt = some ip)

/-- The step ends a `RemoveIPFromNode` of the node `n` with `nil`. -/
def Obs.removes (o : Obs) (n : String) : Bool :=
  match o.actor, o.ret with
  | some a, some .removed => a.nodeName == n
  | _, _ => false

/-- After every deletion of an annotated node, `RemoveIPFromNode` has returned `nil` for it. -/
def released : Trace B → Bool
  | [] => true
  | t :: tr =>
      (match t.event.deletedNode with
        | some n => (t.pre.assignedAt n).isNone || tr.any (fun u => u.obs.removes n)
        | none => true) && released tr

/-- Runs of calls on one process among other clients that delete nodes and create them again, with a
cache that has caught up whenever a call reads it and with updates that fail without effect. -/
structure DeletionRun [DecidableEq B] (ipList : List String) (s₀ : System B) (tr : Trace B)
    (s : System B) : Prop where
  balanced : s₀.Balanced ipList
  run : Run step s₀ tr s
  no_restart : ∀ t ∈ tr, t.event.restarts = false
  no_loss : ∀ t ∈ tr, t.event.loses = false
  up_to_date : UpToDate tr

/-- A step without a restart and a lost answer slips by the annotation it deletes. -/
theorem Step.slip_eq {s s' : System B} {e : Event B} {o : Obs} (h : Step s e o s')
    (hloss : e.loses = false) (ip : String) :
    slip ⟨s, e, o, s'⟩ ip
      = if e.deletedNode.bind s.assignedAt = some ip then 1 else 0 := by
  cases h with
  | updateLost => cases hloss
  | @delete n old hold =>
      have hrow := nodesAt_commit s.api n none ip
      have hnone : hit assigned (s.api.stamp none) ip = 0 := rfl
      rw [hnone] at hrow
      -- the row that goes is the one the annotation is read from
      show (tally assigned s.api.server ip : Int) - tally assigned (s.api.commit n none).server ip
        = if (s.api.server.lookup n).bind assigned = some ip then 1 else 0
      rw [hit] at hrow
      by_cases ha : (s.api.server.lookup n).bind assigned = some ip
      · rw [if_pos ha] at hrow ⊢
        omega
      · rw [if_neg ha] at hrow ⊢
        omega
  | _ => simp_all [slip, Event.deletes, Event.deletedNode]

theorem drift_eq_deletedWith [DecidableEq B] {s₀ s : System B} {tr : Trace B}
    (hrun : Run step s₀ tr s)
    (hplain : ∀ t ∈ tr, t.event.restarts = false ∧ t.event.loses = false) (ip : String) :
    drift tr ip = deletedWith tr ip := by
  refine Run.traceInvariant (I := fun tr _ => drift tr ip = deletedWith tr ip)
    (P := fun t => t.event.restarts = false ∧ t.event.loses = false) rfl ?_ hrun hplain
  intro tr t _ hstep ht _ ih
  have hns : ∀ ipList nodes, t.event ≠ .start ipList nodes := by
    intro ipList nodes he
    rw [he] at ht
    exact absurd ht.1 (by simp [Event.restarts])
  have hslip := (step_cases hstep).slip_eq ht.2 ip
  have hcount : deletedWith (tr ++ [t]) ip
      = deletedWith tr ip + if t.event.deletedNode.bind t.pre.assignedAt
        = some ip then 1 else 0 := by
    simp [deletedWith, List.countP_append, List.countP_singleton]
  rw [drift_snoc hns, ih, hslip, hcount]
  by_cases hd : t.event.deletedNode.bind t.pre.assignedAt = some ip
  · rw [if_pos hd, if_pos hd]
    omega
  · rw [if_neg hd, if_neg hd]
    omega

/-- `RemoveIPFromNode` of a node that is gone returns `nil` and touches nothing. -/
theorem Step.remove_absent {s s' : System B} {n v : String} {o : Obs}
    (h : Step s (.get .remove n v) o s') (hsync : s.api.Synced)
    (habsent : s.api.server.lookup n = none) :
    o.ret = some .removed ∧ s'.api = s.api ∧ s'.ctl = s.ctl := by
  have hmiss : s.api.cache.lookup n = none := by rw [hsync, habsent]
  cases h with
  | getReturn hctl hget =>
      exact ⟨by rw [(removeBeforeLock_error hget).1], rfl, rfl⟩
  | getWait hctl hget => rw [beforeLock_ok hget] at hmiss; cases hmiss

/-- **Deleted nodes keep their slot.** The count of an IP is the number of nodes annotated with it,
plus one for every time a node annotated with it was deleted; `RemoveIPFromNode` of a deleted node
returns `nil` and does not change that. -/
theorem count_eq_nodesAt_add_deleted [DecidableEq B] {ipList : List String} {s₀ s : System B}
    {tr : Trace B} {c : Controller B} (h : DeletionRun ipList s₀ tr s) (hup : s.ctl = some c)
    (hfree : c.critical = none) :
    (∀ ip ∈ c.ipMap, IPMap.count c.ipMap ip = s.nodesAt ip + deletedWith tr ip) ∧
    ∀ t ∈ tr, ∀ n v, t.event = .get .remove n v → t.pre.api.server.lookup n = none →
      t.obs.ret = some .removed ∧ t.post.api = t.pre.api ∧ t.post.ctl = t.pre.ctl := by
  constructor
  · intro ip hip
    have hdrift : drift tr ip = deletedWith tr ip :=
      drift_eq_deletedWith h.run (fun t ht => ⟨h.no_restart t ht, h.no_loss t ht⟩) ip
    calc IPMap.count c.ipMap ip = s.nodesAt ip + drift tr ip :=
          count_eq_of_free h.balanced h.run hup hfree hip
      _ = s.nodesAt ip + deletedWith tr ip := by rw [hdrift]
  · intro t ht n v he habsent
    obtain ⟨tr₁, tr₂, -, -, hstep, -⟩ := h.run.reached ht
    have hsync : t.pre.api.Synced := h.up_to_date t ht (by rw [he]; rfl)
    rw [he] at hstep
    exact (step_cases hstep).remove_absent hsync habsent

end

/-- A node is assigned an IP and deleted; the unpublish that follows finds no node. -/
def deletionEvents : List (Event Unit) :=
  [.get .assign "n1" "v1", .lock 0 ["10.0.0.1"], .update (.answered ""), .count, .deliver "n1",
   .delete "n1", .deliver "n1", .get .remove "n1" "v1", .create "n1" bareNode, .deliver "n1"]

theorem deletionEvents_run :
    ∃ tr s c, DeletionRun ["10.0.0.1"] (booted ["n1"] ["10.0.0.1"]) tr s ∧ s.ctl = some c ∧
      released tr = true ∧ c.waiting = [] ∧ c.critical = none ∧ deletedWith tr "10.0.0.1" = 1 ∧
      c.ipMap.lookup "10.0.0.1" = some 1 ∧ s.nodesAt "10.0.0.1" = 0 := by
  obtain ⟨tr, s, c, hrun, hup, hp⟩ := exists_run (booted ["n1"] ["10.0.0.1"]) deletionEvents
    (fun tr s c => tr.all (fun t => !t.event.restarts && !t.event.loses)
      && decide (UpToDate tr) && released tr && c.waiting.isEmpty && c.critical.isNone
      && decide (deletedWith tr "10.0.0.1" = 1)
      && decide (c.ipMap.lookup "10.0.0.1" = some 1) && decide (s.nodesAt "10.0.0.1" = 0))
    (by decide)
  simp only [Bool.and_eq_true, decide_eq_true_eq, List.all_eq_true, Bool.not_eq_true',
    Option.isNone_iff_eq_none, List.isEmpty_iff] at hp
  obtain ⟨⟨⟨⟨⟨⟨⟨hplain, hsync⟩, hrel⟩, hwait⟩, hfree⟩, hdel⟩, hcount⟩, hnodes⟩ := hp
  exact ⟨tr, s, c, ⟨booted_balanced _ _, hrun, fun t ht => (hplain t ht).1,
    fun t ht => (hplain t ht).2, hsync⟩, hup, hrel, hwait, hfree, hdel, hcount, hnodes⟩

/-- `RemoveIPFromNode` has returned `nil` for the deleted node, and its slot is still taken. -/
theorem deleted_slot_leaks :
    ∃ tr s c, DeletionRun ["10.0.0.1"] (booted ["n1"] ["10.0.0.1"]) tr s ∧ s.ctl = some c ∧
      released tr = true ∧ c.waiting = [] ∧ c.critical = none ∧
      c.ipMap.lookup "10.0.0.1" = some 1 ∧ s.nodesAt "10.0.0.1" = 0 := by
  obtain ⟨tr, s, c, h, hup, hrel, hwait, hfree, -, hcount, hnodes⟩ := deletionEvents_run
  exact ⟨tr, s, c, h, hup, hrel, hwait, hfree, hcount, hnodes⟩

theorem count_eq_nodesAt_add_deleted_deletionEvents :
    ∃ tr s c, DeletionRun ["10.0.0.1"] (booted ["n1"] ["10.0.0.1"]) tr s ∧ s.ctl = some c ∧
      deletedWith tr "10.0.0.1" = 1 ∧
      ∀ ip ∈ c.ipMap, IPMap.count c.ipMap ip = s.nodesAt ip + deletedWith tr ip := by
  obtain ⟨tr, s, c, h, hup, -, -, hfree, hdel, -⟩ := deletionEvents_run
  exact ⟨tr, s, c, h, hup, hdel, (count_eq_nodesAt_add_deleted h hup hfree).1⟩

end NfsLbCsi
