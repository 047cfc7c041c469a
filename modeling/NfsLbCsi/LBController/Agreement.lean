import NfsLbCsi.LBController.Staleness

set_option autoImplicit false

/-! # All publishes of a node agree on its server

Publishes of different volumes to one node hold different volume locks, so any number of
`AssignIPToNode` calls for the node may be in flight at once, each with a copy of the node as old as
the cache was when it read it. As long as no `RemoveIPFromNode` commits for the node, they all
return the same IP, and the annotation is written at most once (`assign_agreement`).

The invariant is about copies. `knownIP ipList o` is the annotation `o` if it is a configured IP. At
every moment, a copy of the node anywhere (in the cache, on its way to it, in the hands of a call)
either has no known IP or has the one that the API server has; and while the server has none, nobody
has returned one. An update that commits finds the server without a known IP, because its version
check has compared its copy with the server.
-/

namespace NfsLbCsi

open Tally Optimistic Lts

/-- The annotation, if it names a configured IP. -/
def knownIP (ipList : List String) (o : Option String) : Option String :=
  o.filter (fun ip => decide (ip ∈ ipList))

theorem knownIP_some {ipList : List String} {ip : String} (h : ip ∈ ipList) :
    knownIP ipList (some ip) = some ip := by
  simp [knownIP, h]

theorem knownIP_eq_none {ipList : List String} {o : Option String}
    (h : ∀ ip, o = some ip → ip ∉ ipList) : knownIP ipList o = none := by
  cases o with
  | none => rfl
  | some ip => simp [knownIP, h ip rfl]

section

variable {B : Type}

/-- The step ends an `AssignIPToNode` of the node `n` with `(ip, nil)`. -/
def Answers (t : Move B) (n ip : String) : Prop :=
  ∃ a, t.obs.actor = some a ∧ a.nodeName = n ∧ t.obs.ret = some (.assigned ip)

/-- An update of the node `n` by a call commits in the step. -/
def writesAt (n : String) (t : Move B) : Bool := (writer t).any (fun a => a.nodeName == n)

/-- Runs from a synced cache with one IP list, in which the node `n` is not deleted and no
`RemoveIPFromNode` commits for it. -/
structure AgreementRun [DecidableEq B] (ipList : List String) (n : String) (s₀ : System B)
    (tr : Trace B) (s : System B) : Prop where
  idle : s₀.Idle
  keys : ∀ c, s₀.ctl = some c → c.ipMap.keys = ipList.toFinset
  synced : s₀.api.watch = []
  run : Run step s₀ tr s
  same_list : ∀ t ∈ tr, ∀ l nodes, t.event = .start l nodes → l.toFinset = ipList.toFinset
  no_delete : ∀ t ∈ tr, t.event ≠ .delete n
  no_remove : ∀ t ∈ tr, ∀ a, writer t = some a → a.nodeName = n → a.op = .assign

/-! ## The invariant -/

/-- What is known about the node `n` after the steps `tr`. -/
structure Agreed (ipList : List String) (n : String) (tr : Trace B) (s : System B) : Prop where
  keys : ∀ c, s.ctl = some c → c.ipMap.keys = ipList.toFinset
  copies : ∀ node, s.api.InPlay n node → knownIP ipList (assigned node) = none ∨
    knownIP ipList (assigned node) = knownIP ipList (s.assignedAt n)
  held : ∀ c, s.ctl = some c → ∀ call ∈ c.calls, call.info.nodeName = n →
    knownIP ipList (assigned call.node) = none ∨
    knownIP ipList (assigned call.node) = knownIP ipList (s.assignedAt n)
  counting : ∀ c call ip, s.ctl = some c → c.critical = some (.counting call ip) →
    call.info.nodeName = n → knownIP ipList (s.assignedAt n) = some ip
  answers : ∀ t ∈ tr, ∀ ip, Answers t n ip → knownIP ipList (s.assignedAt n) = some ip
  writes : tr.countP (writesAt n) ≤ (knownIP ipList (s.assignedAt n)).toList.length

theorem mem_ipMap_iff {ipList : List String} {m : IPMap} (h : m.keys = ipList.toFinset)
    {ip : String} : ip ∈ m ↔ ip ∈ ipList := by
  rw [← Finmap.mem_keys, h, List.mem_toFinset]

/-- A run begins with every copy equal to the object on the API server. -/
theorem agreed_of_synced {ipList : List String} {n : String} {s : System B} (hidle : s.Idle)
    (hkeys : ∀ c, s.ctl = some c → c.ipMap.keys = ipList.toFinset) (hsync : s.api.watch = []) :
    Agreed ipList n [] s := by
  refine ⟨hkeys, ?_, ?_, ?_, by simp, by simp⟩
  · rintro node (hcache | ⟨c, hc, -⟩)
    · right
      have hview := s.api.view_eq n
      rw [hsync] at hview
      have hserver : s.api.server.lookup n = some node := by rw [← hview]; exact hcache
      rw [System.assignedAt, assignedAt, hserver, Option.bind_some]
    · rw [hsync] at hc
      cases hc
  · intro c hc call hcall
    rw [hidle.calls hc] at hcall
    cases hcall
  · intro c call ip hc hcrit
    rw [(hidle c hc).2] at hcrit
    cases hcrit

/-! ## One step -/

/-- The known IP of the node does not change, except that an `AssignIPToNode` gives the node its
first one. -/
theorem Step.knownIP_cases {ipList : List String} {n : String} {s s' : System B} {e : Event B}
    {o : Obs} (h : Step s e o s') (hs : s.Sound)
    (hkeys : ∀ c, s.ctl = some c → c.ipMap.keys = ipList.toFinset) (hdel : e ≠ .delete n)
    (hremove : ∀ a, writer ⟨s, e, o, s'⟩ = some a → a.nodeName = n → a.op = .assign) :
    (knownIP ipList (s'.assignedAt n) = knownIP ipList (s.assignedAt n) ∧
      writesAt n ⟨s, e, o, s'⟩ = false) ∨
    (knownIP ipList (s.assignedAt n) = none ∧
      ∃ ip, knownIP ipList (s'.assignedAt n) = some ip) := by
  rcases h.assignedAt_cases hs n with
    ⟨hsame, hnw⟩ | ⟨he, -⟩ | ⟨c, call, ip, nodeCopy, hc, hcrit, hn, hw, hold, hnew⟩
  · refine Or.inl ⟨by rw [hsame], ?_⟩
    rw [writesAt]
    cases hwr : writer ⟨s, e, o, s'⟩ with
    | none => rfl
    | some a => simp [hnw a hwr]
  · exact absurd he hdel
  · have hop : call.info.op = .assign := hremove _ hw hn
    obtain ⟨ips, hsort, hnext⟩ := (hs c hc).holds _ hcrit
    have hmem : ip ∈ ipList := (mem_ipMap_iff (hkeys c hc)).mp (afterLock_mem hsort hnext)
    rw [hop] at hnext hnew
    obtain ⟨-, hunknown, -⟩ := assignAfterLock_update hnext
    right
    refine ⟨?_, ip, ?_⟩
    · rw [hold]
      exact knownIP_eq_none (fun a ha hin => hunknown a ha ((mem_ipMap_iff (hkeys c hc)).mpr hin))
    · rw [hnew]
      exact knownIP_some hmem

theorem Agreed.step [DecidableEq B] {ipList : List String} {n : String} {s₀ : System B}
    {tr : Trace B} {t : Move B} (h₀ : s₀.Idle) (hpre : Run step s₀ tr t.pre)
    (hstep : NfsLbCsi.step t.pre t.event = some (t.post, t.obs))
    (hlist : ∀ l nodes, t.event = .start l nodes → l.toFinset = ipList.toFinset)
    (hdel : t.event ≠ .delete n)
    (hremove : ∀ a, writer t = some a → a.nodeName = n → a.op = .assign)
    (ih : Agreed ipList n tr t.pre) : Agreed ipList n (tr ++ [t]) t.post := by
  have hs := sound_of_run h₀ hpre
  have hst := step_cases hstep
  have hcases := hst.knownIP_cases hs ih.keys hdel hremove
  -- what agreed with the server before the step agrees with it after the step
  have hmono : ∀ y, y = none ∨ y = knownIP ipList (t.pre.assignedAt n) →
      y = none ∨ y = knownIP ipList (t.post.assignedAt n) := by
    rintro y (hy | hy)
    · exact Or.inl hy
    · rcases hcases with ⟨hsame, -⟩ | ⟨hnone, -⟩
      · exact Or.inr (hy.trans hsame.symm)
      · exact Or.inl (hy.trans hnone)
  have hkeep : ∀ ip, knownIP ipList (t.pre.assignedAt n) = some ip →
      knownIP ipList (t.post.assignedAt n) = some ip := by
    intro ip hip
    rcases hcases with ⟨hsame, -⟩ | ⟨hnone, -⟩
    · rw [hsame, hip]
    · rw [hnone] at hip
      cases hip
  refine ⟨?_, ?_, ?_, ?_, ?_, ?_⟩
  · -- the keys change with a start only, which has the same list
    intro c' hc'
    rcases hst.balance hs hc' with ⟨l, nodes, he, hkeys, -⟩ | ⟨-, c, hc, hkeys, -⟩
    · rw [hkeys, hlist l nodes he]
    · rw [hkeys, ih.keys c hc]
  · -- what comes into play is the object on the server
    intro node hplay
    rcases hst.inPlay hplay with hold | hnew
    · exact hmono _ (ih.copies node hold)
    · right
      rw [System.assignedAt, assignedAt, hnew, Option.bind_some]
  · -- a new call has read the cache, whose objects are in play
    intro c' hc' call hcall hn
    obtain ⟨c, hc, -, hold | ⟨-, -, -, hcache, -⟩⟩ := hst.mem_calls hs hc' hcall
    · exact hmono _ (ih.held c hc call hold hn)
    · rw [hn] at hcache
      exact hmono _ (ih.copies call.node (Or.inl hcache))
  · -- the call about to count has just written, and it was an assignment
    intro c' call ip hc' hcrit' hn
    rcases hst.counting_written hs hc' hcrit' with
      ⟨hnew, hw, c, nodeCopy, hc, hcrit⟩ | ⟨c, hc, hcrit, hsame | ⟨he, -⟩⟩
    · obtain ⟨ips, hsort, hnext⟩ := (hs c hc).holds _ hcrit
      have hmem : ip ∈ ipList := (mem_ipMap_iff (ih.keys c hc)).mp (afterLock_mem hsort hnext)
      rw [hremove _ hw hn, hn] at hnew
      rw [hnew]
      exact knownIP_some hmem
    · rw [hn] at hsame
      rw [hsame]
      exact ih.counting c call ip hc hcrit hn
    · rw [hn] at he
      exact absurd he hdel
  · -- answers: the old ones are kept, and the new one is known to the server
    intro u hu ip hans
    rcases List.mem_append.mp hu with hu | hu
    · exact hkeep ip (ih.answers u hu ip hans)
    · obtain rfl := List.mem_singleton.mp hu
      obtain ⟨a, hactor, hn, hret⟩ := hans
      refine hkeep ip ?_
      rcases hst.assigned_cases hactor hret with
        ⟨i, ips, c, call, -, hc, -, hcall, rfl, -, hassigned, hmem, -⟩ |
        ⟨c, call, hc, hcrit, rfl, -⟩
      · -- the copy has a known IP, so it is the one on the server
        have hin : ip ∈ ipList := (mem_ipMap_iff (ih.keys c hc)).mp hmem
        have hheld := ih.held c hc call (mem_calls.mpr (Or.inr (List.mem_of_getElem? hcall))) hn
        rw [hassigned, knownIP_some hin] at hheld
        rcases hheld with hheld | hheld
        · cases hheld
        · exact hheld.symm
      · exact ih.counting c call ip hc hcrit hn
  · -- a write gives the node its first known IP, so there was none before it
    rw [List.countP_append, List.countP_singleton]
    have hold := ih.writes
    rcases hcases with ⟨hsame, hnw⟩ | ⟨hnone, ip, hnew⟩
    · have hnw' : writesAt n t = false := hnw
      rw [hsame, hnw']
      simpa using hold
    · rw [hnone] at hold
      rw [hnew]
      simp only [Option.toList_none, List.length_nil, Nat.le_zero_eq] at hold
      rw [hold]
      split <;> simp

/-! ## Whole runs -/

theorem agreed_of_run [DecidableEq B] {ipList : List String} {n : String} {s₀ s : System B}
    {tr : Trace B} (h : AgreementRun ipList n s₀ tr s) : Agreed ipList n tr s := by
  refine Run.traceInvariant (I := Agreed ipList n)
    (P := fun t => (∀ l nodes, t.event = .start l nodes → l.toFinset = ipList.toFinset) ∧
      t.event ≠ .delete n ∧ ∀ a, writer t = some a → a.nodeName = n → a.op = .assign)
    (agreed_of_synced h.idle h.keys h.synced) ?_ h.run
    (fun t ht => ⟨h.same_list t ht, h.no_delete t ht, h.no_remove t ht⟩)
  intro tr t hpre hstep ht _ ih
  exact ih.step h.idle hpre hstep ht.1 ht.2.1 ht.2.2

/-- **Agreement.** Whatever the interleaving, the staleness of the cache, the failures and the
restarts: all `AssignIPToNode` calls for the node that return an IP return the same one, and at most
one update of the annotation commits. -/
theorem assign_agreement [DecidableEq B] {ipList : List String} {n : String} {s₀ s : System B}
    {tr : Trace B} (h : AgreementRun ipList n s₀ tr s) :
    (∀ t ∈ tr, ∀ u ∈ tr, ∀ ip ip', Answers t n ip → Answers u n ip' → ip = ip') ∧
      tr.countP (writesAt n) ≤ 1 := by
  have hagreed := agreed_of_run h
  constructor
  · intro t ht u hu ip ip' hans hans'
    have hip := hagreed.answers t ht ip hans
    have hip' := hagreed.answers u hu ip' hans'
    rw [hip] at hip'
    exact Option.some.inj hip'
  · refine le_trans hagreed.writes ?_
    cases knownIP ipList (s.assignedAt n) with
    | none => exact Nat.zero_le 1
    | some ip => exact le_refl 1

end

/-- The process starts with the given IPs, or does not start. -/
def Event.startsWith {B : Type} (ipList : List String) : Event B → Bool
  | .start l _ => decide (l.toFinset = ipList.toFinset)
  | _ => true

/-- Three publishes race for one node: the second meets a conflict, the third was read before the
first had committed and comes after a restart. -/
def raceEvents : List (Event Unit) :=
  [.get .assign "n1" "v1", .get .assign "n1" "v2", .lock 0 ["10.0.0.1", "10.0.0.2"],
   .update (.answered ""), .count, .lock 0 ["10.0.0.2", "10.0.0.1"],
   .update (.answered "conflict"), .crash,
   .start ["10.0.0.2", "10.0.0.1"] [⟨2, bareNode.assign "10.0.0.1"⟩],
   .get .assign "n1" "v2", .lock 0 ["10.0.0.2", "10.0.0.1"],
   .get .assign "n1" "v3", .lock 0 ["10.0.0.2", "10.0.0.1"]]

theorem assign_agreement_raceEvents :
    ∃ tr s, AgreementRun ["10.0.0.1", "10.0.0.2"] "n1"
      (booted ["n1"] ["10.0.0.1", "10.0.0.2"]) tr s ∧
      tr.countP (fun t => t.obs.ret = some (.assigned "10.0.0.1")) = 3 ∧
      tr.countP (writesAt "n1") ≤ 1 := by
  obtain ⟨tr, s, c, hrun, hup, hp⟩ := exists_run (booted ["n1"] ["10.0.0.1", "10.0.0.2"]) raceEvents
    (fun tr _ _ => tr.all (fun t => !t.event.deletes && (writer t).all (fun a => a.op == .assign)
        && t.event.startsWith ["10.0.0.1", "10.0.0.2"])
      && decide (tr.countP (fun t => t.obs.ret = some (.assigned "10.0.0.1")) = 3)) (by decide)
  simp only [Bool.and_eq_true, decide_eq_true_eq, List.all_eq_true, Bool.not_eq_true'] at hp
  obtain ⟨hplain, hanswers⟩ := hp
  have h₀ := booted_balanced ["n1"] ["10.0.0.1", "10.0.0.2"]
  have h : AgreementRun ["10.0.0.1", "10.0.0.2"] "n1"
    (booted ["n1"] ["10.0.0.1", "10.0.0.2"]) tr s := by
    refine ⟨h₀.idle, h₀.keys, rfl, hrun, ?_, ?_, ?_⟩
    · intro t ht l nodes he
      have hl := (hplain t ht).2
      rw [he] at hl
      exact of_decide_eq_true hl
    · intro t ht he
      have hd := (hplain t ht).1.1
      rw [he] at hd
      cases hd
    · intro t ht a hw _
      have hop := (hplain t ht).1.2
      rw [hw] at hop
      exact eq_of_beq hop
  exact ⟨tr, s, h, hanswers, (assign_agreement h).2⟩

end NfsLbCsi
