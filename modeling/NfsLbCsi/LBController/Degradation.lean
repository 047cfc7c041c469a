import NfsLbCsi.LBController.Drift
import NfsLbCsi.LBController.Refinement

set_option autoImplicit false

/-! # How far off the controller can be

Consequences of the refinement (`balancer_path`) for runs in which everything goes wrong that can.

* `nodesAt_sub_le`: between two starts, the numbers of nodes on two servers differ by no more than
  the spread at the beginning, the removals, and the difference of the drifts. Stale caches,
  conflicts and failed updates cost nothing.
* `restart_recounts`: a restart, at whatever moment the process died, takes exactly the drift out of
  the counts and puts in what the dead calls had written and not counted.
* `stranded_iff`: annotations with IPs that are no longer configured are never made and never
  removed by `RemoveIPFromNode`; they go when the node is assigned again or deleted.
-/

namespace NfsLbCsi

open Tally Optimistic Lts Balance

section

variable {B : Type}

/-! ## Processes that stay up -/

/-- A process that is down comes up with a start only; until then, the nodes of an IP become fewer
by what slips. -/
theorem Step.down {s s' : System B} {e : Event B} {o : Obs} (h : Step s e o s')
    (hdown : s.ctl = none) (hstart : e.restarts = false) :
    s'.ctl = none ∧ ∀ ip, (s'.nodesAt ip : ℤ) = s.nodesAt ip - slip ⟨s, e, o, s'⟩ ip := by
  have hup : ∀ c, s.ctl ≠ some c := by simp [hdown]
  cases h with
  | start => cases hstart
  | crash => cases hstart
  | lockPanic hctl => exact absurd hctl (hup _)
  | getReturn hctl => exact absurd hctl (hup _)
  | getWait hctl => exact absurd hctl (hup _)
  | lockReturn hctl => exact absurd hctl (hup _)
  | lockUpdate hctl => exact absurd hctl (hup _)
  | updateRefused hctl => exact absurd hctl (hup _)
  | updateLost hctl => exact absurd hctl (hup _)
  | updateDone hctl => exact absurd hctl (hup _)
  | count hctl => exact absurd hctl (hup _)
  | deliver happ =>
      have hserver := (Replica.deliver_eq_some happ).1
      exact ⟨hdown, fun ip => by
        simp [slip, Event.deletes, Event.loses, System.nodesAt, hserver]⟩
  | create hnew hdata =>
      refine ⟨hdown, fun ip => ?_⟩
      have hsame := nodesAt_create hnew hdata ip
      simp only [slip, Event.deletes, Event.loses, System.nodesAt, hsame]
      simp
  | write hold hdata =>
      refine ⟨hdown, fun ip => ?_⟩
      have hsame := nodesAt_write hold hdata ip
      simp only [slip, Event.deletes, Event.loses, System.nodesAt, hsame]
      simp
  | delete hold => exact ⟨hdown, fun ip => by simp [slip, Event.deletes, Event.loses]⟩

theorem down_of_run [DecidableEq B] {s₀ s : System B} {tr : Trace B} (hrun : Run step s₀ tr s)
    (hstart : ∀ t ∈ tr, t.event.restarts = false) (hdown : s₀.ctl = none) : s.ctl = none :=
  Run.invariant (I := fun s => s.ctl = none) (P := fun t => t.event.restarts = false) hdown
    (fun _ ht hPt hpre => ((step_cases ht).down hpre hPt).1) hrun hstart

/-- A run without restarts that ends with the process up has it up all along. -/
theorem stops_eq_false [DecidableEq B] {s₀ s : System B} {tr : Trace B} {c : Controller B}
    (hrun : Run step s₀ tr s) (hstart : ∀ t ∈ tr, t.event.restarts = false)
    (hc : s.ctl = some c) : ∀ t ∈ tr, stops t = false := by
  intro t ht
  obtain ⟨tr₁, tr₂, rfl, -, -, hrest⟩ := hrun.reached ht
  by_contra hstop
  have hnone : t.post.ctl = none := by
    simp only [stops, Bool.not_eq_false, Bool.and_eq_true, Option.isNone_iff_eq_none] at hstop
    exact hstop.2
  have hdown := down_of_run hrest
    (fun u hu => hstart u (List.mem_append_right _ (List.mem_cons_of_mem _ hu))) hnone
  rw [hc] at hdown
  cases hdown

/-- The actions of such a run configure nothing and stop nothing. -/
theorem action_resets {t : Move B} (hstart : t.event.restarts = false) (hstop : stops t = false)
    {l : Action String String} (hl : action t = some l) : l.resets = false := by
  unfold action at hl
  split at hl
  · rename_i he; rw [he] at hstart; cases hstart
  · obtain rfl := Option.some.inj hl; rfl
  · rw [hstop] at hl
    obtain ⟨a, -, ha⟩ := Option.bind_eq_some_iff.mp hl
    unfold CallInfo.action at ha
    split at ha
    · obtain ⟨ip, -, rfl⟩ := Option.map_eq_some_iff.mp ha; rfl
    · obtain ⟨ip, -, rfl⟩ := Option.map_eq_some_iff.mp ha; rfl

theorem actions_reset [DecidableEq B] {s₀ s : System B} {tr : Trace B} {c : Controller B}
    (hrun : Run step s₀ tr s) (hstart : ∀ t ∈ tr, t.event.restarts = false)
    (hc : s.ctl = some c) : ∀ l ∈ tr.filterMap action, l.resets = false := by
  intro l hl
  obtain ⟨t, ht, hact⟩ := List.mem_filterMap.mp hl
  exact action_resets (hstart t ht) (stops_eq_false hrun hstart hc t ht) hact

/-! ## The loads of two servers -/

/-- The step is the acknowledged commit of a `RemoveIPFromNode`. -/
def removal (t : Move B) : Bool := commits t && (writer t).any (fun a => a.op == .remove)

/-- The number of removals that have committed, those whose answer was lost apart. -/
def removals (tr : Trace B) : ℕ := tr.countP removal

theorem removal_of_releases {t : Move B} {l : Action String String} (hl : action t = some l)
    (hrel : l.releases = true) : removal t = true := by
  unfold action at hl
  split at hl
  · obtain rfl := Option.some.inj hl; cases hrel
  · obtain rfl := Option.some.inj hl; cases hrel
  · split at hl
    · obtain rfl := Option.some.inj hl; cases hrel
    · obtain ⟨a, hw, ha⟩ := Option.bind_eq_some_iff.mp hl
      unfold CallInfo.action at ha
      split at ha
      · obtain ⟨ip, -, rfl⟩ := Option.map_eq_some_iff.mp ha; cases hrel
      · rename_i hop
        obtain ⟨ip, -, rfl⟩ := Option.map_eq_some_iff.mp ha
        have hseen : (!t.event.loses) = true := hrel
        simp [removal, commits, hw, hop, hseen]

theorem releases_le_removals (tr : Trace B) : releases (tr.filterMap action) ≤ removals tr := by
  rw [releases, removals, List.countP_filterMap]
  refine List.countP_mono_left (fun t _ ht => ?_)
  cases hl : action t with
  | none => simp [hl] at ht
  | some l => exact removal_of_releases hl (by simpa [hl] using ht)

theorem removals_eq_zero {tr : Trace B} (h : ∀ t ∈ tr, ∀ a, writer t = some a → a.op = .assign) :
    removals tr = 0 := by
  refine List.countP_eq_zero.mpr (fun t ht => ?_)
  unfold removal
  cases hw : writer t with
  | none => simp
  | some a => simp [h t ht a hw]

/-- The loads of two servers, by how far the controller is off about them. -/
theorem nodesAt_gap [DecidableEq B] {s₀ s : System B} {tr : Trace B} {c₀ c : Controller B}
    (h₀ : s₀.Idle) (hrun : Run step s₀ tr s) (hstart : ∀ t ∈ tr, t.event.restarts = false)
    (hc₀ : s₀.ctl = some c₀) (hc : s.ctl = some c) {i j : String} (hi : i ∈ c.ipMap)
    (hj : j ∈ c.ipMap) :
    (s.nodesAt i : ℤ) - s.nodesAt j
      ≤ max 1 (IPMap.spread c₀.ipMap) + removals tr + balance s c j - balance s c i := by
  have hpath := balancer_path h₀ hrun
  obtain ⟨-, hspread⟩ := Balancer.spread_le hpath (actions_reset hrun hstart hc)
  have hfirst : spread s₀.balancer.servers s₀.balancer.belief = IPMap.spread c₀.ipMap := by
    rw [servers_balancer hc₀, belief_balancer hc₀, belief_of_free (owed_of_free (h₀ c₀ hc₀).2),
      IPMap.spread]
  rw [hfirst] at hspread
  have hmem : ∀ ip, ip ∈ c.ipMap → ip ∈ s.balancer.servers := by
    intro ip hip
    rw [servers_balancer hc]
    exact Finmap.mem_keys.mpr hip
  have hloads := Balancer.load_sub_le hspread (hmem i hi) (hmem j hj)
  rw [load_balancer, load_balancer, error_balancer hc, error_balancer hc] at hloads
  have hrem := releases_le_removals tr
  omega

/-- **Graceful degradation.** Between two starts, the true loads of two configured servers stay
within the larger of 1 and the spread at the beginning, plus one for each removal, plus what has
drifted apart; at every moment, and whatever the interleaving and the staleness of the lister. -/
theorem nodesAt_sub_le [DecidableEq B] {ipList : List String} {s₀ s : System B} {tr : Trace B}
    {c₀ c : Controller B} (h₀ : s₀.Balanced ipList) (hrun : Run step s₀ tr s)
    (hstart : ∀ t ∈ tr, t.event.restarts = false) (hc₀ : s₀.ctl = some c₀) (hc : s.ctl = some c)
    {i j : String} (hi : i ∈ c.ipMap) (hj : j ∈ c.ipMap) :
    (s.nodesAt i : ℤ) - s.nodesAt j
      ≤ max 1 (IPMap.spread c₀.ipMap) + removals tr + drift tr j - drift tr i := by
  have hgap := nodesAt_gap h₀.idle hrun hstart hc₀ hc hi hj
  have hledger := (ledger h₀ hrun c hc).2
  rwa [hledger i hi, hledger j hj] at hgap

/-- The run ends with one node on the first server and none on the second, one removal, and drifts
that cancel. -/
theorem nodesAt_sub_le_wearEvents :
    ∃ tr s c, Run step threeNodes tr s ∧ s.ctl = some c ∧ removals tr = 1 ∧
      s.nodesAt "10.0.0.1" = 1 ∧ s.nodesAt "10.0.0.2" = 0 ∧
      ∀ i ∈ c.ipMap, ∀ j ∈ c.ipMap, (s.nodesAt i : ℤ) - s.nodesAt j
        ≤ max 1 (IPMap.spread (zeroCounts ["10.0.0.1", "10.0.0.2"])) + removals tr + drift tr j
          - drift tr i := by
  obtain ⟨tr, s, c, hrun, hup, hp⟩ := exists_run threeNodes wearEvents
    (fun tr s _ => tr.all (fun t => !t.event.restarts) && decide (removals tr = 1)
      && decide (s.nodesAt "10.0.0.1" = 1) && decide (s.nodesAt "10.0.0.2" = 0)) (by decide)
  simp only [Bool.and_eq_true, decide_eq_true_eq, List.all_eq_true, Bool.not_eq_true'] at hp
  obtain ⟨⟨⟨hplain, hrem⟩, h₁⟩, h₂⟩ := hp
  exact ⟨tr, s, c, hrun, hup, hrem, h₁, h₂, fun i hi j hj =>
    nodesAt_sub_le (booted_balanced _ _) hrun hplain rfl hup hi hj⟩

/-! ## Restarts -/

theorem Step.crash_eq {s s' : System B} {o : Obs} (h : Step s .crash o s') :
    s' = { s with ctl := none } := by
  cases h
  rfl

theorem Step.start_eq {s s' : System B} {o : Obs} {l : List String} {nodes : List (Node B)}
    (h : Step s (.start l nodes) o s') :
    (∀ ip, s'.nodesAt ip = s.nodesAt ip) ∧ ∀ c', s'.ctl = some c' → c'.critical = none := by
  cases h
  exact ⟨fun _ => rfl, fun c' hc' => Option.some.inj hc' ▸ rfl⟩

/-- The drift of a run goes on over a part of it without starts. -/
theorem drift_append {tr tr' : Trace B} (hstart : ∀ t ∈ tr', t.event.restarts = false)
    (ip : String) : drift (tr ++ tr') ip = drift tr ip + (tr'.map (fun t => slip t ip)).sum := by
  induction tr' using List.reverseRecOn with
  | nil => simp
  | append_singleton tr' t ih =>
      have ih' := ih (fun u hu => hstart u (List.mem_append_left _ hu))
      have hns : ∀ l nodes, t.event ≠ .start l nodes := by
        intro l nodes he
        have hplain := hstart t (by simp)
        rw [he] at hplain
        cases hplain
      rw [← List.append_assoc, drift_snoc hns, ih', List.map_append, List.sum_append,
        List.map_singleton, List.sum_singleton, add_assoc]

theorem nodesAt_down_of_run [DecidableEq B] {s₀ s : System B} {tr : Trace B}
    (hrun : Run step s₀ tr s) (hdown : s₀.ctl = none)
    (hstart : ∀ t ∈ tr, t.event.restarts = false) (ip : String) :
    (s.nodesAt ip : ℤ) = s₀.nodesAt ip - (tr.map (fun t => slip t ip)).sum := by
  refine Run.traceInvariant
    (I := fun tr s => (s.nodesAt ip : ℤ) = s₀.nodesAt ip - (tr.map (fun t => slip t ip)).sum)
    (P := fun t => t.event.restarts = false) (by simp) ?_ hrun hstart
  intro tr t hpre hstep ht hold ih
  have hmove := ((step_cases hstep).down (down_of_run hpre hold hdown) ht).2 ip
  rw [hmove, ih, List.map_append, List.sum_append, List.map_singleton, List.sum_singleton]
  ring

/-- **A restart recounts.** The process dies in the middle of whatever it was doing, the others go
on, and a new process starts: its count of an IP is the old one, plus what the call that held the
mutex had written and not yet counted, minus all that had drifted. -/
theorem restart_recounts [DecidableEq B] {ipList : List String} {s₀ s : System B}
    {tr tr' : Trace B} {t u : Move B} {c c' : Controller B} {l : List String}
    {nodes : List (Node B)}
    (h₀ : s₀.Balanced ipList) (hrun : Run step s₀ (tr ++ t :: tr' ++ [u]) s)
    (hcrash : t.event = .crash) (hup : t.pre.ctl = some c)
    (hbetween : ∀ v ∈ tr', v.event.restarts = false) (hu : u.event = .start l nodes)
    (hup' : s.ctl = some c') :
    c'.ipMap.keys = l.toFinset ∧ ∀ ip ∈ c.ipMap, ip ∈ l →
      IPMap.count c'.ipMap ip = IPMap.count c.ipMap ip + owed c ip - drift (tr ++ t :: tr') ip := by
  obtain ⟨hpre, hlast, rfl⟩ := hrun.snoc_inv
  obtain ⟨hbefore, hdies, hdown⟩ := hpre.split
  rw [hcrash] at hdies
  rw [hu] at hlast
  have hdead := (step_cases hdies).crash_eq
  obtain ⟨hsame, hfree⟩ := (step_cases hlast).start_eq
  have hkeys : c'.ipMap.keys = l.toFinset := by
    rw [(ledger h₀ hrun c' hup').1, configured_snoc_start hu]
  refine ⟨hkeys, fun ip hip hl => ?_⟩
  have hin : ip ∈ c'.ipMap := by
    rw [← Finmap.mem_keys, hkeys, List.mem_toFinset]
    exact hl
  -- before the crash the ledger, while the process is down the slips, after the start the listing
  have hbefore' := (ledger h₀ hbefore c hup).2 ip hip
  have hgone := nodesAt_down_of_run hdown (by rw [hdead]) hbetween ip
  have hkept : t.post.nodesAt ip = t.pre.nodesAt ip := by rw [hdead]; rfl
  have hfresh := count_eq_of_free h₀ hrun hup' (hfree c' hup') hin
  rw [drift_snoc_start hu, Int.add_zero, hsame] at hfresh
  have hdrift : drift (tr ++ t :: tr') ip = drift tr ip + (tr'.map (fun t => slip t ip)).sum := by
    have hnostart : ∀ l' nodes', t.event ≠ .start l' nodes' := by simp [hcrash]
    have hslip : slip t ip = 0 := by simp [slip, hcrash, Event.deletes, Event.loses]
    rw [List.append_cons, drift_append hbetween, drift_snoc hnostart, hslip, Int.add_zero]
  rw [balance] at hbefore'
  omega

/-- The list that a start starts the process with. -/
def Event.startList : Event B → Option (List String)
  | .start l _ => some l
  | _ => none

def Event.crashes : Event B → Bool
  | .crash => true
  | _ => false

theorem Event.eq_start {e : Event B} {l : List String} (h : e.startList = some l) :
    ∃ nodes, e = .start l nodes := by
  cases e with
  | start l' nodes => exact ⟨nodes, by rw [Option.some.inj h]⟩
  | _ => cases h

theorem Event.eq_crash {e : Event B} (h : e.crashes = true) : e = .crash := by
  cases e with
  | crash => rfl
  | _ => cases h

/-- An answer is lost, and the process dies between another committed update and its counter; a node
is deleted before the new process starts with a changed list. -/
def recountEvents : List (Event Unit) :=
  [.get .assign "n1" "v1", .lock 0 ["10.0.0.1", "10.0.0.2"], .update (.lost "timeout"),
   .get .assign "n2" "v1", .lock 0 ["10.0.0.2", "10.0.0.1"], .update (.answered ""), .crash,
   .delete "n1", .start ["10.0.0.2", "10.0.0.3"] [⟨3, bareNode⟩, ⟨5, bareNode.assign "10.0.0.2"⟩]]

theorem restart_recounts_recountEvents :
    ∃ (tr tr' : Trace Unit) (t u : Move Unit) (s : System Unit) (c c' : Controller Unit),
      Run step threeNodes (tr ++ t :: tr' ++ [u]) s ∧ t.event = .crash ∧ t.pre.ctl = some c ∧
      s.ctl = some c' ∧ IPMap.count c.ipMap "10.0.0.2" = 0 ∧ owed c "10.0.0.2" = 1 ∧
      ∀ ip ∈ c.ipMap, ip ∈ ["10.0.0.2", "10.0.0.3"] → IPMap.count c'.ipMap ip
        = IPMap.count c.ipMap ip + owed c ip - drift (tr ++ t :: tr') ip := by
  obtain ⟨tr, s, c', hrun, hup', hp⟩ := exists_run threeNodes recountEvents
    (fun tr _ _ => tr.getLast?.any (fun (u : Move Unit) =>
        decide (u.event.startList = some ["10.0.0.2", "10.0.0.3"]))
      && tr.dropLast[6]?.any (fun (t : Move Unit) => t.event.crashes && t.pre.ctl.any (fun c =>
        decide (IPMap.count c.ipMap "10.0.0.2" = 0) && decide (owed c "10.0.0.2" = 1)))
      && (tr.dropLast.drop 7).all (fun v => !v.event.restarts)) (by decide)
  simp only [Bool.and_eq_true, decide_eq_true_eq, List.all_eq_true, Bool.not_eq_true',
    Option.any_eq_true] at hp
  obtain ⟨⟨⟨u, hlast, hu⟩, t, ht, hcrash, c, hup, hcount, howed⟩, hbetween⟩ := hp
  obtain ⟨nodes, hstart⟩ := Event.eq_start hu
  -- the run in its parts: before the crash, the crash, down, the start
  obtain ⟨hlen, hget⟩ := List.getElem?_eq_some_iff.mp ht
  have hparts : tr.dropLast.take 6 ++ t :: tr.dropLast.drop 7 ++ [u] = tr := by
    rw [← hget, List.cons_getElem_drop_succ, List.take_append_drop]
    exact List.dropLast_append_getLast? u hlast
  rw [← hparts] at hrun
  exact ⟨_, _, t, u, s, c, c', hrun, Event.eq_crash hcrash, hup, hup', hcount, howed,
    (restart_recounts (booted_balanced _ _) hrun
      (Event.eq_crash hcrash) hup hbetween hstart hup').2⟩

/-! ## Annotations with IPs that are not configured -/

/-- The step deletes the node `n` or gives it a new IP. -/
def replaces (n : String) (t : Move B) : Bool :=
  decide (t.event.deletedNode = some n) ||
    (writer t).any (fun a => decide (a.nodeName = n ∧ a.op = .assign))

theorem Step.assignedAt_deleted {s s' : System B} {e : Event B} {o : Obs} (h : Step s e o s')
    {n : String} (he : e.deletedNode = some n) : s'.assignedAt n = none := by
  cases h with
  | @delete m old hold =>
      obtain rfl := Option.some.inj he
      rw [System.assignedAt, assignedAt_commit, if_pos rfl]
      rfl
  | _ => cases he

/-- An annotation with an IP that is not configured is there after a step if and only if it was
there before and the step does not replace it. -/
theorem Step.stranded_step {s s' : System B} {e : Event B} {o : Obs} (h : Step s e o s')
    (hs : s.Sound) {c : Controller B} (hc : s.ctl = some c) (n : String) {ip : String}
    (hip : ip ∉ c.ipMap) :
    s'.assignedAt n = some ip ↔ s.assignedAt n = some ip ∧ replaces n ⟨s, e, o, s'⟩ = false := by
  by_cases hdel : e.deletedNode = some n
  · rw [h.assignedAt_deleted hdel]
    simp [replaces, hdel]
  rcases h.assignedAt_cases hs n with
    ⟨hsame, hnw⟩ | ⟨he, -⟩ | ⟨c₁, call, ip₁, nodeCopy, hc₁, hcrit, hn, hw, hold, hnew⟩
  · have hrep : replaces n ⟨s, e, o, s'⟩ = false := by
      simp only [replaces, hdel, decide_false, Bool.false_or]
      cases hwr : writer ⟨s, e, o, s'⟩ with
      | none => rfl
      | some a => simp [hnw a hwr]
    rw [hsame, hrep]
    simp
  · exact absurd (by rw [he]; rfl) hdel
  · -- the update of a call: both the IP it writes and the IP it removes are configured
    rw [hc] at hc₁
    obtain rfl := Option.some.inj hc₁
    obtain ⟨ips, hsort, hnext⟩ := (hs c hc).holds _ hcrit
    have hmem : ip₁ ∈ c.ipMap := afterLock_mem hsort hnext
    have hne : ip₁ ≠ ip := fun heq => hip (heq ▸ hmem)
    rw [hold, hnew]
    cases hop : call.info.op with
    | assign => simp [replaces, hw, hn, hop, Op.written, hne]
    | remove =>
        rw [hop] at hnext
        obtain ⟨hassigned, -, -⟩ := removeAfterLock_update hnext
        simp [hassigned, Op.written, hne]

/-- **Stranded annotations.** Between two starts, a node carries an IP that is not configured if and
only if it did so at the beginning and has since been neither deleted nor assigned another IP: the
controller never writes such an IP, and no `RemoveIPFromNode` takes it away, whatever it returns. -/
theorem stranded_iff [DecidableEq B] {s₀ s : System B} {tr : Trace B} {c : Controller B}
    (h₀ : s₀.Idle) (hrun : Run step s₀ tr s) (hstart : ∀ t ∈ tr, t.event.restarts = false)
    (hc : s.ctl = some c) (n : String) {ip : String} (hip : ip ∉ c.ipMap) :
    s.assignedAt n = some ip ↔ s₀.assignedAt n = some ip ∧ ∀ t ∈ tr, replaces n t = false := by
  refine Run.traceInvariant
    (I := fun tr s => ∀ c, s.ctl = some c → ∀ ip, ip ∉ c.ipMap →
      (s.assignedAt n = some ip ↔ s₀.assignedAt n = some ip ∧ ∀ t ∈ tr, replaces n t = false))
    (P := fun t => t.event.restarts = false) ?_ ?_ hrun hstart c hc ip hip
  · intro c hc ip hip
    simp
  · intro tr t hpre hstep ht _ ih c' hc' ip hip
    have hst := step_cases hstep
    have hs := sound_of_run h₀ hpre
    rcases hst.balance hs hc' with ⟨l, nodes, he, -⟩ | ⟨-, c, hc, hkeys, -⟩
    · rw [he] at ht
      cases ht
    · have hip' : ip ∉ c.ipMap := by rwa [← Finmap.mem_keys, ← hkeys, Finmap.mem_keys]
      rw [hst.stranded_step hs hc n hip', ih c hc ip hip', and_assoc]
      simp only [List.mem_append, List.mem_singleton, or_imp, forall_and, forall_eq]

/-- A node annotated with an IP that the process was started without. -/
def strandedNode : System Unit :=
  ⟨(Replica.empty.commit "n1" (some (bareNode.assign "10.0.0.9"))).relist,
   some ⟨zeroCounts ["10.0.0.1"], [], none⟩, 0⟩

/-- `RemoveIPFromNode` is called twice for it and returns `nil`. -/
def strandedEvents : List (Event Unit) :=
  [.get .remove "n1" "v1", .lock 0 [], .get .remove "n1" "v2", .lock 0 []]

theorem stranded_iff_strandedEvents :
    ∃ tr s c, Run step strandedNode tr s ∧ s.ctl = some c ∧
      tr.countP (fun t => t.obs.ret = some .removed) = 2 ∧ "10.0.0.9" ∉ c.ipMap ∧
      (s.assignedAt "n1" = some "10.0.0.9" ↔ strandedNode.assignedAt "n1" = some "10.0.0.9" ∧
        ∀ t ∈ tr, replaces "n1" t = false) ∧ s.assignedAt "n1" = some "10.0.0.9" := by
  obtain ⟨tr, s, c, hrun, hup, hp⟩ := exists_run strandedNode strandedEvents
    (fun tr _ c => tr.all (fun t => !t.event.restarts && !replaces "n1" t)
      && decide (tr.countP (fun t => t.obs.ret = some .removed) = 2)
      && decide (c.ipMap.lookup "10.0.0.9" = none)) (by decide)
  simp only [Bool.and_eq_true, decide_eq_true_eq, List.all_eq_true, Bool.not_eq_true'] at hp
  obtain ⟨⟨hplain, hret⟩, hnone⟩ := hp
  have hidle : strandedNode.Idle := by
    intro c hc
    obtain rfl := Option.some.inj hc
    exact ⟨rfl, rfl⟩
  have hip : "10.0.0.9" ∉ c.ipMap := Finmap.lookup_eq_none.mp hnone
  have hiff := stranded_iff hidle hrun (fun t ht => (hplain t ht).1) hup "n1" hip
  exact ⟨tr, s, c, hrun, hup, hret, hip, hiff,
    hiff.mpr ⟨by decide, fun t ht => (hplain t ht).2⟩⟩

end

end NfsLbCsi
