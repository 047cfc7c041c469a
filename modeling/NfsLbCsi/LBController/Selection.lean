import NfsLbCsi.Basic.Balance
import NfsLbCsi.LBController.Counting

set_option autoImplicit false

/-! # The least used server

`AssignIPToNode` ranges over the map in any order, sorts with an unstable sort, and takes the first
IP. Whatever the order and the ties, the IP has the least count, and it still has it when the update
commits and when the counter is changed, because the mutex is held all along. So a run of
assignments is a sequence of placements (`Balance`): the spread of the counts never exceeds the
larger of 1 and what it was, and from an empty start the counts differ by at most one
(`assign_balance`).
-/

namespace NfsLbCsi

open Tally Optimistic Lts Balance

section

variable {B : Type}

/-- `max(ipMap) - min(ipMap)`. -/
def IPMap.spread (m : IPMap) : ℤ := Balance.spread m.keys (IPMap.count m)

/-- The IP has the least count of the map. -/
def IPMap.Least (m : IPMap) (ip : String) : Prop := Balance.Least m.keys (IPMap.count m) ip

/-- Runs of one process in which no `RemoveIPFromNode` commits. -/
structure AssignRun [DecidableEq B] (s₀ : System B) (tr : Trace B) (s : System B) : Prop where
  idle : s₀.Idle
  run : Run step s₀ tr s
  no_restart : ∀ t ∈ tr, t.event.restarts = false
  no_removal : ∀ t ∈ tr, ∀ a, writer t = some a → a.op = .assign

/-- An update commits in the step, and the call learns it. -/
def commits (t : Move B) : Bool := (writer t).isSome && !t.event.loses

/-- The number of updates that have committed, those whose answer was lost apart. -/
def committed (tr : Trace B) : Nat := tr.countP commits

/-- The number of updates that have committed and are not yet counted. -/
def uncounted (c : Controller B) : Nat :=
  match c.critical with
  | some (.counting _ _) => 1
  | _ => 0

/-! ## The selection -/

/-- The IP that an `AssignIPToNode` has selected has the least count. -/
theorem Decided.least {m : IPMap} {call : Call B} {ip : String} {nodeCopy : Node B}
    (h : Decided m call ip nodeCopy) (hop : call.info.op = .assign) : IPMap.Least m ip := by
  obtain ⟨ips, hsort, hnext⟩ := h
  rw [hop] at hnext
  obtain ⟨⟨rest, rfl⟩, -, -⟩ := assignAfterLock_update hnext
  obtain ⟨hmem, hle⟩ := (hsort hop).head_le
  refine ⟨Finmap.mem_keys.mpr hmem, fun ip' hip' => ?_⟩
  exact hle ip' (Finmap.mem_keys.mp hip')

/-- Counting an assignment is a placement. -/
theorem count_add_one (m : IPMap) (ip : String) :
    IPMap.count (IPMap.add m ip 1) = place (IPMap.count m) ip := by
  funext ip'
  exact count_add m ip ip' 1

/-- Only a call whose update has committed comes to count. -/
theorem counting_writer [DecidableEq B] {s₀ s : System B} {tr : Trace B} (h₀ : s₀.Idle)
    (hrun : Run step s₀ tr s) :
    ∀ c call ip, s.ctl = some c → c.critical = some (.counting call ip) →
      ∃ t ∈ tr, writer t = some call.info := by
  refine Run.traceInvariant
    (I := fun tr s => ∀ c call ip, s.ctl = some c → c.critical = some (.counting call ip) →
      ∃ t ∈ tr, writer t = some call.info) (P := fun _ => True) ?_ ?_ hrun (fun _ _ => trivial)
  · intro c call ip hc hcrit
    rw [(h₀ c hc).2] at hcrit
    cases hcrit
  · intro tr t hpre hstep _ _ ih c' call ip hc' hcrit'
    rcases (step_cases hstep).counting_written (sound_of_run h₀ hpre) hc' hcrit' with
      ⟨-, hw, -⟩ | ⟨c, hc, hcrit, -⟩
    · exact ⟨t, by simp, hw⟩
    · obtain ⟨u, hu, hw⟩ := ih c call ip hc hcrit
      exact ⟨u, List.mem_append_left _ hu, hw⟩

theorem counting_assign [DecidableEq B] {s₀ s : System B} {tr : Trace B} (h₀ : s₀.Idle)
    (hrun : Run step s₀ tr s) (hassign : ∀ t ∈ tr, ∀ a, writer t = some a → a.op = .assign) :
    ∀ c call ip, s.ctl = some c → c.critical = some (.counting call ip) →
      call.info.op = .assign := by
  intro c call ip hc hcrit
  obtain ⟨u, hu, hw⟩ := counting_writer h₀ hrun c call ip hc hcrit
  exact hassign u hu call.info hw

/-! ## One step -/

/-- A step without restart leaves the map alone and counts its commit as uncounted, or it is the
placement that makes up for an uncounted commit. -/
theorem Step.place_cases {s s' : System B} {e : Event B} {o : Obs} (h : Step s e o s')
    (hs : s.Sound) (hstart : e.restarts = false)
    (hassign : ∀ c call ip, s.ctl = some c → c.critical = some (.counting call ip) →
      call.info.op = .assign) {c' : Controller B} (hc' : s'.ctl = some c') :
    ∃ c, s.ctl = some c ∧
      ((c'.ipMap = c.ipMap ∧
        uncounted c' = uncounted c + if commits ⟨s, e, o, s'⟩ then 1 else 0) ∨
      (commits ⟨s, e, o, s'⟩ = false ∧ uncounted c = 1 ∧ uncounted c' = 0 ∧
        ∃ call ip, c.critical = some (.counting call ip) ∧ IPMap.Least c.ipMap ip ∧
          c'.ipMap = IPMap.add c.ipMap ip 1)) := by
  cases h with
  | start => cases hstart
  | crash => cases hc'
  | lockPanic => cases hc'
  | updateLost hctl hcrit =>
      -- a commit whose answer is lost is not one that will be counted
      obtain rfl := Option.some.inj hc'
      exact ⟨_, hctl, Or.inl ⟨rfl, by simp [commits, Event.loses, uncounted, hcrit]⟩⟩
  | getWait hctl =>
      obtain rfl := Option.some.inj hc'
      exact ⟨_, hctl, Or.inl ⟨rfl, by simp [commits, writer, uncounted]⟩⟩
  | lockReturn hctl =>
      obtain rfl := Option.some.inj hc'
      exact ⟨_, hctl, Or.inl ⟨rfl, by simp [commits, writer, uncounted]⟩⟩
  | lockUpdate hctl hfree =>
      obtain rfl := Option.some.inj hc'
      exact ⟨_, hctl, Or.inl ⟨rfl, by simp [commits, writer, uncounted, hfree]⟩⟩
  | updateRefused hctl hcrit =>
      obtain rfl := Option.some.inj hc'
      exact ⟨_, hctl, Or.inl ⟨rfl, by simp [commits, writer, uncounted, hcrit]⟩⟩
  | updateDone hctl hcrit happ =>
      obtain rfl := Option.some.inj hc'
      -- the commit of this step is the one that is not counted yet
      obtain ⟨_, -, -, rfl⟩ := Replica.update_eq_some happ
      refine ⟨_, hctl, Or.inl ⟨rfl, ?_⟩⟩
      simp [commits, Event.loses, writer, uncounted, hcrit, Replica.commit]
  | @count c call ip hctl hcrit =>
      obtain rfl := Option.some.inj hc'
      -- the decision was taken on this map, so the IP is one of the least used
      have hop := hassign c call ip hctl hcrit
      obtain ⟨nodeCopy, hdecided⟩ := (hs c hctl).holds _ hcrit
      refine ⟨c, hctl, Or.inr ⟨by simp [commits, writer], by simp [uncounted, hcrit], rfl, call, ip,
        hcrit, hdecided.least hop, ?_⟩⟩
      rw [hop]
      rfl
  | getReturn => exact ⟨c', hc', Or.inl ⟨rfl, by simp [commits, writer]⟩⟩
  | deliver happ =>
      have hrev := (Replica.deliver_eq_some happ).2.1
      exact ⟨c', hc', Or.inl ⟨rfl, by simp [commits, writer, hrev]⟩⟩
  | create => exact ⟨c', hc', Or.inl ⟨rfl, by simp [commits, writer]⟩⟩
  | write => exact ⟨c', hc', Or.inl ⟨rfl, by simp [commits, writer]⟩⟩
  | delete => exact ⟨c', hc', Or.inl ⟨rfl, by simp [commits, writer]⟩⟩

/-! ## Whole runs -/

/-- What the placements of a run make of the map `m₀`. -/
structure Placed (m₀ : IPMap) (tr : Trace B) (c : Controller B) : Prop where
  keys : c.ipMap.keys = m₀.keys
  spread : IPMap.spread c.ipMap ≤ max 1 (IPMap.spread m₀)
  sum : ∑ ip ∈ m₀.keys, IPMap.count c.ipMap ip + uncounted c
    = ∑ ip ∈ m₀.keys, IPMap.count m₀ ip + committed tr

theorem Placed.same {m₀ : IPMap} {tr : Trace B} {t : Move B} {c c' : Controller B}
    (h : Placed m₀ tr c) (hmap : c'.ipMap = c.ipMap)
    (hun : uncounted c' = uncounted c + if commits t then 1 else 0) :
    Placed m₀ (tr ++ [t]) c' := by
  refine ⟨by rw [hmap, h.keys], by rw [hmap]; exact h.spread, ?_⟩
  have hsum := h.sum
  have hcommitted : committed (tr ++ [t]) = committed tr + if commits t then 1 else 0 := by
    rw [committed, List.countP_append, List.countP_singleton, committed]
  rw [hmap, hun, hcommitted]
  push_cast
  omega

theorem Placed.place {m₀ : IPMap} {tr : Trace B} {t : Move B} {c c' : Controller B} {ip : String}
    (h : Placed m₀ tr c) (hleast : IPMap.Least c.ipMap ip)
    (hmap : c'.ipMap = IPMap.add c.ipMap ip 1) (hun : uncounted c = 1) (hun' : uncounted c' = 0)
    (hw : commits t = false) : Placed m₀ (tr ++ [t]) c' := by
  have hmem : ip ∈ c.ipMap := Finmap.mem_keys.mp hleast.1
  have hkeys : c'.ipMap.keys = c.ipMap.keys := by rw [hmap]; exact keys_add hmem 1
  have hcount : IPMap.count c'.ipMap = Balance.place (IPMap.count c.ipMap) ip := by
    rw [hmap, count_add_one]
  refine ⟨hkeys.trans h.keys, ?_, ?_⟩
  · calc IPMap.spread c'.ipMap
        = Balance.spread c.ipMap.keys (Balance.place (IPMap.count c.ipMap) ip) := by
          rw [IPMap.spread, hkeys, hcount]
      _ ≤ max 1 (IPMap.spread c.ipMap) := spread_place hleast
      _ ≤ max 1 (IPMap.spread m₀) := max_le (le_max_left 1 _) h.spread
  · have hsum := h.sum
    have hin : ip ∈ m₀.keys := by rw [← h.keys]; exact hleast.1
    rw [hcount, sum_place hin, hun', committed, List.countP_append, List.countP_singleton, hw]
    rw [hun, committed] at hsum
    simp only [Bool.false_eq_true, if_false, Nat.add_zero, Nat.cast_zero]
    push_cast at hsum
    omega

theorem placed_of_run [DecidableEq B] {s₀ s : System B} {tr : Trace B} {c₀ : Controller B}
    (h : AssignRun s₀ tr s) (hc₀ : s₀.ctl = some c₀) :
    ∀ c, s.ctl = some c → Placed c₀.ipMap tr c := by
  refine Run.traceInvariant (I := fun tr s => ∀ c, s.ctl = some c → Placed c₀.ipMap tr c)
    (P := fun t => t.event.restarts = false ∧ ∀ a, writer t = some a → a.op = .assign) ?_ ?_ h.run
    (fun t ht => ⟨h.no_restart t ht, h.no_removal t ht⟩)
  · intro c hc
    rw [hc₀] at hc
    obtain rfl := Option.some.inj hc
    refine ⟨rfl, le_max_right 1 _, ?_⟩
    simp [uncounted, (h.idle c₀ hc₀).2, committed]
  · intro tr t hpre hstep ht hold ih c' hc'
    have hassign := counting_assign h.idle hpre (fun u hu => (hold u hu).2)
    obtain ⟨c, hc, ⟨hmap, hun⟩ | ⟨hw, hun, hun', _, ip, -, hleast, hmap⟩⟩ :=
      (step_cases hstep).place_cases (sound_of_run h.idle hpre) ht.1 hassign hc'
    · exact (ih c hc).same hmap hun
    · exact (ih c hc).place hleast hmap hun hun' hw

/-- **Balance.** A call whose update commits goes on to count an IP with the least count, and every
change of the map is such an increment; the spread never exceeds the larger of 1 and its initial
value; and `N` assignments from `k` counts of 0 leave every count at the floor or the ceiling of
`N / k`. -/
theorem assign_balance [DecidableEq B] {s₀ s : System B} {tr : Trace B} {c₀ c : Controller B}
    (h : AssignRun s₀ tr s) (hc₀ : s₀.ctl = some c₀) (hc : s.ctl = some c) :
    (∀ t ∈ tr, ∀ a, writer t = some a → t.event.loses = false → ∃ c c' call ip, t.pre.ctl = some c ∧
      t.post.ctl = some c' ∧ call.info = a ∧ c'.critical = some (.counting call ip) ∧
      c'.ipMap = c.ipMap ∧ IPMap.Least c.ipMap ip) ∧
    (∀ t ∈ tr, ∀ c', t.post.ctl = some c' → ∃ c, t.pre.ctl = some c ∧ (c'.ipMap = c.ipMap ∨
      ∃ call ip, c.critical = some (.counting call ip) ∧ IPMap.Least c.ipMap ip ∧
        c'.ipMap = IPMap.add c.ipMap ip 1)) ∧
    IPMap.spread c.ipMap ≤ max 1 (IPMap.spread c₀.ipMap) ∧
    ((∀ ip ∈ c₀.ipMap, IPMap.count c₀.ipMap ip = 0) → c.critical = none → ∀ ip ∈ c.ipMap,
      IPMap.count c.ipMap ip = committed tr / c.ipMap.keys.card ∨
      IPMap.count c.ipMap ip = (committed tr + c.ipMap.keys.card - 1) / c.ipMap.keys.card) := by
  have hplaced : Placed c₀.ipMap tr c := placed_of_run h hc₀ c hc
  refine ⟨?_, ?_, hplaced.spread, ?_⟩
  · -- the step of a commit
    intro t ht a hw hanswered
    obtain ⟨tr₁, tr₂, rfl, hpre, hstep, -⟩ := h.run.reached ht
    obtain ⟨c, call, ip, nodeCopy, hc, hcrit, rfl, -, ⟨hloss, -⟩ | ⟨-, hpost⟩⟩ :=
      (step_cases hstep).writer_eq_some hw
    · rw [hanswered] at hloss
      cases hloss
    · have hdecided : Decided c.ipMap call ip nodeCopy :=
        (sound_of_run h.idle hpre c hc).holds _ hcrit
      have hop : call.info.op = .assign := h.no_removal t ht _ hw
      exact ⟨c, _, call, ip, hc, hpost, rfl, rfl, rfl, hdecided.least hop⟩
  · -- any step
    intro t ht c' hc'
    obtain ⟨tr₁, tr₂, rfl, hpre, hstep, -⟩ := h.run.reached ht
    have hassign := counting_assign h.idle hpre
      (fun u hu => h.no_removal u (List.mem_append_left _ hu))
    obtain ⟨c, hc, ⟨hmap, -⟩ | ⟨-, -, -, hplace⟩⟩ := (step_cases hstep).place_cases
      (sound_of_run h.idle hpre) (h.no_restart t ht) hassign hc'
    · exact ⟨c, hc, Or.inl hmap⟩
    · exact ⟨c, hc, Or.inr hplace⟩
  · intro hzero hfree ip hip
    have hzero' : ∀ ip ∈ c₀.ipMap.keys, IPMap.count c₀.ipMap ip = 0 :=
      fun ip hip => hzero ip (Finmap.mem_keys.mp hip)
    -- all counts 0: the spread is 0 and the sum is the number of commits
    have hspread₀ : IPMap.spread c₀.ipMap ≤ 0 := by
      rw [IPMap.spread, spread_le_iff (le_refl 0)]
      intro i hi j hj
      rw [hzero' i hi, hzero' j hj]
      exact le_refl 0
    have hspread : Balance.spread c.ipMap.keys (IPMap.count c.ipMap) ≤ 1 := by
      have := hplaced.spread
      rw [IPMap.spread] at this
      omega
    have hsum : ∑ ip ∈ c.ipMap.keys, IPMap.count c.ipMap ip = committed tr := by
      have hun : uncounted c = 0 := by rw [uncounted, hfree]
      have := hplaced.sum
      rw [Finset.sum_eq_zero hzero', hun] at this
      rw [hplaced.keys]
      omega
    have hshare := eq_floor_or_ceil hspread (Finmap.mem_keys.mpr hip)
    rw [hsum] at hshare
    exact hshare

end

/-- Three nodes for two servers: the first tie goes to the second server, one update fails, and the
third node meets another tie. -/
def balanceEvents : List (Event Unit) :=
  [.get .assign "n1" "v1", .get .assign "n2" "v1", .lock 0 ["10.0.0.2", "10.0.0.1"],
   .update (.answered ""), .count, .lock 0 ["10.0.0.1", "10.0.0.2"], .update (.unsent "timeout"),
   .get .assign "n2" "v1", .lock 0 ["10.0.0.1", "10.0.0.2"], .update (.answered ""), .count,
   .get .assign "n3" "v1", .lock 0 ["10.0.0.2", "10.0.0.1"], .update (.answered ""), .count]

theorem assign_balance_balanceEvents :
    ∃ tr s c, AssignRun (booted ["n1", "n2", "n3"] ["10.0.0.1", "10.0.0.2"]) tr s ∧
      s.ctl = some c ∧ committed tr = 3 ∧ ∀ ip ∈ c.ipMap,
        IPMap.count c.ipMap ip = committed tr / c.ipMap.keys.card ∨
        IPMap.count c.ipMap ip = (committed tr + c.ipMap.keys.card - 1) / c.ipMap.keys.card := by
  obtain ⟨tr, s, c, hrun, hup, hp⟩ :=
    exists_run (booted ["n1", "n2", "n3"] ["10.0.0.1", "10.0.0.2"]) balanceEvents
      (fun tr _ c => tr.all (fun t => !t.event.restarts
          && (writer t).all (fun a => a.op == .assign))
        && c.critical.isNone && decide (committed tr = 3)) (by decide)
  simp only [Bool.and_eq_true, decide_eq_true_eq, List.all_eq_true, Bool.not_eq_true',
    Option.isNone_iff_eq_none] at hp
  obtain ⟨⟨hplain, hfree⟩, hcommitted⟩ := hp
  have h : AssignRun (booted ["n1", "n2", "n3"] ["10.0.0.1", "10.0.0.2"]) tr s := by
    refine ⟨(booted_balanced _ _).idle, hrun, fun t ht => (hplain t ht).1, ?_⟩
    intro t ht a hw
    have hop := (hplain t ht).2
    rw [hw] at hop
    exact eq_of_beq hop
  exact ⟨tr, s, c, h, hup, hcommitted,
    (assign_balance h rfl hup).2.2.2 (fun ip _ => count_zeroCounts _ ip) hfree⟩

end NfsLbCsi
