import NfsLbCsi.LBController.Degradation

set_option autoImplicit false

/-! # Every call returns

With at least one IP configured, the calls in flight never block each other (`calls_complete`).
Whatever the scheduler does, they take together at most three more steps for each call until all
have returned, none with a panic; as long as one is in flight, one of them can move.

`Controller.work` is the number of steps that the calls in flight can still take: three for a call
that waits for the mutex, two for one that is about to update, one for one that is about to count.
-/

namespace NfsLbCsi

open Tally Optimistic Lts

section

variable {B : Type}

/-! ## The steps of the calls in flight -/

/-- The step belongs to a call in flight. -/
def Event.internal : Event B → Bool
  | .lock _ _ => true
  | .update _ => true
  | .count => true
  | _ => false

def Critical.work : Critical B → ℕ
  | .updating _ _ _ => 2
  | .counting _ _ => 1

/-- The steps that the calls in flight can still take. -/
def Controller.work (c : Controller B) : ℕ := 3 * c.waiting.length + c.critical.elim 0 Critical.work

theorem Controller.work_le (c : Controller B) : c.work ≤ 3 * c.calls.length := by
  rw [Controller.work, Controller.calls, List.length_append]
  cases hcrit : c.critical with
  | none => simp
  | some cr =>
      cases cr <;> simp only [Critical.work, Option.elim_some, Option.map_some, Option.toList_some,
        List.length_singleton] <;> omega

theorem length_eraseIdx {α : Type} {l : List α} {i : ℕ} {x : α} (h : l[i]? = some x) :
    (l.eraseIdx i).length + 1 = l.length := by
  obtain ⟨hi, -⟩ := List.getElem?_eq_some_iff.mp h
  rw [List.length_eraseIdx_of_lt hi]
  omega

/-- Every step of a call in flight brings it nearer to its return, and with a configured IP none
kills the process. -/
theorem Step.internal {s s' : System B} {e : Event B} {o : Obs} (h : Step s e o s') (hs : s.Sound)
    {c : Controller B} (hc : s.ctl = some c) (hne : c.ipMap.keys.Nonempty)
    (hint : e.internal = true) :
    o.ret ≠ some .panicked ∧ ∃ c', s'.ctl = some c' ∧ c'.ipMap.keys = c.ipMap.keys ∧
      c'.work + 1 ≤ c.work := by
  have hsafe : o.ret ≠ some .panicked := by
    intro hret
    obtain ⟨c₁, hc₁, hempty⟩ := h.panicked_keys hret
    rw [hc] at hc₁
    obtain rfl := Option.some.inj hc₁
    rw [hempty] at hne
    exact Finset.not_nonempty_empty hne
  refine ⟨hsafe, ?_⟩
  cases h with
  | lockPanic => exact absurd rfl hsafe
  | @lockReturn c i ips call r hctl hfree hcall =>
      obtain rfl : c = _ := Option.some.inj (hctl.symm.trans hc)
      have hlen := length_eraseIdx hcall
      refine ⟨_, rfl, rfl, ?_⟩
      simp only [Controller.work, hfree, Option.elim_none]
      omega
  | @lockUpdate c i ips call ip nodeCopy hctl hfree hcall =>
      obtain rfl : c = _ := Option.some.inj (hctl.symm.trans hc)
      have hlen := length_eraseIdx hcall
      refine ⟨_, rfl, rfl, ?_⟩
      simp only [Controller.work, hfree, Option.elim_none, Option.elim_some, Critical.work]
      omega
  | @updateRefused c reply call ip err nodeCopy hctl hcrit =>
      obtain rfl : c = _ := Option.some.inj (hctl.symm.trans hc)
      exact ⟨_, rfl, rfl, by simp [Controller.work, hcrit, Critical.work]⟩
  | @updateLost c call ip err nodeCopy api hctl hcrit =>
      obtain rfl : c = _ := Option.some.inj (hctl.symm.trans hc)
      exact ⟨_, rfl, rfl, by simp [Controller.work, hcrit, Critical.work]⟩
  | @updateDone c call ip err nodeCopy api hctl hcrit =>
      obtain rfl : c = _ := Option.some.inj (hctl.symm.trans hc)
      exact ⟨_, rfl, rfl, by simp [Controller.work, hcrit, Critical.work]⟩
  | @count c call ip hctl hcrit =>
      obtain rfl : c = _ := Option.some.inj (hctl.symm.trans hc)
      obtain ⟨nodeCopy, ips, hsort, hnext⟩ := (hs c hctl).holds _ hcrit
      exact ⟨_, rfl, keys_add (afterLock_mem hsort hnext) _,
        by simp [Controller.work, hcrit, Critical.work]⟩
  | _ => cases hint

/-- `sort.Slice` has something to return. -/
theorem exists_sortedByCount (m : IPMap) : ∃ ips, SortedByCount m ips := by
  let le : String → String → Bool := fun a b => decide (IPMap.count m a ≤ IPMap.count m b)
  have htrans : ∀ a b c, le a b = true → le b c = true → le a c = true := by
    intro a b c
    simp only [le, decide_eq_true_eq]
    omega
  have htotal : ∀ a b, (le a b || le b a) = true := by
    intro a b
    simp only [le, Bool.or_eq_true, decide_eq_true_eq]
    omega
  refine ⟨m.keys.toList.mergeSort le, ?_, ?_⟩
  · rw [Multiset.coe_eq_coe.mpr (List.mergeSort_perm _ le), Finset.coe_toList]
  · refine (List.pairwise_mergeSort htrans htotal m.keys.toList).imp (fun h => ?_)
    simp only [le, decide_eq_true_eq] at h
    omega

/-- **No deadlock.** As long as a call is in flight, one of them can move. -/
theorem exists_internal [DecidableEq B] {s : System B} {c : Controller B} (hc : s.ctl = some c)
    (hcalls : c.calls ≠ []) : ∃ e : Event B, e.internal = true ∧ (step s e).isSome = true := by
  cases hcrit : c.critical with
  | some cr =>
      -- whoever holds the mutex goes on
      cases cr with
      | updating call ip nodeCopy =>
          refine ⟨.update (.unsent ""), rfl, ?_⟩
          simp [step, hc, System.update, hcrit, nodesUpdate]
      | counting call ip => exact ⟨.count, rfl, by simp [step, hc, System.count, hcrit]⟩
  | none =>
      cases hwait : c.waiting with
      | nil => exact absurd (by simp [Controller.calls, hcrit, hwait]) hcalls
      | cons call rest =>
          -- the mutex is free, and the first in the queue takes it
          obtain ⟨ips, hips⟩ := exists_sortedByCount c.ipMap
          refine ⟨.lock 0 ips, rfl, ?_⟩
          simp only [step, hc, Option.bind_some, System.lock, hcrit, hwait,
            List.getElem?_cons_zero, if_pos (fun _ => hips)]
          split <;> rfl

/-- What holds after any number of steps of the calls in flight. -/
theorem internal_of_run [DecidableEq B] {s₀ s s' : System B} {tr tr' : Trace B} {c : Controller B}
    (h₀ : s₀.Idle) (hrun : Run step s₀ tr s) (hc : s.ctl = some c) (hne : c.ipMap.keys.Nonempty)
    (hrun' : Run step s tr' s') (hint : ∀ t ∈ tr', t.event.internal = true) :
    (∀ t ∈ tr', t.obs.ret ≠ some .panicked) ∧ ∃ c', s'.ctl = some c' ∧
      c'.ipMap.keys = c.ipMap.keys ∧ c'.work + tr'.length ≤ c.work := by
  refine Run.traceInvariant
    (I := fun tr' s' => (∀ t ∈ tr', t.obs.ret ≠ some .panicked) ∧ ∃ c', s'.ctl = some c' ∧
      c'.ipMap.keys = c.ipMap.keys ∧ c'.work + tr'.length ≤ c.work)
    (P := fun t => t.event.internal = true) ⟨by simp, c, hc, rfl, by simp⟩ ?_ hrun' hint
  intro tr' t hpre hstep ht _ ⟨hsafe, c₁, hc₁, hkeys, hwork⟩
  have hs := sound_of_run h₀ (hrun.append hpre)
  obtain ⟨hret, c', hc', hkeys', hwork'⟩ :=
    (step_cases hstep).internal hs hc₁ (by rw [hkeys]; exact hne) ht
  refine ⟨fun u hu => ?_, c', hc', hkeys'.trans hkeys, ?_⟩
  · rcases List.mem_append.mp hu with hu | hu
    · exact hsafe u hu
    · rw [List.mem_singleton.mp hu]; exact hret
  · rw [List.length_append, List.length_singleton]
    omega

theorem exists_drain [DecidableEq B] {s : System B} {c : Controller B} (hs : s.Sound)
    (hc : s.ctl = some c) (hne : c.ipMap.keys.Nonempty) :
    ∃ tr' s' c', Run step s tr' s' ∧ (∀ t ∈ tr', t.event.internal = true) ∧ s'.ctl = some c' ∧
      c'.calls = [] := by
  -- by induction on the work that is left
  induction hn : c.work using Nat.strong_induction_on generalizing s c with
  | _ n ih =>
      by_cases hcalls : c.calls = []
      · exact ⟨[], s, c, Run.nil, by simp, hc, hcalls⟩
      · obtain ⟨e, hint, hsome⟩ := exists_internal hc hcalls
        obtain ⟨⟨s₁, o⟩, hstep⟩ := Option.isSome_iff_exists.mp hsome
        obtain ⟨-, c₁, hc₁, hkeys, hwork⟩ := (step_cases hstep).internal hs hc hne hint
        obtain ⟨tr', s', c', hrun', hall, hc', hdone⟩ := ih c₁.work (by omega)
          ((step_cases hstep).sound hs) hc₁ (by rw [hkeys]; exact hne) rfl
        refine ⟨_, s', c', (Run.single hstep).append hrun', fun t ht => ?_, hc', hdone⟩
        rcases List.mem_append.mp ht with ht | ht
        · rw [List.mem_singleton.mp ht]; exact hint
        · exact hall t ht

/-- **Every call returns.** From every reachable state of a process with a configured IP, whatever
the calls in flight do next and in whatever order: together they take at most three more steps for
each of them, none panics, and as long as one is in flight, one of them can take a step; so they can
all be driven to their returns. -/
theorem calls_complete [DecidableEq B] {s₀ s : System B} {tr : Trace B} {c : Controller B}
    (h₀ : s₀.Idle) (hrun : Run step s₀ tr s) (hc : s.ctl = some c) (hne : c.ipMap.keys.Nonempty) :
    (∀ tr' s', Run step s tr' s' → (∀ t ∈ tr', t.event.internal = true) →
      tr'.length ≤ 3 * c.calls.length ∧ (∀ t ∈ tr', t.obs.ret ≠ some .panicked) ∧
      ∃ c', s'.ctl = some c' ∧
        (c'.calls = [] ∨ ∃ e : Event B, e.internal = true ∧ (step s' e).isSome = true)) ∧
    ∃ tr' s' c', Run step s tr' s' ∧ (∀ t ∈ tr', t.event.internal = true) ∧ s'.ctl = some c' ∧
      c'.calls = [] := by
  constructor
  · intro tr' s' hrun' hint
    obtain ⟨hsafe, c', hc', -, hwork⟩ := internal_of_run h₀ hrun hc hne hrun' hint
    have hbound := c.work_le
    refine ⟨by omega, hsafe, c', hc', ?_⟩
    by_cases hcalls : c'.calls = []
    · exact Or.inl hcalls
    · exact Or.inr (exists_internal hc' hcalls)
  · exact exists_drain (sound_of_run h₀ hrun) hc hne

end

/-- Two calls wait while a third holds the mutex. -/
def queueEvents : List (Event Unit) :=
  [.get .assign "n1" "v1", .get .assign "n1" "v2", .get .assign "n2" "v1",
   .lock 0 ["10.0.0.1", "10.0.0.2"]]

theorem calls_complete_queueEvents :
    ∃ tr s c, Run step threeNodes tr s ∧ s.ctl = some c ∧ c.calls.length = 3 ∧
      (∀ tr' s', Run step s tr' s' → (∀ t ∈ tr', t.event.internal = true) →
        tr'.length ≤ 3 * c.calls.length) ∧
      ∃ tr' s' c', Run step s tr' s' ∧ s'.ctl = some c' ∧ c'.calls = [] := by
  obtain ⟨tr, s, c, hrun, hup, hp⟩ := exists_run threeNodes queueEvents
    (fun _ _ c => decide (c.calls.length = 3) && decide (c.ipMap.keys.Nonempty)) (by decide)
  simp only [Bool.and_eq_true, decide_eq_true_eq] at hp
  obtain ⟨hevery, tr', s', c', hrun', -, hc', hdone⟩ :=
    calls_complete (booted_balanced _ _).idle hrun hup hp.2
  exact ⟨tr, s, c, hrun, hup, hp.1, fun tr' s' hr hi => (hevery tr' s' hr hi).1, tr', s', c', hrun',
    hc', hdone⟩

end NfsLbCsi
