import Mathlib.Tactic

set_option autoImplicit false

/-! # Runs of a labelled transition system

A system is given by a partial step function `step : S → E → Option (S × O)`: in state `s` the
event `e` is either impossible (`none`) or leads to a new state and shows an observation. All
nondeterminism (scheduling, faults, the order of a map iteration) is data of the event, so a
step is executable and a run is a list of events that happened.

* `Run step s₀ tr s`: the transitions `tr` lead from `s₀` to `s`, in order.
* `Run.traceInvariant`, `Run.invariant`: what one step preserves holds after every run.
* `Run.reached`: every transition of a run starts in a state that a prefix of the run reaches.
* `exec`: runs as computations, for concrete traces (`exec_run`, `run_of_exec`).
-/

namespace Lts

/-- One step of a run, with the states around it. -/
structure Transition (S E O : Type) where
  pre : S
  event : E
  obs : O
  post : S

/-- The transitions `tr`, oldest first, lead from `s₀` to the last index. -/
inductive Run {S E O : Type} (step : S → E → Option (S × O)) (s₀ : S) :
    List (Transition S E O) → S → Prop where
  | nil : Run step s₀ [] s₀
  | snoc {tr : List (Transition S E O)} {s s' : S} {e : E} {o : O} :
      Run step s₀ tr s → step s e = some (s', o) → Run step s₀ (tr ++ [⟨s, e, o, s'⟩]) s'

section

variable {S E O : Type} {step : S → E → Option (S × O)} {s₀ s s' : S}
  {tr tr' : List (Transition S E O)}

/-! ## Invariant rules -/

/-- **Induction over a run.** `I` relates the trace so far to the state it has led to; `P` is
a restriction on the transitions that the run is allowed to make. -/
theorem Run.traceInvariant {I : List (Transition S E O) → S → Prop}
    {P : Transition S E O → Prop} (h₀ : I [] s₀)
    (hstep : ∀ (tr : List (Transition S E O)) (t : Transition S E O),
      Run step s₀ tr t.pre → step t.pre t.event = some (t.post, t.obs) → P t →
      (∀ u ∈ tr, P u) → I tr t.pre → I (tr ++ [t]) t.post)
    (hrun : Run step s₀ tr s) (hP : ∀ t ∈ tr, P t) : I tr s := by
  induction hrun with
  | nil => exact h₀
  | @snoc tr s s' e o hpre hs ih =>
      have hold : ∀ u ∈ tr, P u := fun u hu => hP u (List.mem_append_left _ hu)
      have hnew : P ⟨s, e, o, s'⟩ := hP _ (by simp)
      exact hstep tr ⟨s, e, o, s'⟩ hpre hs hnew hold (ih hold)

/-- An invariant of the states alone. -/
theorem Run.invariant {I : S → Prop} {P : Transition S E O → Prop} (h₀ : I s₀)
    (hstep : ∀ t : Transition S E O, step t.pre t.event = some (t.post, t.obs) → P t →
      I t.pre → I t.post)
    (hrun : Run step s₀ tr s) (hP : ∀ t ∈ tr, P t) : I s :=
  Run.traceInvariant (I := fun _ s => I s) h₀
    (fun _ t _ hs hPt _ hI => hstep t hs hPt hI) hrun hP

/-! ## Cutting and joining runs -/

theorem Run.append (h₁ : Run step s₀ tr s) (h₂ : Run step s tr' s') :
    Run step s₀ (tr ++ tr') s' := by
  induction h₂ with
  | nil => simpa using h₁
  | snoc _ hs ih => rw [← List.append_assoc]; exact ih.snoc hs

theorem Run.single {e : E} {o : O} (h : step s e = some (s', o)) :
    Run step s [⟨s, e, o, s'⟩] s' := by
  simpa using Run.nil.snoc h

theorem Run.snoc_inv {t : Transition S E O} (hrun : Run step s₀ (tr ++ [t]) s) :
    Run step s₀ tr t.pre ∧ step t.pre t.event = some (t.post, t.obs) ∧ s = t.post := by
  generalize htr : tr ++ [t] = l at hrun
  cases hrun with
  | nil => simp at htr
  | snoc hpre hs =>
      obtain ⟨rfl, heq⟩ := List.append_inj' htr rfl
      obtain rfl := List.singleton_inj.mp heq
      exact ⟨hpre, hs, rfl⟩

/-- The step at a given place of a run is taken in the state that the part of the run before it
reaches; the rest of the run starts where it ends. -/
theorem Run.split {t : Transition S E O} (hrun : Run step s₀ (tr ++ t :: tr') s) :
    Run step s₀ tr t.pre ∧ step t.pre t.event = some (t.post, t.obs) ∧ Run step t.post tr' s := by
  induction tr' using List.reverseRecOn generalizing s with
  | nil =>
      obtain ⟨hpre, hs, rfl⟩ := hrun.snoc_inv
      exact ⟨hpre, hs, Run.nil⟩
  | append_singleton tr' u ih =>
      have hassoc : tr ++ t :: (tr' ++ [u]) = (tr ++ t :: tr') ++ [u] := by simp
      rw [hassoc] at hrun
      obtain ⟨hpre, hs, rfl⟩ := hrun.snoc_inv
      obtain ⟨hpre', hs', hrest⟩ := ih hpre
      exact ⟨hpre', hs', hrest.snoc hs⟩

theorem Run.reached (hrun : Run step s₀ tr s) {t : Transition S E O} (ht : t ∈ tr) :
    ∃ tr₁ tr₂, tr = tr₁ ++ t :: tr₂ ∧ Run step s₀ tr₁ t.pre ∧
      step t.pre t.event = some (t.post, t.obs) ∧ Run step t.post tr₂ s := by
  obtain ⟨tr₁, tr₂, rfl⟩ := List.append_of_mem ht
  exact ⟨tr₁, tr₂, rfl, hrun.split⟩

/-! ## Runs as computations -/

/-- Perform the events in order; `none` when one of them is impossible. -/
def exec (step : S → E → Option (S × O)) : S → List E → Option (List (Transition S E O) × S)
  | s, [] => some ([], s)
  | s, e :: es =>
      match step s e with
      | none => none
      | some (s', o) =>
          match exec step s' es with
          | none => none
          | some (tr, s'') => some (⟨s, e, o, s'⟩ :: tr, s'')

theorem exec_run : ∀ {s s' : S} {es : List E} {tr : List (Transition S E O)},
    exec step s es = some (tr, s') → Run step s tr s'
  | s, s', [], tr, h => by
      simp only [exec, Option.some.injEq, Prod.mk.injEq] at h
      obtain ⟨rfl, rfl⟩ := h
      exact Run.nil
  | s, s', e :: es, tr, h => by
      simp only [exec] at h
      split at h
      · cases h
      · rename_i s₁ o hs
        split at h
        · cases h
        · rename_i tr₁ s₂ hex
          simp only [Option.some.injEq, Prod.mk.injEq] at h
          obtain ⟨rfl, rfl⟩ := h
          exact (Run.single hs).append (exec_run hex)

/-- A computed run whose outcome passes the test `p`. -/
theorem run_of_exec {es : List E} {p : List (Transition S E O) → S → Bool}
    (h : (exec step s₀ es).any (fun r => p r.1 r.2) = true) :
    ∃ tr s, Run step s₀ tr s ∧ p tr s = true := by
  cases hex : exec step s₀ es with
  | none => simp [hex] at h
  | some r => exact ⟨r.1, r.2, exec_run hex, by simpa [hex] using h⟩

end

end Lts
