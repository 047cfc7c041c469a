import NfsLbCsi.Basic.Run

set_option autoImplicit false

/-! # Refinement between two levels of a design

The upper level is a relation `next : A → L → A → Prop` with labelled steps; `Path next a₀ ls a`
says that the labels `ls` lead from `a₀` to `a`. The lower level is a partial step function
(`Lts.Run`).

A *refinement mapping* `abs : S → A` gives the upper state that a lower state stands for, and
`label` the upper step that a lower step performs, if it performs one. When every single step is
matched (`Matches`), every run of the lower level is a path of the upper level whose labels can be
read off the run (`Run.refines`); a relation between lower and upper states will do as well
(`Run.simulates`). What holds along all paths (`Path.invariant`) then holds along all runs.
-/

namespace Lts

section

variable {A L : Type} {next : A → L → A → Prop} {a₀ a a' : A} {ls : List L}

/-- The labels `ls`, oldest first, lead from `a₀` to the last index. -/
inductive Path (next : A → L → A → Prop) (a₀ : A) : List L → A → Prop where
  | nil : Path next a₀ [] a₀
  | snoc {ls : List L} {l : L} {a a' : A} :
      Path next a₀ ls a → next a l a' → Path next a₀ (ls ++ [l]) a'

/-- **Induction over a path.** `P` is a restriction on the labels of the path. -/
theorem Path.invariant {I : List L → A → Prop} {P : L → Prop} (h₀ : I [] a₀)
    (hstep : ∀ ls l a a', next a l a' → P l → I ls a → I (ls ++ [l]) a')
    (hpath : Path next a₀ ls a) (hP : ∀ l ∈ ls, P l) : I ls a := by
  induction hpath with
  | nil => exact h₀
  | @snoc ls l a a' _ hn ih =>
      have hold : ∀ m ∈ ls, P m := fun m hm => hP m (List.mem_append_left _ hm)
      exact hstep ls l a a' hn (hP l (by simp)) (ih hold)

/-- The last step of a path. -/
theorem Path.snoc_inv {l : L} (hpath : Path next a₀ (ls ++ [l]) a') :
    ∃ a, Path next a₀ ls a ∧ next a l a' := by
  generalize hall : ls ++ [l] = all at hpath
  cases hpath with
  | nil => simp at hall
  | snoc hpath hnext =>
      obtain ⟨rfl, hlast⟩ := List.append_inj' hall rfl
      cases hlast
      exact ⟨_, hpath, hnext⟩

/-- The upper level makes the step `l`, or none and stays where it is. -/
def Matches (next : A → L → A → Prop) (a : A) : Option L → A → Prop
  | none, a' => a' = a
  | some l, a' => next a l a'

theorem Path.extend {l : Option L} (hpath : Path next a₀ ls a) (h : Matches next a l a') :
    Path next a₀ (ls ++ l.toList) a' := by
  cases l with
  | none =>
      obtain rfl : a' = a := h
      simpa using hpath
  | some l => exact hpath.snoc h

end

theorem filterMap_snoc {T L : Type} (label : T → Option L) (ts : List T) (t : T) :
    (ts ++ [t]).filterMap label = ts.filterMap label ++ (label t).toList := by
  have hlast : [t].filterMap label = (label t).toList := by
    cases h : label t <;> simp [h]
  rw [List.filterMap_append, hlast]

/-- **Refinement.** If every step that a run can make is matched, the run is a path of the upper
level. -/
theorem Run.refines {S E O A L : Type} {step : S → E → Option (S × O)} {next : A → L → A → Prop}
    {s₀ s : S} {tr : List (Transition S E O)} (abs : S → A) (label : Transition S E O → Option L)
    (hstep : ∀ (tr : List (Transition S E O)) (t : Transition S E O), Run step s₀ tr t.pre →
      step t.pre t.event = some (t.post, t.obs) → Matches next (abs t.pre) (label t) (abs t.post))
    (hrun : Run step s₀ tr s) : Path next (abs s₀) (tr.filterMap label) (abs s) := by
  refine Run.traceInvariant (I := fun tr s => Path next (abs s₀) (tr.filterMap label) (abs s))
    (P := fun _ => True) Path.nil ?_ hrun (fun _ _ => trivial)
  intro tr t hpre hs _ _ ih
  rw [filterMap_snoc]
  exact ih.extend (hstep tr t hpre hs)

/-- **Simulation.** As `Run.refines`, when a lower state may stand for several upper states. -/
theorem Run.simulates {S E O A L : Type} {step : S → E → Option (S × O)} {next : A → L → A → Prop}
    {s₀ s : S} {a₀ : A} {tr : List (Transition S E O)} {R : S → A → Prop}
    {P : Transition S E O → Prop}
    (label : Transition S E O → Option L) (h₀ : R s₀ a₀)
    (hstep : ∀ (t : Transition S E O) (a : A), step t.pre t.event = some (t.post, t.obs) → P t →
      R t.pre a → ∃ a', Matches next a (label t) a' ∧ R t.post a')
    (hrun : Run step s₀ tr s) (hP : ∀ t ∈ tr, P t) :
    ∃ a, Path next a₀ (tr.filterMap label) a ∧ R s a := by
  refine Run.traceInvariant (I := fun tr s => ∃ a, Path next a₀ (tr.filterMap label) a ∧
    R s a) (P := P) ⟨a₀, Path.nil, h₀⟩ ?_ hrun hP
  rintro tr t - hs hPt - ⟨a, hpath, hR⟩
  obtain ⟨a', hmatch, hR'⟩ := hstep t a hs hPt hR
  rw [filterMap_snoc]
  exact ⟨a', hpath.extend hmatch, hR'⟩

end Lts
