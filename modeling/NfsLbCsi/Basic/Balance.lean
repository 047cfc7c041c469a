import Mathlib.Algebra.Order.BigOperators.Group.Finset
import Mathlib.Tactic

set_option autoImplicit false

/-! # Counters that grow at the least one

A finite set `s` of counters with values `f : ι → ℤ`. A *placement* adds one to a counter whose
value is minimal over `s`. Placements keep the counters close together: the spread (maximum minus
minimum) never exceeds the larger of 1 and what it was (`spread_place`). Counters with a spread of
at most 1 share their sum as evenly as integers can (`eq_floor_or_ceil`).
-/

namespace Balance

variable {ι : Type} [DecidableEq ι]

/-- `i` is one of the counters, and no counter is smaller. -/
def Least (s : Finset ι) (f : ι → ℤ) (i : ι) : Prop := i ∈ s ∧ ∀ j ∈ s, f i ≤ f j

/-- Maximum minus minimum; 0 if there are no counters. -/
def spread (s : Finset ι) (f : ι → ℤ) : ℤ :=
  if h : s.Nonempty then s.sup' h f - s.inf' h f else 0

/-- The counters after one has been added to the counter `i`. -/
def place (f : ι → ℤ) (i : ι) : ι → ℤ := fun j => f j + if j = i then 1 else 0

/-! ## The spread -/

omit [DecidableEq ι] in
theorem spread_nonneg (s : Finset ι) (f : ι → ℤ) : 0 ≤ spread s f := by
  unfold spread
  split
  · rename_i h
    obtain ⟨i, hi⟩ := h
    have hmax := Finset.le_sup' f hi
    have hmin := Finset.inf'_le f hi
    omega
  · exact le_refl 0

omit [DecidableEq ι] in
/-- The spread bounds every difference, and is the least such bound. -/
theorem spread_le_iff {s : Finset ι} {f : ι → ℤ} {d : ℤ} (hd : 0 ≤ d) :
    spread s f ≤ d ↔ ∀ i ∈ s, ∀ j ∈ s, f i - f j ≤ d := by
  unfold spread
  split
  · rename_i h
    constructor
    · intro hle i hi j hj
      have hmax := Finset.le_sup' f hi
      have hmin := Finset.inf'_le f hj
      omega
    · intro hall
      obtain ⟨i, hi, hmax⟩ := Finset.exists_mem_eq_sup' h f
      obtain ⟨j, hj, hmin⟩ := Finset.exists_mem_eq_inf' h f
      rw [hmax, hmin]
      exact hall i hi j hj
  · rename_i h
    constructor
    · intro _ i hi
      exact absurd ⟨i, hi⟩ h
    · intro _
      exact hd

/-- **One placement.** Only the differences to the counter that grows become larger, and that
counter was minimal. -/
theorem spread_place {s : Finset ι} {f : ι → ℤ} {i : ι} (h : Least s f i) :
    spread s (place f i) ≤ max 1 (spread s f) := by
  have hdiff := (spread_le_iff (spread_nonneg s f)).mp (le_refl (spread s f))
  rw [spread_le_iff (le_trans zero_le_one (le_max_left 1 (spread s f)))]
  intro j hj k hk
  have hold : f j - f k ≤ spread s f := hdiff j hj k hk
  have hle : spread s f ≤ max 1 (spread s f) := le_max_right 1 _
  have hone : 1 ≤ max 1 (spread s f) := le_max_left 1 _
  unfold place
  by_cases hji : j = i
  · -- the counter that grew was at most every other
    have hmin : f j ≤ f k := hji ▸ h.2 k hk
    rw [if_pos hji]
    split <;> omega
  · rw [if_neg hji]
    split <;> omega

/-! ## The sum -/

theorem sum_place {s : Finset ι} {f : ι → ℤ} {i : ι} (hi : i ∈ s) :
    ∑ j ∈ s, place f i j = ∑ j ∈ s, f j + 1 := by
  unfold place
  rw [Finset.sum_add_distrib, Finset.sum_ite_eq' s i, if_pos hi]

omit [DecidableEq ι] in
/-- A counter that is at most one above the others is at most the ceiling of the average. -/
theorem card_mul_le_sum {s : Finset ι} {f : ι → ℤ} {i : ι} (hi : i ∈ s)
    (h : ∀ j ∈ s, f i - f j ≤ 1) : s.card * f i ≤ ∑ j ∈ s, f j + s.card - 1 := by
  -- what the others lack to one more than `f i`
  have hterm : ∀ j ∈ s, 0 ≤ f j + 1 - f i := fun j hj => by linarith [h j hj]
  have hsingle : f i + 1 - f i ≤ ∑ j ∈ s, (f j + 1 - f i) :=
    Finset.single_le_sum (f := fun j => f j + 1 - f i) hterm hi
  have hsum : ∑ j ∈ s, (f j + 1 - f i) = ∑ j ∈ s, f j + s.card - s.card * f i := by
    simp [Finset.sum_sub_distrib, Finset.sum_add_distrib]
  linarith

omit [DecidableEq ι] in
/-- **An even share.** With a spread of at most 1, every counter is the floor or the ceiling of the
average. -/
theorem eq_floor_or_ceil {s : Finset ι} {f : ι → ℤ} (hspread : spread s f ≤ 1) {i : ι}
    (hi : i ∈ s) :
    f i = (∑ j ∈ s, f j) / s.card ∨ f i = (∑ j ∈ s, f j + s.card - 1) / s.card := by
  have hdiff := (spread_le_iff zero_le_one).mp hspread
  obtain ⟨j₀, hj₀, hmin⟩ := Finset.exists_min_image s f ⟨i, hi⟩
  have hcard : (0 : ℤ) < s.card := by exact_mod_cast Finset.card_pos.mpr ⟨i, hi⟩
  have hconst : ∀ a : ℤ, ∑ _j ∈ s, a = s.card * a := by
    intro a
    rw [Finset.sum_const, nsmul_eq_mul]
  have hlow : s.card * f j₀ ≤ ∑ j ∈ s, f j := by
    rw [← hconst]
    exact Finset.sum_le_sum hmin
  -- the minimal counter keeps the sum strictly below that of the next value everywhere
  have hhigh : ∑ j ∈ s, f j < s.card * (f j₀ + 1) := by
    rw [← hconst]
    refine Finset.sum_lt_sum (fun j hj => ?_) ⟨j₀, hj₀, by omega⟩
    have := hdiff j hj j₀ hj₀
    omega
  have hrange : f i = f j₀ ∨ f i = f j₀ + 1 := by
    have h₁ := hdiff i hi j₀ hj₀
    have h₂ := hmin i hi
    omega
  rcases hrange with heq | heq
  · left
    rw [heq]
    refine le_antisymm ?_ ?_
    · exact (Int.le_ediv_iff_mul_le hcard).mpr (by linarith)
    · exact Int.lt_add_one_iff.mp ((Int.ediv_lt_iff_lt_mul hcard).mpr (by linarith))
  · right
    have hlow' : s.card * f j₀ < ∑ j ∈ s, f j := by
      rw [← hconst]
      exact Finset.sum_lt_sum hmin ⟨i, hi, by omega⟩
    rw [heq]
    refine le_antisymm ?_ ?_
    · exact (Int.le_ediv_iff_mul_le hcard).mpr (by linarith)
    · exact Int.lt_add_one_iff.mp ((Int.ediv_lt_iff_lt_mul hcard).mpr (by linarith))

end Balance
