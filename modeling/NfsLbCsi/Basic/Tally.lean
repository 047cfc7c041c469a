import Mathlib.Data.Finmap
import Mathlib.Tactic

set_option autoImplicit false

/-! # Finite tables and tallies of their rows

`Table K V` is a finite map, equal to another when all lookups agree. `tally f m a` counts the
rows of `m` whose label under `f : V → Option A` is `a`. The one equation everything else uses is
`tally_set`: overwriting or removing the row at `k` changes the tally of `a` by the difference
between what the new row and the old row contribute (`hit`).
-/

namespace Tally

/-- A finite map from keys to rows. -/
abbrev Table (K V : Type) := Finmap (fun _ : K => V)

variable {K V A : Type} [DecidableEq K]

/-! ## Writing a table -/

/-- Write the row at `k`: a new value, or none to remove the row. -/
def Table.set (m : Table K V) (k : K) : Option V → Table K V
  | some v => m.insert k v
  | none => m.erase k

@[simp] theorem lookup_set_self (m : Table K V) (k : K) (o : Option V) :
    (Table.set m k o).lookup k = o := by
  cases o with
  | none => exact Finmap.lookup_erase k m
  | some v => exact Finmap.lookup_insert m

theorem lookup_set_of_ne (m : Table K V) {k k' : K} (o : Option V) (h : k' ≠ k) :
    (Table.set m k o).lookup k' = m.lookup k' := by
  cases o with
  | none => exact Finmap.lookup_erase_ne h
  | some v => exact Finmap.lookup_insert_of_ne m h

theorem lookup_set (m : Table K V) (k k' : K) (o : Option V) :
    (Table.set m k o).lookup k' = if k' = k then o else m.lookup k' := by
  by_cases h : k' = k
  · subst h; simp
  · rw [lookup_set_of_ne m o h, if_neg h]

theorem erase_eq_self {m : Table K V} {k : K} (h : m.lookup k = none) : m.erase k = m := by
  apply Finmap.ext_lookup
  intro k'
  by_cases hk : k' = k
  · subst hk; rw [Finmap.lookup_erase, h]
  · rw [Finmap.lookup_erase_ne hk]

theorem insert_erase_eq_self {m : Table K V} {k : K} {v : V} (h : m.lookup k = some v) :
    (m.erase k).insert k v = m := by
  apply Finmap.ext_lookup
  intro k'
  by_cases hk : k' = k
  · subst hk; rw [Finmap.lookup_insert, h]
  · rw [Finmap.lookup_insert_of_ne _ hk, Finmap.lookup_erase_ne hk]

theorem insert_erase (m : Table K V) (k : K) (v : V) : (m.erase k).insert k v = m.insert k v := by
  apply Finmap.ext_lookup
  intro k'
  by_cases hk : k' = k
  · subst hk; rw [Finmap.lookup_insert, Finmap.lookup_insert]
  · rw [Finmap.lookup_insert_of_ne _ hk, Finmap.lookup_insert_of_ne _ hk,
      Finmap.lookup_erase_ne hk]

theorem keys_insert_of_mem {m : Table K V} {k : K} (v : V) (h : k ∈ m) :
    (m.insert k v).keys = m.keys := by
  ext k'
  rw [Finmap.mem_keys, Finmap.mem_keys, Finmap.mem_insert]
  constructor
  · rintro (rfl | h')
    · exact h
    · exact h'
  · exact Or.inr

/-! ## Rows -/

/-- The rows of a table, without their keys. -/
def values (m : Table K V) : Multiset V := m.entries.map (fun e => e.2)

theorem values_insert_of_notMem {m : Table K V} {k : K} {v : V} (h : m.lookup k = none) :
    values (m.insert k v) = v ::ₘ values m := by
  rw [values, Finmap.entries_insert_of_notMem (Finmap.lookup_eq_none.mp h), Multiset.map_cons]
  rfl

theorem values_insert (m : Table K V) (k : K) (v : V) :
    values (m.insert k v) = v ::ₘ values (m.erase k) := by
  rw [← insert_erase, values_insert_of_notMem (Finmap.lookup_erase k m)]

theorem values_eq_cons {m : Table K V} {k : K} {v : V} (h : m.lookup k = some v) :
    values m = v ::ₘ values (m.erase k) := by
  conv_lhs => rw [← insert_erase_eq_self h]
  exact values_insert_of_notMem (Finmap.lookup_erase k m)

theorem mem_values {m : Table K V} {v : V} : v ∈ values m ↔ ∃ k, m.lookup k = some v := by
  constructor
  · intro h
    obtain ⟨⟨k, w⟩, he, rfl⟩ := Multiset.mem_map.mp h
    exact ⟨k, Finmap.lookup_eq_some_iff.mpr he⟩
  · rintro ⟨k, h⟩
    rw [values_eq_cons h]
    exact Multiset.mem_cons_self v _

/-! ## The tally -/

section

variable [DecidableEq A] (f : V → Option A)

/-- The number of rows of `m` with label `a`. -/
def tally (m : Table K V) (a : A) : ℕ := (values m).countP (fun v => f v = some a)

/-- What one row, present or not, contributes to the tally of `a`. -/
def hit (o : Option V) (a : A) : ℕ := if o.bind f = some a then 1 else 0

@[simp] theorem hit_none (a : A) : hit f none a = 0 := rfl

variable {f}

theorem hit_congr {o o' : Option V} (h : o.bind f = o'.bind f) (a : A) :
    hit f o a = hit f o' a := by
  unfold hit; rw [h]

theorem tally_eq_erase_add (m : Table K V) (k : K) (a : A) :
    tally f m a = tally f (m.erase k) a + hit f (m.lookup k) a := by
  cases h : m.lookup k with
  | none => rw [erase_eq_self h, hit_none, Nat.add_zero]
  | some v =>
      rw [tally, values_eq_cons h, Multiset.countP_cons]
      rfl

/-- **Writing one row.** -/
theorem tally_set (m : Table K V) (k : K) (o : Option V) (a : A) :
    tally f (Table.set m k o) a + hit f (m.lookup k) a = tally f m a + hit f o a := by
  have hsplit := tally_eq_erase_add (f := f) m k a
  cases o with
  | none =>
      have hset : Table.set m k none = m.erase k := rfl
      rw [hset, hit_none]
      omega
  | some v =>
      have hset : tally f (Table.set m k (some v)) a = tally f (m.erase k) a
        + hit f (some v) a := by
        rw [tally, Table.set, values_insert, Multiset.countP_cons]
        rfl
      omega

theorem tally_pos {m : Table K V} {k : K} {v : V} {a : A} (h : m.lookup k = some v)
    (hv : f v = some a) : 0 < tally f m a := by
  rw [tally_eq_erase_add m k, h, hit, Option.bind_some, if_pos hv]
  omega

theorem tally_eq_zero {m : Table K V} {a : A}
    (h : ∀ k v, m.lookup k = some v → f v ≠ some a) : tally f m a = 0 := by
  rw [tally, Multiset.countP_eq_zero]
  intro v hv
  obtain ⟨k, hk⟩ := mem_values.mp hv
  exact h k v hk

/-- Keys whose rows have the label `a` are no more than the rows with that label. -/
theorem card_le_tally {m : Table K V} {a : A} {s : Finset K}
    (h : ∀ k ∈ s, (m.lookup k).bind f = some a) : s.card ≤ tally f m a := by
  induction s using Finset.induction_on generalizing m with
  | empty => exact Nat.zero_le _
  | insert k s hk ih =>
      have hrest : s.card ≤ tally f (m.erase k) a := by
        refine ih (fun k' hk' => ?_)
        have hne : k' ≠ k := fun heq => hk (heq ▸ hk')
        rw [Finmap.lookup_erase_ne hne]
        exact h k' (Finset.mem_insert_of_mem hk')
      rw [Finset.card_insert_of_notMem hk, tally_eq_erase_add m k, hit,
        if_pos (h k (Finset.mem_insert_self k s))]
      exact Nat.add_le_add_right hrest 1

omit [DecidableEq K] in
/-- A row has one label at most, so the tallies of different labels are together no more than the
rows. -/
theorem sum_tally_le (m : Table K V) (s : Finset A) : ∑ a ∈ s, tally f m a ≤ m.keys.card := by
  have hcard : m.keys.card = (values m).card := by
    rw [values, Multiset.card_map]
    exact Multiset.card_map _ _
  rw [hcard]
  unfold tally
  induction values m using Multiset.induction_on with
  | empty => simp
  | cons v t ih =>
      have hone : ∑ a ∈ s, (if f v = some a then 1 else 0) ≤ 1 := by
        cases f v with
        | none => simp
        | some b =>
            simp only [Option.some.injEq, Finset.sum_ite_eq s b]
            split
            · exact le_refl 1
            · exact Nat.zero_le 1
      simp only [Multiset.countP_cons, Finset.sum_add_distrib, Multiset.card_cons]
      exact Nat.add_le_add ih hone

omit [DecidableEq K] in
/-- A list that enumerates the rows, in any order, has the tally as its count. -/
theorem countP_listing {m : Table K V} {l : List V} (h : (l : Multiset V) = values m) (a : A) :
    l.countP (fun v => f v = some a) = tally f m a := by
  rw [tally, ← h, Multiset.coe_countP]

end

/-! ## Relabelling -/

section

variable {K V A : Type} (f : V → Option A)

/-- A row with its label in place of its value; rows without a label are dropped. -/
def labelRow (r : Sigma (fun _ : K => V)) : Option (Sigma (fun _ : K => A)) :=
  (f r.2).map (Sigma.mk r.1)

theorem keys_filterMap_labelRow (e : Multiset (Sigma (fun _ : K => V))) :
    (e.filterMap (labelRow f)).keys ≤ e.keys := by
  induction e using Multiset.induction_on with
  | empty => exact le_refl _
  | cons r e ih =>
      cases hr : f r.2 with
      | none =>
          rw [Multiset.filterMap_cons_none _ _ (by simp [labelRow, hr]), Multiset.keys_cons]
          exact le_trans ih (Multiset.le_cons_self _ _)
      | some a =>
          rw [Multiset.filterMap_cons_some _ _ _ (b := ⟨r.1, a⟩) (by simp [labelRow, hr]),
            Multiset.keys_cons, Multiset.keys_cons]
          exact Multiset.cons_le_cons _ ih

/-- The table of the labels. -/
def Table.relabel (m : Table K V) : Table K A where
  entries := m.entries.filterMap (labelRow f)
  nodupKeys := Multiset.nodup_keys.mp
    (Multiset.nodup_of_le (keys_filterMap_labelRow f m.entries)
      (Multiset.nodup_keys.mpr m.nodupKeys))

theorem lookup_relabel [DecidableEq K] (m : Table K V) (k : K) :
    (Table.relabel f m).lookup k = (m.lookup k).bind f := by
  ext a
  rw [Finmap.lookup_eq_some_iff, Table.relabel, Multiset.mem_filterMap, Option.bind_eq_some_iff]
  constructor
  · rintro ⟨⟨k', v⟩, hmem, hrow⟩
    obtain ⟨b, hb, heq⟩ := Option.map_eq_some_iff.mp hrow
    cases heq
    exact ⟨v, Finmap.lookup_eq_some_iff.mpr hmem, hb⟩
  · rintro ⟨v, hv, ha⟩
    exact ⟨⟨k, v⟩, Finmap.lookup_eq_some_iff.mp hv, by simp [labelRow, ha]⟩

theorem values_relabel (m : Table K V) : values (Table.relabel f m) = (values m).filterMap f := by
  rw [values, values, Table.relabel, Multiset.map_filterMap, Multiset.filterMap_map]
  refine congrArg (fun g => Multiset.filterMap g m.entries) (funext fun r => ?_)
  simp only [labelRow, Option.map_map, Function.comp_def]
  exact Option.map_id'

/-- Labelling the rows first and counting then. -/
theorem tally_relabel [DecidableEq A] (m : Table K V) (a : A) :
    tally some (Table.relabel f m) a = tally f m a := by
  rw [tally, tally, values_relabel]
  induction values m using Multiset.induction_on with
  | empty => rfl
  | cons v s ih =>
      cases hv : f v with
      | none =>
          rw [Multiset.filterMap_cons_none _ _ hv, ih, Multiset.countP_cons_of_neg]
          simp [hv]
      | some b =>
          rw [Multiset.filterMap_cons_some _ _ _ hv, Multiset.countP_cons, Multiset.countP_cons, ih,
            hv]

end

end Tally
