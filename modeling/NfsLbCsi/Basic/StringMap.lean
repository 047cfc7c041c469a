import Mathlib.Tactic

set_option autoImplicit false

/-! # String maps and their iteration

A Go `map[string]string` is a list of entries with different keys. A `range` loop visits the entries
in an order that the language leaves open, a new one for every loop; the order is an argument
(`MapOrder`), and a result about the loop is one about every order.

A loop that sorts the keys into classes and keeps one value for each class ends with the value that
it met last (`foldl_last`, `foldlM_last`); the order matters when two keys of one class have
different values (`getLast?_valuesOf_perm`).
-/

/-- A map from strings to strings. -/
structure StringMap where
  entries : List (String × String)
  nodup : (entries.map Prod.fst).Nodup
  deriving DecidableEq

/-- The order of one `range` loop. -/
structure MapOrder where
  arrange : List (String × String) → List (String × String)
  perm : ∀ l, (arrange l).Perm l

/-- The order in which the entries were written. -/
def MapOrder.asWritten : MapOrder := ⟨id, fun l => List.Perm.refl l⟩

/-- The other way round. -/
def MapOrder.reversed : MapOrder := ⟨List.reverse, List.reverse_perm⟩

/-- The entries as the loop visits them. -/
def MapOrder.range (σ : MapOrder) (m : StringMap) : List (String × String) := σ.arrange m.entries

theorem MapOrder.mem_range {σ : MapOrder} {m : StringMap} {e : String × String} :
    e ∈ σ.range m ↔ e ∈ m.entries := (σ.perm m.entries).mem_iff

/-- Every arrangement of the entries is the order of some loop. -/
theorem MapOrder.exists_range {m : StringMap} {l : List (String × String)} (h : l.Perm m.entries) :
    ∃ σ : MapOrder, σ.range m = l := by
  refine ⟨⟨fun es => if es = m.entries then l else es, fun es => ?_⟩, if_pos rfl⟩
  split
  · rename_i heq
    exact heq ▸ h
  · exact List.Perm.refl es

/-- The keys are different in every order. -/
theorem MapOrder.nodup_range (σ : MapOrder) (m : StringMap) : ((σ.range m).map Prod.fst).Nodup :=
  (((σ.perm m.entries).map Prod.fst).nodup_iff).mpr m.nodup

/-- A loop may visit any entry last, and the others as before. -/
theorem MapOrder.exists_range_last (σ : MapOrder) {m : StringMap} {e : String × String}
    (he : e ∈ m.entries) : ∃ τ : MapOrder, τ.range m = (σ.range m).erase e ++ [e] := by
  refine MapOrder.exists_range (List.perm_append_comm.trans ?_)
  exact (List.perm_cons_erase (MapOrder.mem_range.mpr he)).symm.trans (σ.perm m.entries)

namespace StringMap

instance : EmptyCollection StringMap := ⟨⟨[], List.nodup_nil⟩⟩

/-- `m[k]`. -/
def get? (m : StringMap) (k : String) : Option String := m.entries.lookup k

/-- The map as `%v` prints it, in the order of the keys. -/
def text (m : StringMap) : String :=
  "map[" ++ String.intercalate " "
    ((m.entries.insertionSort (fun e f => e.1 ≤ f.1)).map (fun e => e.1 ++ ":" ++ e.2)) ++ "]"

/-- Overwrite the value of `k`, or add an entry. -/
def setEntry (k v : String) : List (String × String) → List (String × String)
  | [] => [(k, v)]
  | e :: l => if e.1 = k then (k, v) :: l else e :: setEntry k v l

theorem mem_setEntry {k v : String} {l : List (String × String)} {e : String × String}
    (h : e ∈ setEntry k v l) : e = (k, v) ∨ e ∈ l := by
  induction l with
  | nil => exact Or.inl (by simpa [setEntry] using h)
  | cons f l ih =>
      unfold setEntry at h
      split at h
      · rcases List.mem_cons.mp h with h | h
        · exact Or.inl h
        · exact Or.inr (List.mem_cons_of_mem f h)
      · rcases List.mem_cons.mp h with rfl | h
        · exact Or.inr List.mem_cons_self
        · exact (ih h).imp_right (List.mem_cons_of_mem f)

theorem nodup_setEntry {k v : String} {l : List (String × String)}
    (h : (l.map Prod.fst).Nodup) : ((setEntry k v l).map Prod.fst).Nodup := by
  induction l with
  | nil => simp [setEntry]
  | cons f l ih =>
      obtain ⟨hf, hl⟩ := List.nodup_cons.mp h
      unfold setEntry
      split
      · rename_i hk
        exact hk ▸ h
      · rename_i hk
        refine List.nodup_cons.mpr ⟨?_, ih hl⟩
        intro hmem
        obtain ⟨e, he, hef⟩ := List.mem_map.mp hmem
        rcases mem_setEntry he with rfl | he
        · exact hk hef.symm
        · exact hf (List.mem_map.mpr ⟨e, he, hef⟩)

/-- `m[k] = v`. -/
def set (m : StringMap) (k v : String) : StringMap :=
  ⟨setEntry k v m.entries, nodup_setEntry m.nodup⟩

theorem mem_set {m : StringMap} {k v : String} {e : String × String}
    (h : e ∈ (m.set k v).entries) : e = (k, v) ∨ e ∈ m.entries := mem_setEntry h

section

variable {m : StringMap} {k k' v : String}

theorem lookup_cons_eq_ite (e : String × String) (l : List (String × String)) :
    (e :: l).lookup k = if k = e.1 then some e.2 else l.lookup k := by
  rw [List.lookup_cons]
  by_cases hk : k = e.1
  · rw [if_pos hk, hk, beq_self_eq_true]
  · rw [if_neg hk, beq_eq_false_iff_ne.mpr hk]

theorem lookup_eq_some_iff {l : List (String × String)} (h : (l.map Prod.fst).Nodup) :
    l.lookup k = some v ↔ (k, v) ∈ l := by
  induction l with
  | nil => simp
  | cons e l ih =>
      obtain ⟨he, hl⟩ := List.nodup_cons.mp h
      rw [lookup_cons_eq_ite, List.mem_cons, Prod.ext_iff]
      by_cases hk : k = e.1
      · have hnot : (k, v) ∉ l := fun hmem => he (List.mem_map.mpr ⟨_, hmem, hk⟩)
        simp [hk, hk ▸ hnot, eq_comm]
      · simp [hk, ih hl]

theorem get?_eq_some_iff : m.get? k = some v ↔ (k, v) ∈ m.entries := lookup_eq_some_iff m.nodup

/-- Every order of the entries finds the same values. -/
theorem lookup_range (σ : MapOrder) (m : StringMap) (k : String) :
    (σ.range m).lookup k = m.get? k := by
  refine Option.ext fun v => ?_
  rw [lookup_eq_some_iff (σ.nodup_range m), MapOrder.mem_range, get?_eq_some_iff]

theorem lookup_setEntry (l : List (String × String)) :
    (setEntry k v l).lookup k' = if k' = k then some v else l.lookup k' := by
  induction l with
  | nil => exact lookup_cons_eq_ite (k, v) []
  | cons e l ih =>
      unfold setEntry
      by_cases he : e.1 = k
      · rw [if_pos he, lookup_cons_eq_ite, lookup_cons_eq_ite, he]
        by_cases hk : k' = k <;> simp [hk]
      · rw [if_neg he, lookup_cons_eq_ite, ih, lookup_cons_eq_ite]
        by_cases hk : k' = e.1
        · rw [if_pos hk, if_pos hk, if_neg (hk ▸ he)]
        · rw [if_neg hk, if_neg hk]

theorem get?_set : (m.set k v).get? k' = if k' = k then some v else m.get? k' :=
  lookup_setEntry m.entries

/-- The entries after `m[k] = v`. -/
theorem mem_set_iff {e : String × String} :
    e ∈ (m.set k v).entries ↔ e = (k, v) ∨ e ∈ m.entries ∧ e.1 ≠ k := by
  obtain ⟨k', v'⟩ := e
  rw [← get?_eq_some_iff, get?_set, ← get?_eq_some_iff, Prod.mk.injEq]
  by_cases hk : k' = k <;> simp [hk, eq_comm]

end

end StringMap

/-! ## Loops that sort the keys -/

section

variable {κ : Type} [DecidableEq κ] (kind : String → Option κ) {ε P β : Type}

/-- The values of the keys of one class, in the order of the loop. -/
def valuesOf (c : κ) (es : List (String × String)) : List String :=
  (es.filter (fun e => kind e.1 = some c)).map Prod.snd

variable {kind} {c : κ} {es es' : List (String × String)}

theorem mem_valuesOf {v : String} :
    v ∈ valuesOf kind c es ↔ ∃ e ∈ es, kind e.1 = some c ∧ e.2 = v := by
  simp [valuesOf, and_assoc]

theorem valuesOf_cons (e : String × String) (es : List (String × String)) :
    valuesOf kind c (e :: es) = if kind e.1 = some c then e.2 :: valuesOf kind c es
      else valuesOf kind c es := by
  unfold valuesOf
  rw [List.filter_cons]
  by_cases he : kind e.1 = some c <;> simp [he]

theorem valuesOf_append : valuesOf kind c (es ++ es') = valuesOf kind c es
    ++ valuesOf kind c es' := by
  simp [valuesOf]

theorem valuesOf_perm (h : es.Perm es') : (valuesOf kind c es).Perm (valuesOf kind c es') :=
  (h.filter _).map _

/-- An entry of another class makes no difference. -/
theorem valuesOf_erase {e : String × String} (he : kind e.1 ≠ some c) :
    valuesOf kind c (es.erase e) = valuesOf kind c es := by
  induction es with
  | nil => rfl
  | cons f es ih =>
      rw [List.erase_cons]
      by_cases hf : f = e
      · rw [if_pos (by simpa using hf), valuesOf_cons, hf, if_neg he]
      · rw [if_neg (by simpa using hf), valuesOf_cons, valuesOf_cons, ih]

/-- The value met last, when all values of the class are the same. -/
theorem getLast?_valuesOf_eq_some_iff {v : String}
    (hagree : ∀ v ∈ valuesOf kind c es, ∀ v' ∈ valuesOf kind c es, v = v') :
    (valuesOf kind c es).getLast? = some v ↔ v ∈ valuesOf kind c es := by
  constructor
  · exact List.mem_of_getLast?
  · intro hv
    obtain ⟨l, w, hl⟩ := (List.eq_nil_or_concat (valuesOf kind c es)).resolve_left
      (List.ne_nil_of_mem hv)
    have hw : w ∈ valuesOf kind c es := by simp [hl]
    rw [hagree v hv w hw, hl, List.concat_eq_append]
    exact List.getLast?_concat

/-- It does not depend on the order then. -/
theorem getLast?_valuesOf_perm (h : es.Perm es')
    (hagree : ∀ v ∈ valuesOf kind c es, ∀ v' ∈ valuesOf kind c es, v = v') :
    (valuesOf kind c es).getLast? = (valuesOf kind c es').getLast? := by
  have hperm : (valuesOf kind c es).Perm (valuesOf kind c es') := valuesOf_perm h
  have hagree' : ∀ v ∈ valuesOf kind c es', ∀ v' ∈ valuesOf kind c es', v = v' :=
    fun v hv v' hv' => hagree v (hperm.mem_iff.mpr hv) v' (hperm.mem_iff.mpr hv')
  refine Option.ext fun v => ?_
  rw [getLast?_valuesOf_eq_some_iff hagree, getLast?_valuesOf_eq_some_iff hagree', hperm.mem_iff]

/-- **The last value wins**, in a loop that keeps `g v` for the value `v` of a key of the class. -/
theorem foldl_last {read : P → String × String → P} (field : P → β) {g : String → β}
    (hread : ∀ p e, field (read p e) = if kind e.1 = some c then g e.2 else field p)
    (es : List (String × String)) (p : P) :
    field (es.foldl read p) = (valuesOf kind c es).getLast?.elim (field p) g := by
  induction es generalizing p with
  | nil => rfl
  | cons e es ih =>
      rw [List.foldl_cons, ih, hread, valuesOf_cons]
      by_cases he : kind e.1 = some c
      · simp only [if_pos he, List.getLast?_cons]
        cases (valuesOf kind c es).getLast? <;> rfl
      · simp only [if_neg he]

/-- A field that every step of a loop that may fail updates by `g`. -/
theorem foldlM_field {α : Type} {read : P → α → Except ε P} (field : P → β) {g : β → α → β}
    (hread : ∀ p e p', read p e = .ok p' → field p' = g (field p) e)
    {es : List α} {p p' : P} (h : es.foldlM read p = .ok p') :
    field p' = es.foldl g (field p) := by
  induction es generalizing p with
  | nil =>
      cases h
      rfl
  | cons e es ih =>
      rw [List.foldlM_cons] at h
      cases hone : read p e with
      | error err =>
          rw [hone] at h
          cases h
      | ok q =>
          rw [hone] at h
          rw [ih h, hread p e q hone]
          rfl

/-- The last value wins in a loop that may fail as well. -/
theorem foldlM_last {read : P → String × String → Except ε P} (field : P → β) {g : String → β}
    (hread : ∀ p e p', read p e = .ok p' →
      field p' = if kind e.1 = some c then g e.2 else field p)
    {es : List (String × String)} {p p' : P} (h : es.foldlM read p = .ok p') :
    field p' = (valuesOf kind c es).getLast?.elim (field p) g :=
  (foldlM_field field hread h).trans (foldl_last id (fun _ _ => rfl) es (field p))

end
