import NfsLbCsi.Basic.GoString
import NfsLbCsi.Basic.StringMap

set_option autoImplicit false

/-! # Templates with placeholders

A text with placeholders is filled by replacing one placeholder after the other, all occurrences at
a time. This need not be the simultaneous substitution: a value may hold a placeholder, or complete
one together with the text around it. It is the simultaneous substitution when every placeholder
begins with a mark that occurs in no literal and in no value (`foldl_replaceAll_render`).

* `Placeholders`: a family of placeholders that begin with one mark and do not overlap.
* `Piece`, `render`: a template as a list of literals and placeholders, and its text.
* `fill`: put the values in place of the placeholders, all at once.
-/

namespace Template

open GoString

/-- Placeholders that begin with a mark, which does not occur in them again, and of which none
begins another. -/
structure Placeholders (κ : Type) where
  mark : Char
  text : κ → String
  shape : ∀ k, ∃ tail, (text k).toList = mark :: tail ∧ mark ∉ tail
  apart : ∀ k k', (text k).toList <+: (text k').toList → k = k'

inductive Piece (κ : Type) where
  | lit (s : String)
  | var (k : κ)
  deriving DecidableEq

section

variable {κ : Type} (F : Placeholders κ)

def Piece.chars : Piece κ → List Char
  | .lit s => s.toList
  | .var k => (F.text k).toList

/-- The text of a template. -/
def render (ps : List (Piece κ)) : String := String.ofList (ps.flatMap (Piece.chars F))

/-- The mark occurs in no literal. -/
def Unmarked (ps : List (Piece κ)) : Prop := ∀ s, Piece.lit s ∈ ps → F.mark ∉ s.toList

/-- Values for some of the placeholders. -/
def Piece.fill (value : κ → Option String) : Piece κ → Piece κ
  | .lit s => .lit s
  | .var k => (value k).elim (.var k) .lit

/-- Simultaneous substitution. -/
def fill (value : κ → Option String) (ps : List (Piece κ)) : String :=
  render F (ps.map (Piece.fill value))

/-- A value for one placeholder. -/
def Piece.put [DecidableEq κ] (k : κ) (v : String) : Piece κ → Piece κ
  | .lit s => .lit s
  | .var k' => if k' = k then .lit v else .var k'

end

section

variable {κ : Type} {F : Placeholders κ} {k k' : κ} {v : String} {ps : List (Piece κ)}
  {old new : List Char}

theorem text_inj : F.text k = F.text k' ↔ k = k' :=
  ⟨fun h => F.apart k k' (h ▸ List.prefix_refl _), congrArg F.text⟩

theorem unmarked_lit {s : String} (hs : F.mark ∉ s.toList) : Unmarked F [.lit s] := by
  intro t ht
  obtain rfl : t = s := by simpa using ht
  exact hs

theorem render_lit (s : String) : render F [.lit s] = s := by
  simp [render, Piece.chars]

theorem fill_lit (value : κ → Option String) (s : String) : fill F value [.lit s] = s :=
  render_lit s

/-- Only the values of the placeholders that occur matter. -/
theorem fill_congr {value value' : κ → Option String}
    (h : ∀ k, Piece.var k ∈ ps → value k = value' k) : fill F value ps = fill F value' ps := by
  unfold fill
  congr 1
  refine List.map_congr_left fun p hp => ?_
  cases p with
  | lit s => rfl
  | var k => rw [Piece.fill, Piece.fill, h k hp]

/-! ## One replacement -/

/-- Text without the mark is copied. -/
theorem replaceFrom_append_of_not_mem {tail : List Char} (hold : old = F.mark :: tail)
    (cs rest : List Char) (hcs : F.mark ∉ cs) :
    replaceFrom old new 0 (cs ++ rest) = cs ++ replaceFrom old new 0 rest := by
  induction cs with
  | nil => rfl
  | cons c cs ih =>
      obtain ⟨hc, hcs⟩ := not_or.mp (mt List.mem_cons.mpr hcs)
      have hno : old.isPrefixOf (c :: (cs ++ rest)) = false := by
        rw [hold, List.isPrefixOf_cons_cons]
        simp [hc]
      rw [List.cons_append, replaceFrom, hno, ih hcs]
      rfl

/-- The rest of an occurrence is passed over. -/
theorem replaceFrom_skip (a rest : List Char) :
    replaceFrom old new a.length (a ++ rest) = replaceFrom old new 0 rest := by
  induction a with
  | nil => rfl
  | cons c a ih => exact ih

theorem replaceFrom_self (k : κ) (rest : List Char) :
    replaceFrom (F.text k).toList new 0 ((F.text k).toList ++ rest) =
      new ++ replaceFrom (F.text k).toList new 0 rest := by
  obtain ⟨tail, htext, -⟩ := F.shape k
  have hyes : (F.text k).toList.isPrefixOf (F.mark :: (tail ++ rest)) = true := by
    rw [htext, List.isPrefixOf_iff_prefix]
    exact List.prefix_append (F.mark :: tail) rest
  have hlength : (F.text k).toList.length - 1 = tail.length := by rw [htext]; rfl
  calc replaceFrom (F.text k).toList new 0 ((F.text k).toList ++ rest)
      = replaceFrom (F.text k).toList new 0 (F.mark :: (tail ++ rest)) := by
        rw [← List.cons_append, ← htext]
    _ = new ++ replaceFrom (F.text k).toList new tail.length (tail ++ rest) := by
        rw [replaceFrom, if_pos hyes, hlength]
    _ = new ++ replaceFrom (F.text k).toList new 0 rest := by rw [replaceFrom_skip]

/-- Another placeholder is copied. -/
theorem replaceFrom_other (hne : k' ≠ k) (rest : List Char) :
    replaceFrom (F.text k).toList new 0 ((F.text k').toList ++ rest) =
      (F.text k').toList ++ replaceFrom (F.text k).toList new 0 rest := by
  obtain ⟨tail, htext, -⟩ := F.shape k
  obtain ⟨tail', htext', hmark⟩ := F.shape k'
  have hno : ¬(F.text k).toList.isPrefixOf ((F.text k').toList ++ rest) = true := by
    rw [List.isPrefixOf_iff_prefix]
    intro hpre
    -- two beginnings of one text: one of them begins the other
    rcases List.prefix_or_prefix_of_prefix hpre (List.prefix_append _ rest) with h | h
    · exact hne (F.apart k k' h).symm
    · exact hne (F.apart k' k h)
  have hcopied : replaceFrom (F.text k).toList new 0 (tail' ++ rest) =
      tail' ++ replaceFrom (F.text k).toList new 0 rest :=
    replaceFrom_append_of_not_mem htext tail' rest hmark
  rw [htext'] at hno ⊢
  rw [List.cons_append] at hno ⊢
  rw [replaceFrom, if_neg hno, hcopied]
  rfl

variable [DecidableEq κ]

/-- **One replacement** in the text of a template is one in the template. -/
theorem replaceAll_render (hunmarked : Unmarked F ps) :
    replaceAll (render F ps) (F.text k) v = render F (ps.map (Piece.put k v)) := by
  unfold replaceAll render
  rw [String.toList_ofList]
  congr 1
  induction ps with
  | nil => rfl
  | cons p ps ih =>
      have hps : Unmarked F ps := fun s hs => hunmarked s (List.mem_cons_of_mem p hs)
      rw [List.flatMap_cons, List.map_cons, List.flatMap_cons]
      cases p with
      | lit s =>
          obtain ⟨tail, htext, -⟩ := F.shape k
          have hs : F.mark ∉ s.toList := hunmarked s List.mem_cons_self
          exact (replaceFrom_append_of_not_mem htext s.toList _ hs).trans (congrArg _ (ih hps))
      | var k' =>
          by_cases hk : k' = k
          · subst hk
            rw [Piece.put, if_pos rfl]
            exact (replaceFrom_self k' _).trans (congrArg _ (ih hps))
          · rw [Piece.put, if_neg hk]
            exact (replaceFrom_other hk _).trans (congrArg _ (ih hps))

/-! ## One replacement after the other -/

theorem unmarked_map_put (hunmarked : Unmarked F ps) (hv : Piece.var k ∈ ps → F.mark ∉ v.toList) :
    Unmarked F (ps.map (Piece.put k v)) := by
  intro s hs
  obtain ⟨p, hp, hps⟩ := List.mem_map.mp hs
  cases p with
  | lit t =>
      cases hps
      exact hunmarked s hp
  | var k' =>
      by_cases hk : k' = k
      · rw [Piece.put, if_pos hk] at hps
        cases hps
        exact hv (hk ▸ hp)
      · rw [Piece.put, if_neg hk] at hps
        cases hps

theorem mem_of_mem_map_put (h : Piece.var k' ∈ ps.map (Piece.put k v)) : Piece.var k' ∈ ps := by
  obtain ⟨p, hp, hput⟩ := List.mem_map.mp h
  cases p with
  | lit t => cases hput
  | var k'' =>
      by_cases hk : k'' = k
      · rw [Piece.put, if_pos hk] at hput
        cases hput
      · rw [Piece.put, if_neg hk] at hput
        exact hput ▸ hp

/-- **Replacing one placeholder after the other** is the simultaneous substitution when the values
of the placeholders that occur do not hold the mark. When a placeholder is listed twice, its first
value counts. -/
theorem foldl_replaceAll_render (es : List (String × String))
    (hkeys : ∀ e ∈ es, ∃ k, e.1 = F.text k) (hunmarked : Unmarked F ps)
    (hvalues : ∀ k, Piece.var k ∈ ps → ∀ e ∈ es, e.1 = F.text k → F.mark ∉ e.2.toList) :
    es.foldl (fun s e => replaceAll s e.1 e.2) (render F ps) =
      fill F (fun k => es.lookup (F.text k)) ps := by
  induction es generalizing ps with
  | nil =>
      have hnone : ∀ p ∈ ps, Piece.fill (fun k => List.lookup (F.text k) []) p = p := by
        intro p _
        cases p <;> rfl
      rw [fill, List.map_congr_left hnone, List.map_id']
      rfl
  | cons e es ih =>
      obtain ⟨⟨k, hk⟩, hkeys⟩ := List.forall_mem_cons.mp hkeys
      have hunmarked' : Unmarked F (ps.map (Piece.put k e.2)) :=
        unmarked_map_put hunmarked (fun hmem => hvalues k hmem e List.mem_cons_self hk)
      have hvalues' : ∀ k', Piece.var k' ∈ ps.map (Piece.put k e.2) → ∀ f ∈ es, f.1 = F.text k' →
          F.mark ∉ f.2.toList :=
        fun k' hmem f hf => hvalues k' (mem_of_mem_map_put hmem) f (List.mem_cons_of_mem e hf)
      rw [List.foldl_cons, hk, replaceAll_render hunmarked,
        ih hkeys hunmarked' hvalues', fill, fill, List.map_map]
      congr 1
      refine List.map_congr_left fun p _ => ?_
      cases p with
      | lit s => rfl
      | var k' =>
          have hlookup : List.lookup (F.text k') (e :: es) =
              if k' = k then some e.2 else List.lookup (F.text k') es := by
            simp only [StringMap.lookup_cons_eq_ite, hk, text_inj]
          simp only [Function.comp_apply, Piece.put, Piece.fill, hlookup]
          by_cases hkk : k' = k <;> simp [hkk]

/-! ## Filling twice -/

omit [DecidableEq κ] in
theorem unmarked_map_fill {value : κ → Option String} (hunmarked : Unmarked F ps)
    (hvalues : ∀ k v, value k = some v → F.mark ∉ v.toList) :
    Unmarked F (ps.map (Piece.fill value)) := by
  intro s hs
  obtain ⟨p, hp, hps⟩ := List.mem_map.mp hs
  cases p with
  | lit t =>
      cases hps
      exact hunmarked s hp
  | var k =>
      cases hk : value k with
      | none => simp [Piece.fill, hk] at hps
      | some v =>
          obtain rfl : v = s := by simpa [Piece.fill, hk] using hps
          exact hvalues k v hk

omit [DecidableEq κ] in
/-- What is filled already stays as it is. -/
theorem fill_map_fill (value : κ → Option String) :
    fill F value (ps.map (Piece.fill value)) = fill F value ps := by
  rw [fill, fill, List.map_map]
  congr 1
  refine List.map_congr_left fun p _ => ?_
  cases p with
  | lit s => rfl
  | var k => cases hk : value k <;> simp [Piece.fill, hk]

end

end Template
