import Mathlib.Data.List.DropRight
import Mathlib.Data.List.TakeWhile
import Mathlib.Data.Nat.Digits.Defs
import Mathlib.Tactic

set_option autoImplicit false

/-! # Strings as Go's standard library handles them

The functions of `strings` and `strconv` as functions on the list of characters. A string and its
characters are exchanged by `String.toList` and `String.ofList`; a character `c` occurs in `s` when
`c ∈ s.toList`.

* `split`, `join`: `strings.Split` and `strings.Join` with a separator of one character.
  `split_join` says what splitting does to joined fields that may hold the separator themselves.
* `trim`, `trimRight`, `trimSpace`: the ends of a string.
* `toLower`, `equalFold`: letter case, as far as a comparison with an ASCII text can tell.
* `replaceAll`: every occurrence of a non-empty text, from the left.
* `parseUint`, `parseInt`, `quote`: numerals in a fixed base with a bit size, quoted text.
  `parseInt_eq_some_iff` says which numerals are read, and as which number.
* `sprintf`: a text that is used as a format without arguments.
-/

namespace GoString

/-! ## Splitting and joining -/

/-- `strings.Split(s, c)`. -/
def split (c : Char) (s : String) : List String := (s.toList.splitOn c).map String.ofList

/-- `strings.Join(l, c)`. -/
def join (c : Char) (l : List String) : String :=
  String.ofList ([c].intercalate (l.map String.toList))

section

variable {c : Char} {s : String} {l : List String}

theorem split_ne_nil (c : Char) (s : String) : split c s ≠ [] := by
  simp [split, List.splitOn_ne_nil]

theorem split_of_not_mem (h : c ∉ s.toList) : split c s = [s] := by
  rw [split, List.splitOn_eq_singleton h, List.map_singleton, String.ofList_toList]

@[simp] theorem split_empty (c : Char) : split c "" = [""] := split_of_not_mem (by simp)

/-- A separator cuts the text in two. -/
theorem split_append_cons {a b : List Char} (h : s.toList = a ++ c :: b) :
    split c s = split c (String.ofList a) ++ split c (String.ofList b) := by
  simp only [split, h, List.splitOn_append_cons_self, List.map_append, String.toList_ofList]

theorem two_le_length_split (h : c ∈ s.toList) : 2 ≤ (split c s).length := by
  obtain ⟨a, b, hab⟩ := List.append_of_mem h
  have ha := List.length_pos_iff.mpr (split_ne_nil c (String.ofList a))
  have hb := List.length_pos_iff.mpr (split_ne_nil c (String.ofList b))
  rw [split_append_cons hab, List.length_append]
  omega

theorem join_split (c : Char) (s : String) : join c (split c s) = s := by
  have hlist : (split c s).map String.toList = s.toList.splitOn c := by
    rw [split, List.map_map]
    exact List.map_id'' (fun _ => String.toList_ofList) _
  rw [join, hlist, List.intercalate_splitOn, String.ofList_toList]

theorem toList_join_cons_cons (c : Char) (s t : String) (l : List String) :
    (join c (s :: t :: l)).toList = s.toList ++ c :: (join c (t :: l)).toList := by
  simp [join]

@[simp] theorem join_singleton (c : Char) (s : String) : join c [s] = s := by
  simp [join]

/-- A joined text falls apart at the joints and at every separator inside a field. -/
theorem split_join (c : Char) (h : l ≠ []) : split c (join c l) = l.flatMap (split c) := by
  induction l with
  | nil => exact absurd rfl h
  | cons s l ih =>
      cases l with
      | nil => simp
      | cons t l =>
          rw [split_append_cons (toList_join_cons_cons c s t l), String.ofList_toList,
            String.ofList_toList, ih (by simp)]
          rfl

/-- Fields without the separator come back as they were. -/
theorem split_join_of_not_mem (hne : l ≠ []) (h : ∀ s ∈ l, c ∉ s.toList) :
    split c (join c l) = l := by
  have hsingle : l.flatMap (split c) = l.flatMap (fun s => [s]) :=
    List.flatMap_congr (fun s hs => split_of_not_mem (h s hs))
  rw [split_join c hne, hsingle, List.flatMap_singleton']

/-- A text without the separator in front belongs to the first piece. -/
theorem split_append_left {a s : String} (h : c ∉ a.toList) :
    ∃ x xs, split c s = x :: xs ∧ split c (a ++ s) = (a ++ x) :: xs := by
  have key : ∀ as : List Char, c ∉ as → ∀ (p : List Char) (ps : List (List Char)),
      s.toList.splitOn c = p :: ps → (as ++ s.toList).splitOn c = (as ++ p) :: ps := by
    intro as
    induction as with
    | nil => exact fun _ p ps hp => hp
    | cons b as ih =>
        intro hb p ps hp
        obtain ⟨hcb, has⟩ := not_or.mp (mt List.mem_cons.mpr hb)
        rw [List.cons_append, List.splitOn_cons_eq_if_modifyHead, ih has p ps hp,
          if_neg (by simpa using Ne.symm hcb)]
        rfl
  obtain ⟨p, ps, hp⟩ := List.exists_cons_of_ne_nil (List.splitOn_ne_nil c s.toList)
  refine ⟨String.ofList p, ps.map String.ofList, by simp [split, hp], ?_⟩
  rw [split, String.toList_append, key a.toList h p ps hp, List.map_cons, String.ofList_append,
    String.ofList_toList]

/-- No piece holds the separator. -/
theorem not_mem_of_mem_split {x : String} (h : x ∈ split c s) : c ∉ x.toList := by
  have key : ∀ (as : List Char), ∀ p ∈ as.splitOn c, c ∉ p := by
    intro as
    induction as with
    | nil => simp
    | cons a as ih =>
        rw [List.splitOn_cons_eq_if_modifyHead]
        split
        · simpa using ih
        · rename_i hne
          obtain ⟨q, qs, hq⟩ := List.exists_cons_of_ne_nil (List.splitOn_ne_nil c as)
          rw [hq] at ih ⊢
          have hca : c ≠ a := fun heq => hne (by simp [heq])
          simpa [hca] using ih
  obtain ⟨p, hp, rfl⟩ := List.mem_map.mp h
  rw [String.toList_ofList]
  exact key _ p hp

theorem mem_join {d : Char} (hd : d ≠ c) :
    d ∈ (join c l).toList ↔ ∃ x ∈ l, d ∈ x.toList := by
  induction l with
  | nil => simp [join]
  | cons s l ih =>
      cases l with
      | nil => simp
      | cons t l =>
          rw [toList_join_cons_cons, List.mem_append, List.mem_cons, ih]
          simp [hd]

/-- The other characters are in the pieces. -/
theorem mem_iff_mem_split {d : Char} (hd : d ≠ c) :
    d ∈ s.toList ↔ ∃ x ∈ split c s, d ∈ x.toList := by
  rw [← mem_join hd, join_split]

end

/-! ## The ends of a string -/

/-- `strings.TrimRight(s, c)`. -/
def trimRight (c : Char) (s : String) : String := String.ofList (s.toList.rdropWhile (· == c))

/-- `strings.Trim(s, c)`. -/
def trim (c : Char) (s : String) : String :=
  String.ofList ((s.toList.dropWhile (· == c)).rdropWhile (· == c))

/-- `unicode.IsSpace`. -/
def isSpace (c : Char) : Bool :=
  c ∈ [' ', '\t', '\n', '\r', '\x0b', '\x0c', '\u0085', '\u00a0', '\u1680', '\u2028', '\u2029',
    '\u202f', '\u205f', '\u3000'] || ('\u2000' ≤ c && c ≤ '\u200a')

/-- `strings.TrimSpace`. -/
def trimSpace (s : String) : String :=
  String.ofList ((s.toList.dropWhile isSpace).rdropWhile isSpace)

section

variable {c : Char} {s : String}

theorem takeWhile_beq_eq_replicate (c : Char) (l : List Char) :
    ∃ n, l.takeWhile (· == c) = List.replicate n c :=
  ⟨_, List.eq_replicate_of_mem (fun _ hx => by simpa using List.mem_takeWhile_imp hx)⟩

/-- **Trimming** takes off occurrences of `c` at both ends and nothing else. -/
theorem trim_spec (c : Char) (s : String) : ∃ a b : ℕ,
    s.toList = List.replicate a c ++ (trim c s).toList ++ List.replicate b c := by
  obtain ⟨a, ha⟩ := takeWhile_beq_eq_replicate c s.toList
  set rest := s.toList.dropWhile (· == c) with hrest
  obtain ⟨b, hb⟩ := takeWhile_beq_eq_replicate c rest.reverse
  refine ⟨a, b, ?_⟩
  have hsplit : s.toList = List.replicate a c ++ rest := by
    rw [← ha, hrest, List.takeWhile_append_dropWhile]
  have hright : rest = rest.rdropWhile (· == c) ++ List.replicate b c := by
    have h := congrArg List.reverse
      (List.takeWhile_append_dropWhile (p := (· == c)) (l := rest.reverse))
    rw [List.reverse_append, List.reverse_reverse, hb, List.reverse_replicate] at h
    exact h.symm
  rw [trim, String.toList_ofList, ← hrest, List.append_assoc, ← hright, hsplit]

theorem mem_trim {d : Char} (h : d ≠ c) : d ∈ (trim c s).toList ↔ d ∈ s.toList := by
  obtain ⟨a, b, hs⟩ := trim_spec c s
  rw [hs]
  simp [h]

theorem not_mem_trim {d : Char} (h : d ≠ c) (hs : d ∉ s.toList) : d ∉ (trim c s).toList :=
  mt (mem_trim h).mp hs

/-- Nothing to take off at either end. -/
def Trimmed (c : Char) (s : String) : Prop := s.toList.head? ≠ some c ∧ s.toList.getLast? ≠ some c

instance (c : Char) (s : String) : Decidable (Trimmed c s) :=
  inferInstanceAs (Decidable (_ ∧ _))

theorem dropWhile_beq_of_head? {l : List Char} (h : l.head? ≠ some c) :
    l.dropWhile (· == c) = l := by
  cases l with
  | nil => rfl
  | cons a l =>
      have ha : a ≠ c := by simpa using h
      rw [List.dropWhile_cons_of_neg (by simpa using ha)]

theorem trim_of_trimmed (h : Trimmed c s) : trim c s = s := by
  have hlast : s.toList.reverse.head? ≠ some c := by rw [List.head?_reverse]; exact h.2
  rw [trim, dropWhile_beq_of_head? h.1, List.rdropWhile, dropWhile_beq_of_head? hlast,
    List.reverse_reverse, String.ofList_toList]

theorem head?_dropWhile_beq (c : Char) (l : List Char) : (l.dropWhile (· == c)).head? ≠ some c := by
  induction l with
  | nil => simp
  | cons a l ih =>
      rw [List.dropWhile_cons]
      split
      · exact ih
      · rename_i hne
        simpa using hne

theorem trimmed_trim (c : Char) (s : String) : Trimmed c (trim c s) := by
  unfold Trimmed trim
  rw [String.toList_ofList]
  set rest := s.toList.dropWhile (· == c) with hrest
  constructor
  · -- what is left is an initial part of `rest`, and `rest` does not begin with `c`
    intro h
    have hpre := List.rdropWhile_prefix (p := (· == c)) (l := rest)
    have hhead : rest.head? = some c := by
      obtain ⟨t, ht⟩ := hpre
      rw [← ht, List.head?_append, h]
      rfl
    exact head?_dropWhile_beq c _ hhead
  · rw [List.rdropWhile, List.getLast?_reverse]
    exact head?_dropWhile_beq c _

theorem trim_eq_self_iff : trim c s = s ↔ Trimmed c s :=
  ⟨fun h => h ▸ trimmed_trim c s, trim_of_trimmed⟩

@[simp] theorem trim_trim (c : Char) (s : String) : trim c (trim c s) = trim c s :=
  trim_of_trimmed (trimmed_trim c s)

end

/-! ## Letter case

`strings.ToLower` and `strings.EqualFold` know all of Unicode. In a comparison with an ASCII text
only these characters beyond ASCII matter: the dotted capital I, whose lower case is `i`; the
Kelvin sign, whose lower case is `k` and which folds with it; and the long s, which folds with
`s`. -/

def lowerChar (c : Char) : Char :=
  if c = '\u0130' then 'i' else if c = '\u212a' then 'k' else c.toLower

/-- `strings.ToLower`, for comparison with an ASCII text. -/
def toLower (s : String) : String := String.ofList (s.toList.map lowerChar)

def foldChar (c : Char) : Char :=
  if c = '\u017f' then 's' else if c = '\u212a' then 'k' else c.toLower

/-- `strings.EqualFold(s, t)` where one of the two is an ASCII text. -/
def equalFold (s t : String) : Bool := s.toList.map foldChar == t.toList.map foldChar

section

variable {s t : String}

theorem equalFold_iff : equalFold s t = true ↔ s.toList.map foldChar = t.toList.map foldChar := by
  simp [equalFold]

@[simp] theorem equalFold_refl (s : String) : equalFold s s = true := by simp [equalFold]

theorem equalFold_empty_left : equalFold "" s = true ↔ s = "" := by
  rw [equalFold_iff, eq_comm]
  simp

/-- What is equal up to case to a text in small letters is that text in lower case, unless it has a
long s. -/
theorem toLower_of_equalFold (ht : t.toList.map foldChar = t.toList) (hdot : '\u0130' ∉ t.toList)
    (hlong : '\u017f' ∉ s.toList) (h : equalFold s t = true) : toLower s = t := by
  rw [equalFold_iff, ht] at h
  have hsame : s.toList.map lowerChar = s.toList.map foldChar := by
    refine List.map_congr_left fun c hc => ?_
    have hs : c ≠ '\u017f' := fun heq => hlong (heq ▸ hc)
    have hi : c ≠ '\u0130' := by
      rintro rfl
      -- the dotted capital I folds to itself
      exact hdot (h ▸ List.mem_map.mpr ⟨'\u0130', hc, by decide⟩)
    rw [lowerChar, foldChar, if_neg hi, if_neg hs]
  rw [toLower, hsame, h, String.ofList_toList]

theorem long_mem_toLower (h : '\u017f' ∈ s.toList) : '\u017f' ∈ (toLower s).toList := by
  rw [toLower, String.toList_ofList]
  exact List.mem_map.mpr ⟨'\u017f', h, by decide⟩

theorem eq_of_toLower_eq {c d : Char} (hc : c.val.toNat < 65) (h : d.toLower = c) : d = c := by
  unfold Char.toLower at h
  split at h
  · -- a capital letter does not become a character before the letters
    rename_i hu
    have hlow : (65 : ℕ) ≤ d.val.toNat := UInt32.le_iff_toNat_le.mp hu.1
    have hhigh : d.val.toNat ≤ 90 := UInt32.le_iff_toNat_le.mp hu.2
    have hshift : ('a'.val - 'A'.val).toNat = 32 := by decide
    have hval := congrArg (fun c : Char => c.val.toNat) h
    simp only [UInt32.toNat_add, hshift] at hval
    omega
  · exact h

theorem eq_of_foldChar_eq {c d : Char} (hc : c.val.toNat < 65) (h : foldChar d = c) : d = c := by
  unfold foldChar at h
  split at h
  · subst h
    exact absurd hc (by decide)
  · split at h
    · subst h
      exact absurd hc (by decide)
    · exact eq_of_toLower_eq hc h

/-- A text that is equal up to case to one without the sign or digit `c` has no `c` either. -/
theorem not_mem_of_equalFold {c : Char} (hc : c.val.toNat < 65) (hfold : foldChar c = c)
    (h : equalFold s t = true) (ht : c ∉ t.toList) : c ∉ s.toList := by
  intro hs
  have hmem : c ∈ t.toList.map foldChar := by
    rw [← equalFold_iff.mp h, ← hfold]
    exact List.mem_map_of_mem hs
  obtain ⟨d, hd, heq⟩ := List.mem_map.mp hmem
  exact ht (eq_of_foldChar_eq hc heq ▸ hd)

end

/-! ## Replacement -/

/-- Replace from the left. `skip` counts the characters of an occurrence that are still to be
passed over. -/
def replaceFrom (old new : List Char) : ℕ → List Char → List Char
  | _, [] => []
  | skip + 1, _ :: cs => replaceFrom old new skip cs
  | 0, c :: cs =>
      if old.isPrefixOf (c :: cs) then new ++ replaceFrom old new (old.length - 1) cs
      else c :: replaceFrom old new 0 cs

/-- `strings.ReplaceAll(s, old, new)` for a non-empty `old`. -/
def replaceAll (s old new : String) : String :=
  String.ofList (replaceFrom old.toList new.toList 0 s.toList)

section

variable {c : Char} {s old new : String}

theorem mem_replaceFrom {x : Char} {old new : List Char} (k : ℕ) (cs : List Char)
    (h : x ∈ replaceFrom old new k cs) : x ∈ new ∨ x ∈ cs := by
  induction cs generalizing k with
  | nil => cases k <;> cases h
  | cons a cs ih =>
      cases k with
      | zero =>
          unfold replaceFrom at h
          split at h
          · rcases List.mem_append.mp h with h | h
            · exact Or.inl h
            · exact (ih _ h).imp_right (List.mem_cons_of_mem a)
          · rcases List.mem_cons.mp h with rfl | h
            · exact Or.inr List.mem_cons_self
            · exact (ih _ h).imp_right (List.mem_cons_of_mem a)
      | succ k => exact (ih k h).imp_right (List.mem_cons_of_mem a)

/-- Where `old` does not occur, nothing is replaced. -/
theorem replaceFrom_of_not_infix {old new cs : List Char} (h : ¬old <:+: cs) :
    replaceFrom old new 0 cs = cs := by
  induction cs with
  | nil => rfl
  | cons c cs ih =>
      have hno : ¬old.isPrefixOf (c :: cs) = true :=
        fun hpre => h (List.isPrefixOf_iff_prefix.mp hpre).isInfix
      rw [replaceFrom, if_neg hno, ih (fun hcs => h (hcs.trans (List.suffix_cons c cs).isInfix))]

theorem not_mem_replaceAll (hs : c ∉ s.toList) (hnew : c ∉ new.toList) :
    c ∉ (replaceAll s old new).toList := by
  rw [replaceAll, String.toList_ofList]
  intro h
  exact (mem_replaceFrom 0 _ h).elim hnew hs

end

/-! ## Numerals and quotes -/

def digitValue (base : ℕ) (c : Char) : Option ℕ :=
  if c.isDigit ∧ c.toNat - '0'.toNat < base then some (c.toNat - '0'.toNat) else none

/-- The value of a numeral, most significant digit first. -/
def digitsValue (base : ℕ) : List Char → ℕ → Option ℕ
  | [], n => some n
  | c :: cs, n => (digitValue base c).bind (fun d => digitsValue base cs (n * base + d))

/-- `strconv.ParseUint(s, base, bits)` for `base ≤ 10`: digits only, and the value fits. -/
def parseUint (base bits : ℕ) (s : String) : Option ℕ :=
  if s = "" then none
  else (digitsValue base s.toList 0).filter (fun n => decide (n < 2 ^ bits))

/-- `strconv.ParseInt(s, 10, 64)`: an optional sign, digits, and the value fits. -/
def parseInt (s : String) : Option ℤ :=
  match s.toList with
  | '-' :: cs => ((parseUint 10 64 (String.ofList cs)).filter (fun n => decide (n ≤ 2 ^ 63))).map
      (fun n => -(n : ℤ))
  | '+' :: cs => ((parseUint 10 64 (String.ofList cs)).filter (fun n => decide (n < 2 ^ 63))).map
      (fun n => (n : ℤ))
  | _ => ((parseUint 10 64 s).filter (fun n => decide (n < 2 ^ 63))).map (fun n => (n : ℤ))

/-- Why a numeral is refused: the first character that is no digit, or the first digit with which
the value is too large. -/
def scanError (base bits : ℕ) : List Char → ℕ → String
  | [], _ => "value out of range"
  | c :: cs, n =>
      match digitValue base c with
      | none => "invalid syntax"
      | some d =>
          if 2 ^ bits ≤ n * base + d then "value out of range"
          else scanError base bits cs (n * base + d)

/-- The characters after the sign. -/
def unsigned (s : String) : List Char :=
  match s.toList with
  | '-' :: cs => cs
  | '+' :: cs => cs
  | cs => cs

/-- `strconv.Quote`, for printable characters. -/
def quote (s : String) : String :=
  String.ofList ('"' :: s.toList.flatMap (fun c => if c = '"' ∨ c = '\\' then ['\\', c] else [c])
    ++ ['"'])

/-- The text of the error of `strconv.ParseInt(s, 10, 64)`. -/
def parseIntError (s : String) : String :=
  "strconv.ParseInt: parsing " ++ quote s ++ ": " ++
    if unsigned s = [] then "invalid syntax" else scanError 10 64 (unsigned s) 0

/-- `strings.Contains(s, t)`. -/
def contains (s t : String) : Bool := decide (t.toList <:+: s.toList)

theorem replaceAll_of_not_contains {s old new : String} (h : contains s old = false) :
    replaceAll s old new = s := by
  rw [replaceAll, replaceFrom_of_not_infix (of_decide_eq_false h), String.ofList_toList]

example : parseUint 8 32 "0755" = some 493 := by decide
example : parseInt "-128" = some (-128) := by decide

/-! ### Formats without arguments

`fmt.Sprintf(s)` copies a text `s` up to its directives. With no arguments a directive writes what
is wrong with it, and only `%%` writes a percent sign. -/

/-- `parsenum`: the number in front of a text, if there is one, and what follows it. A number that
is too large takes all of the text with it. -/
def parsenum : Option ℕ → List Char → Option ℕ × List Char
  | num, [] => (num, [])
  | num, c :: cs =>
      if c.isDigit then
        if num.getD 0 > 10 ^ 6 then (none, [])
        else parsenum (some (num.getD 0 * 10 + (c.toNat - '0'.toNat))) cs
      else (num, c :: cs)

/-- A directive that is read: what it has written, whether the number of its argument is good,
whether an index such as `[1]` was read last, and the rest of the format. -/
structure Directive where
  out : String
  goodArgNum : Bool
  afterIndex : Bool
  rest : List Char

namespace Directive

/-- `argNumber`: there is no argument that an index could be good for. -/
def argNumber (d : Directive) : Directive :=
  match d.rest with
  | '[' :: cs =>
      if cs.length < 2 ∨ ']' ∉ cs then
        { d with goodArgNum := false, afterIndex := false, rest := cs }
      else
        let (num, rest) := parsenum none (cs.takeWhile (· ≠ ']'))
        { d with goodArgNum := false, afterIndex := num.isSome && rest.isEmpty
                 rest := (cs.dropWhile (· ≠ ']')).tail }
  | _ => { d with afterIndex := false }

def width (d : Directive) : Directive :=
  match d.rest with
  | '*' :: cs => { d with out := d.out ++ "%!(BADWIDTH)", afterIndex := false, rest := cs }
  | cs =>
      let (num, rest) := parsenum none cs
      { d with goodArgNum := d.goodArgNum && !(d.afterIndex && num.isSome), rest := rest }

def precision (d : Directive) : Directive :=
  match d.rest with
  | '.' :: cs =>
      let d := { d with goodArgNum := d.goodArgNum && !d.afterIndex, rest := cs }.argNumber
      match d.rest with
      | '*' :: cs => { d with out := d.out ++ "%!(BADPREC)", afterIndex := false, rest := cs }
      | cs => { d with rest := (parsenum none cs).2 }
  | _ => d

def verb (d : Directive) : Directive :=
  match d.rest with
  | [] => { d with out := d.out ++ "%!(NOVERB)" }
  | '%' :: cs => { d with out := d.out ++ "%", rest := cs }
  | c :: cs =>
      { d with out := d.out ++ "%!" ++ String.singleton c ++
                 if d.goodArgNum then "(MISSING)" else "(BADINDEX)"
               rest := cs }

/-- The directive after a percent sign: flags, index, width, precision, index, verb. -/
def read (cs : List Char) : Directive :=
  let flags := ['#', '0', '+', '-', ' ']
  let d := (argNumber ⟨"", true, false, cs.dropWhile (· ∈ flags)⟩).width.precision
  (if d.afterIndex then d else d.argNumber).verb

end Directive

/-- `skip` counts the characters of a directive that are still to be passed over. -/
def formatFrom : ℕ → List Char → List Char
  | _, [] => []
  | skip + 1, _ :: cs => formatFrom skip cs
  | 0, c :: cs =>
      if c = '%' then
        let d := Directive.read cs
        d.out.toList ++ formatFrom (cs.length - d.rest.length) cs
      else c :: formatFrom 0 cs

/-- `fmt.Sprintf(format)`. -/
def sprintf (format : String) : String := String.ofList (formatFrom 0 format.toList)

example : sprintf "100%% of 5%d%" = "100% of 5%!d(MISSING)%!(NOVERB)" := by decide
example : sprintf "%-*.[2]3x, %[1]." = "%!(BADWIDTH)%!x(BADINDEX), %!(NOVERB)" := by decide

/-! ### What a numeral denotes -/

/-- The number that a string of decimal digits denotes. -/
def decimalValue (cs : List Char) : ℕ :=
  Nat.ofDigits 10 (cs.reverse.map (fun c => c.toNat - '0'.toNat))

theorem isDigit_sub_lt {c : Char} (h : c.isDigit = true) : c.toNat - '0'.toNat < 10 := by
  have hle : c.toNat ≤ '9'.toNat :=
    UInt32.le_iff_toNat_le.mp (of_decide_eq_true (Bool.and_eq_true_iff.mp h).2)
  have hnine : '9'.toNat = '0'.toNat + 9 := rfl
  omega

theorem digitValue_ten (c : Char) :
    digitValue 10 c = if c.isDigit then some (c.toNat - '0'.toNat) else none := by
  unfold digitValue
  refine if_congr ⟨And.left, fun h => ⟨h, isDigit_sub_lt h⟩⟩ rfl rfl

theorem digitsValue_ten (cs : List Char) (n : ℕ) : digitsValue 10 cs n =
    if cs.all Char.isDigit then some (n * 10 ^ cs.length + decimalValue cs) else none := by
  induction cs generalizing n with
  | nil => simp [digitsValue, decimalValue]
  | cons c cs ih =>
      rw [digitsValue, digitValue_ten]
      by_cases hc : c.isDigit = true
      · have hvalue : decimalValue (c :: cs) =
            (c.toNat - '0'.toNat) * 10 ^ cs.length + decimalValue cs := by
          simp only [decimalValue, List.reverse_cons, List.map_append, List.map_cons, List.map_nil,
            Nat.ofDigits_append, Nat.ofDigits_singleton, List.length_map, List.length_reverse]
          rw [Nat.add_comm, Nat.mul_comm]
        rw [if_pos hc, Option.bind_some, ih, hvalue]
        rw [List.all_cons, hc, Bool.true_and, List.length_cons, Nat.pow_succ', ← Nat.mul_assoc,
          Nat.add_mul, Nat.add_assoc]
      · rw [if_neg hc, Option.bind_none, List.all_cons, Bool.eq_false_of_not_eq_true hc]
        rfl

theorem parseUint_ten_eq_some_iff {cs : List Char} {bits n : ℕ} :
    parseUint 10 bits (String.ofList cs) = some n ↔
      cs ≠ [] ∧ (∀ c ∈ cs, c.isDigit) ∧ n = decimalValue cs ∧ n < 2 ^ bits := by
  have hempty : String.ofList cs = "" ↔ cs = [] := by
    rw [← String.toList_inj, String.toList_ofList]
    exact Iff.rfl
  rw [parseUint, digitsValue_ten, String.toList_ofList]
  by_cases hnil : cs = []
  · simp [hnil]
  · rw [if_neg (mt hempty.mp hnil)]
    by_cases hdigits : ∀ c ∈ cs, c.isDigit = true
    · rw [if_pos (List.all_eq_true.mpr hdigits), Option.filter_eq_some_iff]
      simp only [Option.some.injEq, Nat.zero_mul, Nat.zero_add, decide_eq_true_eq]
      constructor
      · rintro ⟨rfl, hlt⟩
        exact ⟨hnil, hdigits, rfl, hlt⟩
      · rintro ⟨-, -, rfl, hlt⟩
        exact ⟨rfl, hlt⟩
    · rw [if_neg (mt List.all_eq_true.mp hdigits)]
      exact iff_of_false (by simp) (fun h => hdigits h.2.1)

/-- `s` is a decimal numeral with an optional sign, and `n` is the number it denotes. -/
def Denotes (s : String) (n : ℤ) : Prop :=
  ∃ cs : List Char, cs ≠ [] ∧ (∀ c ∈ cs, c.isDigit) ∧
    ((s.toList = cs ∨ s.toList = '+' :: cs) ∧ n = decimalValue cs ∨
      s.toList = '-' :: cs ∧ n = -decimalValue cs)

/-- The digits after the sign are what a numeral denotes its number by. -/
theorem denotes_minus {s : String} {cs : List Char} {n : ℤ} (hs : s.toList = '-' :: cs) :
    Denotes s n ↔ cs ≠ [] ∧ (∀ c ∈ cs, c.isDigit) ∧ n = -decimalValue cs := by
  constructor
  · rintro ⟨ds, hne, hdigits, ⟨hds | hds, -⟩ | ⟨hds, hn⟩⟩
    · have hminus : '-' ∈ ds := by rw [← hds, hs]; exact List.mem_cons_self
      exact absurd (hdigits '-' hminus) (by decide)
    · simp [hs] at hds
    · obtain rfl : cs = ds := List.cons_inj_right '-' |>.mp (hs.symm.trans hds)
      exact ⟨hne, hdigits, hn⟩
  · exact fun ⟨hne, hdigits, hn⟩ => ⟨cs, hne, hdigits, Or.inr ⟨hs, hn⟩⟩

theorem denotes_plus {s : String} {cs : List Char} {n : ℤ} (hs : s.toList = '+' :: cs) :
    Denotes s n ↔ cs ≠ [] ∧ (∀ c ∈ cs, c.isDigit) ∧ n = decimalValue cs := by
  constructor
  · rintro ⟨ds, hne, hdigits, ⟨hds | hds, hn⟩ | ⟨hds, -⟩⟩
    · have hplus : '+' ∈ ds := by rw [← hds, hs]; exact List.mem_cons_self
      exact absurd (hdigits '+' hplus) (by decide)
    · obtain rfl : cs = ds := List.cons_inj_right '+' |>.mp (hs.symm.trans hds)
      exact ⟨hne, hdigits, hn⟩
    · simp [hs] at hds
  · exact fun ⟨hne, hdigits, hn⟩ => ⟨cs, hne, hdigits, Or.inl ⟨Or.inr hs, hn⟩⟩

theorem denotes_unsigned {s : String} {n : ℤ} (hminus : ∀ cs, s.toList ≠ '-' :: cs)
    (hplus : ∀ cs, s.toList ≠ '+' :: cs) :
    Denotes s n ↔ s.toList ≠ [] ∧ (∀ c ∈ s.toList, c.isDigit) ∧ n = decimalValue s.toList := by
  constructor
  · rintro ⟨ds, hne, hdigits, ⟨hds | hds, hn⟩ | ⟨hds, -⟩⟩
    · subst hds
      exact ⟨hne, hdigits, hn⟩
    · exact absurd hds (hplus ds)
    · exact absurd hds (hminus ds)
  · exact fun ⟨hne, hdigits, hn⟩ => ⟨_, hne, hdigits, Or.inl ⟨Or.inl rfl, hn⟩⟩

/-- The digits of a numeral, with a bound on the number and the sign put in front of it. -/
theorem signed_eq_some_iff {cs : List Char} {fits : ℕ → Bool} {sign : ℤ → ℤ} {n : ℤ} :
    ((parseUint 10 64 (String.ofList cs)).filter fits >>= fun m => some (m : ℤ)).map sign = some n ↔
      cs ≠ [] ∧ (∀ c ∈ cs, c.isDigit) ∧ n = sign (decimalValue cs) ∧
        fits (decimalValue cs) = true ∧ decimalValue cs < 2 ^ 64 := by
  simp only [Option.map_eq_some_iff, Option.bind_eq_bind, Option.bind_eq_some_iff,
    Option.filter_eq_some_iff, parseUint_ten_eq_some_iff, Option.some.injEq]
  constructor
  · rintro ⟨_, ⟨m, ⟨⟨hne, hdigits, rfl, hlt⟩, hfits⟩, rfl⟩, rfl⟩
    exact ⟨hne, hdigits, rfl, hfits, hlt⟩
  · rintro ⟨hne, hdigits, rfl, hfits, hlt⟩
    exact ⟨_, ⟨_, ⟨⟨hne, hdigits, rfl, hlt⟩, hfits⟩, rfl⟩, rfl⟩

/-- **Numerals.** `ParseInt` accepts the numerals whose number fits in 64 bits, and returns it. -/
theorem parseInt_eq_some_iff {s : String} {n : ℤ} :
    parseInt s = some n ↔ Denotes s n ∧ -2 ^ 63 ≤ n ∧ n < 2 ^ 63 := by
  unfold parseInt
  split
  case h_1 cs hs =>
    refine signed_eq_some_iff.trans ?_
    rw [denotes_minus hs, and_assoc, and_assoc, decide_eq_true_eq]
    exact and_congr_right fun _ => and_congr_right fun _ => and_congr_right fun hn => by omega
  case h_2 cs hs =>
    refine signed_eq_some_iff.trans ?_
    rw [denotes_plus hs, and_assoc, and_assoc, decide_eq_true_eq]
    exact and_congr_right fun _ => and_congr_right fun _ => and_congr_right fun hn => by omega
  case h_3 hminus hplus =>
    have hs := @signed_eq_some_iff s.toList (fun m => decide (m < 2 ^ 63)) id n
    rw [String.ofList_toList] at hs
    refine hs.trans ?_
    rw [denotes_unsigned hminus hplus, and_assoc, and_assoc, decide_eq_true_eq, id_eq]
    exact and_congr_right fun _ => and_congr_right fun _ => and_congr_right fun hn => by omega

end GoString
