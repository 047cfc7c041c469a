import NfsLbCsi.Basic.GoString

set_option autoImplicit false

/-! # Slash-separated paths as Go's `path/filepath` cleans them

`Clean` reads the elements of a path from left to right. Empty elements and `.` are dropped, a `..`
takes back the element before it, or stays at the front of a relative path, or is dropped at the
root. What has been read is kept as a stack, the last element first.

* `walk rooted st es`: the stack after the elements `es`, from `st`.
* `walk_normalize`: elements may be cleaned on their own, as a relative path, before they are
  walked.
* `clean`, `joinPath`, `dir`: `filepath.Clean`, `filepath.Join`, `filepath.Dir`.
* `place s`: the stack that a path leads to; `clean s` is `place s` written out (`clean_eq_iff`),
  and `place_joinPath` reads `Join` as a walk.
* `Below p q`: a proper descendant, by the elements of the cleaned paths. `descends_iff` says which
  elements lead to a proper descendant from every absolute path.
-/

namespace GoPath

open GoString

/-! ## Walking elements -/

/-- One element. -/
def step (rooted : Bool) (st : List String) (e : String) : List String :=
  if e = "" ∨ e = "." then st
  else if e = ".." then
    match st with
    | [] => if rooted then [] else [".."]
    | top :: rest => if top = ".." then ".." :: st else rest
  else e :: st

/-- The elements in order. -/
def walk (rooted : Bool) (st es : List String) : List String := es.foldl (step rooted) st

/-- An element that stays. -/
def IsName (e : String) : Prop := e ≠ "" ∧ e ≠ "." ∧ e ≠ ".."

instance (e : String) : Decidable (IsName e) := inferInstanceAs (Decidable (_ ∧ _))

section

variable {rooted : Bool} {st : List String} {e : String}

theorem step_name (h : IsName e) : step rooted st e = e :: st := by
  simp [step, h.1, h.2.1, h.2.2]

theorem step_skip (h : e = "" ∨ e = ".") : step rooted st e = st := if_pos h

@[simp] theorem step_empty : step rooted st "" = st := step_skip (Or.inl rfl)

theorem step_up_nil : step rooted [] ".." = if rooted then [] else [".."] := by
  simp [step]

theorem step_up_cons {top : String} {rest : List String} :
    step rooted (top :: rest) ".." = if top = ".." then ".." :: top :: rest else rest := by
  simp [step]

@[simp] theorem walk_nil : walk rooted st [] = st := rfl

@[simp] theorem walk_cons (es : List String) :
    walk rooted st (e :: es) = walk rooted (step rooted st e) es := rfl

theorem walk_append (es fs : List String) :
    walk rooted st (es ++ fs) = walk rooted (walk rooted st es) fs := List.foldl_append

/-- An element is skipped, goes up, or is a name. -/
theorem element_cases (e : String) : (e = "" ∨ e = ".") ∨ e = ".." ∨ IsName e := by
  unfold IsName
  tauto

end

/-! ## Stacks that a walk leads to

In a stack that a walk can lead to, every element is a name or one of the `..` at the front. -/

/-- The `..` are at the bottom, and only in a relative path. -/
inductive Normal (rooted : Bool) : List String → Prop where
  | nil : Normal rooted []
  | name {e : String} {st : List String} : IsName e → Normal rooted st → Normal rooted (e :: st)
  | up {st : List String} : rooted = false → (∀ f ∈ st, f = "..") → Normal rooted (".." :: st)

section

variable {rooted : Bool} {st : List String}

theorem Normal.step (h : Normal rooted st) (e : String) : Normal rooted (step rooted st e) := by
  rcases element_cases e with he | rfl | he
  · rwa [step_skip he]
  · cases h with
    | nil =>
        rw [step_up_nil]
        cases rooted with
        | true => exact .nil
        | false => exact .up rfl (by simp)
    | name hf hst => rwa [step_up_cons, if_neg hf.2.2]
    | up hr hall => exact .up hr (by simpa using hall)
  · rw [step_name he]
    exact .name he h

theorem Normal.walk (h : Normal rooted st) (es : List String) :
    Normal rooted (walk rooted st es) := by
  induction es generalizing st with
  | nil => exact h
  | cons e es ih => exact ih (h.step e)

theorem walk_ups {st es : List String} (hst : ∀ f ∈ st, f = "..") (hes : ∀ f ∈ es, f = "..") :
    walk false st es = es.reverse ++ st := by
  induction es generalizing st with
  | nil => rfl
  | cons e es ih =>
      have he : e = ".." := hes e (by simp)
      have hstep : step false st e = ".." :: st := by
        cases st with
        | nil => simp [he, step_up_nil]
        | cons top rest => simp [he, step_up_cons, hst top (by simp)]
      rw [walk_cons, hstep, ih (by simpa using hst) (fun f hf => hes f (by simp [hf])), he]
      simp

/-- A normal stack is where its own elements lead. -/
theorem Normal.walk_reverse (h : Normal rooted st) : GoPath.walk rooted [] st.reverse = st := by
  induction h with
  | nil => rfl
  | name he _ ih => rw [List.reverse_cons, walk_append, ih, walk_cons, step_name he, walk_nil]
  | @up st hr hall =>
      subst hr
      have hups : ∀ f ∈ (".." :: st).reverse, f = ".." := by
        intro f hf
        rcases List.mem_cons.mp (List.mem_reverse.mp hf) with rfl | hf
        · rfl
        · exact hall f hf
      rw [walk_ups (by simp) hups, List.reverse_reverse, List.append_nil]

/-- **Cleaning first.** Elements lead to the same place when they are cleaned as a relative path
before they are walked. -/
theorem walk_normalize (st es : List String) :
    walk rooted st (walk false [] es).reverse = walk rooted st es := by
  induction es using List.reverseRecOn with
  | nil => rfl
  | append_singleton es e ih =>
      rw [walk_append, walk_append, ← ih]
      rcases element_cases e with he | rfl | he
      · simp [step_skip he]
      · -- a `..` takes back the last name, or stays behind other `..`
        have hnorm : Normal false (walk false [] es) := Normal.nil.walk es
        cases hn : walk false [] es with
        | nil => simp [step_up_nil]
        | cons top rest =>
            rw [hn] at hnorm
            cases hnorm with
            | name htop _ =>
                simp [step_up_cons, htop.2.2, walk_append, step_name htop]
            | up _ hall => simp [step_up_cons, walk_append]
      · simp [step_name he, walk_append]

/-- A stack of names is only added to by names. -/
theorem walk_names {es : List String} (h : ∀ e ∈ es, IsName e) :
    walk rooted st es = es.reverse ++ st := by
  induction es generalizing st with
  | nil => rfl
  | cons e es ih =>
      rw [walk_cons, step_name (h e (by simp)), ih (fun f hf => h f (by simp [hf]))]
      simp

/-- Without a `..` every name stays. -/
theorem mem_walk_of_name {e : String} {es : List String} (he : IsName e) (hup : ".." ∉ es)
    (h : e ∈ st ∨ e ∈ es) : e ∈ walk rooted st es := by
  induction es generalizing st with
  | nil => exact h.resolve_right List.not_mem_nil
  | cons f es ih =>
      obtain ⟨hf, hes⟩ := not_or.mp (mt List.mem_cons.mpr hup)
      refine ih hes ?_
      rcases element_cases f with hskip | rfl | hname
      · rw [step_skip hskip]
        rcases h with h | h
        · exact Or.inl h
        · rcases List.mem_cons.mp h with rfl | h
          · exact absurd hskip (not_or.mpr ⟨he.1, he.2.1⟩)
          · exact Or.inr h
      · exact absurd rfl hf
      · rw [step_name hname]
        rcases h with h | h
        · exact Or.inl (List.mem_cons_of_mem f h)
        · rcases List.mem_cons.mp h with rfl | h
          · exact Or.inl List.mem_cons_self
          · exact Or.inr h

/-- Empty elements do not matter. -/
theorem walk_filter (st es : List String) :
    walk rooted st (es.filter (· ≠ "")) = walk rooted st es := by
  induction es generalizing st with
  | nil => rfl
  | cons e es ih =>
      by_cases he : e = ""
      · simpa [he] using ih st
      · simpa [he] using ih (step rooted st e)

end

/-! ## The elements of a path -/

/-- `filepath.IsAbs`. -/
def isAbs (s : String) : Bool := s.toList.head? == some '/'

/-- The elements between the slashes. -/
def elements (s : String) : List String := split '/' s

/-- Where a path leads to. -/
def place (s : String) : List String := walk (isAbs s) [] (elements s)

/-- `filepath.Clean`. -/
def clean (s : String) : String :=
  if isAbs s then "/" ++ join '/' (place s).reverse
  else if place s = [] then "." else join '/' (place s).reverse

/-- `filepath.Join`: leading empty elements are left out; nothing but empty elements gives `""`. -/
def joinPath (l : List String) : String :=
  match l.dropWhile (· == "") with
  | [] => ""
  | es => clean (join '/' es)

/-- `filepath.Dir`: everything up to the last slash. -/
def dir (s : String) : String := clean (String.ofList (s.toList.rdropWhile (· != '/')))

section

variable {rooted : Bool} {s t w x e : String}

theorem mem_step {st : List String} {f : String} (h : e ∈ step rooted st f) :
    e ∈ st ∨ e = f := by
  rcases element_cases f with hf | rfl | hf
  · rw [step_skip hf] at h
    exact Or.inl h
  · cases st with
    | nil =>
        rw [step_up_nil] at h
        cases rooted <;> simp_all
    | cons top rest =>
        rw [step_up_cons] at h
        split at h
        · rcases List.mem_cons.mp h with h | h
          · exact Or.inr h
          · exact Or.inl h
        · exact Or.inl (List.mem_cons_of_mem top h)
  · rw [step_name hf] at h
    exact (List.mem_cons.mp h).symm

/-- A walk only puts elements on the stack that it has read. -/
theorem mem_walk {st es : List String} (h : e ∈ walk rooted st es) : e ∈ st ∨ e ∈ es := by
  induction es generalizing st with
  | nil => exact Or.inl h
  | cons f es ih =>
      rcases ih h with h | h
      · rcases mem_step h with h | rfl
        · exact Or.inl h
        · exact Or.inr List.mem_cons_self
      · exact Or.inr (List.mem_cons_of_mem f h)

theorem normal_place (s : String) : Normal (isAbs s) (place s) := Normal.nil.walk _

theorem not_mem_of_mem_place (h : e ∈ place s) : '/' ∉ e.toList := by
  rcases mem_walk h with h | h
  · cases h
  · exact not_mem_of_mem_split h

theorem Normal.ne_empty {st : List String} (hst : Normal rooted st) (h : e ∈ st) : e ≠ "" := by
  induction hst with
  | nil => cases h
  | name hf _ ih =>
      rcases List.mem_cons.mp h with rfl | h
      · exact hf.1
      · exact ih h
  | up _ hall =>
      rcases List.mem_cons.mp h with rfl | h
      · decide
      · rw [hall e h]
        decide

/-! ## Cleaned paths -/

/-- A slash in front adds an empty element. -/
theorem elements_of_slash {s t : String} (h : s.toList = '/' :: t.toList) :
    elements s = "" :: elements t := by
  have hsplit := split_append_cons (c := '/') (a := []) (b := t.toList) (s := s) (by simpa using h)
  rw [String.ofList_toList] at hsplit
  simpa [elements] using hsplit

theorem elements_join_place (h : place s ≠ []) :
    elements (join '/' (place s).reverse) = (place s).reverse :=
  split_join_of_not_mem (by simpa using h)
    (fun e he => not_mem_of_mem_place (List.mem_reverse.mp he))

theorem isAbs_join_place : isAbs (join '/' (place s).reverse) = false := by
  cases hp : (place s).reverse with
  | nil => rfl
  | cons e es =>
      -- the first element is not empty and has no slash
      have he : e ∈ place s := by rw [← List.mem_reverse, hp]; simp
      obtain ⟨a, as, ha⟩ := List.exists_cons_of_ne_nil
        (fun hnil => (normal_place s).ne_empty he (String.toList_eq_nil_iff.mp hnil))
      have hslash : a ≠ '/' := fun heq => not_mem_of_mem_place he (by rw [ha, heq]; simp)
      cases es with
      | nil => simp [isAbs, ha, hslash]
      | cons f es => simp [isAbs, toList_join_cons_cons, ha, hslash]

@[simp] theorem isAbs_clean (s : String) : isAbs (clean s) = isAbs s := by
  unfold clean
  split
  · rename_i h
    rw [h]
    simp [isAbs]
  · rename_i h
    rw [eq_false_of_ne_true h]
    split
    · decide
    · exact isAbs_join_place

/-- **Cleaning** does not change where a path leads to. -/
@[simp] theorem place_clean (s : String) : place (clean s) = place s := by
  have hback : walk (isAbs s) [] (place s).reverse = place s := (normal_place s).walk_reverse
  have hjoin : walk (isAbs s) [] (elements (join '/' (place s).reverse)) = place s := by
    by_cases hnil : place s = []
    · simp [hnil, join, elements]
    · rw [elements_join_place hnil, hback]
  rw [place, isAbs_clean]
  unfold clean
  split
  · rw [elements_of_slash (t := join '/' (place s).reverse) (by simp), walk_cons, step_empty, hjoin]
  · split
    · rename_i hnil
      rw [hnil]
      rfl
    · exact hjoin

/-- Cleaned paths are the same when they are both absolute or both relative and lead to the same
place. -/
theorem clean_eq_iff : clean s = clean t ↔ isAbs s = isAbs t ∧ place s = place t := by
  constructor
  · intro h
    have habs := congrArg isAbs h
    have hplace := congrArg place h
    simp only [isAbs_clean, place_clean] at habs hplace
    exact ⟨habs, hplace⟩
  · rintro ⟨habs, hplace⟩
    simp only [clean, habs, hplace]

theorem clean_ne_empty (s : String) : clean s ≠ "" := by
  unfold clean
  split
  · simp
  · split
    · decide
    · rename_i hne
      intro h
      have hel := elements_join_place hne
      rw [h] at hel
      have hmem : "" ∈ place s := by rw [← List.mem_reverse, ← hel]; simp [elements]
      exact (normal_place s).ne_empty hmem rfl

/-! ## Joined paths -/

theorem joinPath_of_ne_empty (h : w ≠ "") : joinPath [w, x] = clean (join '/' [w, x]) := by
  simp [joinPath, h]

theorem toList_join_pair (w x : String) :
    (join '/' [w, x]).toList = w.toList ++ '/' :: x.toList := by
  rw [toList_join_cons_cons, join_singleton]

theorem joinPath_eq_empty_iff : joinPath [w, x] = "" ↔ w = "" ∧ x = "" := by
  by_cases hw : w = ""
  · by_cases hx : x = ""
    · simp [joinPath, hw, hx]
    · simp [joinPath, hw, hx, clean_ne_empty]
  · simp [joinPath_of_ne_empty hw, clean_ne_empty, hw]

@[simp] theorem isAbs_joinPath (h : w ≠ "") : isAbs (joinPath [w, x]) = isAbs w := by
  obtain ⟨a, as, ha⟩ := List.exists_cons_of_ne_nil (mt String.toList_eq_nil_iff.mp h)
  rw [joinPath_of_ne_empty h, isAbs_clean, isAbs, isAbs, toList_join_pair, ha]
  rfl

/-- **`Join`** walks the elements of the second path from where the first one leads. -/
theorem place_joinPath (h : w ≠ "") :
    place (joinPath [w, x]) = walk (isAbs w) (place w) (elements x) := by
  have habs : isAbs (join '/' [w, x]) = isAbs w := by
    rw [← isAbs_joinPath (x := x) h, joinPath_of_ne_empty h, isAbs_clean]
  have hel : elements (join '/' [w, x]) = elements w ++ elements x := by
    rw [elements, split_append_cons (toList_join_pair w x), String.ofList_toList,
      String.ofList_toList]
    rfl
  rw [joinPath_of_ne_empty h, place_clean, place, habs, hel, walk_append]
  rfl

theorem joinPath_ne_empty (h : w ≠ "") : joinPath [w, x] ≠ "" :=
  fun hj => h (joinPath_eq_empty_iff.mp hj).1

/-- Joined paths are equal when they start at the same end and lead to the same place. -/
theorem joinPath_eq_iff {y v : String} (hw : w ≠ "") (hv : v ≠ "") :
    joinPath [w, x] = joinPath [v, y] ↔ isAbs w = isAbs v ∧
      walk (isAbs w) (place w) (elements x) = walk (isAbs v) (place v) (elements y) := by
  rw [← place_joinPath hw, ← place_joinPath hv, ← isAbs_joinPath (x := x) hw,
    ← isAbs_joinPath (x := y) hv, joinPath_of_ne_empty hw, joinPath_of_ne_empty hv]
  simpa using clean_eq_iff

/-! ## Slashes at the ends -/

theorem filter_elements_replicate (a : ℕ) (u : List Char) :
    (elements (String.ofList (List.replicate a '/' ++ u))).filter (· ≠ "") =
      (elements (String.ofList u)).filter (· ≠ "") := by
  induction a with
  | zero => simp
  | succ a ih =>
      rw [elements_of_slash (t := String.ofList (List.replicate a '/' ++ u))
        (by simp [List.replicate_succ])]
      simpa using ih

theorem filter_elements_append_replicate (u : List Char) (b : ℕ) :
    (elements (String.ofList (u ++ List.replicate b '/'))).filter (· ≠ "") =
      (elements (String.ofList u)).filter (· ≠ "") := by
  induction b with
  | zero => simp
  | succ b ih =>
      have hcut : (String.ofList (u ++ List.replicate (b + 1) '/')).toList =
          (u ++ List.replicate b '/') ++ '/' :: [] := by
        rw [String.toList_ofList, List.replicate_succ', List.append_assoc]
      rw [elements, split_append_cons hcut, List.filter_append]
      simpa [elements] using ih

/-- Slashes at the ends of a joined element do not matter. -/
theorem walk_elements_trim (st : List String) :
    walk rooted st (elements (trim '/' s)) = walk rooted st (elements s) := by
  obtain ⟨a, b, hs⟩ := trim_spec '/' s
  have hfilter : (elements s).filter (· ≠ "") = (elements (trim '/' s)).filter (· ≠ "") := by
    have h₁ := filter_elements_append_replicate (List.replicate a '/' ++ (trim '/' s).toList) b
    have h₂ := filter_elements_replicate a (trim '/' s).toList
    rw [← hs, String.ofList_toList] at h₁
    rw [h₁, h₂, String.ofList_toList]
  rw [← walk_filter st (elements s), hfilter, walk_filter]

/-! ## Descendants -/

/-- `p` is a proper descendant of `q`. -/
def Below (p q : String) : Prop := isAbs p = isAbs q ∧ ∃ es ≠ [], place p = es ++ place q

theorem not_below_self (p : String) : ¬Below p p := by
  rintro ⟨-, es, hne, h⟩
  exact hne (List.append_left_eq_self.mp h.symm)

/-- The elements `es`, as a relative path, lead below `base`. -/
def Descends (base es : List String) : Prop :=
  ∃ fs ≠ [], (∀ f ∈ fs, IsName f) ∧ walk false [] es = fs ++ base

/-- A normal stack has only names, or names above some `..`. -/
theorem Normal.names_or_ups {st : List String} (h : Normal false st) :
    (∀ e ∈ st, IsName e) ∨
      ∃ (fs : List String) (k : ℕ), (∀ f ∈ fs, IsName f) ∧
        st = fs ++ List.replicate (k + 1) ".." := by
  induction h with
  | nil => exact Or.inl (by simp)
  | @name e st he _ ih =>
      rcases ih with hall | ⟨fs, k, hfs, rfl⟩
      · exact Or.inl (List.forall_mem_cons.mpr ⟨he, hall⟩)
      · exact Or.inr ⟨e :: fs, k, List.forall_mem_cons.mpr ⟨he, hfs⟩, rfl⟩
  | @up st _ hall =>
      refine Or.inr ⟨[], st.length, by simp, ?_⟩
      rw [List.replicate_succ, ← List.eq_replicate_of_mem hall, List.nil_append]

theorem walk_root_ups (k : ℕ) : walk true [] (List.replicate k "..") = [] := by
  induction k with
  | zero => rfl
  | succ k ih => rw [List.replicate_succ, walk_cons, step_up_nil, if_pos rfl, ih]

/-- From a directory right below the root, `..` leads to the root, and the names after it go on from
there. -/
theorem walk_escape {x : String} (hx : IsName x) {fs : List String} (hfs : ∀ f ∈ fs, IsName f)
    (k : ℕ) : walk true [x] (fs ++ List.replicate (k + 1) "..").reverse = fs := by
  have hnames : ∀ f ∈ fs.reverse, IsName f := fun f hf => hfs f (List.mem_reverse.mp hf)
  rw [List.reverse_append, List.reverse_replicate, walk_append, List.replicate_succ, walk_cons,
    step_up_cons, if_neg hx.2.2, walk_root_ups, walk_names hnames]
  simp

/-- **Staying below.** The elements lead below `base` from every absolute path exactly when they do
so as a relative path: a `..` that is left over leads elsewhere from some directory. -/
theorem descends_iff {base es : List String} (hbase : ∀ f ∈ base, IsName f) :
    (∀ w, isAbs w = true → ∃ fs ≠ [], walk true (place w) es = fs ++ (base ++ place w)) ↔
      Descends base es := by
  constructor
  · intro h
    have hnorm : Normal false (walk false [] es) := Normal.nil.walk es
    rcases hnorm.names_or_ups with hall | ⟨gs, k, hgs, heq⟩
    · -- only names: the path under the root shows them
      obtain ⟨fs, hne, hw⟩ := h "/" (by decide)
      have hroot : place "/" = [] := by decide
      rw [hroot, ← walk_normalize, walk_names (by simpa using hall)] at hw
      simp only [List.reverse_reverse, List.append_nil] at hw
      exact ⟨fs, hne, fun f hf => hall f (hw ▸ List.mem_append_left _ hf), hw⟩
    · -- a `..` is left: under `/a` and under `/b` the path would have to begin with `a` and with
      -- `b`
      exfalso
      obtain ⟨fa, -, ha⟩ := h "/a" (by decide)
      obtain ⟨fb, -, hb⟩ := h "/b" (by decide)
      have hpa : place "/a" = ["a"] := by decide
      have hpb : place "/b" = ["b"] := by decide
      rw [hpa, ← walk_normalize, heq, walk_escape (by decide) hgs k, ← List.append_assoc] at ha
      rw [hpb, ← walk_normalize, heq, walk_escape (by decide) hgs k, ← List.append_assoc] at hb
      have hlast := List.append_inj_right' (ha.symm.trans hb) rfl
      exact absurd hlast (by decide)
  · rintro ⟨fs, hne, hfs, heq⟩ w -
    have hall : ∀ f ∈ (fs ++ base).reverse, IsName f := by
      intro f hf
      rcases List.mem_append.mp (List.mem_reverse.mp hf) with hf | hf
      · exact hfs f hf
      · exact hbase f hf
    refine ⟨fs, hne, ?_⟩
    rw [← walk_normalize, heq, walk_names hall, List.reverse_reverse, List.append_assoc]

/-- Without a `..` a walk collects the names. -/
theorem walk_of_not_up {st es : List String} (h : ".." ∉ es) :
    walk rooted st es = (es.filter (fun e => decide (IsName e))).reverse ++ st := by
  induction es generalizing st with
  | nil => rfl
  | cons e es ih =>
      obtain ⟨he, hes⟩ := not_or.mp (mt List.mem_cons.mpr h)
      rw [walk_cons, ih hes]
      rcases element_cases e with hskip | rfl | hname
      · have hnot : ¬IsName e := fun hn => hskip.elim hn.1 hn.2.1
        simp [step_skip hskip, hnot]
      · exact absurd rfl he
      · simp [step_name hname, hname]

/-- Elements without `..` lead below `base` exactly when one of them is a name. -/
theorem descends_of_not_up {base es fs : List String} (hbase : walk false [] es = base)
    (h : ".." ∉ fs) : Descends base (es ++ fs) ↔ ∃ f ∈ fs, IsName f := by
  have hwalk : walk false [] (es ++ fs) =
      (fs.filter (fun e => decide (IsName e))).reverse ++ base := by
    rw [walk_append, hbase, walk_of_not_up h]
  constructor
  · rintro ⟨gs, hne, -, heq⟩
    have hgs := List.append_cancel_right (hwalk.symm.trans heq)
    obtain ⟨g, rest, hcons⟩ := List.exists_cons_of_ne_nil hne
    have hmem : g ∈ fs.filter (fun e => decide (IsName e)) := by
      rw [← List.mem_reverse, hgs, hcons]
      exact List.mem_cons_self
    obtain ⟨hg, hname⟩ := List.mem_filter.mp hmem
    exact ⟨g, hg, by simpa using hname⟩
  · rintro ⟨f, hf, hname⟩
    refine ⟨_, ?_, ?_, hwalk⟩
    · exact List.ne_nil_of_mem (List.mem_reverse.mpr
        (List.mem_filter.mpr ⟨hf, by simpa using hname⟩))
    · intro g hg
      simpa using (List.mem_filter.mp (List.mem_reverse.mp hg)).2

end

end GoPath
