import NfsLbCsi.NodeServer.Functions

set_option autoImplicit false

/-! # The read-ahead pseudo-option in a list of mount flags

`read_ahead_kb=<value>` is a flag of the driver and not of `mount`. Two loops look for it with one
pattern: `collectMountOptions` takes such flags out of the list, and `extractReadAheadKBMountFlag`
reads the value of the first one. `collect_and_extract_agree` says that they see the same flags, and
which values are read.
-/

namespace NfsLbCsi

open GoString

/-! ## The pattern -/

/-- `read_ahead_kb=` and a value that is not empty and has no line feed. -/
def IsReadAheadFlag (opt : String) : Prop :=
  ∃ value : String, opt = "read_ahead_kb=" ++ value ∧ value ≠ "" ∧ '\n' ∉ value.toList

theorem matchReadAhead_eq_some_iff {opt value : String} : matchReadAhead opt = some value ↔
    opt = "read_ahead_kb=" ++ value ∧ value ≠ "" ∧ '\n' ∉ value.toList := by
  have hlength : "read_ahead_kb=".length = "read_ahead_kb=".toList.length := rfl
  unfold matchReadAhead
  constructor
  · intro h
    obtain ⟨⟨hpre, hne, hline⟩, hvalue⟩ := Option.ite_none_right_eq_some.mp h
    obtain ⟨rest, hrest⟩ := hpre
    have hdrop : opt.toList.drop "read_ahead_kb=".length = rest := by
      rw [hlength, ← hrest, List.drop_left]
    rw [hdrop] at hne hline hvalue
    cases hvalue
    refine ⟨String.toList_inj.mp ?_, hne, hline⟩
    calc opt.toList = "read_ahead_kb=".toList ++ rest := hrest.symm
      _ = ("read_ahead_kb=" ++ String.ofList rest).toList := by simp
  · rintro ⟨rfl, hne, hline⟩
    have hdrop : String.ofList (("read_ahead_kb=" ++ value).toList.drop "read_ahead_kb=".length) =
        value := by
      rw [hlength, String.toList_append, List.drop_left, String.ofList_toList]
    simp only [hdrop]
    refine if_pos ⟨?_, hne, hline⟩
    rw [String.toList_append]
    exact List.prefix_append _ _

theorem matchReadAhead_eq_none_iff {opt : String} :
    matchReadAhead opt = none ↔ ¬IsReadAheadFlag opt := by
  rw [Option.eq_none_iff_forall_ne_some, IsReadAheadFlag, not_exists]
  exact forall_congr' fun value => not_congr matchReadAhead_eq_some_iff

instance (opt : String) : Decidable (IsReadAheadFlag opt) :=
  decidable_of_iff (matchReadAhead opt ≠ none) (not_iff_comm.mp matchReadAhead_eq_none_iff.symm)

/-! ## Filtering -/

section

variable {flags kept rest : List String} {flag value : String}

theorem collectMountOptions_eq_filter (flags : List String) :
    collectMountOptions flags = flags.filter (fun opt => ¬IsReadAheadFlag opt) :=
  List.filter_congr fun _ _ => decide_eq_decide.mpr matchReadAhead_eq_none_iff

theorem mem_collectMountOptions {opt : String} :
    opt ∈ collectMountOptions flags ↔ opt ∈ flags ∧ ¬IsReadAheadFlag opt := by
  rw [collectMountOptions_eq_filter, List.mem_filter, decide_eq_true_eq]

theorem collectMountOptions_eq_self_iff :
    collectMountOptions flags = flags ↔ ∀ opt ∈ flags, ¬IsReadAheadFlag opt := by
  rw [collectMountOptions_eq_filter, List.filter_eq_self]
  exact forall₂_congr fun _ _ => decide_eq_true_iff

/-! ## Extraction -/

/-- The value of the first flag that is taken out of the list. -/
def FirstReadAhead (flags : List String) (value : String) : Prop :=
  ∃ kept rest, flags = kept ++ ("read_ahead_kb=" ++ value) :: rest ∧
    (∀ opt ∈ kept, ¬IsReadAheadFlag opt) ∧ value ≠ "" ∧ '\n' ∉ value.toList

theorem exists_firstReadAhead (h : collectMountOptions flags ≠ flags) :
    ∃ value, FirstReadAhead flags value := by
  induction flags with
  | nil => exact absurd rfl h
  | cons flag flags ih =>
      by_cases hflag : IsReadAheadFlag flag
      · obtain ⟨value, rfl, hvalue⟩ := hflag
        exact ⟨value, [], flags, rfl, by simp, hvalue⟩
      · have hrest : collectMountOptions flags ≠ flags := by
          intro hrest
          rw [collectMountOptions_eq_self_iff] at hrest
          exact h (collectMountOptions_eq_self_iff.mpr (List.forall_mem_cons.mpr ⟨hflag, hrest⟩))
        obtain ⟨value, kept, rest, rfl, hkept, hvalue⟩ := ih hrest
        exact ⟨value, flag :: kept, rest, rfl, List.forall_mem_cons.mpr ⟨hflag, hkept⟩, hvalue⟩

/-- Flags that stay in the list are passed over. -/
theorem extract_append (hkept : ∀ opt ∈ kept, ¬IsReadAheadFlag opt) (rest : List String) :
    extractReadAheadKBMountFlag (kept ++ rest) = extractReadAheadKBMountFlag rest := by
  induction kept with
  | nil => rfl
  | cons flag kept ih =>
      obtain ⟨hflag, hkept⟩ := List.forall_mem_cons.mp hkept
      rw [List.cons_append, extractReadAheadKBMountFlag, matchReadAhead_eq_none_iff.mpr hflag]
      exact ih hkept

/-- The loop ends at the first flag that is taken out. -/
theorem extract_cons (hflag : matchReadAhead flag = some value) (rest : List String) :
    extractReadAheadKBMountFlag (flag :: rest) = extractReadAheadKBMountFlag [flag] := by
  rw [extractReadAheadKBMountFlag, extractReadAheadKBMountFlag, hflag]

theorem extract_singleton_ok_iff (hflag : matchReadAhead flag = some value) (found : Option ℤ) :
    extractReadAheadKBMountFlag [flag] = .ok found ↔
      ∃ n, found = some n ∧ Denotes value n ∧ 0 ≤ n ∧ n ≤ 2 ^ 63 - 1 := by
  -- a number that is not negative is refused for its size only above the largest
  have hread : ∀ n, (Denotes value n ∧ 0 ≤ n ∧ n ≤ 2 ^ 63 - 1) ↔
    parseInt value = some n ∧ 0 ≤ n := by
    intro n
    rw [parseInt_eq_some_iff]
    constructor
    · exact fun ⟨hdenotes, hnonneg, hle⟩ => ⟨⟨hdenotes, by omega, by omega⟩, hnonneg⟩
    · exact fun ⟨⟨hdenotes, _, hlt⟩, hnonneg⟩ => ⟨hdenotes, hnonneg, by omega⟩
  simp only [extractReadAheadKBMountFlag, hflag, hread]
  cases parseInt value with
  | none => simp
  | some k =>
      by_cases hneg : k < 0
      · simp [hneg]
      · simp only [if_neg hneg, Except.ok.injEq, Option.some.injEq]
        constructor
        · rintro rfl
          exact ⟨k, rfl, rfl, not_lt.mp hneg⟩
        · rintro ⟨n, rfl, rfl, -⟩
          rfl

theorem extract_of_first (h : FirstReadAhead flags value) :
    extractReadAheadKBMountFlag flags
      = extractReadAheadKBMountFlag ["read_ahead_kb=" ++ value] := by
  obtain ⟨kept, rest, rfl, hkept, hvalue⟩ := h
  rw [extract_append hkept, extract_cons (matchReadAhead_eq_some_iff.mpr ⟨rfl, hvalue⟩)]

theorem extract_ok_iff (h : FirstReadAhead flags value) (found : Option ℤ) :
    extractReadAheadKBMountFlag flags = .ok found ↔
      ∃ n, found = some n ∧ Denotes value n ∧ 0 ≤ n ∧ n ≤ 2 ^ 63 - 1 := by
  rw [extract_of_first h]
  obtain ⟨kept, rest, -, -, hvalue⟩ := h
  exact extract_singleton_ok_iff (matchReadAhead_eq_some_iff.mpr ⟨rfl, hvalue⟩) found

/-- No flag is found exactly when none is taken out. -/
theorem extract_eq_ok_none_iff :
    extractReadAheadKBMountFlag flags = .ok none ↔ collectMountOptions flags = flags := by
  constructor
  · intro hnone
    by_contra hne
    obtain ⟨value, hfirst⟩ := exists_firstReadAhead hne
    obtain ⟨n, hn, -⟩ := (extract_ok_iff hfirst none).mp hnone
    cases hn
  · intro h
    have hpassed := extract_append (collectMountOptions_eq_self_iff.mp h) []
    rwa [List.append_nil] at hpassed

end

/-! ## Both loops -/

/-- **The two loops agree.** `collectMountOptions` keeps the flags that do not have the form, in
their order. `extractReadAheadKBMountFlag` finds nothing exactly when nothing is taken out;
otherwise the first flag that is taken out decides, whose value has to be a decimal numeral, with or
without a sign, for a number between 0 and the largest 64 bit integer. -/
theorem collect_and_extract_agree (flags : List String) :
    collectMountOptions flags = flags.filter (fun opt => ¬IsReadAheadFlag opt) ∧
    (extractReadAheadKBMountFlag flags = .ok none ↔ collectMountOptions flags = flags) ∧
    (collectMountOptions flags ≠ flags → ∃ value, FirstReadAhead flags value) ∧
    ∀ value, FirstReadAhead flags value →
      extractReadAheadKBMountFlag flags = extractReadAheadKBMountFlag ["read_ahead_kb=" ++ value] ∧
      (∀ n, extractReadAheadKBMountFlag flags = .ok (some n) ↔
        Denotes value n ∧ 0 ≤ n ∧ n ≤ 2 ^ 63 - 1) ∧
      ((¬∃ n, Denotes value n ∧ 0 ≤ n ∧ n ≤ 2 ^ 63 - 1) →
        ∃ err, extractReadAheadKBMountFlag flags = .error err) := by
  refine ⟨collectMountOptions_eq_filter flags, extract_eq_ok_none_iff, exists_firstReadAhead, ?_⟩
  intro value hfirst
  refine ⟨extract_of_first hfirst, ?_, ?_⟩
  · intro n
    rw [extract_ok_iff hfirst]
    constructor
    · rintro ⟨m, ⟨⟩, hm⟩
      exact hm
    · exact fun hn => ⟨n, rfl, hn⟩
  · intro hnot
    cases hresult : extractReadAheadKBMountFlag flags with
    | error err => exact ⟨err, rfl⟩
    | ok found =>
        obtain ⟨n, -, hn⟩ := (extract_ok_iff hfirst found).mp hresult
        exact absurd ⟨n, hn⟩ hnot

example : extractReadAheadKBMountFlag ["hard", "read_ahead_kb=-0", "read_ahead_kb=x"]
    = .ok (some 0) := by
  decide

end NfsLbCsi
