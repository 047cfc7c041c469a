import NfsLbCsi.Basic.Template
import NfsLbCsi.Volumes.Functions

set_option autoImplicit false

/-! # The orders of the loops in `newNFSVolume`

`newNFSVolume` loops over two Go maps, whose orders are open: over the parameters, where keys are
compared in lower case and the last value of a parameter counts, and over the replacement map, where
one placeholder after the other is replaced in the subdirectory. A retried request may see other
orders.

The result is the same when all orders refuse the parameters for the same reason, or when keys that
are equal up to case have the same value and no replacement can make or complete another placeholder
(`same_volume_of_settled`). Two keys that differ in case only, or a value that holds a placeholder,
make it depend on the orders.
-/

namespace NfsLbCsi

open GoString Template

/-! ## Parameter names -/

theorem paramKey_eq_some_iff {k : String} {key : ParamKey} :
    paramKey k = some key ↔ toLower k = key.text := by
  constructor
  · intro h
    simpa using List.find?_some h
  · intro h
    simp only [paramKey, h]
    cases key <;> decide

/-- A key that is known and equal to the name of a parameter up to case is that parameter. -/
theorem paramKey_of_equalFold {k : String} {key : ParamKey} (hknown : paramKey k ≠ none)
    (h : equalFold k key.text = true) : paramKey k = some key := by
  have hascii : ∀ key' : ParamKey, key'.text.toList.map foldChar = key'.text.toList ∧
      '\u0130' ∉ key'.text.toList ∧ '\u017f' ∉ key'.text.toList := by
    intro key'
    cases key' <;> decide
  obtain ⟨key', hkey'⟩ := Option.ne_none_iff_exists'.mp hknown
  have hlong : '\u017f' ∉ k.toList := by
    intro hmem
    have htext := long_mem_toLower hmem
    rw [paramKey_eq_some_iff.mp hkey'] at htext
    exact (hascii key').2.2 htext
  exact paramKey_eq_some_iff.mpr (toLower_of_equalFold (hascii key).1 (hascii key).2.1 hlong h)

/-! ## Placeholders -/

/-- The placeholders of a subdirectory. -/
inductive Placeholder where
  | pvcName
  | pvcNamespace
  | pvName
  deriving DecidableEq

/-- The text that stands for the value. -/
def Placeholder.text : Placeholder → String
  | .pvcName => pvcNameMetadata
  | .pvcNamespace => pvcNamespaceMetadata
  | .pvName => pvNameMetadata

/-- The parameter that gives the value. -/
def Placeholder.param : Placeholder → ParamKey
  | .pvcName => .pvcName
  | .pvcNamespace => .pvcNamespace
  | .pvName => .pvName

/-- The three placeholders begin with a dollar sign, and none of them begins another. -/
def placeholders : Placeholders Placeholder where
  mark := '$'
  text := Placeholder.text
  shape := by
    intro k
    cases k <;> exact ⟨_, rfl, by decide⟩
  apart := by
    intro k k'
    cases k <;> cases k' <;> decide

/-- What an entry of the parameters does to the replacement map. -/
def readReplacement (m : StringMap) (e : String × String) : StringMap :=
  match paramKey e.1 with
  | some .pvcNamespace => m.set pvcNamespaceMetadata e.2
  | some .pvcName => m.set pvcNameMetadata e.2
  | some .pvName => m.set pvNameMetadata e.2
  | _ => m

section

variable {m : StringMap} {es : List (String × String)}

theorem get?_readReplacement (m : StringMap) (e : String × String) (k : Placeholder) :
    (readReplacement m e).get? k.text =
      if paramKey e.1 = some k.param then some e.2 else m.get? k.text := by
  have hset : ∀ k' : Placeholder, (m.set k'.text e.2).get? k.text =
      if k = k' then some e.2 else m.get? k.text := by
    intro k'
    rw [StringMap.get?_set]
    exact if_congr (text_inj (F := placeholders)) rfl rfl
  unfold readReplacement
  split
  · rename_i hkey
    rw [hkey]
    exact (hset .pvcNamespace).trans (by cases k <;> rfl)
  · rename_i hkey
    rw [hkey]
    exact (hset .pvcName).trans (by cases k <;> rfl)
  · rename_i hkey
    rw [hkey]
    exact (hset .pvName).trans (by cases k <;> rfl)
  · rename_i hnamespace hname hpv
    rw [if_neg]
    cases k with
    | pvcName => exact hname
    | pvcNamespace => exact hnamespace
    | pvName => exact hpv

/-- The keys of a replacement map are the texts of placeholders. -/
def ForPlaceholders (m : StringMap) : Prop := ∀ e ∈ m.entries, ∃ k : Placeholder, e.1 = k.text

theorem ForPlaceholders.readReplacement (h : ForPlaceholders m) (e : String × String) :
    ForPlaceholders (readReplacement m e) := by
  have hset : ∀ k : Placeholder, ForPlaceholders (m.set k.text e.2) := by
    intro k f hf
    rcases StringMap.mem_set hf with rfl | hf
    · exact ⟨k, rfl⟩
    · exact h f hf
  unfold NfsLbCsi.readReplacement
  split
  · exact hset .pvcNamespace
  · exact hset .pvcName
  · exact hset .pvName
  · exact h

/-- The value that the parameters give a placeholder, in the order of a loop. -/
def givenValue (es : List (String × String)) (k : Placeholder) : Option String :=
  (valuesOf paramKey k.param es).getLast?

/-- A replacement map as a loop over the entries `es` makes it. -/
structure ReplacementsOf (m : StringMap) (es : List (String × String)) : Prop where
  keys : ForPlaceholders m
  get? : ∀ k : Placeholder, m.get? k.text = givenValue es k

theorem replacementsOf_foldl (es : List (String × String)) :
    ReplacementsOf (es.foldl readReplacement ∅) es := by
  constructor
  · have key : ∀ (es : List (String × String)) (m : StringMap), ForPlaceholders m →
        ForPlaceholders (es.foldl readReplacement m) := by
      intro es
      induction es with
      | nil => exact fun m hm => hm
      | cons e es ih => exact fun m hm => ih _ (hm.readReplacement e)
    exact key es ∅ (fun e he => absurd he List.not_mem_nil)
  · intro k
    rw [foldl_last (fun m => m.get? k.text) (fun m e => get?_readReplacement m e k), givenValue]
    cases (valuesOf paramKey k.param es).getLast? <;> rfl

theorem replaceWithMap_eq_foldl {s : String} (hkeys : ∀ e ∈ es, ∃ k, e.1 = placeholders.text k) :
    replaceWithMap s es = es.foldl (fun s e => replaceAll s e.1 e.2) s := by
  induction es generalizing s with
  | nil => rfl
  | cons e es ih =>
      obtain ⟨⟨k, hk⟩, hkeys⟩ := List.forall_mem_cons.mp hkeys
      have hne : e.1 ≠ "" := by
        rw [hk]
        cases k <;> decide
      rw [List.foldl_cons, ← ih hkeys, replaceWithMap, List.foldl_cons, if_pos hne]
      rfl

/-- **Replacing is substituting** at once, in a template without stray dollar signs and with values
without dollar signs for the placeholders that occur in it. -/
theorem replaceWithMap_render (hm : ReplacementsOf m es) (ρ : MapOrder)
    {ps : List (Piece Placeholder)} (hplain : Unmarked placeholders ps)
    (hvalues : ∀ k v, Piece.var k ∈ ps → givenValue es k = some v → '$' ∉ v.toList) :
    replaceWithMap (render placeholders ps) (ρ.range m) = fill placeholders (givenValue es) ps := by
  have hkeys : ∀ e ∈ ρ.range m, ∃ k, e.1 = placeholders.text k :=
    fun e he => hm.keys e (MapOrder.mem_range.mp he)
  rw [replaceWithMap_eq_foldl hkeys, foldl_replaceAll_render _ hkeys hplain]
  · congr 1
    funext k
    exact (StringMap.lookup_range ρ m _).trans (hm.get? k)
  · intro k hk e he hek
    refine hvalues k e.2 hk ?_
    rw [← hm.get? k]
    have hmem : (k.text, e.2) ∈ m.entries := by
      rw [← show e.1 = k.text from hek]
      exact MapOrder.mem_range.mp he
    exact StringMap.get?_eq_some_iff.mpr hmem

/-- A text without dollar signs stays as it is. -/
theorem replaceWithMap_of_plain (hm : ReplacementsOf m es) (ρ : MapOrder) {s : String}
    (hs : '$' ∉ s.toList) : replaceWithMap s (ρ.range m) = s := by
  have hrender := replaceWithMap_render hm ρ (unmarked_lit hs) (fun k v hk _ => absurd hk (by simp))
  rwa [render_lit, fill_lit] at hrender

end

/-! ## What the loop over the parameters collects -/

section

variable {σ ρ σ' ρ' : MapOrder} {name defaultOnDeletePolicy : String} {size : ℤ}
    {params : StringMap}

/-- One entry of the parameters, field by field. -/
theorem VolumeParams.read_fields (p : VolumeParams) (e : String × String) :
    (p.read e).server = (if paramKey e.1 = some .server then e.2 else p.server) ∧
    (p.read e).baseDir = (if paramKey e.1 = some .share then e.2 else p.baseDir) ∧
    (p.read e).subDir = (if paramKey e.1 = some .subDir then e.2 else p.subDir) ∧
    (p.read e).onDelete = (if paramKey e.1 = some .onDelete then e.2 else p.onDelete) ∧
    (p.read e).subDirReplaceMap = readReplacement p.subDirReplaceMap e := by
  unfold VolumeParams.read readReplacement
  cases paramKey e.1 with
  | none => simp
  | some key => cases key <;> simp

theorem readParams_server (σ : MapOrder) (params : StringMap) : (readParams σ params).server =
    (valuesOf paramKey .server (σ.range params)).getLast?.elim "" id :=
  foldl_last VolumeParams.server (fun p e => (p.read_fields e).1) _ _

theorem readParams_baseDir (σ : MapOrder) (params : StringMap) : (readParams σ params).baseDir =
    (valuesOf paramKey .share (σ.range params)).getLast?.elim "" id :=
  foldl_last VolumeParams.baseDir (fun p e => (p.read_fields e).2.1) _ _

theorem readParams_subDir (σ : MapOrder) (params : StringMap) : (readParams σ params).subDir =
    (valuesOf paramKey .subDir (σ.range params)).getLast?.elim "" id :=
  foldl_last VolumeParams.subDir (fun p e => (p.read_fields e).2.2.1) _ _

theorem readParams_onDelete (σ : MapOrder) (params : StringMap) : (readParams σ params).onDelete =
    (valuesOf paramKey .onDelete (σ.range params)).getLast?.elim "" id :=
  foldl_last VolumeParams.onDelete (fun p e => (p.read_fields e).2.2.2.1) _ _

theorem replacementsOf_readParams (σ : MapOrder) (params : StringMap) :
    ReplacementsOf (readParams σ params).subDirReplaceMap (σ.range params) := by
  have hmap : (readParams σ params).subDirReplaceMap = (σ.range params).foldl readReplacement ∅ :=
    (List.foldl_hom VolumeParams.subDirReplaceMap fun p e => (p.read_fields e).2.2.2.2.symm).symm
  exact hmap ▸ replacementsOf_foldl _

/-- The result depends on what the loops collect, and on nothing else of their orders. -/
theorem newNFSVolume_congr (hserver : (readParams σ params).server = (readParams σ' params).server)
    (hbase : (readParams σ params).baseDir = (readParams σ' params).baseDir)
    (hvalid : validateOnDeleteValue (readParams σ params).onDelete =
      validateOnDeleteValue (readParams σ' params).onDelete)
    (hpolicy : (readParams σ params).volumeOnDelete defaultOnDeletePolicy =
      (readParams σ' params).volumeOnDelete defaultOnDeletePolicy)
    (hsub : (readParams σ params).volumeSubDir ρ name = (readParams σ' params).volumeSubDir ρ' name)
    (huuid : (readParams σ params).volumeUUID name = (readParams σ' params).volumeUUID name) :
    newNFSVolume σ ρ name size params defaultOnDeletePolicy =
      newNFSVolume σ' ρ' name size params defaultOnDeletePolicy := by
  simp only [newNFSVolume, hserver, hbase, hvalid, hpolicy, hsub, huuid]

/-- The three ways in which `newNFSVolume` ends. -/
theorem newNFSVolume_cases (σ ρ : MapOrder) (name : String) (size : ℤ) (params : StringMap)
    (defaultOnDeletePolicy : String) :
    ((readParams σ params).server = "" ∧
      newNFSVolume σ ρ name size params defaultOnDeletePolicy
        = .error (requiredParameter .server)) ∨
    (readParams σ params).server ≠ "" ∧
      ((∃ err, validateOnDeleteValue (readParams σ params).onDelete = .error err ∧
        newNFSVolume σ ρ name size params defaultOnDeletePolicy = .error err) ∨
      ∃ vol, newNFSVolume σ ρ name size params defaultOnDeletePolicy = .ok vol) := by
  by_cases hserver : (readParams σ params).server = ""
  · exact Or.inl ⟨hserver, if_pos hserver⟩
  · refine Or.inr ⟨hserver, ?_⟩
    cases hvalid : validateOnDeleteValue (readParams σ params).onDelete with
    | error err => exact Or.inl ⟨err, rfl, by simp only [newNFSVolume, if_neg hserver, hvalid]⟩
    | ok u =>
        cases u
        exact Or.inr ⟨_, by simp only [newNFSVolume, if_neg hserver, hvalid]; rfl⟩

/-! ## Values that do not depend on the order -/

/-- All keys for one parameter have the same value. -/
def Agree (params : StringMap) (key : ParamKey) : Prop :=
  ∀ e ∈ params.entries, ∀ f ∈ params.entries, paramKey e.1 = some key → paramKey f.1 = some key →
    e.2 = f.2

/-- The value of a parameter, when its keys agree. -/
def paramValue (params : StringMap) (key : ParamKey) : Option String :=
  (valuesOf paramKey key params.entries).getLast?

theorem Agree.values {key : ParamKey} (h : Agree params key) :
    ∀ v ∈ valuesOf paramKey key params.entries, ∀ v' ∈ valuesOf paramKey key params.entries,
      v = v' := by
  intro v hv v' hv'
  obtain ⟨e, he, hek, rfl⟩ := mem_valuesOf.mp hv
  obtain ⟨f, hf, hfk, rfl⟩ := mem_valuesOf.mp hv'
  exact h e he f hf hek hfk

theorem Agree.getLast?_eq {key : ParamKey} (h : Agree params key) (σ : MapOrder) :
    (valuesOf paramKey key (σ.range params)).getLast? = paramValue params key :=
  (getLast?_valuesOf_perm (σ.perm _).symm h.values).symm

/-- A value that is met last is a value of the parameters. -/
theorem exists_entry_of_getLast? {key : ParamKey} {v : String}
    (h : (valuesOf paramKey key (σ.range params)).getLast? = some v) :
    ∃ e ∈ params.entries, paramKey e.1 = some key ∧ e.2 = v := by
  obtain ⟨e, he, hek, hev⟩ := mem_valuesOf.mp (List.mem_of_getLast? h)
  exact ⟨e, MapOrder.mem_range.mp he, hek, hev⟩

/-- Two values of `onDelete` with the same effect. -/
def SamePolicy (defaultOnDeletePolicy v w : String) : Prop :=
  v = w ∨ validateOnDeleteValue v = .ok () ∧ validateOnDeleteValue w = .ok () ∧
    (if v ≠ "" then v else defaultOnDeletePolicy) = if w ≠ "" then w else defaultOnDeletePolicy

/-- Keys that are equal up to case agree about the server, the share and the policy. -/
structure SameValues (defaultOnDeletePolicy : String) (params : StringMap) : Prop where
  server : Agree params .server
  share : Agree params .share
  onDelete : ∀ e ∈ params.entries, ∀ f ∈ params.entries, paramKey e.1 = some .onDelete →
    paramKey f.1 = some .onDelete → SamePolicy defaultOnDeletePolicy e.2 f.2

theorem SameValues.samePolicy (h : SameValues defaultOnDeletePolicy params) (σ σ' : MapOrder) :
    SamePolicy defaultOnDeletePolicy (readParams σ params).onDelete
      (readParams σ' params).onDelete := by
  have hperm : (valuesOf paramKey .onDelete (σ.range params)).Perm
      (valuesOf paramKey .onDelete (σ'.range params)) :=
    valuesOf_perm ((σ.perm _).trans (σ'.perm _).symm)
  rw [readParams_onDelete, readParams_onDelete]
  cases hσ : (valuesOf paramKey .onDelete (σ.range params)).getLast? with
  | none =>
      rw [List.getLast?_eq_none_iff.mp hσ] at hperm
      rw [← hperm.nil_eq]
      exact Or.inl rfl
  | some v =>
      cases hσ' : (valuesOf paramKey .onDelete (σ'.range params)).getLast? with
      | none =>
          rw [List.getLast?_eq_none_iff.mp hσ'] at hperm
          rw [hperm.eq_nil] at hσ
          cases hσ
      | some v' =>
          obtain ⟨e, he, hek, rfl⟩ := exists_entry_of_getLast? hσ
          obtain ⟨f, hf, hfk, rfl⟩ := exists_entry_of_getLast? hσ'
          exact h.onDelete e he f hf hek hfk

/-! ## Subdirectories that do not depend on the order -/

/-- The subdirectory is made of literals without dollar signs and of placeholders, and for each of
these placeholders there is one value, without dollar signs, or none. -/
def PlainTemplate (params : StringMap) : Prop :=
  ∀ e ∈ params.entries, paramKey e.1 = some .subDir → ∃ ps : List (Piece Placeholder),
    Unmarked placeholders ps ∧ e.2 = render placeholders ps ∧
      ∀ k, Piece.var k ∈ ps → Agree params k.param ∧
        ∀ f ∈ params.entries, paramKey f.1 = some k.param → '$' ∉ f.2.toList

/-- One placeholder at most has to be replaced: the others that are given a value occur neither in
the subdirectory nor in what the replacement of that one makes of it. So it is, in particular, when
only one is given a value, and when none occurs. -/
def OneFound (params : StringMap) : Prop :=
  ∃ k : Placeholder, ∀ e ∈ params.entries, paramKey e.1 = some .subDir →
    (Agree params k.param ∨ contains e.2 k.text = false) ∧
    ∀ f ∈ params.entries, ∀ k' ≠ k, paramKey f.1 = some k'.param →
      contains e.2 k'.text = false ∧
      ∀ g ∈ params.entries, paramKey g.1 = some k.param →
        contains (replaceAll e.2 k.text g.2) k'.text = false

theorem volumeSubDir_eq_of_plainTemplate (hagree : Agree params .subDir)
    (hplain : PlainTemplate params) (σ ρ σ' ρ' : MapOrder) (name : String) :
    (readParams σ params).volumeSubDir ρ name = (readParams σ' params).volumeSubDir ρ' name := by
  unfold VolumeParams.volumeSubDir
  rw [readParams_subDir, readParams_subDir, hagree.getLast?_eq σ, hagree.getLast?_eq σ']
  cases hs : paramValue params .subDir with
  | none => rfl
  | some s =>
      obtain ⟨e, he, hkey, rfl⟩ := mem_valuesOf.mp (List.mem_of_getLast? hs)
      obtain ⟨ps, hps, htext, hvalues⟩ := hplain e he hkey
      have hgiven : ∀ k, Piece.var k ∈ ps →
          givenValue (σ.range params) k = givenValue (σ'.range params) k := by
        intro k hk
        have hk := (hvalues k hk).1
        exact (hk.getLast?_eq σ).trans (hk.getLast?_eq σ').symm
      -- for any two orders this is the substitution at once
      have hresolved : ∀ τ π : MapOrder,
          replaceWithMap e.2 (π.range (readParams τ params).subDirReplaceMap) =
            fill placeholders (givenValue (τ.range params)) ps := by
        intro τ π
        rw [htext]
        refine replaceWithMap_render (replacementsOf_readParams τ params) π hps ?_
        intro k v hk hv
        obtain ⟨f, hf, hfk, rfl⟩ := exists_entry_of_getLast? hv
        exact (hvalues k hk).2 f hf hfk
      simp only [Option.elim_some, id_eq, hresolved, fill_congr hgiven]

/-- Replacements that find nothing leave the text as it is. -/
theorem replaceWithMap_eq_self {s : String} {es : List (String × String)}
    (h : ∀ e ∈ es, replaceAll s e.1 e.2 = s) : replaceWithMap s es = s := by
  induction es with
  | nil => rfl
  | cons e es ih =>
      obtain ⟨he, hes⟩ := List.forall_mem_cons.mp h
      rw [replaceWithMap, List.foldl_cons, he, ite_self]
      exact ih hes

/-- Only one of the replacements finds something, and after it the others do not either. -/
theorem replaceWithMap_eq_of_one {s key : String} (hkey : key ≠ "") {es : List (String × String)}
    (hnodup : (es.map Prod.fst).Nodup)
    (hothers : ∀ e ∈ es, e.1 ≠ key → replaceAll s e.1 e.2 = s ∧
      ∀ f ∈ es, f.1 = key → replaceAll (replaceAll s key f.2) e.1 e.2 = replaceAll s key f.2) :
    replaceWithMap s es = (es.lookup key).elim s (replaceAll s key) := by
  induction es with
  | nil => rfl
  | cons e es ih =>
      obtain ⟨hnot, hnodup⟩ := List.nodup_cons.mp hnodup
      rw [replaceWithMap, List.foldl_cons, StringMap.lookup_cons_eq_ite]
      by_cases he : key = e.1
      · rw [if_pos he, if_pos (he ▸ hkey), ← he]
        refine replaceWithMap_eq_self (fun f hf => ?_)
        have hfkey : f.1 ≠ key := fun h => hnot (List.mem_map.mpr ⟨f, hf, h.trans he⟩)
        exact (hothers f (List.mem_cons_of_mem e hf) hfkey).2 e List.mem_cons_self he.symm
      · rw [if_neg he]
        rw [(hothers e List.mem_cons_self (Ne.symm he)).1, ite_self]
        refine ih hnodup (fun f hf hfkey => ?_)
        obtain ⟨hs, hafter⟩ := hothers f (List.mem_cons_of_mem e hf) hfkey
        exact ⟨hs, fun g hg => hafter g (List.mem_cons_of_mem e hg)⟩

theorem volumeSubDir_eq_of_oneFound (hagree : Agree params .subDir) (hone : OneFound params)
    (σ ρ σ' ρ' : MapOrder) (name : String) :
    (readParams σ params).volumeSubDir ρ name = (readParams σ' params).volumeSubDir ρ' name := by
  obtain ⟨k, hone⟩ := hone
  unfold VolumeParams.volumeSubDir
  rw [readParams_subDir, readParams_subDir, hagree.getLast?_eq σ, hagree.getLast?_eq σ']
  cases hs : paramValue params .subDir with
  | none => rfl
  | some s =>
      obtain ⟨e, he, hkey, rfl⟩ := mem_valuesOf.mp (List.mem_of_getLast? hs)
      obtain ⟨hvalue, hothers⟩ := hone e he hkey
      -- in any two orders only the value of `k` is put in, if there is one
      have hresolved : ∀ τ π : MapOrder,
          replaceWithMap e.2 (π.range (readParams τ params).subDirReplaceMap) =
            (givenValue (τ.range params) k).elim e.2 (replaceAll e.2 k.text) := by
        intro τ π
        have hm := replacementsOf_readParams τ params
        have hgiven : ∀ f ∈ π.range (readParams τ params).subDirReplaceMap, ∀ k' : Placeholder,
            f.1 = k'.text → ∃ g ∈ params.entries, paramKey g.1 = some k'.param ∧ g.2 = f.2 := by
          intro f hf k' hfk
          refine exists_entry_of_getLast? (σ := τ) ((hm.get? k').symm.trans ?_)
          exact StringMap.get?_eq_some_iff.mpr (hfk ▸ MapOrder.mem_range.mp hf)
        rw [← hm.get? k, ← StringMap.lookup_range π]
        refine replaceWithMap_eq_of_one (by cases k <;> decide) (π.nodup_range _) ?_
        intro f hf hfk
        obtain ⟨k', hfk'⟩ := hm.keys f (MapOrder.mem_range.mp hf)
        obtain ⟨g, hg, hgk, -⟩ := hgiven f hf k' hfk'
        obtain ⟨hbefore, hafter⟩ := hothers g hg k' (fun h => hfk (h ▸ hfk')) hgk
        rw [hfk']
        refine ⟨replaceAll_of_not_contains hbefore, fun f₁ hf₁ hf₁k => ?_⟩
        obtain ⟨g₁, hg₁, hg₁k, hg₁v⟩ := hgiven f₁ hf₁ k hf₁k
        exact replaceAll_of_not_contains (hg₁v ▸ hafter g₁ hg₁ hg₁k)
      have hsame : (givenValue (σ.range params) k).elim e.2 (replaceAll e.2 k.text) =
          (givenValue (σ'.range params) k).elim e.2 (replaceAll e.2 k.text) := by
        rcases hvalue with hvalue | hnot
        · rw [givenValue, givenValue, hvalue.getLast?_eq σ, hvalue.getLast?_eq σ']
        · have hself : ∀ o : Option String, o.elim e.2 (replaceAll e.2 k.text) = e.2 := by
            intro o
            cases o with
            | none => rfl
            | some v => exact replaceAll_of_not_contains hnot
          rw [hself, hself]
      simp only [Option.elim_some, id_eq, hresolved, hsame]

/-- The subdirectory and the UUID of the volume are the same in every order. -/
def SameSubDir (name : String) (params : StringMap) : Prop :=
  ∀ σ ρ σ' ρ',
    (readParams σ params).volumeSubDir ρ name = (readParams σ' params).volumeSubDir ρ' name ∧
    (readParams σ params).volumeUUID name = (readParams σ' params).volumeUUID name

theorem sameSubDir_of_settled (hagree : Agree params .subDir)
    (hsettled : PlainTemplate params ∨ OneFound params) : SameSubDir name params := by
  intro σ ρ σ' ρ'
  constructor
  · rcases hsettled with hplain | hone
    · exact volumeSubDir_eq_of_plainTemplate hagree hplain σ ρ σ' ρ' name
    · exact volumeSubDir_eq_of_oneFound hagree hone σ ρ σ' ρ' name
  · rw [VolumeParams.volumeUUID, VolumeParams.volumeUUID, readParams_subDir, readParams_subDir,
      hagree.getLast?_eq σ, hagree.getLast?_eq σ']

/-- Every order gives one result. -/
def SameInAllOrders (name : String) (size : ℤ) (params : StringMap)
    (defaultOnDeletePolicy : String) :
    Prop :=
  ∀ σ ρ σ' ρ', newNFSVolume σ ρ name size params defaultOnDeletePolicy =
    newNFSVolume σ' ρ' name size params defaultOnDeletePolicy

theorem sameInAllOrders_of_sameValues (hvalues : SameValues defaultOnDeletePolicy params)
    (hsub : SameSubDir name params) : SameInAllOrders name size params defaultOnDeletePolicy := by
  intro σ ρ σ' ρ'
  have hpolicy := hvalues.samePolicy σ σ'
  refine newNFSVolume_congr ?_ ?_ ?_ ?_ (hsub σ ρ σ' ρ').1 (hsub σ ρ σ' ρ').2
  · rw [readParams_server, readParams_server, hvalues.server.getLast?_eq σ,
      hvalues.server.getLast?_eq σ']
  · rw [readParams_baseDir, readParams_baseDir, hvalues.share.getLast?_eq σ,
      hvalues.share.getLast?_eq σ']
  · rcases hpolicy with heq | ⟨hσ, hσ', -⟩
    · rw [heq]
    · rw [hσ, hσ']
  · rcases hpolicy with heq | ⟨-, -, heq⟩
    · rw [VolumeParams.volumeOnDelete, VolumeParams.volumeOnDelete, heq]
    · exact heq

/-! ## Parameters that every order refuses -/

/-- There is no server, whichever key counts. -/
def NoServer (params : StringMap) : Prop :=
  ∀ e ∈ params.entries, paramKey e.1 = some .server → e.2 = ""

/-- There is a server, whichever key counts. -/
def HasServer (params : StringMap) : Prop :=
  (∃ e ∈ params.entries, paramKey e.1 = some .server) ∧
    ∀ e ∈ params.entries, paramKey e.1 = some .server → e.2 ≠ ""

/-- There is one value for `onDelete`, and it is not supported. -/
def UnsupportedPolicy (params : StringMap) : Prop :=
  ∃ v err, validateOnDeleteValue v = .error err ∧
    (∃ e ∈ params.entries, paramKey e.1 = some .onDelete) ∧
    ∀ e ∈ params.entries, paramKey e.1 = some .onDelete → e.2 = v

/-- The value of a parameter is that of one of its keys, or empty when there is none. -/
theorem value_cases (σ : MapOrder) (params : StringMap) (key : ParamKey) :
    (∃ e ∈ params.entries, paramKey e.1 = some key ∧
      (valuesOf paramKey key (σ.range params)).getLast?.elim "" id = e.2) ∨
    (∀ e ∈ params.entries, paramKey e.1 ≠ some key) ∧
      (valuesOf paramKey key (σ.range params)).getLast?.elim "" id = "" := by
  cases hlast : (valuesOf paramKey key (σ.range params)).getLast? with
  | some v =>
      obtain ⟨e, he, hek, rfl⟩ := exists_entry_of_getLast? hlast
      exact Or.inl ⟨e, he, hek, rfl⟩
  | none =>
      refine Or.inr ⟨fun e he hek => ?_, rfl⟩
      have hmem : e.2 ∈ valuesOf paramKey key (σ.range params) :=
        mem_valuesOf.mpr ⟨e, MapOrder.mem_range.mpr he, hek, rfl⟩
      rw [List.getLast?_eq_none_iff.mp hlast] at hmem
      cases hmem

theorem NoServer.server_eq (h : NoServer params) (σ : MapOrder) :
    (readParams σ params).server = "" := by
  rw [readParams_server]
  rcases value_cases σ params .server with ⟨e, he, hek, heq⟩ | ⟨-, heq⟩
  · rw [heq, h e he hek]
  · exact heq

theorem HasServer.server_ne (h : HasServer params) (σ : MapOrder) :
    (readParams σ params).server ≠ "" := by
  obtain ⟨⟨e, he, hek⟩, hne⟩ := h
  rw [readParams_server]
  rcases value_cases σ params .server with ⟨f, hf, hfk, heq⟩ | ⟨hnone, -⟩
  · rw [heq]
    exact hne f hf hfk
  · exact absurd hek (hnone e he)

theorem sameInAllOrders_of_noServer (h : NoServer params) :
    SameInAllOrders name size params defaultOnDeletePolicy := by
  intro σ ρ σ' ρ'
  simp only [newNFSVolume, h.server_eq σ, h.server_eq σ', if_pos]

theorem sameInAllOrders_of_unsupportedPolicy (hserver : HasServer params)
    (hpolicy : UnsupportedPolicy params) :
    SameInAllOrders name size params defaultOnDeletePolicy := by
  obtain ⟨v, err, hv, ⟨e, he, hek⟩, hall⟩ := hpolicy
  have hread : ∀ τ, (readParams τ params).onDelete = v := by
    intro τ
    rw [readParams_onDelete]
    rcases value_cases τ params .onDelete with ⟨f, hf, hfk, heq⟩ | ⟨hnone, -⟩
    · rw [heq, hall f hf hfk]
    · exact absurd hek (hnone e he)
  intro σ ρ σ' ρ'
  simp only [newNFSVolume, if_neg (hserver.server_ne σ), if_neg (hserver.server_ne σ'), hread, hv]

/-- The error tells the value. -/
theorem validateOnDeleteValue_error {v err : String} (h : validateOnDeleteValue v = .error err) :
    err = "invalid value " ++ v ++ " for OnDelete, supported values are [" ++
      join ' ' supportedOnDeleteValues ++ "]" := by
  unfold validateOnDeleteValue at h
  split at h
  · cases h
  · exact (Except.error.inj h).symm

theorem validateOnDeleteValue_error_inj {v v' err : String}
    (h : validateOnDeleteValue v = .error err) (h' : validateOnDeleteValue v' = .error err) :
    v = v' := by
  have heq := (validateOnDeleteValue_error h).symm.trans (validateOnDeleteValue_error h')
  simpa [← String.toList_inj] using heq

/-- It is not the error for a missing server. -/
theorem validateOnDeleteValue_ne_required (v : String) :
    validateOnDeleteValue v ≠ .error (requiredParameter .server) := by
  intro h
  have hhead := congrArg (fun s => s.toList.head?) (validateOnDeleteValue_error h)
  simp [requiredParameter, ParamKey.text] at hhead

/-! ## What follows when all orders give one volume -/

/-- Some order of the loop meets a given entry last. -/
theorem exists_last {key : ParamKey} {e : String × String} (he : e ∈ params.entries)
    (hkey : paramKey e.1 = some key) :
    ∃ τ : MapOrder, (valuesOf paramKey key (τ.range params)).getLast? = some e.2 := by
  obtain ⟨τ, hτ⟩ := MapOrder.asWritten.exists_range_last he
  refine ⟨τ, ?_⟩
  rw [hτ, valuesOf_append, valuesOf_cons, if_pos hkey]
  exact List.getLast?_concat

theorem readParams_onDelete_of_last {τ : MapOrder} {v : String}
    (hlast : (valuesOf paramKey .onDelete (τ.range params)).getLast? = some v) :
    (readParams τ params).onDelete = v := by
  rw [readParams_onDelete, hlast]
  rfl

/-- Subdirectories without dollar signs. -/
def PlainSubDir (params : StringMap) : Prop :=
  ∀ e ∈ params.entries, paramKey e.1 = some .subDir → '$' ∉ e.2.toList

theorem PlainSubDir.plainTemplate (h : PlainSubDir params) : PlainTemplate params := by
  intro e he hkey
  refine ⟨[.lit e.2], unmarked_lit (h e he hkey), (render_lit e.2).symm, ?_⟩
  intro k hk
  exact absurd hk (by simp)

/-- The subdirectory and the UUID tell the values without dollar signs apart: an empty value makes
the name the subdirectory, and any other one makes it the UUID. -/
theorem SameSubDir.agree_subDir (hsame : SameSubDir name params) (hplain : PlainSubDir params) :
    Agree params .subDir := by
  have hread : ∀ e ∈ params.entries, paramKey e.1 = some .subDir → ∃ τ,
      (readParams τ params).volumeSubDir .asWritten name = (if e.2 = "" then name else e.2) ∧
      (readParams τ params).volumeUUID name = if e.2 = "" then "" else name := by
    intro e he hek
    obtain ⟨τ, hτ⟩ := exists_last he hek
    have hread : (readParams τ params).subDir = e.2 := by rw [readParams_subDir, hτ]; rfl
    refine ⟨τ, ?_, ?_⟩
    · rw [VolumeParams.volumeSubDir, hread,
        replaceWithMap_of_plain (replacementsOf_readParams τ params) _ (hplain e he hek)]
    · rw [VolumeParams.volumeUUID, hread]
  intro e he f hf hek hfk
  obtain ⟨τ, hesub, heuuid⟩ := hread e he hek
  obtain ⟨π, hfsub, hfuuid⟩ := hread f hf hfk
  have hsub := hesub.symm.trans ((hsame τ .asWritten π .asWritten).1.trans hfsub)
  have huuid := heuuid.symm.trans ((hsame τ .asWritten π .asWritten).2.trans hfuuid)
  by_cases hempty : e.2 = "" <;> by_cases hempty' : f.2 = ""
  · rw [hempty, hempty']
  · rw [if_pos hempty, if_neg hempty'] at hsub huuid
    exact absurd (hsub.symm.trans huuid.symm) hempty'
  · rw [if_neg hempty, if_pos hempty'] at hsub huuid
    exact absurd (hsub.trans huuid) hempty
  · rwa [if_neg hempty, if_neg hempty'] at hsub

section

variable {vol : NfsVolume}

/-- The volume is the one of an order that meets the entry last. -/
theorem SameInAllOrders.madeFrom (hsame : SameInAllOrders name size params defaultOnDeletePolicy)
    (hok : newNFSVolume σ ρ name size params defaultOnDeletePolicy = .ok vol) {key : ParamKey}
    {e : String × String} (he : e ∈ params.entries) (hkey : paramKey e.1 = some key) :
    ∃ τ, (valuesOf paramKey key (τ.range params)).getLast? = some e.2 ∧
      vol.MadeFrom (readParams τ params) .asWritten name defaultOnDeletePolicy := by
  obtain ⟨τ, hτ⟩ := exists_last he hkey
  exact ⟨τ, hτ, newNFSVolume_ok ((hsame τ .asWritten σ ρ).trans hok)⟩

/-- Keys agree about a parameter that the volume takes over as it is. -/
theorem SameInAllOrders.agree_of_field
    (hsame : SameInAllOrders name size params defaultOnDeletePolicy)
    (hok : newNFSVolume σ ρ name size params defaultOnDeletePolicy = .ok vol) {key : ParamKey}
    {field : String}
    (hfield : ∀ τ, vol.MadeFrom (readParams τ params) .asWritten name defaultOnDeletePolicy →
      field = (valuesOf paramKey key (τ.range params)).getLast?.elim "" id) : Agree params key := by
  intro e he f hf hek hfk
  obtain ⟨τ, hτ, hτvol⟩ := hsame.madeFrom hok he hek
  obtain ⟨π, hπ, hπvol⟩ := hsame.madeFrom hok hf hfk
  have heq := (hfield τ hτvol).symm.trans (hfield π hπvol)
  rwa [hτ, hπ] at heq

theorem SameInAllOrders.sameValues (hsame : SameInAllOrders name size params defaultOnDeletePolicy)
    (hok : newNFSVolume σ ρ name size params defaultOnDeletePolicy = .ok vol) :
    SameValues defaultOnDeletePolicy params := by
  constructor
  · exact hsame.agree_of_field hok fun τ hvol => hvol.server.trans (readParams_server τ params)
  · exact hsame.agree_of_field hok fun τ hvol => hvol.baseDir.trans (readParams_baseDir τ params)
  · intro e he f hf hek hfk
    obtain ⟨τ, hτ, hτvol⟩ := hsame.madeFrom hok he hek
    obtain ⟨π, hπ, hπvol⟩ := hsame.madeFrom hok hf hfk
    have hτe := readParams_onDelete_of_last hτ
    have hπf := readParams_onDelete_of_last hπ
    have heq := hτvol.onDelete.symm.trans hπvol.onDelete
    rw [VolumeParams.volumeOnDelete, VolumeParams.volumeOnDelete, hτe, hπf] at heq
    exact Or.inr ⟨hτe ▸ hτvol.supported, hπf ▸ hπvol.supported, heq⟩

end

/-- The UUID and the subdirectory are those of the one volume. -/
theorem SameInAllOrders.sameSubDir {vol : NfsVolume}
    (hsame : SameInAllOrders name size params defaultOnDeletePolicy)
    (hok : newNFSVolume σ ρ name size params defaultOnDeletePolicy = .ok vol) :
    SameSubDir name params := by
  intro σ₁ ρ₁ σ₂ ρ₂
  have hmade₁ := newNFSVolume_ok ((hsame σ₁ ρ₁ σ ρ).trans hok)
  have hmade₂ := newNFSVolume_ok ((hsame σ₂ ρ₂ σ ρ).trans hok)
  exact ⟨hmade₁.subDir.symm.trans hmade₂.subDir, hmade₁.uuid.symm.trans hmade₂.uuid⟩

/-- When one order refuses the policy, all do, and for the same value. -/
theorem SameInAllOrders.unsupportedPolicy {err : String}
    (hsame : SameInAllOrders name size params defaultOnDeletePolicy)
    (hserver : (readParams σ params).server ≠ "")
    (hrefused : validateOnDeleteValue (readParams σ params).onDelete = .error err)
    (herr : newNFSVolume σ ρ name size params defaultOnDeletePolicy = .error err) :
    HasServer params ∧ UnsupportedPolicy params := by
  have hall : ∀ τ, (readParams τ params).server ≠ "" ∧
      validateOnDeleteValue (readParams τ params).onDelete = .error err := by
    intro τ
    have hτ := (hsame τ ρ σ ρ).trans herr
    rcases newNFSVolume_cases τ ρ name size params defaultOnDeletePolicy with
      ⟨-, hmissing⟩ | ⟨hne, ⟨err', hbad, herr'⟩ | ⟨vol, hok⟩⟩
    · have heq : requiredParameter .server = err := Except.error.inj (hmissing.symm.trans hτ)
      exact absurd (heq ▸ hrefused) (validateOnDeleteValue_ne_required _)
    · obtain rfl := Except.error.inj (herr'.symm.trans hτ)
      exact ⟨hne, hbad⟩
    · cases hok.symm.trans hτ
  constructor
  · constructor
    · rw [readParams_server] at hserver
      rcases value_cases σ params .server with ⟨e, he, hek, -⟩ | ⟨-, heq⟩
      · exact ⟨e, he, hek⟩
      · exact absurd heq hserver
    · intro e he hek hempty
      obtain ⟨τ, hτ⟩ := exists_last he hek
      refine (hall τ).1 ?_
      rw [readParams_server, hτ]
      exact hempty
  · refine ⟨_, err, hrefused, ?_, ?_⟩
    · rw [readParams_onDelete] at hrefused
      rcases value_cases σ params .onDelete with ⟨e, he, hek, -⟩ | ⟨-, heq⟩
      · exact ⟨e, he, hek⟩
      · rw [heq] at hrefused
        cases hrefused
    · intro e he hek
      obtain ⟨τ, hτ⟩ := exists_last he hek
      have hvalue := readParams_onDelete_of_last hτ
      exact validateOnDeleteValue_error_inj (hvalue ▸ (hall τ).2) hrefused

/-- **When all orders give one result**: they all miss the server, they all refuse the same policy,
or they make the same volume. -/
theorem sameInAllOrders_iff : SameInAllOrders name size params defaultOnDeletePolicy ↔
    NoServer params ∨ (HasServer params ∧ UnsupportedPolicy params) ∨
      (SameValues defaultOnDeletePolicy params ∧ SameSubDir name params) := by
  constructor
  · intro hsame
    by_cases hno : NoServer params
    · exact Or.inl hno
    -- an order in which the server of a key that has one counts
    obtain ⟨e, he, hek, hne⟩ : ∃ e ∈ params.entries, paramKey e.1 = some .server ∧ e.2 ≠ "" := by
      simpa [NoServer] using hno
    obtain ⟨τ, hτ⟩ := exists_last he hek
    have hserver : (readParams τ params).server = e.2 := by rw [readParams_server, hτ]; rfl
    refine Or.inr ?_
    rcases newNFSVolume_cases τ .asWritten name size params defaultOnDeletePolicy with
      ⟨hempty, -⟩ | ⟨hserver', ⟨err, hbad, herr⟩ | ⟨vol, hok⟩⟩
    · exact absurd (hserver.symm.trans hempty) hne
    · exact Or.inl (hsame.unsupportedPolicy hserver' hbad herr)
    · exact Or.inr ⟨hsame.sameValues hok, hsame.sameSubDir hok⟩
  · rintro (hno | ⟨hserver, hpolicy⟩ | ⟨hvalues, hsub⟩)
    · exact sameInAllOrders_of_noServer hno
    · exact sameInAllOrders_of_unsupportedPolicy hserver hpolicy
    · exact sameInAllOrders_of_sameValues hvalues hsub

end

/-- Two keys for the subdirectory, which differ in case. -/
def caseVariants : StringMap :=
  ⟨[("server", "nfs"), ("share", "/export"), ("subDir", "a"), ("SUBDIR", "b")], by decide⟩

/-- The name of the claim is the text of a placeholder. -/
def nestedPlaceholder : StringMap :=
  ⟨[("server", "nfs"), ("share", "/export"), ("subDir", pvcNameMetadata),
    ("csi.storage.k8s.io/pvc/name", pvNameMetadata), ("csi.storage.k8s.io/pv/name", "pv-1")],
    by decide⟩

end NfsLbCsi
