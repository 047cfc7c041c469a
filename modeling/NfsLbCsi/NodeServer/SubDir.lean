import NfsLbCsi.ControllerServer.Provisioning
import NfsLbCsi.NodeServer.MountSource

set_option autoImplicit false

/-! # The subdirectory of a volume, at creation and at publication

`CreateVolume` resolves the subdirectory and writes the result into the volume context, in place of
the parameter; `NodePublishVolume` reads it from there and resolves it once more. For templates
without stray dollar signs the second substitution changes nothing.

The two handlers look for the key in different ways: the readers compare the key in lower case,
while `setKeyValueInMap` uses `EqualFold`. A key with the dotted capital I is the parameter `subDir`
for the readers and not for the writer, which then adds a second key. If the old value is empty, the
order of the loop decides which of the two is mounted (`create_and_publish_agree_iff`).
-/

namespace NfsLbCsi

open GoString Template

/-! ## Parameters that are accepted -/

section

variable {params : StringMap} {σ : MapOrder} {e f : String × String}

theorem validateParameters_ok {es : List (String × String)} {perms perms' : ℕ}
    (h : validateParameters es perms = .ok perms') :
    ∀ e ∈ es, paramKey e.1 ≠ none ∧ AcceptableEntry e := by
  induction es generalizing perms with
  | nil => exact fun e he => absurd he List.not_mem_nil
  | cons e es ih =>
      unfold validateParameters at h
      refine List.forall_mem_cons.mpr ?_
      unfold AcceptableEntry
      cases hkey : paramKey e.1 with
      | none =>
          rw [hkey] at h
          cases h
      | some key =>
          rw [hkey] at h
          cases key with
          | mountOptions => cases h
          | mountPermissions =>
              simp only at h
              split at h
              · rename_i hempty
                exact ⟨⟨by simp, fun _ hne => absurd hempty hne⟩, ih h⟩
              · split at h
                · rename_i n hn
                  exact ⟨⟨by simp, fun _ _ => by simp [hn]⟩, ih h⟩
                · cases h
          | _ => exact ⟨⟨by simp, by simp⟩, ih h⟩

/-- The loop of `CreateVolume` accepts the parameters. -/
def Accepted (params : StringMap) : Prop :=
  ∃ σ perms perms', validateParameters (MapOrder.range σ params) perms = .ok perms'

theorem Accepted.entry (h : Accepted params) (he : e ∈ params.entries) :
    paramKey e.1 ≠ none ∧ AcceptableEntry e := by
  obtain ⟨σ, perms, perms', hok⟩ := h
  exact validateParameters_ok hok e (MapOrder.mem_range.mpr he)

/-- Keys stay different in lower case. -/
def DistinctKeys (params : StringMap) : Prop := (params.entries.map (fun e => toLower e.1)).Nodup

instance (params : StringMap) : Decidable (DistinctKeys params) :=
  inferInstanceAs (Decidable (List.Nodup _))

theorem DistinctKeys.eq (h : DistinctKeys params) {key : ParamKey} (he : e ∈ params.entries)
    (hf : f ∈ params.entries) (hek : paramKey e.1 = some key) (hfk : paramKey f.1 = some key) :
    e = f := by
  refine List.inj_on_of_nodup_map h he hf ?_
  rw [paramKey_eq_some_iff.mp hek, paramKey_eq_some_iff.mp hfk]

theorem DistinctKeys.agree (h : DistinctKeys params) (key : ParamKey) : Agree params key :=
  fun _ he _ hf hek hfk => congrArg Prod.snd (h.eq he hf hek hfk)

theorem DistinctKeys.paramValue_eq (h : DistinctKeys params) {key : ParamKey}
    (he : e ∈ params.entries) (hek : paramKey e.1 = some key) : paramValue params key = some e.2 :=
  (getLast?_valuesOf_eq_some_iff (h.agree key).values).mpr (mem_valuesOf.mpr ⟨e, he, hek, rfl⟩)

end

/-! ## Resolving a template -/

/-- A name and parameters whose subdirectory is the template `ps`. -/
structure Resolvable (name : String) (params : StringMap) (ps : List (Piece Placeholder)) :
    Prop where
  name_plain : '$' ∉ name.toList
  accepted : Accepted params
  distinct : DistinctKeys params
  plain : Unmarked placeholders ps
  template : (paramValue params .subDir).getD "" = render placeholders ps
  values_plain : ∀ (k : Placeholder) (v : String), paramValue params k.param = some v →
    '$' ∉ v.toList

/-- The subdirectory: the name when none is given, and else the template with all placeholders
replaced at once. -/
def resolve (name : String) (params : StringMap) (ps : List (Piece Placeholder)) : String :=
  if (paramValue params .subDir).getD "" = "" then name
  else fill placeholders (fun k => paramValue params k.param) ps

section

variable {d : Driver} {σ ρ τ : MapOrder} {name defaultOnDeletePolicy : String} {size : ℤ}
  {params : StringMap} {ps : List (Piece Placeholder)} {vol : NfsVolume} {volCap : VolumeCapability}
  {req : NodePublishVolumeRequest} {p : PublishParams}

theorem Resolvable.givenValue_eq (h : Resolvable name params ps) (σ : MapOrder) :
    givenValue (σ.range params) = fun k => paramValue params k.param :=
  funext fun k => (h.distinct.agree k.param).getLast?_eq σ

/-- **At creation**, one replacement after the other is the substitution at once. -/
theorem Resolvable.subDir_eq (h : Resolvable name params ps)
    (hok : newNFSVolume σ ρ name size params defaultOnDeletePolicy = .ok vol) :
    vol.subDir = resolve name params ps := by
  have hsub : (readParams σ params).subDir = (paramValue params .subDir).getD "" := by
    rw [readParams_subDir, (h.distinct.agree .subDir).getLast?_eq σ]
    cases paramValue params .subDir <;> rfl
  rw [(newNFSVolume_ok hok).subDir, VolumeParams.volumeSubDir, resolve, hsub]
  refine if_congr Iff.rfl rfl ?_
  rw [h.template, replaceWithMap_render (replacementsOf_readParams σ params) ρ h.plain,
    h.givenValue_eq σ]
  intro k v _ hv
  rw [h.givenValue_eq σ] at hv
  exact h.values_plain k v hv

/-- The resolved subdirectory is a template in which nothing is left to replace. -/
theorem Resolvable.resolve_render (h : Resolvable name params ps) :
    ∃ qs, Unmarked placeholders qs ∧ resolve name params ps = render placeholders qs ∧
      fill placeholders (fun k => paramValue params k.param) qs = resolve name params ps := by
  unfold resolve
  split
  · exact ⟨[.lit name], unmarked_lit h.name_plain, (render_lit name).symm, fill_lit _ name⟩
  · exact ⟨ps.map (Piece.fill _), unmarked_map_fill h.plain h.values_plain, rfl, fill_map_fill _⟩

/-! ## The volume context -/

/-- The key that `setKeyValueInMap` writes: a parameter that is equal to `subDir` up to case, or a
new one when there is none. -/
theorem exists_written_key (haccepted : Accepted params) (τ : MapOrder) (v : String) :
    ∃ k, setKeyValueInMap τ params ParamKey.subDir.text v = params.set k v ∧
      paramKey k = some .subDir ∧ equalFold k ParamKey.subDir.text = true ∧
      ((∃ e ∈ params.entries, e.1 = k) ∨
        ∀ e ∈ params.entries, equalFold e.1 ParamKey.subDir.text ≠ true) := by
  unfold setKeyValueInMap
  cases hfind : (τ.range params).find? (fun e => equalFold e.1 ParamKey.subDir.text) with
  | none =>
      refine ⟨ParamKey.subDir.text, rfl, by decide, equalFold_refl _, Or.inr fun e he => ?_⟩
      exact List.find?_eq_none.mp hfind e (MapOrder.mem_range.mpr he)
  | some e =>
      have he := MapOrder.mem_range.mp (List.mem_of_find?_eq_some hfind)
      have hfold : equalFold e.1 ParamKey.subDir.text = true := by simpa using List.find?_some hfind
      exact ⟨e.1, rfl, paramKey_of_equalFold (haccepted.entry he).1 hfold, hfold,
        Or.inl ⟨e, he, rfl⟩⟩

/-- The values for the placeholders are those of the parameters. -/
theorem Resolvable.givenValue_context (h : Resolvable name params ps) {k v : String}
    (hk : paramKey k = some .subDir) (σ : MapOrder) :
    givenValue (σ.range (params.set k v)) = fun k => paramValue params k.param := by
  funext ph
  -- the key that was written is not one of the placeholders' parameters
  have hne : ph.param ≠ .subDir := by cases ph <;> decide
  have hsame : ∀ w, w ∈ valuesOf paramKey ph.param (σ.range (params.set k v)) ↔
      w ∈ valuesOf paramKey ph.param params.entries := by
    intro w
    simp only [mem_valuesOf, MapOrder.mem_range, StringMap.mem_set_iff]
    constructor
    · rintro ⟨e, rfl | ⟨he, -⟩, hek, hew⟩
      · exact absurd (Option.some.inj (hek.symm.trans hk)) hne
      · exact ⟨e, he, hek, hew⟩
    · rintro ⟨e, he, hek, hew⟩
      refine ⟨e, Or.inr ⟨he, ?_⟩, hek, hew⟩
      rintro rfl
      exact hne (Option.some.inj (hek.symm.trans hk))
  have hagree : ∀ w ∈ valuesOf paramKey ph.param (σ.range (params.set k v)),
      ∀ w' ∈ valuesOf paramKey ph.param (σ.range (params.set k v)), w = w' :=
    fun w hw w' hw' => (h.distinct.agree ph.param).values w ((hsame w).mp hw) w' ((hsame w').mp hw')
  refine Option.ext fun w => ?_
  rw [givenValue, paramValue, getLast?_valuesOf_eq_some_iff hagree,
    getLast?_valuesOf_eq_some_iff (h.distinct.agree ph.param).values, hsame]

/-- Resolving a template of the volume context gives what the placeholders of the parameters make of
it. -/
theorem Resolvable.resolvedSubDir_eq (h : Resolvable name params ps) {k v : String}
    (hk : paramKey k = some .subDir) (hctx : req.volumeContext = params.set k v)
    (hp : publishParams d σ volCap req = .ok p) {qs : List (Piece Placeholder)}
    (hqs : Unmarked placeholders qs) (hsub : p.subDir = render placeholders qs) (ρ : MapOrder) :
    p.resolvedSubDir ρ = fill placeholders (fun k => paramValue params k.param) qs := by
  have hgiven := h.givenValue_context (v := v) hk σ
  have hm := publishParams_replacements hp
  rw [hctx] at hm
  rw [PublishParams.resolvedSubDir, hsub, replaceWithMap_render hm ρ hqs, hgiven]
  intro ph w _ hw
  rw [hgiven] at hw
  exact h.values_plain ph w hw

/-- The subdirectory that is published, when the loop met the key that `CreateVolume` has
written. -/
theorem Resolvable.resolvedSubDir_of_written (h : Resolvable name params ps) {k : String}
    (hk : paramKey k = some .subDir)
    (hctx : req.volumeContext = params.set k (resolve name params ps))
    (hp : publishParams d σ volCap req = .ok p) (hsub : p.subDir = resolve name params ps)
    (ρ : MapOrder) : p.resolvedSubDir ρ = resolve name params ps := by
  obtain ⟨qs, hqs, hrender, hfill⟩ := h.resolve_render
  rw [h.resolvedSubDir_eq hk hctx hp hqs (hsub.trans hrender), hfill]

/-- An empty subdirectory stays empty. -/
theorem Resolvable.resolvedSubDir_of_empty (h : Resolvable name params ps) {k v : String}
    (hk : paramKey k = some .subDir) (hctx : req.volumeContext = params.set k v)
    (hp : publishParams d σ volCap req = .ok p) (hsub : p.subDir = "") (ρ : MapOrder) :
    p.resolvedSubDir ρ = "" := by
  have hnil : Unmarked placeholders [] := fun _ hs => absurd hs List.not_mem_nil
  exact h.resolvedSubDir_eq hk hctx hp hnil hsub ρ

/-- The entry that decides about the subdirectory: the one that `CreateVolume` has written, or one
that it has passed over. -/
theorem deciding_entry {k v : String} (hk : paramKey k = some .subDir)
    (hctx : req.volumeContext = params.set k v)
    (hp : publishParams d σ volCap req = .ok p) :
    p.subDir = v ∨ ∃ e ∈ params.entries, paramKey e.1 = some .subDir ∧ e.1 ≠ k ∧
      p.subDir = e.2 := by
  rw [publishParams_subDir hp, hctx]
  have hwritten : v ∈ valuesOf paramKey .subDir (σ.range (params.set k v)) := by
    refine mem_valuesOf.mpr ⟨(k, v), MapOrder.mem_range.mpr ?_, hk, rfl⟩
    exact StringMap.mem_set_iff.mpr (Or.inl rfl)
  cases hlast : (valuesOf paramKey .subDir (σ.range (params.set k v))).getLast? with
  | none => exact absurd (List.getLast?_eq_none_iff.mp hlast) (List.ne_nil_of_mem hwritten)
  | some w =>
      obtain ⟨e, he, hek, rfl⟩ := exists_entry_of_getLast? hlast
      rcases StringMap.mem_set_iff.mp he with rfl | ⟨he, hne⟩
      · exact Or.inl rfl
      · exact Or.inr ⟨e, he, hek, hne, rfl⟩

/-- The parameters hold an empty `subDir` under a key that `EqualFold` does not see. -/
def HiddenSubDir (params : StringMap) : Prop :=
  ∃ e ∈ params.entries, paramKey e.1 = some .subDir ∧ e.2 = "" ∧
    equalFold e.1 ParamKey.subDir.text ≠ true

theorem Resolvable.published_eq (h : Resolvable name params ps)
    (hseen : name = "" ∨ ¬HiddenSubDir params)
    (hctx : req.volumeContext =
      setKeyValueInMap τ params ParamKey.subDir.text (resolve name params ps))
    (hp : publishParams d σ volCap req = .ok p) (ρ : MapOrder) :
    p.resolvedSubDir ρ = resolve name params ps := by
  obtain ⟨k, hset, hk, hkfold, hor⟩ := exists_written_key h.accepted τ (resolve name params ps)
  rw [hset] at hctx
  rcases deciding_entry hk hctx hp with hsub | ⟨e, he, hek, hne, hsub⟩
  · exact h.resolvedSubDir_of_written hk hctx hp hsub ρ
  · -- `EqualFold` does not see the entry, so its value is not empty, or the name is
    have hunseen : equalFold e.1 ParamKey.subDir.text ≠ true := by
      rcases hor with ⟨f, hf, rfl⟩ | hnone
      · exact absurd (congrArg Prod.fst (h.distinct.eq he hf hek hk)) hne
      · exact hnone e he
    have hvalue := h.distinct.paramValue_eq he hek
    by_cases hempty : e.2 = ""
    · have hname : name = "" := hseen.resolve_right (fun hnot => hnot ⟨e, he, hek, hempty, hunseen⟩)
      rw [h.resolvedSubDir_of_empty hk hctx hp (hsub.trans hempty), resolve, hvalue,
        Option.getD_some, if_pos hempty, hname]
    · -- the loop has met the template itself, and resolves it as `CreateVolume` did
      have htemplate : p.subDir = render placeholders ps := by
        rw [hsub, ← h.template, hvalue, Option.getD_some]
      rw [h.resolvedSubDir_eq hk hctx hp h.plain htemplate, resolve, hvalue, Option.getD_some,
        if_neg hempty]

/-- The publication of a volume context. -/
def contextRequest (volumeContext : StringMap) : NodePublishVolumeRequest :=
  ⟨"v", ∅, "/t", none, false, volumeContext⟩

/-- An order of the loop that finds the empty value last publishes the whole share. -/
theorem Resolvable.exists_published_empty (h : Resolvable name params ps)
    (hhidden : HiddenSubDir params) (d : Driver) : resolve name params ps = name ∧ ∃ π volCap req p,
      req.volumeContext = setKeyValueInMap .asWritten params ParamKey.subDir.text name ∧
      publishParams d π volCap req = .ok p ∧ p.resolvedSubDir .asWritten = "" := by
  obtain ⟨e, he, hek, hempty, hfold⟩ := hhidden
  have hresolve : resolve name params ps = name := by
    rw [resolve, h.distinct.paramValue_eq he hek, Option.getD_some, if_pos hempty]
  obtain ⟨k, hset, hk, hkfold, -⟩ := exists_written_key h.accepted .asWritten name
  -- `CreateVolume` writes under another key, so both entries are in the context
  have hne : e.1 ≠ k := fun heq => hfold (heq ▸ hkfold)
  have hmem : e ∈ (params.set k name).entries := StringMap.mem_set_iff.mpr (Or.inr ⟨he, hne⟩)
  obtain ⟨π, hπ⟩ := exists_last hmem hek
  have hacceptable : ∀ f ∈ (params.set k name).entries, AcceptableEntry f := by
    intro f hf
    rcases StringMap.mem_set_iff.mp hf with rfl | ⟨hf, -⟩
    · intro hperm
      exact absurd (hperm.symm.trans hk) (by decide)
    · exact (h.accepted.entry hf).2
  obtain ⟨p, hp⟩ : ∃ p, publishParams d π ⟨none⟩ (contextRequest (params.set k name)) = .ok p :=
    publishParams_isOk_iff.mpr hacceptable
  have hsub : p.subDir = "" := by
    rw [publishParams_subDir hp, contextRequest, hπ, hempty]
    rfl
  exact ⟨hresolve, π, ⟨none⟩, contextRequest (params.set k name), p, hset.symm, hp,
    h.resolvedSubDir_of_empty hk rfl hp hsub .asWritten⟩

/-- **Creation and publication.** The subdirectory of a new volume is the substitution of all
placeholders at once. Every publication of the volume context that `CreateVolume` returns resolves
to the same subdirectory, unless the parameters hold an empty `subDir` under a key that `EqualFold`
does not see. -/
theorem create_and_publish_agree_iff (d : Driver) (σ ρ : MapOrder)
    (name defaultOnDeletePolicy : String)
    (size : ℤ) (params : StringMap) (ps : List (Piece Placeholder)) (vol : NfsVolume)
    (h : Resolvable name params ps)
    (hok : newNFSVolume σ ρ name size params defaultOnDeletePolicy = .ok vol) :
    (vol.subDir = resolve name params ps ∧
      ∀ τ σ' ρ' volCap req p,
        req.volumeContext = setKeyValueInMap τ params ParamKey.subDir.text vol.subDir →
        publishParams d σ' volCap req = .ok p → p.resolvedSubDir ρ' = vol.subDir) ↔
    (name = "" ∨ ¬HiddenSubDir params) := by
  have hvol := h.subDir_eq hok
  rw [hvol]
  constructor
  · rintro ⟨-, hagree⟩
    by_contra hnot
    obtain ⟨hname, hhidden⟩ := not_or.mp hnot
    obtain ⟨hresolve, π, volCap, req, p, hctx, hp, hempty⟩ :=
      h.exists_published_empty (not_not.mp hhidden) d
    rw [hresolve] at hagree
    have hpublished := hagree .asWritten π .asWritten volCap req p hctx hp
    rw [hempty] at hpublished
    exact hname hpublished.symm
  · intro hseen
    exact ⟨rfl, fun τ σ' ρ' volCap req p hctx hp => h.published_eq hseen hctx hp ρ'⟩

end

/-- Parameters with a template for the subdirectory. -/
def claimParams : StringMap :=
  ⟨[("server", "nfs"), ("share", "/export"), ("subDir", "$\x7bpvc.metadata.name\x7d/data"),
    ("csi.storage.k8s.io/pvc/name", "claim")], by decide⟩

theorem resolvable_claimParams :
    Resolvable "v" claimParams [.var .pvcName, .lit "/data"] where
  name_plain := by decide
  accepted := ⟨.asWritten, 0, 0, rfl⟩
  distinct := by decide
  plain := by
    intro s hs
    obtain rfl : s = "/data" := by simpa using hs
    decide
  template := by decide
  values_plain := by
    intro k v hv
    cases k with
    | pvcName =>
        obtain rfl : "claim" = v := Option.some.inj hv
        decide
    | pvcNamespace => cases hv
    | pvName => cases hv

theorem create_and_publish_agree_template : ∃ vol,
    newNFSVolume .asWritten .asWritten "v" 0 claimParams "" = .ok vol ∧ vol.subDir = "claim/data" ∧
    ∀ τ σ ρ volCap req p,
      req.volumeContext = setKeyValueInMap τ claimParams ParamKey.subDir.text vol.subDir →
      publishParams (nodeDriver 0) σ volCap req = .ok p → p.resolvedSubDir ρ = vol.subDir := by
  have hseen : ¬HiddenSubDir claimParams := by
    rintro ⟨e, he, hek, hempty, -⟩
    have hvalue := resolvable_claimParams.distinct.paramValue_eq he hek
    rw [hempty] at hvalue
    exact absurd hvalue (by decide)
  exact ⟨_, rfl, by decide, ((create_and_publish_agree_iff
    (nodeDriver 0) .asWritten .asWritten "v" "" 0
    claimParams _ _ resolvable_claimParams rfl).mpr (Or.inr hseen)).2⟩

/-- An empty `subDir` whose key is written with the dotted capital I. -/
def dottedParams : StringMap :=
  ⟨[("server", "nfs"), ("share", "/export"), ("subd\u0130r", "")], by decide⟩

/-- The volume is the directory `v`, and the whole share is published. -/
theorem dotted_subDir_is_lost : ∃ vol p, DistinctKeys dottedParams ∧
    validateParameters (MapOrder.asWritten.range dottedParams) 0 = .ok 0 ∧
    newNFSVolume .asWritten .asWritten "v" 0 dottedParams "" = .ok vol ∧ vol.subDir = "v" ∧
    publishParams (nodeDriver 0) .reversed ⟨none⟩
      (contextRequest (setKeyValueInMap .asWritten dottedParams ParamKey.subDir.text vol.subDir)) =
      .ok p ∧
    p.resolvedSubDir .asWritten = "" :=
  ⟨_, _, by decide, rfl, rfl, rfl, rfl, by decide⟩

end NfsLbCsi
