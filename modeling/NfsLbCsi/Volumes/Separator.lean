import NfsLbCsi.Volumes.RoundTrip

set_option autoImplicit false

/-! # The separator inside names and values

Nothing between `CreateVolume` and the ID rejects or escapes the separator `#`. A `#` in a value
shifts the segments after it, and decoding reads other values in their places: another server or
base directory, or another directory to remove. The one way for a volume to keep its directory in
spite of a `#` are elements `..` that take the cut parts back.
-/

namespace NfsLbCsi

open GoString GoPath

/-- The fields that decoding finds in the places of subdirectory and UUID: the first two pieces. -/
def cutVolume (subDir uuid : String) : NfsVolume :=
  volumeOfSegments "" "" "" (split separator (trim '/' subDir) ++ split separator uuid)

/-- The directory is the same after the cuts, and only because `..` takes parts back. -/
def CutsBack (subDir uuid name : String) : Prop :=
  ".." ∈ elements name ++ elements subDir ∧
    walk false [] (cutVolume subDir uuid).volumeElements =
      walk false [] (elements name ++ elements subDir)

/-- Parameters and name that an ID can carry. -/
structure FitsID (p : VolumeParams) (ρ : MapOrder) (name : String) : Prop where
  server : '#' ∉ p.server.toList
  baseDir : '#' ∉ p.baseDir.toList
  path : ('#' ∉ name.toList ∧ '#' ∉ (p.volumeSubDir ρ name).toList) ∨
    CutsBack (p.volumeSubDir ρ name) (p.volumeUUID name) name

section

variable {σ ρ : MapOrder} {name defaultOnDeletePolicy w : String} {size : ℤ} {params : StringMap}
  {vol dec : NfsVolume} {p : VolumeParams}

/-! ## The cut volume -/

/-- Decoding only finds pieces. -/
theorem not_mem_of_getNfsVolFromID {id : String} (hlen : 3 ≤ (split separator id).length)
    (h : getNfsVolFromID id = .ok dec) :
    separator ∉ dec.server.toList ∧ separator ∉ dec.baseDir.toList := by
  obtain ⟨server, l, hl⟩ := List.exists_cons_of_length_pos
    (by omega : 0 < (split separator id).length)
  rw [hl, List.length_cons] at hlen
  obtain ⟨baseDir, tail, rfl⟩ := List.exists_cons_of_length_pos (by omega : 0 < l.length)
  have hne : tail ≠ [] := by
    rintro rfl
    simp at hlen
  rw [getNfsVolFromID_of_split hl hne] at h
  obtain rfl := Except.ok.inj h
  exact ⟨not_mem_of_mem_split (by rw [hl]; simp [volumeOfSegments]),
    not_mem_of_mem_split (by rw [hl]; simp [volumeOfSegments])⟩

/-- An ID has at least five segments. -/
theorem five_le_length_split (vol : NfsVolume) :
    5 ≤ (split separator (getVolumeIDFromNfsVol vol)).length := by
  have hpos : ∀ s, 0 < (split separator s).length :=
    fun s => List.length_pos_iff.mpr (split_ne_nil separator s)
  have h₁ := hpos (trim '/' vol.server)
  have h₂ := hpos (trim '/' vol.baseDir)
  have h₃ := hpos (trim '/' vol.subDir)
  have h₄ := hpos vol.uuid
  have h₅ := hpos (recordedOnDelete vol.onDelete)
  rw [getVolumeIDFromNfsVol, split_join separator (by simp [idElements])]
  simp only [idElements, List.flatMap_cons, List.flatMap_nil, List.length_append, List.length_nil]
  omega

/-- The policy at the end of the segments does not touch the directory. -/
theorem volumeElements_volumeOfSegments {l : List String} (hlen : 2 ≤ l.length)
    (id server baseDir onDelete : String) :
    (volumeOfSegments id server baseDir (l ++ [onDelete])).volumeElements =
      (volumeOfSegments "" "" "" l).volumeElements := by
  have h₀ : (l ++ [onDelete])[0]? = l[0]? := List.getElem?_append_left (by omega)
  have h₁ : (l ++ [onDelete])[1]? = l[1]? := List.getElem?_append_left (by omega)
  exact volumeElements_congr (congrArg (Option.getD · "") h₁) (congrArg (Option.getD · "") h₀)

/-- A directory that is read from pieces without `#` has no `#`. -/
theorem not_mem_volumeOfSegments {l : List String} (hl : ∀ x ∈ l, '#' ∉ x.toList) {e : String}
    (h : e ∈ (volumeOfSegments "" "" "" l).volumeElements) : '#' ∉ e.toList := by
  have hpiece : ∀ i : ℕ, '#' ∉ (l[i]?.getD "").toList := by
    intro i
    cases hi : l[i]? with
    | none => simp
    | some x => exact hl x (List.mem_of_getElem? hi)
  have hmount : '#' ∉ (volumeOfSegments "" "" "" l).mountDir.toList := by
    unfold NfsVolume.mountDir
    split
    · exact hpiece 0
    · exact hpiece 1
  intro hmem
  rcases List.mem_append.mp h with h | h
  · exact hmount ((mem_iff_mem_split (by decide)).mpr ⟨e, h, hmem⟩)
  · exact hpiece 0 ((mem_iff_mem_split (by decide)).mpr ⟨e, h, hmem⟩)

theorem two_le_length_pieces (subDir uuid : String) :
    2 ≤ (split separator (trim '/' subDir) ++ split separator uuid).length := by
  have h₁ := List.length_pos_iff.mpr (split_ne_nil separator (trim '/' subDir))
  have h₂ := List.length_pos_iff.mpr (split_ne_nil separator uuid)
  rw [List.length_append]
  omega

theorem not_mem_cutVolume {subDir uuid e : String}
    (h : e ∈ (cutVolume subDir uuid).volumeElements) : '#' ∉ e.toList := by
  refine not_mem_volumeOfSegments (fun x hx => ?_) h
  rcases List.mem_append.mp hx with hx | hx
  · exact not_mem_of_mem_split hx
  · exact not_mem_of_mem_split hx

/-- Fields without `#` are not cut. -/
theorem cutVolume_of_not_mem {subDir uuid : String} (hsub : separator ∉ subDir.toList)
    (huuid : separator ∉ uuid.toList) :
    (cutVolume subDir uuid).uuid = uuid ∧ (cutVolume subDir uuid).subDir = trim '/' subDir := by
  rw [cutVolume, split_of_not_mem (not_mem_trim (by decide) hsub), split_of_not_mem huuid]
  exact ⟨rfl, rfl⟩

/-! ## The directory -/

/-- The mount directory of a volume that was made has the volume's name. -/
theorem NfsVolume.MadeFrom.volumeElements_eq (h : vol.MadeFrom p ρ name defaultOnDeletePolicy)
    (hname : name ≠ "") : vol.volumeElements = elements name ++ elements vol.subDir := by
  unfold NfsVolume.volumeElements NfsVolume.mountDir
  rw [h.uuid, h.subDir, VolumeParams.volumeUUID, VolumeParams.volumeSubDir]
  by_cases hgiven : p.subDir = ""
  · simp [hgiven]
  · simp [hgiven, hname]

/-- Without `..`, a separator in the name or in the subdirectory is an element that the cut volume
cannot have. -/
theorem walk_cutVolume_ne {subDir : String} (hup : ".." ∉ elements name ++ elements subDir)
    (h : '#' ∈ name.toList ∨ '#' ∈ subDir.toList)
    (hcut : ∀ e ∈ dec.volumeElements, '#' ∉ e.toList) :
    walk false [] dec.volumeElements ≠ walk false [] (elements name ++ elements subDir) := by
  obtain ⟨e, he, hmem⟩ : ∃ e ∈ elements name ++ elements subDir, '#' ∈ e.toList := by
    rcases h with h | h
    · obtain ⟨e, he, hmem⟩ := (mem_iff_mem_split (c := '/') (by decide)).mp h
      exact ⟨e, List.mem_append_left _ he, hmem⟩
    · obtain ⟨e, he, hmem⟩ := (mem_iff_mem_split (c := '/') (by decide)).mp h
      exact ⟨e, List.mem_append_right _ he, hmem⟩
  have hename : IsName e := by
    refine ⟨?_, ?_, ?_⟩ <;> · rintro rfl; revert hmem; decide
  have hleft : e ∈ walk false [] (elements name ++ elements subDir) :=
    mem_walk_of_name hename hup (Or.inr he)
  intro heq
  rw [← heq] at hleft
  exact hcut e ((mem_walk hleft).resolve_left List.not_mem_nil) hmem

/-- **The directory survives** exactly when there is nothing to cut, or `..` takes the cuts back. -/
theorem NfsVolume.MadeFrom.path_iff (h : vol.MadeFrom p ρ name defaultOnDeletePolicy)
    (hname : name ≠ "") (hdec : dec.volumeElements
      = (cutVolume vol.subDir vol.uuid).volumeElements) :
    (∀ w ≠ "", getInternalVolumePath w dec = getInternalVolumePath w vol) ↔
      ('#' ∉ name.toList ∧ '#' ∉ (p.volumeSubDir ρ name).toList) ∨
        CutsBack (p.volumeSubDir ρ name) (p.volumeUUID name) name := by
  rw [getInternalVolumePath_eq_forall, h.volumeElements_eq hname, hdec, CutsBack, ← h.subDir,
    ← h.uuid]
  constructor
  · intro heq
    by_cases hup : ".." ∈ elements name ++ elements vol.subDir
    · exact Or.inr ⟨hup, heq⟩
    · refine Or.inl (not_or.mp fun hhash => ?_)
      exact walk_cutVolume_ne hup hhash (fun e he => not_mem_cutVolume he) heq
  · rintro (⟨hn, hsub⟩ | ⟨-, heq⟩)
    · -- nothing is cut: the two pieces are the subdirectory and the UUID
      have huuid : separator ∉ vol.uuid.toList := by
        rw [h.uuid, VolumeParams.volumeUUID]
        split
        · simp
        · exact hn
      obtain ⟨hu, hs⟩ := cutVolume_of_not_mem hsub huuid
      rw [← h.volumeElements_eq hname]
      exact walk_volumeElements_trim [] hu hs
    · exact heq

/-! ## The result -/

/-- Server and base directory survive exactly when they have no `#`. -/
theorem NfsVolume.MadeFrom.not_mem_of_decoded (h : vol.MadeFrom p ρ name defaultOnDeletePolicy)
    (hdec : getNfsVolFromID vol.id = .ok dec)
    (hserver : trim '/' dec.server = trim '/' vol.server)
    (hbase : trim '/' dec.baseDir = trim '/' vol.baseDir) :
    '#' ∉ vol.server.toList ∧ '#' ∉ vol.baseDir.toList := by
  have hlen : 3 ≤ (split separator vol.id).length := by
    have h5 := five_le_length_split vol
    rw [← h.id] at h5
    omega
  obtain ⟨hs, hb⟩ := not_mem_of_getNfsVolFromID hlen hdec
  have hs' : '#' ∉ (trim '/' dec.server).toList := not_mem_trim (by decide) hs
  have hb' : '#' ∉ (trim '/' dec.baseDir).toList := not_mem_trim (by decide) hb
  rw [hserver, mem_trim (by decide)] at hs'
  rw [hbase, mem_trim (by decide)] at hb'
  exact ⟨hs', hb'⟩

/-- The ID leads back to the directory, the server and the base directory of the volume, all but
slashes at the ends. -/
theorem NfsVolume.MadeFrom.targets_iff (h : vol.MadeFrom p ρ name defaultOnDeletePolicy)
    (hname : name ≠ "") :
    (∀ w ≠ "", ∃ dec, getNfsVolFromID vol.id = .ok dec ∧
        getInternalVolumePath w dec = getInternalVolumePath w vol ∧
        trim '/' dec.server = trim '/' vol.server ∧
        trim '/' dec.baseDir = trim '/' vol.baseDir) ↔ FitsID p ρ name := by
  constructor
  · intro hall
    obtain ⟨dec, hdec, -, hs, hb⟩ := hall "/" (by decide)
    obtain ⟨hserver, hbase⟩ := h.not_mem_of_decoded hdec hs hb
    refine ⟨h.server ▸ hserver, h.baseDir ▸ hbase, ?_⟩
    rw [getNfsVolFromID_volumeID h.id hserver hbase] at hdec
    refine (h.path_iff hname (volumeElements_volumeOfSegments (two_le_length_pieces _ _)
      vol.id (trim '/' vol.server) (trim '/' vol.baseDir) (recordedOnDelete vol.onDelete))).mp ?_
    intro w hw
    obtain ⟨dec', hdec', hpath, -, -⟩ := hall w hw
    rw [getNfsVolFromID_volumeID h.id hserver hbase] at hdec'
    obtain rfl := Except.ok.inj hdec'
    exact hpath
  · intro hfits w hw
    have hserver : separator ∉ vol.server.toList := h.server ▸ hfits.server
    have hbase : separator ∉ vol.baseDir.toList := h.baseDir ▸ hfits.baseDir
    refine ⟨_, getNfsVolFromID_volumeID h.id hserver hbase, ?_, ?_, ?_⟩
    · exact (h.path_iff hname (volumeElements_volumeOfSegments (two_le_length_pieces _ _)
        vol.id _ _ _)).mpr hfits.path w hw
    · exact trim_trim '/' vol.server
    · exact trim_trim '/' vol.baseDir

/-- **When a deletion targets what was created.** For every name and every accepted parameters, the
returned ID leads back to the volume's directory under every working directory, to its server and,
up to slashes at the ends, to its base directory, exactly when the server has no slashes at the ends
and neither it nor the base directory has a `#`, and name and subdirectory have none either (or
elements `..` take the cuts back). The second part takes the server up to slashes at the ends as
well. -/
theorem delete_targets_created_iff (hname : name ≠ "")
    (hok : newNFSVolume σ ρ name size params defaultOnDeletePolicy = .ok vol) :
    ((∀ w ≠ "", ∃ dec, getNfsVolFromID vol.id = .ok dec ∧
        getInternalVolumePath w dec = getInternalVolumePath w vol ∧
        dec.server = vol.server ∧ trim '/' dec.baseDir = trim '/' vol.baseDir) ↔
      Trimmed '/' (readParams σ params).server ∧ FitsID (readParams σ params) ρ name) ∧
    ((∀ w ≠ "", ∃ dec, getNfsVolFromID vol.id = .ok dec ∧
        getInternalVolumePath w dec = getInternalVolumePath w vol ∧
        trim '/' dec.server = trim '/' vol.server ∧
        trim '/' dec.baseDir = trim '/' vol.baseDir) ↔
      FitsID (readParams σ params) ρ name) := by
  have hmade := newNFSVolume_ok hok
  have hloose := hmade.targets_iff hname
  refine ⟨⟨fun hall => ?_, fun hcond w hw => ?_⟩, hloose⟩
  · have hfits := hloose.mp fun w hw => by
      obtain ⟨dec, hdec, hpath, hs, hb⟩ := hall w hw
      exact ⟨dec, hdec, hpath, by rw [hs], hb⟩
    refine ⟨?_, hfits⟩
    obtain ⟨dec, hdec, -, hs, -⟩ := hall "/" (by decide)
    rw [getNfsVolFromID_volumeID hmade.id (hmade.server ▸ hfits.server)
      (hmade.baseDir ▸ hfits.baseDir)] at hdec
    obtain rfl := Except.ok.inj hdec
    rw [← hmade.server]
    exact trim_eq_self_iff.mp hs
  · obtain ⟨dec, hdec, hpath, -, hb⟩ := hloose.mpr hcond.2 w hw
    refine ⟨dec, hdec, hpath, ?_, hb⟩
    rw [getNfsVolFromID_volumeID hmade.id (hmade.server ▸ hcond.2.server)
      (hmade.baseDir ▸ hcond.2.baseDir)] at hdec
    obtain rfl := Except.ok.inj hdec
    exact trim_of_trimmed (hmade.server ▸ hcond.1)

theorem delete_targets_created_iff_template :
    FitsID (readParams .asWritten templateParams) .asWritten "pvc-4bcb" ∧
    ∀ w ≠ "", ∃ dec, getNfsVolFromID templateVolume.id = .ok dec ∧
      getInternalVolumePath w dec = getInternalVolumePath w templateVolume ∧
      dec.server = templateVolume.server ∧
      trim '/' dec.baseDir = trim '/' templateVolume.baseDir := by
  have hfits : FitsID (readParams .asWritten templateParams) .asWritten "pvc-4bcb" :=
    ⟨by decide, by decide, Or.inl ⟨by decide, by decide⟩⟩
  have hok : newNFSVolume .asWritten .asWritten "pvc-4bcb" 0 templateParams "" =
      .ok templateVolume := by decide
  exact ⟨hfits, (delete_targets_created_iff (by decide) hok).1.mpr ⟨by decide, hfits⟩⟩

/-- A storage class with a `#` in the subdirectory. -/
def hashParams : StringMap :=
  ⟨[("server", "nfs"), ("share", "/share"), ("subDir", "a#b")], by decide⟩

/-- The volume that is made from it. -/
def hashVolume : NfsVolume :=
  { id := "nfs#share#a#b#pvc-1#", server := "nfs", baseDir := "/share", subDir := "a#b", size := 0,
    uuid := "pvc-1", onDelete := "" }

/-- What its ID is decoded to. -/
def hashDecoded : NfsVolume :=
  { id := "nfs#share#a#b#pvc-1#", server := "nfs", baseDir := "share", subDir := "a", size := 0,
    uuid := "b", onDelete := "pvc-1" }

/-- `CreateVolume` accepts the parameters and makes `a#b`; from the ID, `DeleteVolume` finds `a`, at
another mount point. -/
theorem hash_targets_other_directory :
    validateParameters hashParams.entries 0 = .ok 0 ∧
    newNFSVolume .asWritten .asWritten "pvc-1" 0 hashParams "" = .ok hashVolume ∧
    getNfsVolFromID hashVolume.id = .ok hashDecoded ∧
    getInternalVolumePath "/tmp" hashVolume = "/tmp/pvc-1/a#b" ∧
    getInternalVolumePath "/tmp" hashDecoded = "/tmp/b/a" := by
  decide

end

end NfsLbCsi
