import NfsLbCsi.Volumes.Functions

set_option autoImplicit false

/-! # The round trip of volume IDs

`newNFSVolume` writes server, base directory, subdirectory, UUID and policy into one string, with
`#` between them; `getNfsVolFromID` reads them back by position. As long as no value holds a `#`,
decoding gives back what was encoded, up to slashes at the ends, and with it the paths.
-/

namespace NfsLbCsi

open GoString GoPath

/-- What decoding the ID of `vol` gives back. -/
structure NfsVolume.DecodedFrom (dec vol : NfsVolume) : Prop where
  id : dec.id = vol.id
  uuid : dec.uuid = vol.uuid
  server : dec.server = trim '/' vol.server
  baseDir : dec.baseDir = trim '/' vol.baseDir
  subDir : dec.subDir = trim '/' vol.subDir
  onDelete : dec.onDelete =
    if equalFold vol.onDelete retain ∨ equalFold vol.onDelete archive then vol.onDelete else ""
  mountPath : ∀ w ≠ "", getInternalMountPath w dec = getInternalMountPath w vol
  volumePath : ∀ w ≠ "", getInternalVolumePath w dec = getInternalVolumePath w vol

section

variable {σ ρ : MapOrder} {name defaultOnDeletePolicy : String} {params : StringMap}
  {vol dec : NfsVolume} {p : VolumeParams}

/-! ## Trimmed subdirectories -/

theorem walk_mountDir_trim {rooted : Bool} (st : List String) (huuid : dec.uuid = vol.uuid)
    (hsub : dec.subDir = trim '/' vol.subDir) :
    walk rooted st (elements dec.mountDir) = walk rooted st (elements vol.mountDir) := by
  unfold NfsVolume.mountDir
  rw [huuid, hsub]
  split
  · exact walk_elements_trim st
  · rfl

theorem walk_volumeElements_trim {rooted : Bool} (st : List String) (huuid : dec.uuid = vol.uuid)
    (hsub : dec.subDir = trim '/' vol.subDir) :
    walk rooted st dec.volumeElements = walk rooted st vol.volumeElements := by
  rw [NfsVolume.volumeElements, walk_append, walk_mountDir_trim st huuid hsub, hsub,
    walk_elements_trim, ← walk_append, NfsVolume.volumeElements]

/-! ## Encoding, then decoding -/

/-- Without separators the segments are the fields. -/
theorem idTail_of_not_mem (hsub : separator ∉ vol.subDir.toList)
    (huuid : separator ∉ vol.uuid.toList) :
    idTail vol = [trim '/' vol.subDir, vol.uuid, recordedOnDelete vol.onDelete] := by
  rw [idTail, split_of_not_mem (not_mem_trim (by decide) hsub), split_of_not_mem huuid]
  rfl

theorem exists_decodedFrom (hid : vol.id = getVolumeIDFromNfsVol vol)
    (hserver : separator ∉ vol.server.toList) (hbase : separator ∉ vol.baseDir.toList)
    (hsub : separator ∉ vol.subDir.toList) (huuid : separator ∉ vol.uuid.toList) :
    ∃ dec, getNfsVolFromID vol.id = .ok dec ∧ dec.DecodedFrom vol := by
  have hdec := getNfsVolFromID_volumeID hid hserver hbase
  rw [idTail_of_not_mem hsub huuid] at hdec
  refine ⟨_, hdec, by simp, by simp, by simp, by simp, by simp, ?_, ?_, ?_⟩
  · rw [volumeOfSegments_onDelete]
    rfl
  · intro w hw
    exact (getInternalMountPath_eq_iff hw).mpr (walk_mountDir_trim _ (by simp) (by simp))
  · intro w hw
    exact (getInternalVolumePath_eq_iff hw).mpr (walk_volumeElements_trim _ (by simp) (by simp))

/-- A volume made from parameters without separator has none in its fields. -/
theorem NfsVolume.MadeFrom.not_mem (h : vol.MadeFrom p ρ name defaultOnDeletePolicy)
    (hp : p.Without separator) (hname : separator ∉ name.toList) :
    separator ∉ vol.server.toList ∧ separator ∉ vol.baseDir.toList ∧
      separator ∉ vol.subDir.toList ∧ separator ∉ vol.uuid.toList := by
  refine ⟨h.server ▸ hp.server, h.baseDir ▸ hp.baseDir, ?_, ?_⟩
  · rw [h.subDir]
    by_cases hgiven : p.subDir = ""
    · rwa [VolumeParams.volumeSubDir, if_pos hgiven]
    · exact hp.volumeSubDir hgiven
  · rw [h.uuid, VolumeParams.volumeUUID]
    split
    · simp
    · exact hname

/-! ## Decoding, then encoding -/

theorem getVolumeIDFromNfsVol_getNfsVolFromID {id server baseDir subDir uuid onDelete : String}
    (h : split separator id = [server, baseDir, subDir, uuid, onDelete])
    (hserver : Trimmed '/' server) (hbase : Trimmed '/' baseDir) (hsub : Trimmed '/' subDir)
    (hpolicy : onDelete = "" ∨ equalFold onDelete retain ∨ equalFold onDelete archive) :
    ∃ dec, getNfsVolFromID id = .ok dec ∧ getVolumeIDFromNfsVol dec = id := by
  refine ⟨_, getNfsVolFromID_of_split h (by simp), ?_⟩
  have hrec : recordedOnDelete onDelete = onDelete := by
    unfold recordedOnDelete
    split
    · rfl
    · rename_i hnot
      exact (hpolicy.resolve_right hnot).symm
  calc getVolumeIDFromNfsVol (volumeOfSegments id server baseDir [subDir, uuid, onDelete])
      = join separator [trim '/' server, trim '/' baseDir, trim '/' subDir, uuid,
          recordedOnDelete onDelete] := rfl
    _ = join separator (split separator id) := by
        rw [trim_of_trimmed hserver, trim_of_trimmed hbase, trim_of_trimmed hsub, hrec, h]
    _ = id := join_split separator id

/-! ## Different names, different IDs -/

/-- The name is the UUID of the ID, or its subdirectory when the UUID is empty. -/
theorem NfsVolume.DecodedFrom.mountDir_eq (hdec : dec.DecodedFrom vol)
    (h : vol.MadeFrom p ρ name defaultOnDeletePolicy) (hne : name ≠ "")
    (hslash : '/' ∉ name.toList) :
    dec.mountDir = name := by
  have htrim : trim '/' name = name := by
    refine trim_of_trimmed ⟨fun hh => hslash ?_, fun hl => hslash ?_⟩
    · exact List.mem_of_mem_head? hh
    · exact List.mem_of_mem_getLast? hl
  unfold NfsVolume.mountDir
  rw [hdec.uuid, hdec.subDir, h.uuid, h.subDir, VolumeParams.volumeUUID, VolumeParams.volumeSubDir]
  by_cases hgiven : p.subDir = ""
  · simp [hgiven, htrim]
  · simp [hgiven, hne]

/-! ## The result -/

/-- **Volume IDs are a round trip.** What `newNFSVolume` encodes without a `#` in name and values is
decoded to the same fields, up to slashes at the ends, and to the same paths; an ID of five segments
in the form that the encoder writes is encoded to itself; and different names get different IDs. -/
theorem volumeID_round_trip :
    (∀ (σ ρ : MapOrder) (name : String) (size : ℤ) (params : StringMap)
        (defaultOnDeletePolicy : String) (vol : NfsVolume),
      newNFSVolume σ ρ name size params defaultOnDeletePolicy = .ok vol →
      '#' ∉ name.toList → (∀ e ∈ params.entries, '#' ∉ e.2.toList) →
      ∃ dec, getNfsVolFromID vol.id = .ok dec ∧ dec.DecodedFrom vol) ∧
    (∀ id server baseDir subDir uuid onDelete : String,
      split '#' id = [server, baseDir, subDir, uuid, onDelete] →
      Trimmed '/' server → Trimmed '/' baseDir → Trimmed '/' subDir →
      (onDelete = "" ∨ equalFold onDelete retain ∨ equalFold onDelete archive) →
      ∃ dec, getNfsVolFromID id = .ok dec ∧ getVolumeIDFromNfsVol dec = id) ∧
    (∀ (σ₁ ρ₁ σ₂ ρ₂ : MapOrder) (name₁ name₂ : String) (size₁ size₂ : ℤ)
        (params₁ params₂ : StringMap) (default₁ default₂ : String) (vol₁ vol₂ : NfsVolume),
      newNFSVolume σ₁ ρ₁ name₁ size₁ params₁ default₁ = .ok vol₁ →
      newNFSVolume σ₂ ρ₂ name₂ size₂ params₂ default₂ = .ok vol₂ →
      '#' ∉ name₁.toList → (∀ e ∈ params₁.entries, '#' ∉ e.2.toList) →
      '#' ∉ name₂.toList → (∀ e ∈ params₂.entries, '#' ∉ e.2.toList) →
      name₁ ≠ "" → '/' ∉ name₁.toList → name₂ ≠ "" → '/' ∉ name₂.toList →
      name₁ ≠ name₂ → vol₁.id ≠ vol₂.id) := by
  have hdecode : ∀ {σ ρ : MapOrder} {name defaultOnDeletePolicy : String} {size : ℤ}
      {params : StringMap} {vol : NfsVolume},
      newNFSVolume σ ρ name size params defaultOnDeletePolicy = .ok vol →
      '#' ∉ name.toList → (∀ e ∈ params.entries, '#' ∉ e.2.toList) →
      ∃ dec, getNfsVolFromID vol.id = .ok dec ∧ dec.DecodedFrom vol := by
    intro σ ρ name d size params vol hok hname hparams
    have hmade := newNFSVolume_ok hok
    obtain ⟨hs, hb, hsub, hu⟩ := hmade.not_mem (without_readParams hparams) hname
    exact exists_decodedFrom hmade.id hs hb hsub hu
  refine ⟨fun _ _ _ _ _ _ _ => hdecode, ?_, ?_⟩
  · intro id server baseDir subDir uuid onDelete h hs hb hsub hpolicy
    exact getVolumeIDFromNfsVol_getNfsVolFromID h hs hb hsub hpolicy
  · intro σ₁ ρ₁ σ₂ ρ₂ name₁ name₂ size₁ size₂ params₁ params₂ d₁ d₂ vol₁ vol₂ h₁ h₂ hn₁ hp₁ hn₂ hp₂
      hne₁ hs₁ hne₂ hs₂ hne heq
    -- the two IDs are decoded to the same volume, which still has the name
    obtain ⟨dec₁, hd₁, hfrom₁⟩ := hdecode h₁ hn₁ hp₁
    obtain ⟨dec₂, hd₂, hfrom₂⟩ := hdecode h₂ hn₂ hp₂
    rw [heq, hd₂] at hd₁
    obtain rfl := Except.ok.inj hd₁
    apply hne
    rw [← hfrom₁.mountDir_eq (newNFSVolume_ok h₁) hne₁ hs₁,
      ← hfrom₂.mountDir_eq (newNFSVolume_ok h₂) hne₂ hs₂]

/-- A storage class with a template for the subdirectory. -/
def templateParams : StringMap :=
  ⟨[("server", "nfs"), ("share", "/share"), ("subDir", "$\x7bpv.metadata.name\x7d/"),
    ("onDelete", "Retain"), ("csi.storage.k8s.io/pv/name", "data")], by decide⟩

/-- The volume that is made from it. -/
def templateVolume : NfsVolume :=
  { id := "nfs#share#data#pvc-4bcb#Retain", server := "nfs", baseDir := "/share", subDir := "data/",
    size := 0, uuid := "pvc-4bcb", onDelete := "Retain" }

theorem volumeID_round_trip_template :
    (∃ dec, getNfsVolFromID templateVolume.id = .ok dec ∧ dec.DecodedFrom templateVolume) ∧
    (∃ dec, getNfsVolFromID templateVolume.id = .ok dec ∧
      getVolumeIDFromNfsVol dec = templateVolume.id) :=
  ⟨volumeID_round_trip.1 .asWritten .asWritten "pvc-4bcb" 0 templateParams "" templateVolume
      (by decide) (by decide) (by decide),
    volumeID_round_trip.2.1 templateVolume.id "nfs" "share" "data" "pvc-4bcb" "Retain"
      (by decide) (by decide) (by decide) (by decide) (by decide)⟩

end

end NfsLbCsi
