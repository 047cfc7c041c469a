import NfsLbCsi.Volumes.RoundTrip

set_option autoImplicit false

/-! # The delete policy between creation and deletion

`newNFSVolume` takes the policy from the parameters or from the driver's default, the ID records it
when it is `retain` or `archive`, and `DeleteVolume` reads the fifth segment and takes the driver's
default when that is empty. Two things go wrong on the way:

* a `#` in the name moves a piece of the name into the fifth place (`shiftedPiece`);
* `delete` is not recorded, so that a default of `retain` or `archive` takes its place.
-/

namespace NfsLbCsi

open GoString GoPath

/-- The piece of the name that stands in the place of the policy when the name has a `#`: the third
piece when the name is the subdirectory, the second when it is the UUID. -/
def shiftedPiece (p : VolumeParams) (name : String) : String :=
  if p.subDir = "" then ((split separator (trim '/' name))[2]?).getD ""
  else ((split separator name)[1]?).getD ""

section

variable {σ ρ : MapOrder} {name d : String} {size : ℤ} {params : StringMap}
  {vol dec : NfsVolume} {p : VolumeParams}

/-! ## The fifth segment -/

theorem getElem?_pieces_one {l : List String} (x : String) (h : 2 ≤ l.length) :
    (l ++ [x])[1]? = l[1]? := List.getElem?_append_left (by omega)

theorem getD_pieces_two {l : List String} (x : String) (h : 2 ≤ l.length) :
    ((l ++ ["", x])[2]?).getD "" = (l[2]?).getD "" := by
  by_cases hlen : l.length = 2
  · simp [hlen]
  · rw [List.getElem?_append_left (by omega)]

/-- **What is decoded as the policy**: what was recorded, or a piece of the name. -/
theorem NfsVolume.MadeFrom.decoded_onDelete (h : vol.MadeFrom p ρ name d)
    (hp : p.Without separator) :
    ((idTail vol)[2]?).getD "" =
      if separator ∈ name.toList then shiftedPiece p name else recordedOnDelete vol.onDelete := by
  unfold idTail shiftedPiece
  by_cases hgiven : p.subDir = ""
  · -- the name is the subdirectory, and the UUID is empty
    have hsub : vol.subDir = name := by rw [h.subDir, VolumeParams.volumeSubDir, if_pos hgiven]
    have huuid : vol.uuid = "" := by rw [h.uuid, VolumeParams.volumeUUID, if_pos hgiven]
    rw [hsub, huuid, split_empty, List.append_assoc, if_pos hgiven]
    split
    · rename_i hmem
      exact getD_pieces_two _ (two_le_length_split ((mem_trim (by decide)).mpr hmem))
    · rename_i hmem
      rw [split_of_not_mem (not_mem_trim (by decide) hmem)]
      rfl
  · -- the name is the UUID, and the subdirectory has no separator
    have hsub : separator ∉ (trim '/' vol.subDir).toList := by
      rw [h.subDir]
      exact not_mem_trim (by decide) (hp.volumeSubDir hgiven)
    have huuid : vol.uuid = name := by rw [h.uuid, VolumeParams.volumeUUID, if_neg hgiven]
    rw [split_of_not_mem hsub, huuid, if_neg hgiven, List.append_assoc, List.singleton_append,
      List.getElem?_cons_succ]
    split
    · rename_i hmem
      rw [getElem?_pieces_one _ (two_le_length_split hmem)]
    · rename_i hmem
      rw [split_of_not_mem hmem]
      rfl

/-- The decoded volume, when no parameter has a `#`. -/
theorem exists_decoded_onDelete (hparams : ∀ e ∈ params.entries, '#' ∉ e.2.toList)
    (hok : newNFSVolume σ ρ name size params d = .ok vol) :
    ∃ dec, getNfsVolFromID vol.id = .ok dec ∧ dec.onDelete =
      if separator ∈ name.toList then shiftedPiece (readParams σ params) name
      else recordedOnDelete vol.onDelete := by
  have hmade := newNFSVolume_ok hok
  have hp := without_readParams (σ := σ) hparams
  have hserver : separator ∉ vol.server.toList := hmade.server ▸ hp.server
  have hbase : separator ∉ vol.baseDir.toList := hmade.baseDir ▸ hp.baseDir
  refine ⟨_, getNfsVolFromID_volumeID hmade.id hserver hbase, ?_⟩
  rw [volumeOfSegments_onDelete]
  exact hmade.decoded_onDelete hp

/-! ## The branch of a policy -/

theorem deleteBranch_eq_remove {onDelete : String} :
    deleteBranch onDelete = .remove ↔ ¬IsRecorded onDelete := by
  unfold deleteBranch IsRecorded
  by_cases hr : equalFold onDelete retain <;> by_cases ha : equalFold onDelete archive <;>
    simp [hr, ha]

theorem isRecorded_of_equalFold {onDelete policy : String}
    (hpolicy : policy = retain ∨ policy = archive)
    (h : equalFold onDelete policy) : IsRecorded onDelete := by
  rcases hpolicy with rfl | rfl
  · exact Or.inl h
  · exact Or.inr h

theorem IsRecorded.ne_empty {onDelete : String} (h : IsRecorded onDelete) : onDelete ≠ "" := by
  rintro rfl
  revert h
  decide

/-- The resolved policy is `policy` when the segment is, or when it is empty and the default is. -/
theorem equalFold_resolvedOnDelete {policy d₂ : String} (hne : policy ≠ "") :
    equalFold (dec.resolvedOnDelete d₂) policy ↔
      equalFold dec.onDelete policy ∨ (dec.onDelete = "" ∧ equalFold d₂ policy) := by
  unfold NfsVolume.resolvedOnDelete
  by_cases hempty : dec.onDelete = ""
  · have hnot : ¬equalFold "" policy := fun h => hne (equalFold_empty_left.mp h)
    simp [hempty, hnot]
  · simp [hempty]

/-! ## Retain and archive -/

/-- **When `retain` and `archive` survive.** For every name, parameters without `#` and default `d₁`
that give a volume with policy `retain` (or `archive`), and for every default `d₂` of the driver
that deletes it: the policy that `DeleteVolume` resolves is the same, and the directory is not
removed, exactly when the name has no `#`, or the piece of the name in the fifth place is that
policy, or that piece is empty and `d₂` is that policy. -/
theorem recorded_policy_survives_iff {policy d₁ : String} (d₂ : String)
    (hpolicy : policy = retain ∨ policy = archive)
    (hparams : ∀ e ∈ params.entries, '#' ∉ e.2.toList)
    (hok : newNFSVolume σ ρ name size params d₁ = .ok vol) (hvol : equalFold vol.onDelete policy) :
    (∃ dec, getNfsVolFromID vol.id = .ok dec ∧ equalFold (dec.resolvedOnDelete d₂) policy ∧
        deleteBranch (dec.resolvedOnDelete d₂) ≠ .remove) ↔
      '#' ∉ name.toList ∨ equalFold (shiftedPiece (readParams σ params) name) policy ∨
        (shiftedPiece (readParams σ params) name = "" ∧ equalFold d₂ policy) := by
  have hne : policy ≠ "" := by rcases hpolicy with rfl | rfl <;> decide
  obtain ⟨dec, hdec, hseg⟩ := exists_decoded_onDelete hparams hok
  -- the branch follows from the policy
  have hred : (∃ dec', getNfsVolFromID vol.id = .ok dec' ∧
      equalFold (dec'.resolvedOnDelete d₂) policy ∧
      deleteBranch (dec'.resolvedOnDelete d₂) ≠ .remove) ↔
      equalFold (dec.resolvedOnDelete d₂) policy := by
    constructor
    · rintro ⟨dec', hdec', hfold, -⟩
      rw [hdec] at hdec'
      exact Except.ok.inj hdec' ▸ hfold
    · intro hfold
      refine ⟨dec, hdec, hfold, fun hremove => ?_⟩
      exact deleteBranch_eq_remove.mp hremove (isRecorded_of_equalFold hpolicy hfold)
  rw [hred, equalFold_resolvedOnDelete hne, hseg]
  by_cases hmem : '#' ∈ name.toList
  · rw [if_pos hmem]
    simp [hmem]
  · have hrec : recordedOnDelete vol.onDelete = vol.onDelete :=
      if_pos (isRecorded_of_equalFold hpolicy hvol)
    rw [if_neg hmem, hrec]
    simp [hmem, hvol]

theorem recorded_policy_survives_iff_template :
    equalFold templateVolume.onDelete retain ∧
    ∃ dec, getNfsVolFromID templateVolume.id = .ok dec ∧
      equalFold (dec.resolvedOnDelete "delete") retain ∧
      deleteBranch (dec.resolvedOnDelete "delete") ≠ .remove := by
  have hok : newNFSVolume .asWritten .asWritten "pvc-4bcb" 0 templateParams "" =
      .ok templateVolume := by decide
  exact ⟨by decide, (recorded_policy_survives_iff "delete" (Or.inl rfl) (by decide) hok
    (by decide)).mpr (Or.inl (by decide))⟩

/-- A storage class without a subdirectory. -/
def plainParams (onDelete : String) : StringMap :=
  ⟨[("server", "nfs"), ("share", "/share"), ("onDelete", onDelete)], by simp⟩

/-- A retained volume whose name has a `#`. -/
def hashNameVolume : NfsVolume :=
  { id := "nfs#share#pvc#1##retain", server := "nfs", baseDir := "/share", subDir := "pvc#1",
    size := 0, uuid := "", onDelete := "retain" }

/-- What its ID is decoded to. -/
def hashNameDecoded : NfsVolume :=
  { id := "nfs#share#pvc#1##retain", server := "nfs", baseDir := "share", subDir := "pvc"
    size := 0, uuid := "1", onDelete := "" }

/-- A `#` in the name moves `retain` out of the fifth place, and the directory is removed. -/
theorem hash_name_loses_retain :
    newNFSVolume .asWritten .asWritten "pvc#1" 0 (plainParams "retain") "" = .ok hashNameVolume ∧
    equalFold hashNameVolume.onDelete retain ∧
    getNfsVolFromID hashNameVolume.id = .ok hashNameDecoded ∧
    hashNameDecoded.resolvedOnDelete "" = "" ∧
    deleteBranch (hashNameDecoded.resolvedOnDelete "") = .remove := by
  decide

/-! ## Explicit policies -/

/-- **When an explicit policy wins.** For every name, default and parameters without `#` that set a
policy: the policy that `DeleteVolume` resolves with the same default is the one that was set
exactly when it is recorded (`retain`, `archive`) or the default is the same, and the name has no
`#`; with a `#` in the name, the piece of the name in the fifth place decides. The second part
compares what is done with the directory: there, an empty or unknown default stands for `delete`. -/
theorem explicit_policy_wins_iff (hparams : ∀ e ∈ params.entries, '#' ∉ e.2.toList)
    (hok : newNFSVolume σ ρ name size params d = .ok vol)
    (hset : (readParams σ params).onDelete ≠ "") :
    ((∃ dec, getNfsVolFromID vol.id = .ok dec ∧
        equalFold (dec.resolvedOnDelete d) (readParams σ params).onDelete) ↔
      ('#' ∉ name.toList ∧
        (IsRecorded (readParams σ params).onDelete ∨ equalFold d (readParams σ params).onDelete)) ∨
      ('#' ∈ name.toList ∧
        (equalFold (shiftedPiece (readParams σ params) name) (readParams σ params).onDelete ∨
          (shiftedPiece (readParams σ params) name = "" ∧
            equalFold d (readParams σ params).onDelete)))) ∧
    ((∃ dec, getNfsVolFromID vol.id = .ok dec ∧
        deleteBranch (dec.resolvedOnDelete d) = deleteBranch (readParams σ params).onDelete) ↔
      ('#' ∉ name.toList ∧ (IsRecorded (readParams σ params).onDelete ∨ ¬IsRecorded d)) ∨
      ('#' ∈ name.toList ∧
        deleteBranch (if shiftedPiece (readParams σ params) name = "" then d
          else shiftedPiece (readParams σ params) name) =
            deleteBranch (readParams σ params).onDelete)) := by
  set q := (readParams σ params).onDelete with hq
  obtain ⟨dec, hdec, hseg⟩ := exists_decoded_onDelete hparams hok
  have hvol : vol.onDelete = q := by
    rw [(newNFSVolume_ok hok).onDelete, VolumeParams.volumeOnDelete, ← hq, if_pos hset]
  have hunique : ∀ P : NfsVolume → Prop,
      (∃ dec', getNfsVolFromID vol.id = .ok dec' ∧ P dec') ↔ P dec := by
    intro P
    rw [hdec]
    simp
  rw [hvol] at hseg
  rw [hunique, hunique]
  by_cases hmem : '#' ∈ name.toList
  · rw [equalFold_resolvedOnDelete hset, NfsVolume.resolvedOnDelete, hseg, if_pos hmem]
    simp [hmem]
  · rw [if_neg hmem] at hseg
    by_cases hrec : IsRecorded q
    · -- recorded: the segment is the policy
      have hdecq : dec.onDelete = q := by rw [hseg, recordedOnDelete, if_pos hrec]
      have hresolved : dec.resolvedOnDelete d = q := by
        rw [NfsVolume.resolvedOnDelete, hdecq, if_neg hrec.ne_empty]
      simp [hresolved, hmem, hrec]
    · -- not recorded: the default takes its place
      have hresolved : dec.resolvedOnDelete d = d := by
        rw [NfsVolume.resolvedOnDelete, hseg, recordedOnDelete, if_neg hrec, if_pos rfl]
      rw [hresolved, deleteBranch_eq_remove.mpr hrec, deleteBranch_eq_remove]
      simp [hmem, hrec]

theorem explicit_policy_wins_iff_template :
    (readParams .asWritten templateParams).onDelete = "Retain" ∧
    (∃ dec, getNfsVolFromID templateVolume.id = .ok dec ∧
      equalFold (dec.resolvedOnDelete "") (readParams .asWritten templateParams).onDelete) := by
  have hok : newNFSVolume .asWritten .asWritten "pvc-4bcb" 0 templateParams "" =
      .ok templateVolume := by decide
  exact ⟨by decide, (explicit_policy_wins_iff (by decide) hok (by decide)).1.mpr
    (Or.inl ⟨by decide, Or.inl (by decide)⟩)⟩

/-- A volume with an explicit `delete`. -/
def deletedVolume : NfsVolume :=
  { id := "nfs#share#pvc-1##", server := "nfs", baseDir := "/share", subDir := "pvc-1", size := 0,
    uuid := "", onDelete := "delete" }

/-- What its ID is decoded to. -/
def deletedDecoded : NfsVolume :=
  { id := "nfs#share#pvc-1##", server := "nfs", baseDir := "share", subDir := "pvc-1", size := 0,
    uuid := "", onDelete := "" }

/-- An explicit `delete` is not recorded: a driver whose default is `retain` keeps the directory. -/
theorem explicit_delete_is_lost :
    newNFSVolume .asWritten .asWritten "pvc-1" 0 (plainParams "delete") "retain" =
      .ok deletedVolume ∧
    (readParams .asWritten (plainParams "delete")).onDelete = "delete" ∧
    getNfsVolFromID deletedVolume.id = .ok deletedDecoded ∧
    deletedDecoded.resolvedOnDelete "retain" = "retain" ∧
    deleteBranch (deletedDecoded.resolvedOnDelete "retain") = .keep := by
  decide

end

end NfsLbCsi
