import NfsLbCsi.Driver.Setup
import NfsLbCsi.Volumes.Orders
import NfsLbCsi.Volumes.Policy

set_option autoImplicit false

/-! # The default delete policy of a driver

The default policy goes from a flag to the `DriverOptions`, from there to the driver, and from the
driver to `CreateVolume` and `DeleteVolume`, which use it when the parameters or the ID have no
policy. `NewDriver` does not copy it, so both of them see the empty policy, which removes the
directory.
-/

namespace NfsLbCsi

open GoString

section

variable {σ ρ : MapOrder} {name : String} {size : ℤ} {params : StringMap} {vol : NfsVolume}

/-- Without an `onDelete` parameter there is no policy to read. -/
theorem readParams_onDelete_of_unset
    (hunset : ∀ e ∈ params.entries, paramKey e.1 ≠ some .onDelete) :
    (readParams σ params).onDelete = "" := by
  have hnone : valuesOf paramKey .onDelete (σ.range params) = [] := by
    rw [List.eq_nil_iff_forall_not_mem]
    intro v hv
    obtain ⟨e, he, hkey, -⟩ := mem_valuesOf.mp hv
    exact hunset e (MapOrder.mem_range.mp he) hkey
  rw [readParams_onDelete, hnone]
  rfl

/-- **When the configured default is obeyed.** For all options, and every name and parameters
without `#` in their values and without an `onDelete` parameter: the policy that `DeleteVolume`
resolves on a driver made from the options is the configured one exactly when that is empty and the
name has no `#`, or when the piece of the name in the fifth place is, up to case, the configured
policy. -/
theorem default_policy_obeyed_iff (options : DriverOptions)
    (hparams : ∀ e ∈ params.entries, '#' ∉ e.2.toList)
    (hunset : ∀ e ∈ params.entries, paramKey e.1 ≠ some .onDelete)
    (hok : newNFSVolume σ ρ name size params (newDriver options).defaultOnDeletePolicy = .ok vol) :
    (∃ dec, getNfsVolFromID vol.id = .ok dec ∧
      equalFold (dec.resolvedOnDelete (newDriver options).defaultOnDeletePolicy)
        options.defaultOnDeletePolicy) ↔
    ('#' ∉ name.toList ∧ options.defaultOnDeletePolicy = "") ∨
      ('#' ∈ name.toList ∧
        equalFold (shiftedPiece (readParams σ params) name) options.defaultOnDeletePolicy) := by
  -- the driver has no default
  have hdefault : (newDriver options).defaultOnDeletePolicy = "" := rfl
  rw [hdefault] at hok ⊢
  obtain ⟨dec, hdec, hseg⟩ := exists_decoded_onDelete hparams hok
  have hvol : vol.onDelete = "" := by
    rw [(newNFSVolume_ok hok).onDelete, VolumeParams.volumeOnDelete,
      readParams_onDelete_of_unset hunset]
    rfl
  have hresolved : dec.resolvedOnDelete "" = dec.onDelete := by
    unfold NfsVolume.resolvedOnDelete
    split
    · rename_i hempty
      exact hempty.symm
    · rfl
  have hunique : (∃ dec', getNfsVolFromID vol.id = .ok dec' ∧
      equalFold (dec'.resolvedOnDelete "") options.defaultOnDeletePolicy) ↔
      equalFold dec.onDelete options.defaultOnDeletePolicy := by
    rw [hdec, ← hresolved]
    simp
  have hrecorded : recordedOnDelete "" = "" := by decide
  rw [hunique, hseg, hvol, hrecorded]
  by_cases hmem : '#' ∈ name.toList
  · simp [hmem]
  · rw [if_neg hmem, equalFold_empty_left]
    simp [hmem]

end

/-- Options with a default policy. -/
def policyOptions (defaultOnDeletePolicy : String) : DriverOptions :=
  { mountPermissions := 0, workingMountDir := "/tmp", defaultOnDeletePolicy := defaultOnDeletePolicy
    ipList := ["10.0.0.1"], runControllerServer := true, runNodeServer := false }

/-- A storage class with a server and a share only. -/
def shareParams : StringMap := ⟨[("server", "nfs"), ("share", "/share")], by decide⟩

theorem default_policy_obeyed_unset : ∃ vol,
    newNFSVolume .asWritten .asWritten "pvc-1" 0 shareParams
      (newDriver (policyOptions "")).defaultOnDeletePolicy = .ok vol ∧
    ∃ dec, getNfsVolFromID vol.id = .ok dec ∧
      equalFold (dec.resolvedOnDelete (newDriver (policyOptions "")).defaultOnDeletePolicy)
        (policyOptions "").defaultOnDeletePolicy := by
  have hok : newNFSVolume .asWritten .asWritten "pvc-1" 0 shareParams
      (newDriver (policyOptions "")).defaultOnDeletePolicy = .ok _ := rfl
  exact ⟨_, hok, (default_policy_obeyed_iff (policyOptions "") (by decide) (by decide) hok).mpr
    (Or.inl ⟨by decide, rfl⟩)⟩

/-- With the default `retain` the directory of a volume is removed. -/
theorem retain_default_is_lost : ∃ vol dec,
    newNFSVolume .asWritten .asWritten "pvc-1" 0 shareParams
      (newDriver (policyOptions "retain")).defaultOnDeletePolicy = .ok vol ∧
    getNfsVolFromID vol.id = .ok dec ∧
    dec.resolvedOnDelete (newDriver (policyOptions "retain")).defaultOnDeletePolicy = "" ∧
    deleteBranch (dec.resolvedOnDelete (newDriver (policyOptions "retain")).defaultOnDeletePolicy) =
      .remove :=
  ⟨_, _, rfl, rfl, rfl, by decide⟩

end NfsLbCsi
