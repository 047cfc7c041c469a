import NfsLbCsi.NodeServer.Context
import NfsLbCsi.NodeServer.ReadAhead
import NfsLbCsi.NodeServer.Retries

set_option autoImplicit false

/-! # The `mount` call of `NodePublishVolume`

What a request makes of the arguments of `mount`: the source, and the list of options from the flags
of the capability, the `readonly` field and the `mountOptions` entries of the volume context, of
which there may be several that differ in case, in the order of the loop.

`performs_mount_iff` says which calls of `mount` a request can lead to. From it follow

* which requests keep the read-ahead pseudo-option away from `mount` (`read_ahead_kept_away_iff`),
* which read-only requests stay read-only (`stays_read_only_iff`).
-/

namespace NfsLbCsi

open GoString Locks

/-! ## Which mounts a request leads to -/

/-- The request passes every check before the mount, and `m` is what it asks for. -/
def GetsToMount (d : Driver) (req : NodePublishVolumeRequest) (m : MountSpec) : Prop :=
  d.ns ≠ none ∧ req.volumeId ≠ "" ∧ req.targetPath ≠ "" ∧ Asks d req m

section

variable {d : Driver} {req : NodePublishVolumeRequest} {volCap : VolumeCapability} {target : String}
  {source path fstype : String} {options : List String}

theorem not_performs_checkTarget (mountPermissions : ℕ) :
    ¬(checkTarget target mountPermissions).Performs (.mount source path fstype options) := by
  rw [checkTarget, perform, Prog.performs_op_bind]
  rintro (h | ⟨a, h⟩)
  · cases h
  · cases a with
    | ok notMnt => exact h
    | error err =>
        simp only at h
        split at h
        · rw [Prog.performs_bind, Prog.performs_must, perform, Prog.performs_op] at h
          rcases h with h | ⟨_, _, h⟩
          · cases h
          · exact h
        · exact h

/-- A target that is missing is created and mounted. -/
theorem returns_checkTarget (mountPermissions : ℕ) :
    (checkTarget target mountPermissions).Returns true :=
  ⟨.ok true, rfl⟩

theorem not_performs_setPermissions (mountPermissions : ℕ) :
    ¬(setPermissions target mountPermissions).Performs (.mount source path fstype options) := by
  unfold setPermissions
  split
  · rw [Prog.performs_mapError, chmodIfPermissionMismatch, Prog.performs_bind, Prog.performs_must,
      perform, Prog.performs_op]
    rintro (h | ⟨info, _, h⟩)
    · cases h
    · split at h
      · rw [Prog.performs_must, perform, Prog.performs_op] at h
        cases h
      · exact h
  · exact id

theorem not_performs_updateReadAhead (kb : ℤ) :
    ¬(updateReadAhead target kb).Performs (.mount source path fstype options) := by
  intro h
  obtain h | ⟨output, -, h⟩ := Prog.performs_bind.mp h
  · cases Prog.performs_op.mp (Prog.performs_must.mp h)
  obtain h | ⟨_, -, h⟩ := Prog.performs_bind.mp h
  · cases Prog.performs_op.mp (Prog.performs_must.mp h)
  obtain h | ⟨op, -, h⟩ := Prog.performs_bind.mp h
  · cases Prog.performs_op.mp (Prog.performs_must.mp h)
  -- what is left compares the values
  split at h
  · exact h
  · split at h <;> exact h

theorem not_performs_setReadAhead (flags : List String) :
    ¬(setReadAhead target flags).Performs (.mount source path fstype options) := by
  rw [setReadAhead, Prog.performs_ofExcept_bind]
  rintro ⟨flag, -, h⟩
  cases flag with
  | none => exact h
  | some kb => exact not_performs_updateReadAhead kb (Prog.performs_mapError.mp h)

theorem performs_mountTarget_iff {m : MountSpec} :
    (mountTarget target m).Performs (.mount source path fstype options) ↔
      source = m.source ∧ path = target ∧ fstype = "nfs" ∧
        options = collectMountOptions m.mountOptions := by
  have hrest : ¬(do setPermissions target m.mountPermissions
                    setReadAhead target m.mountOptions : Sys RpcError Unit).Performs
      (.mount source path fstype options) := by
    rw [Prog.performs_bind]
    rintro (h | ⟨_, _, h⟩)
    · exact not_performs_setPermissions _ h
    · exact not_performs_setReadAhead _ h
  rw [mountTarget, Prog.performs_bind, Prog.performs_must, perform, Prog.performs_op, or_iff_left]
  · simp [eq_comm]
  · rintro ⟨_, -, h⟩
    exact hrest h

theorem performs_publishTarget_iff :
    (publishTarget d volCap req).Performs (.mount source path fstype options) ↔
      ∃ σ ρ m, mountSpec d σ ρ volCap req = .ok m ∧ source = m.source ∧ path = req.targetPath ∧
        fstype = "nfs" ∧ options = collectMountOptions m.mountOptions := by
  constructor
  · intro h
    obtain h | ⟨σ, h⟩ := Prog.performs_op_bind.mp h
    · cases h
    obtain h | ⟨ρ, h⟩ := Prog.performs_op_bind.mp h
    · cases h
    obtain ⟨m, hm, h⟩ := Prog.performs_ofExcept_bind.mp h
    obtain h | ⟨notMnt, -, h⟩ := Prog.performs_bind.mp h
    · exact absurd h (not_performs_checkTarget _)
    cases notMnt with
    | true => exact ⟨σ, ρ, m, hm, performs_mountTarget_iff.mp h⟩
    | false => exact absurd h Prog.performs_done
  · -- the orders are the first two answers, and the target may not be mounted
    rintro ⟨σ, ρ, m, hm, h⟩
    refine Prog.performs_op_bind.mpr (Or.inr ⟨σ, ?_⟩)
    refine Prog.performs_op_bind.mpr (Or.inr ⟨ρ, ?_⟩)
    refine Prog.performs_ofExcept_bind.mpr ⟨m, hm, ?_⟩
    exact Prog.performs_bind.mpr
      (Or.inr ⟨true, returns_checkTarget _, performs_mountTarget_iff.mpr h⟩)

/-- **The mounts of a request**: one for each specification that the orders of the loops make of
it. -/
theorem performs_mount_iff :
    (nodePublishVolume d req).Performs (.base (.mount source path fstype options)) ↔
      ∃ m, GetsToMount d req m ∧ source = m.source ∧ path = req.targetPath ∧ fstype = "nfs" ∧
        options = collectMountOptions m.mountOptions := by
  unfold nodePublishVolume onNode GetsToMount Asks
  cases hcap : req.volumeCapability with
  | none => simp [Prog.fail, Prog.Performs]
  | some volCap =>
      simp only [Prog.performs_require_bind]
      cases hns : d.ns with
      | none => simp [Prog.panic, Prog.Performs]
      | some ns =>
          simp only [performs_withLock, performs_publishTarget_iff]
          constructor
          · rintro ⟨hid, htarget, σ, ρ, m, hm, h⟩
            exact ⟨m, ⟨by simp, hid, htarget, volCap, σ, ρ, rfl, hm⟩, h⟩
          · rintro ⟨m, ⟨-, hid, htarget, cap, σ, ρ, hcap', hm⟩, h⟩
            cases hcap'
            exact ⟨hid, htarget, σ, ρ, m, hm, h⟩

/-! ## The list of options -/

/-- The options that a request comes with: the flags of the capability and the `mountOptions`
entries. -/
def NodePublishVolumeRequest.givenOptions (req : NodePublishVolumeRequest) : List String :=
  req.volumeCapability.elim [] VolumeCapability.mountFlags ++
    valuesOf paramKey .mountOptions req.volumeContext.entries

theorem mem_mountOptions_iff {σ ρ : MapOrder} {m : MountSpec} {opt : String}
    (hcap : req.volumeCapability = some volCap) (hm : mountSpec d σ ρ volCap req = .ok m)
    (hne : opt ≠ "") (hro : opt ≠ "ro") : opt ∈ m.mountOptions ↔ opt ∈ req.givenOptions := by
  obtain ⟨p, ip, hp, -, -, rfl⟩ := mountSpec_eq_ok_iff.mp hm
  have hperm : opt ∈ valuesOf paramKey .mountOptions (σ.range req.volumeContext) ↔
      opt ∈ valuesOf paramKey .mountOptions req.volumeContext.entries :=
    (valuesOf_perm (σ.perm _)).mem_iff
  show opt ∈ p.mountOptions ↔ _
  rw [publishParams_mountOptions hp, NodePublishVolumeRequest.givenOptions, hcap]
  by_cases hreadonly : req.readonly <;>
    simp [contextOptions, hperm, hne, hro, hreadonly]

/-! ## The read-ahead pseudo-option -/

/-- The pseudo-option is one of the components between the commas. -/
def HasReadAhead (opt : String) : Prop :=
  ∃ part ∈ split ',' opt, ∃ value : String, value ≠ "" ∧ part = "read_ahead_kb=" ++ value

theorem HasReadAhead.ne {opt : String} (h : HasReadAhead opt) : opt ≠ "" ∧ opt ≠ "ro" := by
  obtain ⟨part, hpart, value, -, rfl⟩ := h
  have hk : 'k' ∈ opt.toList := (mem_iff_mem_split (by decide)).mpr ⟨_, hpart, by simp⟩
  constructor
  · rintro rfl
    exact absurd hk (by decide)
  · rintro rfl
    exact absurd hk (by decide)

/-- **The read-ahead option and `mount`.** No option that reaches `mount` has the pseudo-option
between its commas, and the value is looked at whenever the request has it, exactly when every
option of the request that has it is nothing but the pseudo-option, with its value on one line. A
request that is refused before the mount does not matter. -/
theorem read_ahead_kept_away_iff (d : Driver) (req : NodePublishVolumeRequest) :
    ((∀ source path fstype options,
        (nodePublishVolume d req).Performs (.base (.mount source path fstype options)) →
        ∀ opt ∈ options, ¬HasReadAhead opt) ∧
      ∀ m, GetsToMount d req m → (∃ opt ∈ req.givenOptions, HasReadAhead opt) →
        extractReadAheadKBMountFlag m.mountOptions ≠ .ok none) ↔
    ((∃ m, GetsToMount d req m) → ∀ opt ∈ req.givenOptions, HasReadAhead opt →
      IsReadAheadFlag opt) := by
  -- an option with the component is in the list exactly when the request gives it
  have hmem : ∀ m opt, GetsToMount d req m → HasReadAhead opt →
      (opt ∈ m.mountOptions ↔ opt ∈ req.givenOptions) := by
    intro m opt hgets hhas
    obtain ⟨-, -, -, volCap, σ, ρ, hcap, hm⟩ := hgets
    exact mem_mountOptions_iff hcap hm hhas.ne.1 hhas.ne.2
  constructor
  · rintro ⟨haway, -⟩ ⟨m, hgets⟩ opt hopt hhas
    by_contra hflag
    have hcollected : opt ∈ collectMountOptions m.mountOptions :=
      mem_collectMountOptions.mpr ⟨(hmem m opt hgets hhas).mpr hopt, hflag⟩
    exact haway _ _ _ _ (performs_mount_iff.mpr ⟨m, hgets, rfl, rfl, rfl, rfl⟩) opt hcollected hhas
  · intro hwhole
    constructor
    · intro source path fstype options hperform opt hopt hhas
      obtain ⟨m, hgets, -, -, -, rfl⟩ := performs_mount_iff.mp hperform
      obtain ⟨hlist, hflag⟩ := mem_collectMountOptions.mp hopt
      exact hflag (hwhole ⟨m, hgets⟩ opt ((hmem m opt hgets hhas).mp hlist) hhas)
    · rintro m hgets ⟨opt, hopt, hhas⟩ hnone
      have hkept := collectMountOptions_eq_self_iff.mp (extract_eq_ok_none_iff.mp hnone)
      exact hkept opt ((hmem m opt hgets hhas).mpr hopt) (hwhole ⟨m, hgets⟩ opt hopt hhas)

/-- Options in one string, as they are usually written. -/
theorem joined_read_ahead_reaches_mount :
    (nodePublishVolume (nodeDriver 0) (flagRequest "hard,read_ahead_kb=128")).Performs
      (.base (.mount "10.0.0.1:/s" "/t" "nfs" ["hard,read_ahead_kb=128"])) ∧
    HasReadAhead "hard,read_ahead_kb=128" ∧
    extractReadAheadKBMountFlag ["hard,read_ahead_kb=128"] = .ok none := by
  refine ⟨performs_mount_iff.mpr ?_, ⟨"read_ahead_kb=128", by decide, "128", by decide, by decide⟩,
    by decide⟩
  refine ⟨⟨"10.0.0.1:/s", ["hard,read_ahead_kb=128"], 0⟩,
    ⟨by decide, by decide, by decide, ?_⟩, rfl, rfl, rfl, by decide⟩
  exact ⟨_, .asWritten, .asWritten, rfl, rfl⟩

/-! ## Read-only mounts -/

/-- The components between the commas that say whether a mount is read-only, in their order. -/
def modes (options : List String) : List String :=
  (options.flatMap (split ',')).filter (fun part => part = "ro" ∨ part = "rw")

theorem modes_append (l l' : List String) : modes (l ++ l') = modes l ++ modes l' := by
  simp [modes]

/-- The last mode of a list is the last mode of one of its options. -/
theorem exists_of_getLast?_modes {l : List String} {mode : String}
    (h : (modes l).getLast? = some mode) : ∃ opt ∈ l, (modes [opt]).getLast? = some mode := by
  induction l with
  | nil => cases h
  | cons opt l ih =>
      rw [← List.singleton_append, modes_append, List.getLast?_append] at h
      cases hl : (modes l).getLast? with
      | none =>
          rw [hl] at h
          exact ⟨opt, List.mem_cons_self, h⟩
      | some mode' =>
          rw [hl] at h
          obtain ⟨opt', hopt', hmode⟩ := ih (hl.trans h)
          exact ⟨opt', List.mem_cons_of_mem opt hopt', hmode⟩

theorem mode_eq {l : List String} {mode : String} (h : mode ∈ modes l) :
    mode = "ro" ∨ mode = "rw" := by
  simpa using (List.mem_filter.mp h).2

theorem collectMountOptions_append (l l' : List String) :
    collectMountOptions (l ++ l') = collectMountOptions l ++ collectMountOptions l' :=
  List.filter_append l l'

/-- The options of a read-only request: flags, `ro`, and the options of the volume context. -/
theorem collected_of_readonly {σ ρ : MapOrder} {m : MountSpec} (hro : req.readonly = true)
    (hm : mountSpec d σ ρ volCap req = .ok m) : collectMountOptions m.mountOptions =
      collectMountOptions volCap.mountFlags ++ ["ro"] ++
        collectMountOptions (contextOptions (σ.range req.volumeContext)) := by
  obtain ⟨p, ip, hp, -, -, rfl⟩ := mountSpec_eq_ok_iff.mp hm
  show collectMountOptions p.mountOptions = _
  rw [publishParams_mountOptions hp, hro, collectMountOptions_append, collectMountOptions_append]
  rfl

/-- Another order of the loop gets to the mount as well, if it leaves the share alone. -/
theorem exists_mountSpec_of_order {σ ρ τ : MapOrder} {m : MountSpec}
    (hm : mountSpec d σ ρ volCap req = .ok m)
    (hshare : valuesOf paramKey .share (τ.range req.volumeContext) =
      valuesOf paramKey .share (σ.range req.volumeContext)) :
    ∃ m', mountSpec d τ ρ volCap req = .ok m' := by
  obtain ⟨p, ip, hp, hbase, hip, -⟩ := mountSpec_eq_ok_iff.mp hm
  obtain ⟨q, hq⟩ := publishParams_isOk_iff (σ := τ) |>.mpr (publishParams_isOk_iff.mp ⟨p, hp⟩)
  have hsame : q.baseDir = p.baseDir := by
    rw [publishParams_baseDir hq, publishParams_baseDir hp, hshare]
  exact ⟨_, mountSpec_eq_ok_iff.mpr ⟨q, ip, hq, hsame ▸ hbase, hip, rfl⟩⟩

/-- Some order of the loop mounts with the option of a given entry as the last one. -/
theorem exists_mount_with_last {m : MountSpec} {e : String × String} (hro : req.readonly = true)
    (hgets : GetsToMount d req m) (he : e ∈ req.volumeContext.entries)
    (hkey : paramKey e.1 = some .mountOptions) (hflag : ¬IsReadAheadFlag e.2) (hne : e.2 ≠ "") :
    ∃ m' l, GetsToMount d req m' ∧ collectMountOptions m'.mountOptions = l ++ [e.2] := by
  obtain ⟨hns, hid, htarget, volCap, σ, ρ, hcap, hm⟩ := hgets
  -- moving the entry to the end leaves the values of `share` in their order
  obtain ⟨τ, hτ⟩ := σ.exists_range_last he
  have hother : paramKey e.1 ≠ some .share := by
    rw [hkey]
    decide
  have hshare : valuesOf paramKey .share (τ.range req.volumeContext) =
      valuesOf paramKey .share (σ.range req.volumeContext) := by
    rw [hτ, valuesOf_append, valuesOf_erase hother, valuesOf_cons, if_neg hother]
    exact List.append_nil _
  obtain ⟨m', hm'⟩ := exists_mountSpec_of_order hm hshare
  have hlast : collectMountOptions (contextOptions [e]) = [e.2] := by
    rw [contextOptions_singleton, if_pos hkey, collectMountOptions_eq_filter]
    simp [hne, hflag]
  have hcollected := collected_of_readonly hro hm'
  rw [hτ, contextOptions_append, collectMountOptions_append, hlast,
    ← List.append_assoc] at hcollected
  exact ⟨m', _, ⟨hns, hid, htarget, volCap, τ, ρ, hcap, hm'⟩, hcollected⟩

/-- **Read-only requests.** The last mode among the options of every mount is `ro` exactly when no
`mountOptions` entry of the volume context that is passed on ends in the mode `rw`; a request that
is refused before the mount does not matter. -/
theorem stays_read_only_iff (d : Driver) (req : NodePublishVolumeRequest)
    (hro : req.readonly = true) : (∀ source path fstype options,
      (nodePublishVolume d req).Performs (.base (.mount source path fstype options)) →
      (modes options).getLast? = some "ro") ↔
    ((∃ m, GetsToMount d req m) →
      ∀ e ∈ req.volumeContext.entries, paramKey e.1 = some .mountOptions →
      ¬IsReadAheadFlag e.2 → (modes [e.2]).getLast? ≠ some "rw") := by
  constructor
  · rintro hstays ⟨m, hgets⟩ e he hkey hflag hrw
    have hne : e.2 ≠ "" := by
      intro hempty
      rw [hempty] at hrw
      exact absurd hrw (by decide)
    obtain ⟨m', l, hgets', hlast⟩ := exists_mount_with_last hro hgets he hkey hflag hne
    have hmount := hstays _ _ _ _ (performs_mount_iff.mpr ⟨m', hgets', rfl, rfl, rfl, rfl⟩)
    rw [hlast, modes_append, List.getLast?_append, hrw, Option.some_or] at hmount
    exact absurd (Option.some.inj hmount) (by decide)
  · intro hkept source path fstype options hperform
    obtain ⟨m, hgets, -, -, -, rfl⟩ := performs_mount_iff.mp hperform
    have hgets' := hgets
    obtain ⟨-, -, -, volCap, σ, ρ, hcap, hm⟩ := hgets
    rw [collected_of_readonly hro hm, modes_append, List.getLast?_append]
    cases hmode : (modes (collectMountOptions
      (contextOptions (σ.range req.volumeContext)))).getLast? with
    | none =>
        -- nothing after the `ro` of the request
        rw [modes_append, List.getLast?_append]
        rfl
    | some mode =>
        obtain ⟨opt, hopt, hopt'⟩ := exists_of_getLast?_modes hmode
        obtain ⟨hcontext, hflag⟩ := mem_collectMountOptions.mp hopt
        obtain ⟨e, he, hkey, rfl⟩ := mem_valuesOf.mp (List.mem_of_mem_filter hcontext)
        rcases mode_eq (List.mem_of_getLast? hmode) with rfl | rfl
        · rfl
        · exact absurd hopt' (hkept ⟨m, hgets'⟩ e (MapOrder.mem_range.mp he) hkey hflag)

end

/-- A read-only request for `10.0.0.1:/s` at `/t` with mount options in its volume context. -/
def readOnlyRequest (mountOptions : String) : NodePublishVolumeRequest where
  volumeId := "v"
  publishContext := (∅ : StringMap).set nodeAnnotationKey "10.0.0.1"
  targetPath := "/t"
  volumeCapability := some ⟨some (.mount [])⟩
  readonly := true
  volumeContext := ((∅ : StringMap).set "share" "/s").set "mountOptions" mountOptions

theorem stays_read_only_soft :
    (nodePublishVolume (nodeDriver 0) (readOnlyRequest "soft,noatime")).Performs
      (.base (.mount "10.0.0.1:/s" "/t" "nfs" ["ro", "soft,noatime"])) ∧
    ∀ source path fstype options,
      (nodePublishVolume (nodeDriver 0) (readOnlyRequest "soft,noatime")).Performs
        (.base (.mount source path fstype options)) → (modes options).getLast? = some "ro" := by
  constructor
  · refine performs_mount_iff.mpr ⟨⟨"10.0.0.1:/s", ["ro", "soft,noatime"], 0⟩, ?_, rfl, rfl, rfl,
      by decide⟩
    exact ⟨by decide, by decide, by decide, _, .asWritten, .asWritten, rfl, rfl⟩
  · refine (stays_read_only_iff (nodeDriver 0) (readOnlyRequest "soft,noatime") rfl).mpr ?_
    rintro - e he hkey -
    have hentry : e ∈ [("share", "/s"), ("mountOptions", "soft,noatime")] := he
    rw [List.mem_pair] at hentry
    rcases hentry with rfl | rfl
    · exact absurd hkey (by decide)
    · decide

/-- The volume context has the last word. -/
theorem context_overrides_read_only :
    (nodePublishVolume (nodeDriver 0) (readOnlyRequest "rw")).Performs
      (.base (.mount "10.0.0.1:/s" "/t" "nfs" ["ro", "rw"])) ∧
    (modes ["ro", "rw"]).getLast? = some "rw" := by
  refine ⟨performs_mount_iff.mpr ?_, by decide⟩
  refine ⟨⟨"10.0.0.1:/s", ["ro", "rw"], 0⟩, ⟨by decide, by decide, by decide, ?_⟩, rfl, rfl, rfl,
    by decide⟩
  exact ⟨_, .asWritten, .asWritten, rfl, rfl⟩

end NfsLbCsi
