import NfsLbCsi.Volumes.RoundTrip

set_option autoImplicit false

/-! # Where a deletion reaches

`DeleteVolume` mounts the share in the working directory, at the directory that the ID names, and
removes the volume's directory in it, or renames it to one with `archived-` in front. UUID and
subdirectory come out of the ID unchecked. When one of them has no name in it (it is empty, or all
slashes and dots) the directory is the mount point or the working directory itself; when a `..` is
left over it is a directory outside. `Confined` is the exact condition on the two.
-/

namespace NfsLbCsi

open GoString GoPath

/-- The three paths of a deletion are where they should be. -/
structure Contained (workingMountDir : String) (vol : NfsVolume) : Prop where
  mount : Below (getInternalMountPath workingMountDir vol) workingMountDir
  volume : Below (getInternalVolumePath workingMountDir vol)
    (getInternalMountPath workingMountDir vol)
  archived : Below (archivedInternalVolumePath workingMountDir vol)
    (getInternalMountPath workingMountDir vol)

/-- The mount directory of an ID leads below its start, and from there so do the subdirectory and
the subdirectory with `archived-` in front. -/
structure NfsVolume.Confined (vol : NfsVolume) : Prop where
  mount : Descends [] (elements vol.mountDir)
  volume : Descends (walk false [] (elements vol.mountDir))
    (elements vol.mountDir ++ elements vol.subDir)
  archived : Descends (walk false [] (elements vol.mountDir))
    (elements vol.mountDir ++ elements ("archived-" ++ vol.subDir))

section

variable {w x id : String} {v : NfsVolume}

theorem ne_empty_of_isAbs (h : isAbs w = true) : w ≠ "" := by
  rintro rfl
  exact absurd h (by decide)

/-! ## The paths as walks -/

theorem below_mountPath_iff (hw : isAbs w = true) :
    Below (getInternalMountPath w v) w ↔
      ∃ fs ≠ [], walk true (place w) (elements v.mountDir) = fs ++ ([] ++ place w) := by
  have hne := ne_empty_of_isAbs hw
  rw [Below, isAbs_getInternalMountPath hne, place_getInternalMountPath hne, hw]
  simp

/-- The mount path of a directory that leads below its start. -/
theorem place_mountPath (hw : isAbs w = true) (hm : Descends [] (elements v.mountDir)) :
    place (getInternalMountPath w v) = walk false [] (elements v.mountDir) ++ place w := by
  obtain ⟨fs, -, hfs, heq⟩ := hm
  rw [List.append_nil] at heq
  rw [place_getInternalMountPath (ne_empty_of_isAbs hw), hw, ← walk_normalize, heq,
    walk_names (fun f hf => hfs f (List.mem_reverse.mp hf)), List.reverse_reverse]

theorem below_join_mountPath_iff (hw : isAbs w = true) (hm : Descends [] (elements v.mountDir)) :
    Below (joinPath [getInternalMountPath w v, x]) (getInternalMountPath w v) ↔
      ∃ fs ≠ [], walk true (place w) (elements v.mountDir ++ elements x) =
        fs ++ (walk false [] (elements v.mountDir) ++ place w) := by
  have hne := getInternalMountPath_ne_empty (ne_empty_of_isAbs hw) v
  have habs : isAbs (getInternalMountPath w v) = true := by
    rw [isAbs_getInternalMountPath (ne_empty_of_isAbs hw), hw]
  rw [Below, isAbs_joinPath hne, place_joinPath hne, habs, walk_append,
    place_mountPath hw hm, ← place_mountPath hw hm,
    place_getInternalMountPath (ne_empty_of_isAbs hw), hw]
  simp

/-! ## The condition -/

theorem Descends.isName {base es : List String} (h : Descends [] es)
    (hbase : walk false [] es = base) : ∀ f ∈ base, IsName f := by
  obtain ⟨fs, -, hfs, heq⟩ := h
  rw [← hbase, heq, List.append_nil]
  exact hfs

theorem contained_iff (v : NfsVolume) :
    (∀ w, isAbs w = true → Contained w v) ↔ v.Confined := by
  constructor
  · intro h
    have hm : Descends [] (elements v.mountDir) :=
      (descends_iff (by simp)).mp fun w hw => (below_mountPath_iff hw).mp (h w hw).mount
    have hbase := Descends.isName hm rfl
    exact ⟨hm,
      (descends_iff hbase).mp fun w hw => (below_join_mountPath_iff hw hm).mp (h w hw).volume,
      (descends_iff hbase).mp fun w hw => (below_join_mountPath_iff hw hm).mp (h w hw).archived⟩
  · intro h w hw
    have hbase := Descends.isName h.mount rfl
    exact ⟨(below_mountPath_iff hw).mpr ((descends_iff (by simp)).mpr h.mount w hw),
      (below_join_mountPath_iff hw h.mount).mpr ((descends_iff hbase).mpr h.volume w hw),
      (below_join_mountPath_iff hw h.mount).mpr ((descends_iff hbase).mpr h.archived w hw)⟩

/-! ## Without `..` -/

/-- The first element of an archived path begins with `archived-`. -/
theorem archived_elements (s : String) :
    (∃ e ∈ elements ("archived-" ++ s), IsName e) ∧
      (".." ∉ elements s → ".." ∉ elements ("archived-" ++ s)) := by
  obtain ⟨e, es, hs, harch⟩ := split_append_left (c := '/') (a := "archived-") (s := s) (by decide)
  have hfirst : ∀ t : String, t.toList.head? ≠ some 'a' → "archived-" ++ e ≠ t := by
    rintro t ht rfl
    exact ht (by simp)
  constructor
  · refine ⟨"archived-" ++ e, by rw [elements, harch]; exact List.mem_cons_self, ?_⟩
    exact ⟨hfirst _ (by decide), hfirst _ (by decide), hfirst _ (by decide)⟩
  · intro hup hmem
    rw [elements, harch] at hmem
    rw [elements, hs] at hup
    rcases List.mem_cons.mp hmem with h | h
    · exact hfirst ".." (by decide) h.symm
    · exact hup (List.mem_cons_of_mem e h)

theorem confined_iff_of_not_up (hm : ".." ∉ elements v.mountDir) (hs : ".." ∉ elements v.subDir) :
    v.Confined ↔ (∃ e ∈ elements v.mountDir, IsName e) ∧ ∃ e ∈ elements v.subDir, IsName e := by
  have hmount : Descends [] ([] ++ elements v.mountDir) ↔ ∃ e ∈ elements v.mountDir, IsName e :=
    descends_of_not_up rfl hm
  rw [List.nil_append] at hmount
  obtain ⟨hname, hup⟩ := archived_elements v.subDir
  constructor
  · intro h
    exact ⟨hmount.mp h.mount, (descends_of_not_up rfl hs).mp h.volume⟩
  · rintro ⟨h₁, h₂⟩
    exact ⟨hmount.mpr h₁, (descends_of_not_up rfl hs).mpr h₂,
      (descends_of_not_up rfl (hup hs)).mpr hname⟩

/-! ## The result -/

/-- **When a deletion stays inside.** The mount path of an accepted ID is a proper descendant of
every absolute working directory, and the volume path and the archived path are proper descendants
of the mount path, exactly when the ID is confined. An ID without `..` is confined exactly when both
its mount directory and its subdirectory have a name in them. -/
theorem deletion_stays_inside_iff (id : String) :
    ((∀ v, getNfsVolFromID id = .ok v → ∀ w, isAbs w = true → Contained w v) ↔
      ∀ v, getNfsVolFromID id = .ok v → v.Confined) ∧
    (∀ v, getNfsVolFromID id = .ok v → ".." ∉ elements v.mountDir → ".." ∉ elements v.subDir →
      (v.Confined ↔
        (∃ e ∈ elements v.mountDir, IsName e) ∧ ∃ e ∈ elements v.subDir, IsName e)) :=
  ⟨forall₂_congr fun v _ => contained_iff v, fun _ _ => confined_iff_of_not_up⟩

theorem deletion_stays_inside_iff_template :
    templateVolume.id = "nfs#share#data#pvc-4bcb#Retain" ∧
    ∀ v, getNfsVolFromID templateVolume.id = .ok v → ∀ w, isAbs w = true → Contained w v := by
  refine ⟨rfl, (deletion_stays_inside_iff templateVolume.id).1.mpr fun v hv => ?_⟩
  have hdec : getNfsVolFromID templateVolume.id =
      .ok { templateVolume with baseDir := "share", subDir := "data" } := by decide
  obtain rfl := Except.ok.inj (hdec.symm.trans hv)
  exact ((deletion_stays_inside_iff templateVolume.id).2 _ hdec (by decide) (by decide)).mpr
    (by decide)

/-- The handle of the repository's sample volume. -/
def sampleHandle : String := "nfs-server.default.svc.cluster.local/share##"

/-- What it is decoded to: subdirectory and UUID are empty. -/
def sampleVolume : NfsVolume :=
  { id := sampleHandle, server := "nfs-server.default.svc.cluster.local/share", baseDir := "",
    subDir := "", size := 0, uuid := "", onDelete := "" }

/-- The deletion of the sample volume would mount the share over the working directory and remove
everything in it. -/
theorem sample_handle_not_contained :
    getNfsVolFromID sampleHandle = .ok sampleVolume ∧
    getInternalMountPath "/tmp" sampleVolume = "/tmp" ∧
    getInternalVolumePath "/tmp" sampleVolume = "/tmp" ∧
    ¬Contained "/tmp" sampleVolume := by
  refine ⟨by decide, by decide, by decide, fun h => ?_⟩
  have hmount : getInternalMountPath "/tmp" sampleVolume = "/tmp" := by decide
  have hbelow := h.mount
  rw [hmount] at hbelow
  exact not_below_self _ hbelow

end

end NfsLbCsi
