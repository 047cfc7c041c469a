import NfsLbCsi.Volumes.RoundTrip

set_option autoImplicit false

/-! # Which strings are IDs

`getNfsVolFromID` reads two formats. With two separators or more, the first five segments are the
fields by position. Otherwise the ID has the old form `server/baseDir/subDir`, in which the base
directory may have slashes of its own; the pattern splits at the first and at the last slash.
`volume_id_grammar` says exactly which strings are accepted and what becomes of them.

`getNfsSnapFromID` reads one format of exactly five segments; `snapshot_id_round_trip` says what a
snapshot ID brings back, and that the archive is looked for where it was written.
-/

namespace NfsLbCsi

open GoString GoPath

/-! ## Segments -/

section

variable {id s m t s' m' t' : String}

theorem length_split_cons (c a : Char) (l : List Char) :
    ((a :: l).splitOn c).length = (if a = c then 1 else 0) + (l.splitOn c).length := by
  rw [List.splitOn_cons_eq_if_modifyHead]
  by_cases ha : a = c
  · simp [ha, add_comm]
  · simp [ha]

theorem length_split (c : Char) (s : String) : (split c s).length = s.toList.count c + 1 := by
  rw [split, List.length_map]
  induction s.toList with
  | nil => simp
  | cons a l ih =>
      rw [length_split_cons, ih, List.count_cons]
      by_cases ha : a = c
      · simp [ha, add_comm]
      · simp [ha]

/-! ## The old form of a volume ID -/

/-- `id` is `s/m/t`: `s` and `t` are not empty and have no slash, and `m` is on one line. -/
structure SlashForm (id s m t : String) : Prop where
  eq : id = s ++ "/" ++ m ++ "/" ++ t
  left_ne : s ≠ ""
  left_slash : '/' ∉ s.toList
  right_ne : t ≠ ""
  right_slash : '/' ∉ t.toList
  middle_line : '\n' ∉ m.toList

/-- The last field of a join. -/
theorem join_concat (c : Char) {l : List String} (h : l ≠ []) (x : String) :
    (join c (l ++ [x])).toList = (join c l).toList ++ c :: x.toList := by
  induction l with
  | nil => exact absurd rfl h
  | cons a l ih =>
      cases l with
      | nil =>
          rw [List.singleton_append, toList_join_cons_cons, join_singleton, join_singleton]
      | cons b l =>
          have htail := ih (by simp)
          rw [List.cons_append, List.cons_append, toList_join_cons_cons, ← List.cons_append, htail,
            toList_join_cons_cons, List.append_assoc, List.cons_append]

theorem toList_slashes (s m t : String) :
    (s ++ "/" ++ m ++ "/" ++ t).toList = s.toList ++ '/' :: (m.toList ++ '/' :: t.toList) := by
  simp

/-- The pieces between the slashes. -/
theorem SlashForm.split (h : SlashForm id s m t) :
    GoString.split '/' id = s :: (GoString.split '/' m ++ [t]) := by
  have hlist : id.toList = s.toList ++ '/' :: (m.toList ++ '/' :: t.toList) := by
    rw [h.eq, toList_slashes]
  have hrest : (String.ofList (m.toList ++ '/' :: t.toList)).toList = m.toList ++ '/' :: t.toList :=
    String.toList_ofList
  rw [split_append_cons hlist, split_append_cons hrest, String.ofList_toList, String.ofList_toList,
    String.ofList_toList, split_of_not_mem h.left_slash, split_of_not_mem h.right_slash]
  rfl

/-- **The pattern** accepts the old form, and takes it apart at the first and the last slash. -/
theorem matchVolRegex_eq_some_iff : matchVolRegex id = some (s, m, t) ↔ SlashForm id s m t := by
  constructor
  · intro h
    unfold matchVolRegex at h
    split at h
    · rename_i server b bs hsplit
      obtain ⟨⟨hbs, hserver, hsub, hline⟩, heq⟩ := Option.ite_none_right_eq_some.mp h
      obtain ⟨rfl, rfl, rfl⟩ : server = s ∧ join '/' ((b :: bs).dropLast) = m ∧
          (b :: bs).getLast (List.cons_ne_nil b bs) = t := by simpa using heq
      -- the greedy middle part is all pieces between the first and the last one
      have hlast := List.dropLast_append_getLast (List.cons_ne_nil b bs)
      have hfree : ∀ x ∈ server :: b :: bs, '/' ∉ x.toList :=
        fun x hx => not_mem_of_mem_split (hsplit ▸ hx)
      have hdrop : (b :: bs).dropLast ≠ [] := by
        cases bs with
        | nil => exact absurd rfl hbs
        | cons b' bs => simp
      refine ⟨String.toList_inj.mp ?_, hserver, hfree server (by simp), hsub, ?_, hline⟩
      · calc id.toList = (join '/' (server :: b :: bs)).toList := by rw [← hsplit, join_split]
          _ = server.toList ++ '/' :: (join '/' (b :: bs)).toList := toList_join_cons_cons _ _ _ _
          _ = server.toList ++ '/' :: ((join '/' ((b :: bs).dropLast)).toList ++
                '/' :: ((b :: bs).getLast (List.cons_ne_nil b bs)).toList) := by
              rw [← join_concat '/' hdrop, hlast]
          _ = _ := (toList_slashes _ _ _).symm
      · exact hfree _ (List.mem_cons_of_mem _ (List.getLast_mem _))
    · cases h
  · intro h
    obtain ⟨x, xs, hm⟩ := List.exists_cons_of_ne_nil (split_ne_nil '/' m)
    have hsplit := h.split
    rw [hm, List.cons_append] at hsplit
    have hdrop : (x :: (xs ++ [t])).dropLast = GoString.split '/' m := by
      rw [hm, ← List.cons_append, List.dropLast_concat]
    have hlast : (x :: (xs ++ [t])).getLast (List.cons_ne_nil x (xs ++ [t])) = t := by
      simp
    simp only [matchVolRegex, hsplit, hdrop, hlast, join_split]
    exact if_pos ⟨by simp, h.left_ne, h.right_ne, h.middle_line⟩

/-- The decomposition is unique. -/
theorem SlashForm.unique (h : SlashForm id s m t) (h' : SlashForm id s' m' t') :
    s' = s ∧ m' = m ∧ t' = t := by
  have heq := (matchVolRegex_eq_some_iff.mpr h').symm.trans (matchVolRegex_eq_some_iff.mpr h)
  simpa using heq

theorem matchVolRegex_eq_none_iff : matchVolRegex id = none ↔ ¬∃ s m t, SlashForm id s m t := by
  rw [Option.eq_none_iff_forall_ne_some]
  constructor
  · rintro h ⟨s, m, t, hform⟩
    exact h (s, m, t) (matchVolRegex_eq_some_iff.mpr hform)
  · rintro h ⟨s, m, t⟩ hmatch
    exact h ⟨s, m, t, matchVolRegex_eq_some_iff.mp hmatch⟩

/-! ## The two formats -/

/-- The segment of an ID at a place, empty when there are fewer. -/
def segment (id : String) (i : ℕ) : String := ((GoString.split separator id)[i]?).getD ""

/-- With two separators or more the fields are the segments. -/
theorem getNfsVolFromID_of_separators (h : 2 ≤ id.toList.count separator) :
    getNfsVolFromID id = .ok
      { id := id, server := segment id 0, baseDir := segment id 1, subDir := segment id 2
        size := 0, uuid := segment id 3, onDelete := segment id 4 } := by
  have hlength := length_split separator id
  unfold getNfsVolFromID segment
  -- fewer than three segments contradict the count
  rcases hsplit : GoString.split separator id with _ | ⟨server, _ | ⟨baseDir, _ | ⟨subDir, rest⟩⟩⟩
  · exact absurd hsplit (split_ne_nil separator id)
  · simp only [hsplit, List.length_cons, List.length_nil] at hlength
    omega
  · simp only [hsplit, List.length_cons, List.length_nil] at hlength
    omega
  · rfl

/-- With fewer the pattern decides. -/
theorem getNfsVolFromID_of_few_separators (h : id.toList.count separator < 2) :
    (∀ s m t, matchVolRegex id = some (s, m, t) → getNfsVolFromID id = .ok
      { id := id, server := s, baseDir := m, subDir := t, size := 0, uuid := "", onDelete := "" }) ∧
    (matchVolRegex id = none → ∃ err, getNfsVolFromID id = .error err) := by
  have hlength := length_split separator id
  unfold getNfsVolFromID
  split
  · rename_i server baseDir subDir rest hsplit
    simp only [hsplit, List.length_cons] at hlength
    omega
  · constructor
    · intro s m t hmatch
      rw [hmatch]
    · intro hnone
      rw [hnone]
      exact ⟨_, rfl⟩

/-- **The grammar of volume IDs.** A string is refused exactly when it has fewer than two separators
and not the old form. In the old form the parts are unique and are the fields, without UUID and
policy; with two separators or more the fields are the first five segments. -/
theorem volume_id_grammar (id : String) :
    ((∃ err, getNfsVolFromID id = .error err) ↔
      id.toList.count '#' < 2 ∧ ¬∃ s m t, SlashForm id s m t) ∧
    (∀ s m t, id.toList.count '#' < 2 → SlashForm id s m t →
      getNfsVolFromID id = .ok
        { id := id, server := s, baseDir := m, subDir := t, size := 0, uuid := "",
          onDelete := "" } ∧
      ∀ s' m' t', SlashForm id s' m' t' → s' = s ∧ m' = m ∧ t' = t) ∧
    (2 ≤ id.toList.count '#' → getNfsVolFromID id = .ok
      { id := id, server := segment id 0, baseDir := segment id 1, subDir := segment id 2
        size := 0, uuid := segment id 3, onDelete := segment id 4 }) := by
  refine ⟨?_, ?_, getNfsVolFromID_of_separators⟩
  · by_cases hcount : id.toList.count '#' < 2
    · obtain ⟨hsome, hnone⟩ := getNfsVolFromID_of_few_separators hcount
      rw [and_iff_right hcount, ← matchVolRegex_eq_none_iff]
      refine ⟨fun ⟨err, herr⟩ => ?_, hnone⟩
      cases hmatch : matchVolRegex id with
      | none => rfl
      | some parts =>
          rw [hsome parts.1 parts.2.1 parts.2.2 hmatch] at herr
          cases herr
    · rw [getNfsVolFromID_of_separators (not_lt.mp hcount)]
      simp [hcount]
  · intro s m t hcount hform
    refine ⟨?_, fun s' m' t' => hform.unique⟩
    exact (getNfsVolFromID_of_few_separators hcount).1 s m t (matchVolRegex_eq_some_iff.mpr hform)

end

example : getNfsVolFromID "nfs/a//b/c" = .ok
    { id := "nfs/a//b/c", server := "nfs", baseDir := "a//b", subDir := "c", size := 0, uuid := ""
      onDelete := "" } := by decide

/-! ## Snapshot IDs -/

section

variable {σ : MapOrder} {name : String} {params : StringMap} {vol : NfsVolume}
    {snap dec : NfsSnapshot}

theorem newNFSSnapshot_ok (h : newNFSSnapshot σ name params vol = .ok snap) :
    snap.uuid = name ∧ snap.src = vol.mountDir ∧ snap.id = getSnapshotIDFromNfsSnapshot snap := by
  unfold newNFSSnapshot at h
  split at h
  · cases h
  · split at h
    · cases h
    · split at h
      · cases h
      · obtain rfl := Except.ok.inj h
        exact ⟨rfl, rfl, by simp only [getSnapshotIDFromNfsSnapshot]⟩

/-- Without separators in its fields, a snapshot ID has the fields for segments. -/
theorem getNfsSnapFromID_snapshotID (hid : snap.id = getSnapshotIDFromNfsSnapshot snap)
    (hserver : separator ∉ snap.server.toList) (hbase : separator ∉ snap.baseDir.toList)
    (huuid : separator ∉ snap.uuid.toList) (hsrc : separator ∉ snap.src.toList) :
    getNfsSnapFromID snap.id = .ok
      { id := snap.id, server := trim '/' snap.server, baseDir := trim '/' snap.baseDir
        uuid := snap.uuid, src := snap.src } := by
  have hfields : ∀ x ∈ [trim '/' snap.server, trim '/' snap.baseDir, snap.uuid,
      snap.uuid, snap.src], separator ∉ x.toList := by
    simp only [List.forall_mem_cons, List.not_mem_nil, false_imp_iff, implies_true, and_true]
    exact ⟨not_mem_trim (by decide) hserver, not_mem_trim (by decide) hbase, huuid, huuid, hsrc⟩
  have hsplit : split separator snap.id =
      [trim '/' snap.server, trim '/' snap.baseDir, snap.uuid, snap.uuid, snap.src] := by
    rw [hid, getSnapshotIDFromNfsSnapshot]
    exact split_join_of_not_mem (by simp) hfields
  rw [getNfsSnapFromID, hsplit]

theorem getNfsSnapFromID_of_length {id : String} (h : (split separator id).length ≠ 5) :
    ∃ err, getNfsSnapFromID id = .error err := by
  unfold getNfsSnapFromID
  split
  · rename_i hsplit
    rw [hsplit] at h
    exact absurd rfl h
  · exact ⟨_, rfl⟩

/-- The directory of a snapshot follows from its name. -/
theorem volumePath_of_uuid_eq (huuid : dec.uuid = snap.uuid) (w : String) :
    getInternalVolumePath w (volumeFromSnapshot dec) =
      getInternalVolumePath w (volumeFromSnapshot snap) := by
  have hmount : (volumeFromSnapshot dec).mountDir = (volumeFromSnapshot snap).mountDir := by
    unfold NfsVolume.mountDir volumeFromSnapshot
    rw [huuid]
  have hsub : (volumeFromSnapshot dec).subDir = (volumeFromSnapshot snap).subDir := huuid
  rw [getInternalVolumePath, getInternalVolumePath, getInternalMountPath,
    getInternalMountPath, hmount, hsub]

theorem snapshotArchive_congr (huuid : dec.uuid = snap.uuid) (hsrc : dec.src = snap.src)
    (w : String) : snapshotArchive w dec = snapshotArchive w snap := by
  rw [snapshotArchive, snapshotArchive, volumePath_of_uuid_eq huuid, NfsSnapshot.archiveName,
    NfsSnapshot.archiveName, hsrc]

/-- **The round trip of snapshot IDs.** The ID of a snapshot whose name, server, base directory and
source have no `#` is decoded to the same name and source and the trimmed server and base directory;
the archive is looked for where it was written, in the directory that a deletion removes. A string
without exactly five segments is refused. -/
theorem snapshot_id_round_trip (σ : MapOrder) (name : String) (params : StringMap) (vol : NfsVolume)
    (snap : NfsSnapshot) (hsnap : newNFSSnapshot σ name params vol = .ok snap)
    (hname : '#' ∉ name.toList) (hserver : '#' ∉ snap.server.toList)
    (hbase : '#' ∉ snap.baseDir.toList) (hsrc : '#' ∉ snap.src.toList) :
    (∃ dec, getNfsSnapFromID snap.id = .ok dec ∧ dec.uuid = snap.uuid ∧ dec.src = snap.src ∧
      dec.server = trim '/' snap.server ∧ dec.baseDir = trim '/' snap.baseDir ∧
      ∀ w, snapshotArchive w dec = snapshotArchive w snap ∧
        getInternalVolumePath w (volumeFromSnapshot dec) =
          getInternalVolumePath w (volumeFromSnapshot snap)) ∧
    ∀ id, (split '#' id).length ≠ 5 → ∃ err, getNfsSnapFromID id = .error err := by
  obtain ⟨huuid, -, hid⟩ := newNFSSnapshot_ok hsnap
  have hdec := getNfsSnapFromID_snapshotID hid hserver hbase (huuid ▸ hname) hsrc
  refine ⟨⟨_, hdec, rfl, rfl, rfl, rfl, fun w => ?_⟩, fun id => getNfsSnapFromID_of_length⟩
  exact ⟨snapshotArchive_congr rfl rfl w, volumePath_of_uuid_eq rfl w⟩

end

/-- A volume whose ID has the old form. -/
def slashVolume : NfsVolume :=
  { id := "nfs/export/pvc-1", server := "nfs", baseDir := "export", subDir := "pvc-1", size := 0
    uuid := "", onDelete := "" }

/-- A snapshot of it. -/
def slashSnapshot : NfsSnapshot :=
  { id := "nfs#export#snap-1#snap-1#pvc-1", server := "nfs", baseDir := "export", uuid := "snap-1"
    src := "pvc-1" }

theorem snapshot_id_round_trip_slash :
    getNfsVolFromID slashVolume.id = .ok slashVolume ∧
    newNFSSnapshot .asWritten "snap-1" ∅ slashVolume = .ok slashSnapshot ∧
    ∃ dec, getNfsSnapFromID slashSnapshot.id = .ok dec ∧
      ∀ w, snapshotArchive w dec = snapshotArchive w slashSnapshot := by
  have hsnap : newNFSSnapshot .asWritten "snap-1" ∅ slashVolume = .ok slashSnapshot := by decide
  obtain ⟨⟨dec, hdec, -, -, -, -, hpaths⟩, -⟩ := snapshot_id_round_trip .asWritten "snap-1" ∅
    slashVolume slashSnapshot hsnap (by decide) (by decide) (by decide) (by decide)
  exact ⟨by decide, hsnap, dec, hdec, fun w => (hpaths w).1⟩

end NfsLbCsi
