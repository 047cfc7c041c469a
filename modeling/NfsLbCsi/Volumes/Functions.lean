import NfsLbCsi.Basic.GoPath
import NfsLbCsi.Basic.StringMap

set_option autoImplicit false

/-! # Volumes, snapshots and their IDs

The functions of `pkg/nfs/controllerserver.go`, `utils.go` and `nfs.go` between a request's
parameters, the internal record of a volume, its ID and the paths that are derived from it. A loop
over a map takes its order as an argument: in `newNFSVolume`, `σ` is the order of the loop over the
parameters and `ρ` that of the loop over the replacement map.
-/

namespace NfsLbCsi

open GoString GoPath

/-! ## Parameters -/

/-- The parameter names that the driver knows, in the storage class and in the volume context. -/
inductive ParamKey where
  | server
  | share
  | subDir
  | onDelete
  | mountOptions
  | mountPermissions
  | pvcName
  | pvcNamespace
  | pvName
  deriving DecidableEq

/-- `paramServer`, `paramShare`, `paramSubDir`, `paramOnDelete`, `mountOptionsField`,
`mountPermissionsField`, `pvcNameKey`, `pvcNamespaceKey`, `pvNameKey`. -/
def ParamKey.text : ParamKey → String
  | .server => "server"
  | .share => "share"
  | .subDir => "subdir"
  | .onDelete => "ondelete"
  | .mountOptions => "mountoptions"
  | .mountPermissions => "mountpermissions"
  | .pvcName => "csi.storage.k8s.io/pvc/name"
  | .pvcNamespace => "csi.storage.k8s.io/pvc/namespace"
  | .pvName => "csi.storage.k8s.io/pv/name"

/-- `switch strings.ToLower(k)`. -/
def paramKey (k : String) : Option ParamKey :=
  [ParamKey.server, .share, .subDir, .onDelete, .mountOptions, .mountPermissions, .pvcName,
    .pvcNamespace, .pvName].find? (fun key => toLower k == key.text)

def pvcNameMetadata : String := "$\x7bpvc.metadata.name\x7d"
def pvcNamespaceMetadata : String := "$\x7bpvc.metadata.namespace\x7d"
def pvNameMetadata : String := "$\x7bpv.metadata.name\x7d"

/-- `replaceWithMap`, over the entries of the map as the loop visits them. -/
def replaceWithMap (str : String) (entries : List (String × String)) : String :=
  entries.foldl (fun str e => if e.1 ≠ "" then replaceAll str e.1 e.2 else str) str

def requiredParameter (key : ParamKey) : String := key.text ++ " is a required parameter"

/-! ## Delete policies -/

/-- `separator`. -/
abbrev separator : Char := '#'

def delete : String := "delete"
def retain : String := "retain"
def archive : String := "archive"

def supportedOnDeleteValues : List String := ["", delete, retain, archive]

def validateOnDeleteValue (onDelete : String) : Except String Unit :=
  if supportedOnDeleteValues.any (fun v => equalFold v onDelete) then .ok ()
  else .error ("invalid value " ++ onDelete ++ " for OnDelete, supported values are [" ++
    join ' ' supportedOnDeleteValues ++ "]")

/-! ## Volumes -/

structure NfsVolume where
  id : String
  server : String
  baseDir : String
  subDir : String
  size : ℤ
  uuid : String
  onDelete : String
  deriving DecidableEq

/-- The policies that an ID records. -/
def IsRecorded (onDelete : String) : Prop :=
  equalFold onDelete retain ∨ equalFold onDelete archive

instance (onDelete : String) : Decidable (IsRecorded onDelete) :=
  inferInstanceAs (Decidable (_ ∨ _))

/-- The last element of an ID. -/
def recordedOnDelete (onDelete : String) : String := if IsRecorded onDelete then onDelete else ""

/-- The elements of a volume ID, before they are joined. -/
def idElements (vol : NfsVolume) : List String :=
  [trim '/' vol.server, trim '/' vol.baseDir, trim '/' vol.subDir, vol.uuid,
    recordedOnDelete vol.onDelete]

def getVolumeIDFromNfsVol (vol : NfsVolume) : String := join separator (idElements vol)

/-- What the loop of `newNFSVolume` collects. -/
structure VolumeParams where
  server : String := ""
  baseDir : String := ""
  subDir : String := ""
  onDelete : String := ""
  subDirReplaceMap : StringMap := ∅

/-- One entry of the parameters. -/
def VolumeParams.read (p : VolumeParams) (e : String × String) : VolumeParams :=
  match paramKey e.1 with
  | some .server => { p with server := e.2 }
  | some .share => { p with baseDir := e.2 }
  | some .subDir => { p with subDir := e.2 }
  | some .onDelete => { p with onDelete := e.2 }
  | some .pvcNamespace =>
      { p with subDirReplaceMap := p.subDirReplaceMap.set pvcNamespaceMetadata e.2 }
  | some .pvcName => { p with subDirReplaceMap := p.subDirReplaceMap.set pvcNameMetadata e.2 }
  | some .pvName => { p with subDirReplaceMap := p.subDirReplaceMap.set pvNameMetadata e.2 }
  | _ => p

/-- The parameters as `newNFSVolume` reads them. -/
def readParams (σ : MapOrder) (params : StringMap) : VolumeParams :=
  (σ.range params).foldl VolumeParams.read {}

/-- The subdirectory of a new volume: its name by default. -/
def VolumeParams.volumeSubDir (p : VolumeParams) (ρ : MapOrder) (name : String) : String :=
  if p.subDir = "" then name else replaceWithMap p.subDir (ρ.range p.subDirReplaceMap)

/-- The UUID makes the ID unique when a subdirectory is given. -/
def VolumeParams.volumeUUID (p : VolumeParams) (name : String) : String :=
  if p.subDir = "" then "" else name

/-- The policy of a new volume. -/
def VolumeParams.volumeOnDelete (p : VolumeParams) (defaultOnDeletePolicy : String) : String :=
  if p.onDelete ≠ "" then p.onDelete else defaultOnDeletePolicy

def newNFSVolume (σ ρ : MapOrder) (name : String) (size : ℤ) (params : StringMap)
    (defaultOnDeletePolicy : String) : Except String NfsVolume :=
  let p := readParams σ params
  if p.server = "" then .error (requiredParameter .server)
  else
    match validateOnDeleteValue p.onDelete with
    | .error err => .error err
    | .ok () =>
        let vol : NfsVolume :=
          { id := "", server := p.server, baseDir := p.baseDir, subDir := p.volumeSubDir ρ name,
            size := size, uuid := p.volumeUUID name,
            onDelete := p.volumeOnDelete defaultOnDeletePolicy }
        .ok { vol with id := getVolumeIDFromNfsVol vol }

/-- The loop of `CreateVolume` over the parameters: the permissions, or the error, whose text is the
format of another `Sprintf`. -/
def validateParameters : List (String × String) → ℕ → Except String ℕ
  | [], mountPermissions => .ok mountPermissions
  | e :: es, mountPermissions =>
      match paramKey e.1 with
      | some .mountPermissions =>
          if e.2 = "" then validateParameters es mountPermissions
          else
            match parseUint 8 32 e.2 with
            | some n => validateParameters es n
            | none => .error (sprintf ("invalid mountPermissions " ++ e.2 ++ " in storage class"))
      | some .mountOptions | none =>
          .error (sprintf ("invalid parameter " ++ quote e.1 ++ " in storage class"))
      | _ => validateParameters es mountPermissions

/-- `volRegex`: something without a slash, a slash, anything on one line, a slash, something
without a slash. The parts are what stands before the first slash, between the first and the last,
and after the last. -/
def matchVolRegex (id : String) : Option (String × String × String) :=
  match split '/' id with
  | server :: b :: bs =>
      let baseDir := join '/' ((b :: bs).dropLast)
      let subDir := (b :: bs).getLast (List.cons_ne_nil b bs)
      if bs ≠ [] ∧ server ≠ "" ∧ subDir ≠ "" ∧ '\n' ∉ baseDir.toList then
        some (server, baseDir, subDir)
      else none
  | _ => none

def getNfsVolFromID (id : String) : Except String NfsVolume :=
  match split separator id with
  | server :: baseDir :: subDir :: rest =>
      .ok { id := id, server := server, baseDir := baseDir, subDir := subDir, size := 0,
            uuid := rest[0]?.getD "", onDelete := rest[1]?.getD "" }
  -- fewer than three segments: an ID in the old format
  | _ =>
      match matchVolRegex id with
      | some (server, baseDir, subDir) =>
          .ok { id := id, server := server, baseDir := baseDir, subDir := subDir, size := 0,
                uuid := "", onDelete := "" }
      | none =>
          .error ("could not split " ++ id ++
            " into server, baseDir and subDir with separator(/)")

/-! ## Paths -/

/-- The directory in the working directory that a volume is mounted at. -/
def NfsVolume.mountDir (vol : NfsVolume) : String := if vol.uuid = "" then vol.subDir else vol.uuid

def getInternalMountPath (workingMountDir : String) (vol : NfsVolume) : String :=
  joinPath [workingMountDir, vol.mountDir]

def getInternalVolumePath (workingMountDir : String) (vol : NfsVolume) : String :=
  joinPath [getInternalMountPath workingMountDir vol, vol.subDir]

/-- `archivedInternalVolumePath` of `DeleteVolume`. -/
def archivedInternalVolumePath (workingMountDir : String) (vol : NfsVolume) : String :=
  joinPath [getInternalMountPath workingMountDir vol, "archived-" ++ vol.subDir]

/-! ## The policy that a deletion follows -/

/-- `DeleteVolume` takes the driver's default when the ID has no policy. -/
def NfsVolume.resolvedOnDelete (vol : NfsVolume) (defaultOnDeletePolicy : String) : String :=
  if vol.onDelete = "" then defaultOnDeletePolicy else vol.onDelete

/-- What `DeleteVolume` does with the directory. -/
inductive DeleteBranch where
  | keep
  | archive
  | remove
  deriving DecidableEq

/-- The branch of `DeleteVolume` for a policy. -/
def deleteBranch (onDelete : String) : DeleteBranch :=
  if equalFold onDelete retain then .keep
  else if equalFold onDelete archive then .archive
  else .remove

/-! ## Snapshots -/

structure NfsSnapshot where
  id : String
  server : String
  baseDir : String
  uuid : String
  src : String
  deriving DecidableEq

def NfsSnapshot.archiveName (snap : NfsSnapshot) : String := snap.src ++ ".tar.gz"

def getSnapshotIDFromNfsSnapshot (snap : NfsSnapshot) : String :=
  join separator [trim '/' snap.server, trim '/' snap.baseDir, snap.uuid, snap.uuid, snap.src]

/-- The loop of `newNFSSnapshot`: server and base directory, or the parameter that is not
allowed. -/
def readSnapshotParams : List (String × String) → String × String → Except String (String × String)
  | [], acc => .ok acc
  | e :: es, (server, baseDir) =>
      match paramKey e.1 with
      | some .server => readSnapshotParams es (e.2, baseDir)
      | some .share => readSnapshotParams es (server, e.2)
      -- the error is a gRPC status, of which only the text is used
      | _ => .error ("rpc error: code = InvalidArgument desc = " ++
          sprintf ("invalid parameter " ++ quote e.1 ++ " in snapshot storage class"))

def newNFSSnapshot (σ : MapOrder) (name : String) (params : StringMap) (vol : NfsVolume) :
    Except String NfsSnapshot :=
  match readSnapshotParams (σ.range params) (vol.server, vol.baseDir) with
  | .error err => .error err
  | .ok (server, baseDir) =>
      if server = "" then .error (requiredParameter .server)
      else if vol.mountDir = "" then .error "missing required source volume name"
      else
        let snap : NfsSnapshot :=
          { id := "", server := server, baseDir := baseDir, uuid := name, src := vol.mountDir }
        .ok { snap with id := getSnapshotIDFromNfsSnapshot snap }

def getNfsSnapFromID (id : String) : Except String NfsSnapshot :=
  match split separator id with
  -- the UUID stands in the ID twice
  | [server, baseDir, uuid, _, src] =>
      .ok { id := id, server := server, baseDir := baseDir, uuid := uuid, src := src }
  | _ => .error "failed to create nfsSnapshot from snapshot ID"

def volumeFromSnapshot (snap : NfsSnapshot) : NfsVolume :=
  { id := snap.id, server := snap.server, baseDir := snap.baseDir, subDir := snap.uuid, size := 0,
    uuid := snap.uuid, onDelete := "" }

/-- The archive of a snapshot: where `CreateSnapshot` writes it and where `copyFromSnapshot` reads
it. `DeleteSnapshot` removes the directory it is in. -/
def snapshotArchive (workingMountDir : String) (snap : NfsSnapshot) : String :=
  joinPath [getInternalVolumePath workingMountDir (volumeFromSnapshot snap), snap.archiveName]

/-! ## What `newNFSVolume` makes -/

/-- A volume that was made from the parameters `p`. -/
structure NfsVolume.MadeFrom (vol : NfsVolume) (p : VolumeParams) (ρ : MapOrder)
    (name defaultOnDeletePolicy : String) : Prop where
  server_ne : p.server ≠ ""
  supported : validateOnDeleteValue p.onDelete = .ok ()
  server : vol.server = p.server
  baseDir : vol.baseDir = p.baseDir
  subDir : vol.subDir = p.volumeSubDir ρ name
  uuid : vol.uuid = p.volumeUUID name
  onDelete : vol.onDelete = p.volumeOnDelete defaultOnDeletePolicy
  id : vol.id = getVolumeIDFromNfsVol vol

section

variable {σ ρ : MapOrder} {name defaultOnDeletePolicy : String} {size : ℤ} {params : StringMap}
  {vol : NfsVolume} {p : VolumeParams} {c : Char}

/-- The ID does not depend on the ID field. -/
theorem getVolumeIDFromNfsVol_with_id (vol : NfsVolume) (id : String) :
    getVolumeIDFromNfsVol { vol with id := id } = getVolumeIDFromNfsVol vol := by
  simp only [getVolumeIDFromNfsVol, idElements]

theorem newNFSVolume_ok (h : newNFSVolume σ ρ name size params defaultOnDeletePolicy = .ok vol) :
    vol.MadeFrom (readParams σ params) ρ name defaultOnDeletePolicy := by
  simp only [newNFSVolume] at h
  split at h
  · cases h
  · rename_i hserver
    split at h
    · cases h
    · rename_i hvalid
      obtain rfl := Except.ok.inj h
      exact ⟨hserver, hvalid, rfl, rfl, rfl, rfl, rfl, (getVolumeIDFromNfsVol_with_id _ _).symm⟩

/-! ## Characters of the parameters -/

/-- No value that the loop has collected holds `c`. -/
structure VolumeParams.Without (p : VolumeParams) (c : Char) : Prop where
  server : c ∉ p.server.toList
  baseDir : c ∉ p.baseDir.toList
  subDir : c ∉ p.subDir.toList
  replacements : ∀ e ∈ p.subDirReplaceMap.entries, c ∉ e.2.toList

theorem VolumeParams.Without.read (h : p.Without c) {e : String × String} (he : c ∉ e.2.toList) :
    (p.read e).Without c := by
  have hset : ∀ k, ∀ f ∈ (p.subDirReplaceMap.set k e.2).entries, c ∉ f.2.toList := by
    intro k f hf
    rcases StringMap.mem_set hf with rfl | hf
    · exact he
    · exact h.replacements f hf
  unfold VolumeParams.read
  split
  · exact { h with server := he }
  · exact { h with baseDir := he }
  · exact { h with subDir := he }
  · exact { h with }
  · exact { h with replacements := hset _ }
  · exact { h with replacements := hset _ }
  · exact { h with replacements := hset _ }
  · exact h

theorem without_readParams (h : ∀ e ∈ params.entries, c ∉ e.2.toList) :
    (readParams σ params).Without c := by
  have hrange : ∀ e ∈ σ.range params, c ∉ e.2.toList := fun e he => h e (MapOrder.mem_range.mp he)
  have key : ∀ (es : List (String × String)) (p : VolumeParams), p.Without c →
      (∀ e ∈ es, c ∉ e.2.toList) → (es.foldl VolumeParams.read p).Without c := by
    intro es
    induction es with
    | nil => exact fun p hp _ => hp
    | cons e es ih =>
        exact fun p hp hes => ih _ (hp.read (hes e (by simp))) (fun f hf => hes f (by simp [hf]))
  exact key _ _ ⟨by simp, by simp, by simp, fun e he => absurd he List.not_mem_nil⟩ hrange

theorem not_mem_replaceWithMap {str : String} {es : List (String × String)} (hstr : c ∉ str.toList)
    (hes : ∀ e ∈ es, c ∉ e.2.toList) : c ∉ (replaceWithMap str es).toList := by
  induction es generalizing str with
  | nil => exact hstr
  | cons e es ih =>
      have hone : c ∉ (if e.1 ≠ "" then replaceAll str e.1 e.2 else str).toList := by
        split
        · exact not_mem_replaceAll hstr (hes e (by simp))
        · exact hstr
      exact ih hone (fun f hf => hes f (by simp [hf]))

/-- A subdirectory that was given does not hold `c`. -/
theorem VolumeParams.Without.volumeSubDir (h : p.Without c) (hgiven : p.subDir ≠ "") :
    c ∉ (p.volumeSubDir ρ name).toList := by
  rw [VolumeParams.volumeSubDir, if_neg hgiven]
  exact not_mem_replaceWithMap h.subDir (fun e he => h.replacements e (MapOrder.mem_range.mp he))

/-! ## Segments of an ID -/

theorem not_mem_recordedOnDelete (onDelete : String) :
    separator ∉ (recordedOnDelete onDelete).toList := by
  unfold recordedOnDelete
  split
  · rename_i h
    rcases h with h | h
    · exact not_mem_of_equalFold (by decide) (by decide) h (by decide)
    · exact not_mem_of_equalFold (by decide) (by decide) h (by decide)
  · decide

/-- The segments of an ID after server and base directory: the pieces of the subdirectory, the
pieces of the UUID, and the policy. -/
def idTail (vol : NfsVolume) : List String :=
  split separator (trim '/' vol.subDir) ++ split separator vol.uuid ++
    [recordedOnDelete vol.onDelete]

theorem split_volumeID (hserver : separator ∉ vol.server.toList)
    (hbase : separator ∉ vol.baseDir.toList) :
    split separator (getVolumeIDFromNfsVol vol) =
      trim '/' vol.server :: trim '/' vol.baseDir :: idTail vol := by
  have hs : separator ∉ (trim '/' vol.server).toList := not_mem_trim (by decide) hserver
  have hb : separator ∉ (trim '/' vol.baseDir).toList := not_mem_trim (by decide) hbase
  rw [getVolumeIDFromNfsVol, split_join separator (by simp [idElements])]
  simp only [idElements, List.flatMap_cons, List.flatMap_nil, split_of_not_mem hs,
    split_of_not_mem hb, split_of_not_mem (not_mem_recordedOnDelete vol.onDelete), idTail]
  simp

/-- The volume that such segments are decoded to. -/
@[simps] def volumeOfSegments (id server baseDir : String) (tail : List String) : NfsVolume :=
  { id := id, server := server, baseDir := baseDir, subDir := tail[0]?.getD "", size := 0,
    uuid := tail[1]?.getD "", onDelete := tail[2]?.getD "" }

theorem getNfsVolFromID_of_split {id server baseDir : String} {tail : List String}
    (h : split separator id = server :: baseDir :: tail) (hne : tail ≠ []) :
    getNfsVolFromID id = .ok (volumeOfSegments id server baseDir tail) := by
  obtain ⟨subDir, rest, rfl⟩ := List.exists_cons_of_ne_nil hne
  simp [getNfsVolFromID, h, volumeOfSegments]

/-- **Decoding** an ID whose server and base directory have no separator. -/
theorem getNfsVolFromID_volumeID (hid : vol.id = getVolumeIDFromNfsVol vol)
    (hserver : separator ∉ vol.server.toList) (hbase : separator ∉ vol.baseDir.toList) :
    getNfsVolFromID vol.id =
      .ok (volumeOfSegments vol.id (trim '/' vol.server) (trim '/' vol.baseDir) (idTail vol)) :=
  getNfsVolFromID_of_split (hid ▸ split_volumeID hserver hbase) (by simp [idTail])

end

/-! ## Where the paths of a volume lead -/

section

variable {w : String} {v v' : NfsVolume}

/-- The elements below the working directory that lead to the volume. -/
def NfsVolume.volumeElements (vol : NfsVolume) : List String :=
  elements vol.mountDir ++ elements vol.subDir

theorem volumeElements_congr (huuid : v.uuid = v'.uuid) (hsub : v.subDir = v'.subDir) :
    v.volumeElements = v'.volumeElements := by
  unfold NfsVolume.volumeElements NfsVolume.mountDir
  rw [huuid, hsub]

theorem place_getInternalMountPath (hw : w ≠ "") (v : NfsVolume) :
    place (getInternalMountPath w v) = walk (isAbs w) (place w) (elements v.mountDir) :=
  place_joinPath hw

theorem isAbs_getInternalMountPath (hw : w ≠ "") (v : NfsVolume) :
    isAbs (getInternalMountPath w v) = isAbs w := isAbs_joinPath hw

theorem getInternalMountPath_ne_empty (hw : w ≠ "") (v : NfsVolume) :
    getInternalMountPath w v ≠ "" := joinPath_ne_empty hw

theorem getInternalMountPath_eq_iff (hw : w ≠ "") :
    getInternalMountPath w v = getInternalMountPath w v' ↔
      walk (isAbs w) (place w) (elements v.mountDir) =
        walk (isAbs w) (place w) (elements v'.mountDir) := by
  rw [getInternalMountPath, getInternalMountPath, joinPath_eq_iff hw hw]
  simp

theorem getInternalVolumePath_eq_iff (hw : w ≠ "") :
    getInternalVolumePath w v = getInternalVolumePath w v' ↔
      walk (isAbs w) (place w) v.volumeElements = walk (isAbs w) (place w) v'.volumeElements := by
  rw [getInternalVolumePath, getInternalVolumePath,
    joinPath_eq_iff (getInternalMountPath_ne_empty hw v) (getInternalMountPath_ne_empty hw v')]
  simp only [isAbs_getInternalMountPath hw, place_getInternalMountPath hw,
    NfsVolume.volumeElements, walk_append, true_and]

/-- Two volumes have the same directory under every working directory when their elements, cleaned
as a relative path, are the same. -/
theorem getInternalVolumePath_eq_forall :
    (∀ w ≠ "", getInternalVolumePath w v = getInternalVolumePath w v') ↔
      walk false [] v.volumeElements = walk false [] v'.volumeElements := by
  constructor
  · intro h
    -- `.` is the working directory under which no element is lost
    have hdot := (getInternalVolumePath_eq_iff (by decide)).mp (h "." (by decide))
    have habs : isAbs "." = false := by decide
    have hplace : place "." = [] := by decide
    rwa [habs, hplace] at hdot
  · intro h w hw
    rw [getInternalVolumePath_eq_iff hw, ← walk_normalize (place w) v.volumeElements, h,
      walk_normalize]

end

end NfsLbCsi
