import NfsLbCsi.NodeServer.Functions

set_option autoImplicit false

/-! # The provisioning RPCs

`CreateVolume`, `DeleteVolume`, `CreateSnapshot` and `DeleteSnapshot` of
`pkg/nfs/controllerserver.go` with the functions they share. Each of them mounts the share of its
volume through the node server of the same process (`internalMount`), works in the mounted
directory, and unmounts it again in a deferred call.
-/

namespace NfsLbCsi

open GoString GoPath Locks

/-! ## Capabilities and options -/

/-- `isValidVolumeCapabilities`. -/
def isValidVolumeCapabilities (volCaps : List VolumeCapability) : Except String Unit :=
  if volCaps = [] then .error "volume capabilities missing in request"
  else if volCaps.any (fun c => c.accessType = some .block) then
    .error "block volume capability not supported"
  else .ok ()

/-- `getMountOptions`, over the entries of the map as the loop visits them. -/
def getMountOptions (entries : List (String × String)) : String :=
  match entries.find? (fun e => paramKey e.1 = some .mountOptions) with
  | some e => e.2
  | none => ""

/-- The capability that a deletion mounts with. -/
def mountOptionsCapability (mountOptions : String) : Option VolumeCapability :=
  if mountOptions = "" then none else some ⟨some (.mount [mountOptions])⟩

/-- `setKeyValueInMap`; the loop stops at the first key that is equal up to case. -/
def setKeyValueInMap (σ : MapOrder) (m : StringMap) (key value : String) : StringMap :=
  match (σ.range m).find? (fun e => equalFold e.1 key) with
  | some e => m.set e.1 value
  | none => m.set key value

/-! ## Mounting the share of a volume -/

/-- The volume context of the internal mount. -/
def internalMountContext (σ : MapOrder) (vol : NfsVolume) (volumeContext : StringMap) : StringMap :=
  (σ.range volumeContext).foldl
    (fun m e => if toLower e.1 ≠ ParamKey.subDir.text then m.set e.1 e.2 else m)
    (((∅ : StringMap).set ParamKey.server.text vol.server).set ParamKey.share.text
      (joinPath ["/" ++ vol.baseDir]))

/-- The request that `internalMount` makes of the node server. It has no publish context. -/
def internalMountRequest (d : Driver) (σ : MapOrder) (vol : NfsVolume) (volumeContext : StringMap)
    (volCap : Option VolumeCapability) : NodePublishVolumeRequest where
  volumeId := vol.id
  publishContext := ∅
  targetPath := getInternalMountPath d.workingMountDir vol
  volumeCapability := some (volCap.getD ⟨some (.mount [])⟩)
  readonly := false
  volumeContext := internalMountContext σ vol volumeContext

def internalMount (d : Driver) (vol : NfsVolume) (volumeContext : StringMap)
    (volCap : Option VolumeCapability) : Rpc Unit := do
  let σ ← Rpc.order
  nodePublishVolume d (internalMountRequest d σ vol volumeContext volCap)

def internalUnmount (d : Driver) (vol : NfsVolume) : Rpc Unit :=
  nodeUnpublishVolume d
    { volumeId := vol.id, targetPath := getInternalMountPath d.workingMountDir vol }

/-- Mount the share of `vol`, run `body`, and unmount it whatever `body` returns. -/
def withMount {α : Type} (d : Driver) (vol : NfsVolume) (volumeContext : StringMap)
    (volCap : Option VolumeCapability) (failed : String) (body : Rpc α) : Rpc α := do
  (internalMount d vol volumeContext volCap).mapError (fun err => internal (failed ++ err.text))
  body.ensure (internalUnmount d vol)

/-! ## Copies -/

/-- The type of a content source may be missing. -/
inductive VolumeContentSource where
  | snapshot (snapshotId : String)
  | volume (volumeId : String)
  | untyped
  deriving DecidableEq

structure CreateVolumeRequest where
  name : String
  requiredBytes : ℤ
  volumeCapabilities : List VolumeCapability
  parameters : StringMap
  volumeContentSource : Option VolumeContentSource

/-- A command that fails, with its output. -/
def commandFailed (what : String) (err : CommandError) : RpcError :=
  internal (what ++ err.text ++ ": " ++ err.output)

def copyFromSnapshot (d : Driver) (req : CreateVolumeRequest) (snapshotId : String)
    (dstVol : NfsVolume) : Rpc Unit := do
  let snap ← Prog.ofExcept (fun err => ⟨.notFound, err⟩) (getNfsSnapFromID snapshotId)
  let snapVol := volumeFromSnapshot snap
  let volCap := req.volumeCapabilities.head?
  withMount d snapVol ∅ volCap "failed to mount src nfs server for snapshot volume copy: " (do
    withMount d dstVol ∅ volCap "failed to mount dst nfs server for snapshot volume copy: " (do
      let snapPath := snapshotArchive d.workingMountDir snap
      let dstPath := getInternalVolumePath d.workingMountDir dstVol
      Prog.must (commandFailed "failed to copy volume for snapshot: ")
        (Rpc.perform (.tarExtract snapPath dstPath))))

def copyFromVolume (d : Driver) (req : CreateVolumeRequest) (volumeId : String)
    (dstVol : NfsVolume) : Rpc Unit := do
  let srcVol ← Prog.ofExcept (fun err => ⟨.notFound, err⟩) (getNfsVolFromID volumeId)
  let srcPath := getInternalVolumePath d.workingMountDir srcVol ++ "/."
  let dstPath := getInternalVolumePath d.workingMountDir dstVol
  let volCap := req.volumeCapabilities.head?
  withMount d srcVol ∅ volCap "failed to mount src nfs server: " (do
    withMount d dstVol ∅ volCap "failed to mount dst nfs server: " (do
      Prog.must (commandFailed "failed to copy volume ") (Rpc.perform (.copyAll srcPath dstPath))))

def copyVolume (d : Driver) (req : CreateVolumeRequest) (vol : NfsVolume) :
    VolumeContentSource → Rpc Unit
  | .snapshot snapshotId => copyFromSnapshot d req snapshotId vol
  | .volume volumeId => copyFromVolume d req volumeId vol
  | .untyped => Prog.fail (invalidArgument " not a proper volume source")

/-! ## `CreateVolume` -/

structure CreateVolumeResponse where
  volumeId : String
  capacityBytes : ℤ
  volumeContext : StringMap
  contentSource : Option VolumeContentSource
  deriving DecidableEq

/-- The directory of a new volume. A `chmod` that fails is only logged. -/
def makeVolume (d : Driver) (req : CreateVolumeRequest) (nfsVol : NfsVolume)
    (mountPermissions : ℕ) : Rpc Unit := do
  let internalVolumePath := getInternalVolumePath d.workingMountDir nfsVol
  Prog.must (fun err => internal ("failed to make subdirectory: " ++ err.text))
    (Rpc.perform (.mkdirAll internalVolumePath 0o777))
  if mountPermissions > 0 then do
    let _ ← Rpc.perform (.chmod internalVolumePath (fileMode mountPermissions))
    pure ()
  else pure ()
  match req.volumeContentSource with
  | some source => copyVolume d req nfsVol source
  | none => pure ()

/-- `CreateVolume` after the checks. -/
def createNfsVolume (d : Driver) (req : CreateVolumeRequest) (nfsVol : NfsVolume)
    (mountPermissions : ℕ) : Rpc CreateVolumeResponse :=
  withMount d nfsVol req.parameters req.volumeCapabilities.head? "failed to mount nfs server: " (do
    makeVolume d req nfsVol mountPermissions
    let σ ← Rpc.order
    pure
      { volumeId := nfsVol.id
        capacityBytes := 0
        volumeContext := setKeyValueInMap σ req.parameters ParamKey.subDir.text nfsVol.subDir
        contentSource := req.volumeContentSource })

def createVolume (d : Driver) (req : CreateVolumeRequest) : Rpc CreateVolumeResponse := do
  Prog.require (req.name ≠ "") (invalidArgument "CreateVolume name must be provided")
  Prog.ofExcept invalidArgument (isValidVolumeCapabilities req.volumeCapabilities)
  let σ ← Rpc.order
  let mountPermissions ← Prog.ofExcept invalidArgument
    (validateParameters (σ.range req.parameters) d.mountPermissions)
  -- the parameters are read a second time, and in another order
  let τ ← Rpc.order
  let ρ ← Rpc.order
  let nfsVol ← Prog.ofExcept invalidArgument
    (newNFSVolume τ ρ req.name req.requiredBytes req.parameters d.defaultOnDeletePolicy)
  createNfsVolume d req nfsVol mountPermissions

/-! ## `DeleteVolume` -/

structure DeleteVolumeRequest where
  volumeId : String
  secrets : StringMap

/-- Move the directory of a volume aside. A stale archived copy is removed first. -/
def archiveVolume (d : Driver) (nfsVol : NfsVolume) : Rpc Unit := do
  let internalVolumePath := getInternalVolumePath d.workingMountDir nfsVol
  let archivedPath := archivedInternalVolumePath d.workingMountDir nfsVol
  let parentDir := dir archivedPath
  if '/' ∈ nfsVol.subDir.toList then
    Prog.must
      (fun err => internal ("create parent directory(" ++ parentDir ++ ") of " ++ archivedPath ++
        " failed with " ++ err.text))
      (Rpc.perform (.mkdirAll parentDir 0o777))
  else pure ()
  Prog.must
    (fun err => internal ("failed to delete archived subdirectory " ++ archivedPath
      ++ ": " ++ err.text))
    (Rpc.perform (.removeAll archivedPath))
  Prog.must
    (fun err => internal ("archive subdirectory(" ++ internalVolumePath ++ ", " ++ archivedPath ++
      ") failed with " ++ err.text))
    (Rpc.perform (.rename internalVolumePath archivedPath))

/-- Remove the directory of a volume. -/
def removeVolume (d : Driver) (nfsVol : NfsVolume) : Rpc Unit :=
  let internalVolumePath := getInternalVolumePath d.workingMountDir nfsVol
  Prog.must
    (fun err => internal ("delete subdirectory(" ++ internalVolumePath
      ++ ") failed with " ++ err.text))
    (Rpc.perform (.removeAll internalVolumePath))

/-- `DeleteVolume` after the ID has been decoded. -/
def deleteNfsVolume (d : Driver) (nfsVol : NfsVolume) (volCap : Option VolumeCapability) :
    Rpc Unit :=
  match deleteBranch (nfsVol.resolvedOnDelete d.defaultOnDeletePolicy) with
  | .keep => pure ()
  | .archive => withMount d nfsVol ∅ volCap "failed to mount nfs server: " (archiveVolume d nfsVol)
  | .remove => withMount d nfsVol ∅ volCap "failed to mount nfs server: " (removeVolume d nfsVol)

/-- `DeleteVolume`. A volume whose ID is invalid counts as deleted. -/
def deleteVolume (d : Driver) (req : DeleteVolumeRequest) : Rpc Unit := do
  Prog.require (req.volumeId ≠ "") (invalidArgument "volume id is empty")
  match getNfsVolFromID req.volumeId with
  | .error _ => pure ()
  | .ok nfsVol => do
      let σ ← Rpc.order
      deleteNfsVolume d nfsVol (mountOptionsCapability (getMountOptions (σ.range req.secrets)))

/-! ## `CreateSnapshot` and `DeleteSnapshot` -/

structure CreateSnapshotRequest where
  name : String
  sourceVolumeId : String
  parameters : StringMap

structure CreateSnapshotResponse where
  snapshotId : String
  sourceVolumeId : String
  sizeBytes : ℤ
  creationTime : ℤ
  readyToUse : Bool
  deriving DecidableEq

/-- `validateSnapshot`: the first visit that is refused. The error of a visit has no status of its
own. -/
def validateSnapshot (snapInternalVolPath : String) (snap : NfsSnapshot) :
    List Visit → Except RpcError Unit
  | [] => .ok ()
  | v :: visits =>
      -- the walk begins with the directory itself
      if v.path = snapInternalVolPath then validateSnapshot snapInternalVolPath snap visits
      else
        match v.err with
        | some err => .error ⟨.unknown, err⟩
        | none =>
            if v.name ≠ snap.archiveName then
              .error ⟨.alreadyExists,
                "snapshot with the same name but different source volume ID already exists: found "
                  ++ quote v.name ++ ", desired " ++ quote snap.archiveName⟩
            else validateSnapshot snapInternalVolPath snap visits

/-- Pack the source volume into the archive of the snapshot. A size that cannot be determined is
reported as 0. -/
def archiveSnapshot (d : Driver) (srcVol : NfsVolume) (snap : NfsSnapshot) :
    Rpc CreateSnapshotResponse := do
  let srcPath := getInternalVolumePath d.workingMountDir srcVol
  let dstPath := snapshotArchive d.workingMountDir snap
  Prog.must (commandFailed "failed to create archive for snapshot: ")
    (Rpc.perform (.tarCreate srcPath dstPath))
  let snapshotSize := match ← Rpc.perform (.statSize dstPath) with
    | .ok size => size
    | .error _ => 0
  let creationTime ← Rpc.perform .now
  pure
    { snapshotId := snap.id, sourceVolumeId := srcVol.id, sizeBytes := snapshotSize
      creationTime := creationTime, readyToUse := true }

/-- `CreateSnapshot` after the checks: the snapshot's share is mounted, and inside of it the
source's. -/
def createNfsSnapshot (d : Driver) (srcVol : NfsVolume) (snap : NfsSnapshot) :
    Rpc CreateSnapshotResponse :=
  let snapVol := volumeFromSnapshot snap
  let snapPath := getInternalVolumePath d.workingMountDir snapVol
  withMount d snapVol ∅ none "failed to mount snapshot nfs server: " (do
    Prog.must (fun err => internal ("failed to make subdirectory: " ++ err.text))
      (Rpc.perform (.mkdirAll snapPath 0o777))
    let visits ← Rpc.perform (.walkDir snapPath)
    Prog.ofExcept id (validateSnapshot snapPath snap visits)
    withMount d srcVol ∅ none "failed to mount src nfs server: " (archiveSnapshot d srcVol snap))

def createSnapshot (d : Driver) (req : CreateSnapshotRequest) : Rpc CreateSnapshotResponse := do
  Prog.require (req.name ≠ "") (invalidArgument "CreateSnapshot name must be provided")
  Prog.require (req.sourceVolumeId ≠ "")
    (invalidArgument "CreateSnapshot source volume ID must be provided")
  let srcVol ← Prog.ofExcept (fun err => ⟨.notFound, "failed to create source volume: " ++ err⟩)
    (getNfsVolFromID req.sourceVolumeId)
  let σ ← Rpc.order
  let snap ← Prog.ofExcept (fun err => ⟨.notFound, "failed to create nfsSnapshot: " ++ err⟩)
    (newNFSSnapshot σ req.name req.parameters srcVol)
  createNfsSnapshot d srcVol snap

structure DeleteSnapshotRequest where
  snapshotId : String
  secrets : StringMap

/-- `DeleteSnapshot` after the ID has been decoded. -/
def deleteNfsSnapshot (d : Driver) (snap : NfsSnapshot) (volCap : Option VolumeCapability) :
    Rpc Unit :=
  let vol := volumeFromSnapshot snap
  withMount d vol ∅ volCap "failed to mount nfs server for snapshot deletion: "
    (Prog.must (fun err => internal ("failed to delete subdirectory: " ++ err.text))
      (Rpc.perform (.removeAll (getInternalVolumePath d.workingMountDir vol))))

def deleteSnapshot (d : Driver) (req : DeleteSnapshotRequest) : Rpc Unit := do
  Prog.require (req.snapshotId ≠ "") (invalidArgument "Snapshot ID is required for deletion")
  match getNfsSnapFromID req.snapshotId with
  | .error _ => pure ()
  | .ok snap => do
      let σ ← Rpc.order
      deleteNfsSnapshot d snap (mountOptionsCapability (getMountOptions (σ.range req.secrets)))

end NfsLbCsi
