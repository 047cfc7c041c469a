import NfsLbCsi.Driver.Effects
import NfsLbCsi.Driver.Setup
import NfsLbCsi.Volumes.Functions

set_option autoImplicit false

/-! # `NodePublishVolume` and `NodeUnpublishVolume`

The two handlers of `pkg/nfs/nodeserver.go` that mount and unmount. `NodePublishVolume` reads from
the request what to mount (`mountSpec`), and when the target is not a mount point yet it mounts the
share, sets the permissions and sets the read-ahead value, one after the other and without going
back.

The receiver may be a `nil` pointer: the first use of `ns.Driver`, which is the lock, then panics.
-/

namespace NfsLbCsi

open GoString Locks

/-! ## Read-ahead flags -/

/-- The submatch of `^read_ahead_kb=(.+)$`; the dot stands for anything but a line feed. -/
def matchReadAhead (opt : String) : Option String :=
  let value := String.ofList (opt.toList.drop "read_ahead_kb=".length)
  if "read_ahead_kb=".toList <+: opt.toList ∧ value ≠ "" ∧ '\n' ∉ value.toList then some value
  else none

/-- `collectMountOptions`. -/
def collectMountOptions (mntFlags : List String) : List String :=
  mntFlags.filter (fun opt => matchReadAhead opt = none)

/-- `extractReadAheadKBMountFlag`: the value of the first such flag, if there is one. -/
def extractReadAheadKBMountFlag : List String → Except String (Option ℤ)
  | [] => .ok none
  | mountFlag :: mountFlags =>
      match matchReadAhead mountFlag with
      | none => extractReadAheadKBMountFlag mountFlags
      | some value =>
          match parseInt value with
          | none =>
              .error ("invalid read_ahead_kb mount flag " ++ quote mountFlag ++ ": " ++
                parseIntError value)
          | some readAheadKBInt =>
              if readAheadKBInt < 0 then
                .error ("invalid negative value for read_ahead_kb mount flag: " ++ quote mountFlag)
              else .ok (some readAheadKBInt)

/-! ## What a request asks for -/

structure NodePublishVolumeRequest where
  volumeId : String
  publishContext : StringMap
  targetPath : String
  volumeCapability : Option VolumeCapability
  readonly : Bool
  volumeContext : StringMap

/-- `volCap.GetMount().GetMountFlags()`. -/
def VolumeCapability.mountFlags (volCap : VolumeCapability) : List String :=
  match volCap.accessType with
  | some (.mount mountFlags) => mountFlags
  | _ => []

/-- What the loop over the volume context collects. -/
structure PublishParams where
  server : String := ""
  baseDir : String := ""
  subDir : String := ""
  subDirReplaceMap : StringMap := ∅
  mountOptions : List String
  mountPermissions : ℕ

/-- One entry of the volume context. -/
def PublishParams.read (p : PublishParams) (e : String × String) : Except RpcError PublishParams :=
  match paramKey e.1 with
  | some .server => .ok { p with server := e.2 }
  | some .share => .ok { p with baseDir := e.2 }
  | some .subDir => .ok { p with subDir := e.2 }
  | some .pvcNamespace =>
      .ok { p with subDirReplaceMap := p.subDirReplaceMap.set pvcNamespaceMetadata e.2 }
  | some .pvcName => .ok { p with subDirReplaceMap := p.subDirReplaceMap.set pvcNameMetadata e.2 }
  | some .pvName => .ok { p with subDirReplaceMap := p.subDirReplaceMap.set pvNameMetadata e.2 }
  | some .mountOptions =>
      .ok (if e.2 ≠ "" then { p with mountOptions := p.mountOptions ++ [e.2] } else p)
  | some .mountPermissions =>
      if e.2 = "" then .ok p
      else
        match parseUint 8 32 e.2 with
        | some n => .ok { p with mountPermissions := n }
        -- the text is the format of another `Sprintf`
        | none => .error (invalidArgument (sprintf ("invalid mountPermissions " ++ e.2)))
  | _ => .ok p

/-- The volume context as `NodePublishVolume` reads it. -/
def publishParams (d : Driver) (σ : MapOrder) (volCap : VolumeCapability)
    (req : NodePublishVolumeRequest) : Except RpcError PublishParams :=
  (σ.range req.volumeContext).foldlM PublishParams.read
    { mountOptions := volCap.mountFlags ++ if req.readonly then ["ro"] else []
      mountPermissions := d.mountPermissions }

/-- The source of the mount. The server of the volume context has been replaced by the assigned
IP. -/
def PublishParams.source (p : PublishParams) (ρ : MapOrder) (server : String) : String :=
  let source := server ++ ":" ++ p.baseDir
  if p.subDir = "" then source
  else trimRight '/' source ++ "/" ++ replaceWithMap p.subDir (ρ.range p.subDirReplaceMap)

/-- What is to be mounted, and how. -/
structure MountSpec where
  source : String
  mountOptions : List String
  mountPermissions : ℕ

/-- `NodePublishVolume` up to its first look at the target path. `σ` is the order of the loop over
the volume context and `ρ` that over the replacement map. -/
def mountSpec (d : Driver) (σ ρ : MapOrder) (volCap : VolumeCapability)
    (req : NodePublishVolumeRequest) : Except RpcError MountSpec :=
  match publishParams d σ volCap req with
  | .error e => .error e
  | .ok p =>
      if p.baseDir = "" then .error (invalidArgument (requiredParameter .share))
      else
        match req.publishContext.get? nodeAnnotationKey with
        | none =>
            .error (invalidArgument (sprintf ("NFS server IP not found in PublishContext " ++
              req.publishContext.text ++ " for volume " ++ quote req.volumeId)))
        | some ip => .ok ⟨p.source ρ ip, p.mountOptions, p.mountPermissions⟩

/-! ## Mounting -/

/-- `os.FileMode(mountPermissions)`: a 32 bit number. -/
def fileMode (mountPermissions : ℕ) : ℕ := mountPermissions % 2 ^ 32

/-- `os.ModePerm`. -/
def modePerm : ℕ := 0o777

/-- `chmodIfPermissionMismatch`. -/
def chmodIfPermissionMismatch (targetPath : String) (mode : ℕ) : Sys String Unit := do
  let info ← Prog.must OSError.text (perform (.lstat targetPath))
  if info &&& modePerm ≠ mode then
    Prog.must OSError.text (perform (.chmod targetPath mode))
  else pure ()

/-- `updateReadAhead`. A failing command comes back as a gRPC error, whose text is then wrapped once
more. -/
def updateReadAhead (targetMountPath : String) (readAheadKB : ℤ) : Sys String Unit := do
  let failed := fun (err : OSError) => (internal err.text).text
  let output ← Prog.must failed (perform (.mountpoint targetMountPath))
  let device := trimSpace output
  Prog.must failed (perform (.writeReadAhead device readAheadKB))
  let op ← Prog.must failed (perform (.readReadAhead device))
  match parseInt (trimSpace op) with
  | none => Prog.fail ("invalid read_ahead_kb " ++ parseIntError (trimSpace op))
  | some updatedVal =>
      if updatedVal ≠ readAheadKB then
        Prog.fail ("mismatch in read_ahead_kb, expected " ++ toString readAheadKB ++ ", got " ++
          toString updatedVal)
      else pure ()

/-- Is there still something to mount? A missing target is created. -/
def checkTarget (targetPath : String) (mountPermissions : ℕ) : Sys RpcError Bool := do
  match ← perform (.isLikelyNotMountPoint targetPath) with
  | .ok notMnt => pure notMnt
  | .error err =>
      if err.notExist then do
        Prog.must (fun err : OSError => internal err.text)
          (perform (.mkdirAll targetPath (fileMode mountPermissions)))
        pure true
      else Prog.fail (internal err.text)

/-- The error of `NodePublishVolume` for a mount that fails. -/
def mountError (err : OSError) : RpcError :=
  if err.permission then ⟨.permissionDenied, err.text⟩
  else if contains err.text "invalid argument" then invalidArgument err.text
  else internal err.text

/-- The permissions of the mounted directory; 0 leaves them alone. -/
def setPermissions (targetPath : String) (mountPermissions : ℕ) : Sys RpcError Unit :=
  if mountPermissions > 0 then
    (chmodIfPermissionMismatch targetPath (fileMode mountPermissions)).mapError internal
  else pure ()

/-- The read-ahead value of the mount, when a flag asks for one. -/
def setReadAhead (targetPath : String) (mountOptions : List String) : Sys RpcError Unit := do
  match ← Prog.ofExcept invalidArgument (extractReadAheadKBMountFlag mountOptions) with
  | none => pure ()
  | some readAheadKB => (updateReadAhead targetPath readAheadKB).mapError internal

/-- The steps that change something. -/
def mountTarget (targetPath : String) (m : MountSpec) : Sys RpcError Unit := do
  Prog.must mountError (perform
    (.mount m.source targetPath "nfs" (collectMountOptions m.mountOptions)))
  setPermissions targetPath m.mountPermissions
  setReadAhead targetPath m.mountOptions

/-- `NodePublishVolume` under its lock. -/
def publishTarget (d : Driver) (volCap : VolumeCapability) (req : NodePublishVolumeRequest) :
    Sys RpcError Unit := do
  let σ ← perform .order
  let ρ ← perform .order
  let m ← Prog.ofExcept id (mountSpec d σ ρ volCap req)
  let notMnt ← checkTarget req.targetPath m.mountPermissions
  -- a target that is a mount point already is left as it is
  if notMnt then mountTarget req.targetPath m else pure ()

/-! ## The handlers -/

/-- `fmt.Sprintf("%s-%s", volumeID, targetPath)`. -/
def lockKey (volumeID targetPath : String) : String := volumeID ++ "-" ++ targetPath

/-- Run `body` on the node server under the lock of the volume and the target. -/
def onNode (d : Driver) (volumeID targetPath : String) (body : NodeServer → Sys RpcError Unit) :
    Rpc Unit :=
  match d.ns with
  | none => Prog.panic
  | some ns =>
      withLock (lockKey volumeID targetPath) ⟨.aborted, volumeOperationAlreadyExists volumeID⟩
        (body ns)

def nodePublishVolume (d : Driver) (req : NodePublishVolumeRequest) : Rpc Unit :=
  match req.volumeCapability with
  | none => Prog.fail (invalidArgument "Volume capability missing in request")
  | some volCap => do
      Prog.require (req.volumeId ≠ "") (invalidArgument "Volume ID missing in request")
      Prog.require (req.targetPath ≠ "") (invalidArgument "Target path not provided")
      onNode d req.volumeId req.targetPath (fun _ => publishTarget d volCap req)

structure NodeUnpublishVolumeRequest where
  volumeId : String
  targetPath : String

def nodeUnpublishVolume (d : Driver) (req : NodeUnpublishVolumeRequest) : Rpc Unit := do
  Prog.require (req.volumeId ≠ "") (invalidArgument "Volume ID missing in request")
  Prog.require (req.targetPath ≠ "") (invalidArgument "Target path missing in request")
  onNode d req.volumeId req.targetPath (fun ns =>
    Prog.must
      (fun err => internal ("failed to unmount target " ++ quote req.targetPath
        ++ ": " ++ err.text))
      (perform (.cleanupMountPoint req.targetPath ns.forceUnmounter)))

end NfsLbCsi
