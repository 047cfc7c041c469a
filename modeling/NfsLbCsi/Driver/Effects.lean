import NfsLbCsi.Basic.Locks
import NfsLbCsi.Basic.StringMap
import NfsLbCsi.ControllerServer.Handlers

set_option autoImplicit false

/-! # What the RPC handlers do to the outside

The handlers of `pkg/nfs` are programs (`Prog`) over the operations listed here: calls of the
mounter, of the `os` package, of external commands and of the LB controller, and the choice of an
order at every `range` over a map. The answers are left open; the results about the handlers say
which answers they assume. `Driver.volumeLocks` comes on top of these operations (`Locks.locked`).
-/

namespace NfsLbCsi

open Locks

/-! ## Errors -/

def Code.text : Code → String
  | .unknown => "Unknown"
  | .invalidArgument => "InvalidArgument"
  | .notFound => "NotFound"
  | .alreadyExists => "AlreadyExists"
  | .permissionDenied => "PermissionDenied"
  | .aborted => "Aborted"
  | .unimplemented => "Unimplemented"
  | .internal => "Internal"

/-- `status.Error`. -/
structure RpcError where
  code : Code
  message : String
  deriving DecidableEq

/-- `err.Error()`. -/
def RpcError.text (e : RpcError) : String :=
  "rpc error: code = " ++ e.code.text ++ " desc = " ++ e.message

def internal (message : String) : RpcError := ⟨.internal, message⟩
def invalidArgument (message : String) : RpcError := ⟨.invalidArgument, message⟩

/-- An error of the `os` package or the mounter: its text, and what `os.IsNotExist` and
`os.IsPermission` say about it. -/
structure OSError where
  text : String
  notExist : Bool := false
  permission : Bool := false
  deriving DecidableEq

/-- An external command that fails: the error and the combined output. -/
structure CommandError where
  text : String
  output : String
  deriving DecidableEq

/-- One call of the function that `filepath.WalkDir` is given. -/
structure Visit where
  path : String
  name : String
  err : Option String
  deriving DecidableEq

/-! ## Operations -/

inductive SysOp where
  /-- The order of one `range` over a map. -/
  | order
  | assignIPToNode (nodeID volumeID : String)
  | removeIPFromNode (nodeID volumeID : String)
  | isLikelyNotMountPoint (path : String)
  | mount (source target fstype : String) (options : List String)
  /-- `mount.CleanupMountWithForce` or `mount.CleanupMountPoint`. -/
  | cleanupMountPoint (path : String) (force : Bool)
  | mkdirAll (path : String) (mode : ℕ)
  | lstat (path : String)
  | chmod (path : String) (mode : ℕ)
  | removeAll (path : String)
  | rename (oldPath newPath : String)
  | statSize (path : String)
  | walkDir (root : String)
  /-- `mountpoint -d path`. -/
  | mountpoint (path : String)
  /-- `echo kb > /sys/class/bdi/device/read_ahead_kb`. -/
  | writeReadAhead (device : String) (kb : ℤ)
  /-- `cat /sys/class/bdi/device/read_ahead_kb`. -/
  | readReadAhead (device : String)
  /-- `tar -C dir -czvf archive .`. -/
  | tarCreate (dir archive : String)
  /-- `tar -xzvf archive -C dir`. -/
  | tarExtract (archive dir : String)
  /-- `cp -a src dst`. -/
  | copyAll (src dst : String)
  | now
  deriving DecidableEq

/-- A call of the LB controller returns, fails with a text, or panics; `lstat` answers the mode,
`mountpoint` and `readReadAhead` the output. -/
@[reducible] def SysOp.Answer : SysOp → Type
  | .order => MapOrder
  | .assignIPToNode _ _ => Outcome String String
  | .removeIPFromNode _ _ => Outcome String Unit
  | .isLikelyNotMountPoint _ => Except OSError Bool
  | .mount _ _ _ _ => Except OSError Unit
  | .cleanupMountPoint _ _ => Except OSError Unit
  | .mkdirAll _ _ => Except OSError Unit
  | .lstat _ => Except OSError ℕ
  | .chmod _ _ => Except OSError Unit
  | .removeAll _ => Except OSError Unit
  | .rename _ _ => Except OSError Unit
  | .statSize _ => Except OSError ℤ
  | .walkDir _ => List Visit
  | .mountpoint _ => Except OSError String
  | .writeReadAhead _ _ => Except OSError Unit
  | .readReadAhead _ => Except OSError String
  | .tarCreate _ _ => Except CommandError Unit
  | .tarExtract _ _ => Except CommandError Unit
  | .copyAll _ _ => Except CommandError Unit
  | .now => ℤ

/-- An answer to every operation: a loop goes in the order in which the map was written, and
everything that can fail does. -/
def SysOp.refused : (o : SysOp) → o.Answer
  | .order => .asWritten
  | .assignIPToNode _ _ => .throw "refused"
  | .removeIPFromNode _ _ => .throw "refused"
  | .isLikelyNotMountPoint _ => .error { text := "refused" }
  | .mount _ _ _ _ => .error { text := "refused" }
  | .cleanupMountPoint _ _ => .error { text := "refused" }
  | .mkdirAll _ _ => .error { text := "refused" }
  | .lstat _ => .error { text := "refused" }
  | .chmod _ _ => .error { text := "refused" }
  | .removeAll _ => .error { text := "refused" }
  | .rename _ _ => .error { text := "refused" }
  | .statSize _ => .error { text := "refused" }
  | .walkDir _ => []
  | .mountpoint _ => .error { text := "refused" }
  | .writeReadAhead _ _ => .error { text := "refused" }
  | .readReadAhead _ => .error { text := "refused" }
  | .tarCreate _ _ => .error ⟨"refused", ""⟩
  | .tarExtract _ _ => .error ⟨"refused", ""⟩
  | .copyAll _ _ => .error ⟨"refused", ""⟩
  | .now => 0

/-- The mounts and changes of the file system. -/
def SysOp.touches : SysOp → Bool
  | .mount _ _ _ _ | .cleanupMountPoint _ _ | .mkdirAll _ _ | .chmod _ _ | .removeAll _
  | .rename _ _ | .writeReadAhead _ _ | .tarCreate _ _ | .tarExtract _ _ | .copyAll _ _ => true
  | _ => false

/-- The operations without locks. -/
abbrev sys : Signature := ⟨SysOp, SysOp.Answer⟩

/-- A program of a handler between its lock and its unlock. -/
abbrev Sys (ε α : Type) := Prog sys ε α

/-- An RPC handler. -/
abbrev Rpc (α : Type) := Prog (locked String sys) RpcError α

/-- One operation of a program without locks. -/
def perform {ε : Type} (o : SysOp) : Sys ε o.Answer := Prog.op (S := sys) o

/-- One operation of a handler. -/
def Rpc.perform (o : SysOp) : Rpc o.Answer := Prog.op (S := locked String sys) (.base o)

/-- The order of a `range` loop of a handler. -/
def Rpc.order : Rpc MapOrder := Rpc.perform .order

end NfsLbCsi
