import NfsLbCsi.Basic.GoString

set_option autoImplicit false

/-! # From the flags to a running driver

`handle` of `cmd/nfsplugin/main.go`, and `NewDriver`, `NewNodeServer`, `NewControllerServer` and
`Driver.Run` of `pkg/nfs`. A pointer that may be `nil` is an `Option`. The LB controller itself is
modelled elsewhere; here it is given by the IP list that it serves.
-/

namespace NfsLbCsi

open GoString

/-- The flags of the plugin that reach the handlers. -/
structure Flags where
  mountPermissions : ℕ := 0
  workingMountDir : String := "/tmp"
  defaultOnDeletePolicy : String := ""
  ipAddresses : String := ""
  runControllerServer : Bool := false
  runNodeServer : Bool := false

structure DriverOptions where
  mountPermissions : ℕ
  workingMountDir : String
  defaultOnDeletePolicy : String
  ipList : List String
  runControllerServer : Bool
  runNodeServer : Bool

/-- The capabilities that the controller service announces. -/
inductive ControllerCapability where
  | createDeleteVolume
  | publishUnpublishVolume
  | publishReadonly
  | singleNodeMultiWriter
  | cloneVolume
  | createDeleteSnapshot
  deriving DecidableEq

/-- The node server: whether its mounter is a `MounterForceUnmounter`. -/
structure NodeServer where
  forceUnmounter : Bool

/-- The controller server: its LB controller, if it has one. -/
structure ControllerSetup where
  lbController : Option (List String)

structure Driver where
  mountPermissions : ℕ
  workingMountDir : String
  defaultOnDeletePolicy : String
  ipList : List String
  runControllerServer : Bool
  runNodeServer : Bool
  cscap : List ControllerCapability
  ns : Option NodeServer
  cs : Option ControllerSetup

/-- `NewDriver`. The default policy of the options is not copied. -/
def newDriver (options : DriverOptions) : Driver where
  mountPermissions := options.mountPermissions
  workingMountDir := options.workingMountDir
  defaultOnDeletePolicy := ""
  ipList := options.ipList
  runControllerServer := options.runControllerServer
  runNodeServer := options.runNodeServer
  cscap := [.createDeleteVolume, .publishUnpublishVolume, .publishReadonly, .singleNodeMultiWriter,
    .cloneVolume, .createDeleteSnapshot]
  ns := none
  cs := none

/-- `NewControllerServer`. -/
def newControllerServer (d : Driver) : ControllerSetup :=
  ⟨if d.ipList ≠ [] then some d.ipList else none⟩

/-- `Driver.Run` up to the start of the gRPC server; the mounter can force unmounts on Linux. -/
def Driver.run (linux : Bool) (d : Driver) : Driver :=
  { d with
    ns := if d.runNodeServer then some ⟨linux⟩ else none
    cs := if d.runControllerServer then some (newControllerServer d) else none }

/-- `handle`: the running driver, or none after `klog.Fatal`. -/
def handle (linux : Bool) (f : Flags) : Option Driver :=
  if f.runControllerServer ∧ f.ipAddresses = "" then none
  else
    some ((newDriver
      { mountPermissions := f.mountPermissions
        workingMountDir := f.workingMountDir
        defaultOnDeletePolicy := f.defaultOnDeletePolicy
        ipList := split ',' f.ipAddresses
        runControllerServer := f.runControllerServer
        runNodeServer := f.runNodeServer }).run linux)

/-- The LB controller that the handlers of the controller server use. -/
def Driver.lbController (d : Driver) : Option (List String) :=
  d.cs.bind ControllerSetup.lbController

/-- **What `handle` sets up** for a controller: an LB controller over the entries of the flag, and a
node server if the flag asks for one. -/
theorem handle_eq_some {linux : Bool} {f : Flags} {d : Driver} (h : handle linux f = some d)
    (hctl : f.runControllerServer = true) :
    f.ipAddresses ≠ "" ∧ d.lbController = some (split ',' f.ipAddresses) ∧
      (d.ns.isSome ↔ f.runNodeServer = true) := by
  unfold handle at h
  split at h
  · cases h
  · rename_i hne
    obtain rfl := Option.some.inj h
    refine ⟨fun hip => hne ⟨hctl, hip⟩, ?_, ?_⟩
    · -- splitting never gives an empty list
      simp [Driver.lbController, Driver.run, newDriver, hctl, newControllerServer, split_ne_nil]
    · simp only [Driver.run, newDriver]
      cases f.runNodeServer <;> simp

/-- A driver with both servers. -/
def fullDriver : Driver :=
  (newDriver
    { mountPermissions := 0, workingMountDir := "/tmp", defaultOnDeletePolicy := "",
      ipList := ["10.0.0.1"]
      runControllerServer := true, runNodeServer := true }).run true

end NfsLbCsi
