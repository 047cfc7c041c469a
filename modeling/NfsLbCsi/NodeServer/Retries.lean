import NfsLbCsi.NodeServer.Functions

set_option autoImplicit false

/-! # Retries of `NodePublishVolume`

`NodePublishVolume` answers success when the target is a mount point already. A call that fails
after its mount leaves such a target behind, and the next call takes it for finished. So success
means that everything has been applied only as long as nothing fails once the share is mounted;
otherwise a retry succeeds with the permissions or the read-ahead value missing.

* `targetWorld`: what the operations answer about one target path and what they do to it.
* `Steady`: once the share is mounted, the rest of the mount and the steps that are left succeed.
* `Calls`: calls with one request, one after the other.
-/

namespace NfsLbCsi

open GoString Locks

/-! ## The target -/

/-- A mount: its source, the mode of its root directory, its device number and the read-ahead value
of that device. -/
structure Mounted where
  source : String
  mode : ℕ
  device : String
  readAheadKB : ℤ
  deriving DecidableEq

/-- What may happen at the path `target`, where `w` is mounted before the operation and `w'` after
it. Any operation may fail. A mount that fails may have happened all the same, since `mount` reports
every error of its command, and a cleanup that fails may have got halfway; any other operation that
fails changes nothing. A new mount has any mode and read-ahead value; `chmod` sets the permission
bits; the kernel may round the read-ahead value that is written. A target that is said to be mounted
is mounted, and the answers of `lstat`, `mountpoint` and `cat` are true. -/
def targetWorld (target : String) (w : Option Mounted) :
    (o : SysOp) → o.Answer → Option Mounted → Prop
  | .isLikelyNotMountPoint path, .ok false, w' => w' = w ∧ (path = target → w ≠ none)
  | .mount source path _ _, .ok (), w' =>
      (path = target → ∃ m : Mounted, w' = some m ∧ m.source = source) ∧ (path ≠ target → w' = w)
  | .mount source path _ _, .error _, w' =>
      w' = w ∨ (path = target ∧ ∃ m : Mounted, w' = some m ∧ m.source = source)
  | .cleanupMountPoint path _, .ok (), w' =>
      (path = target → w' = none) ∧ (path ≠ target → w' = w)
  | .cleanupMountPoint path _, .error _, w' => path ≠ target → w' = w
  | .lstat path, .ok mode, w' => w' = w ∧ (path = target → ∀ m ∈ w, m.mode = mode)
  | .chmod path mode, .ok (), w' =>
      (path = target → ∃ mode', mode' &&& modePerm = mode &&& modePerm ∧
        w' = w.map (fun m => { m with mode := mode' })) ∧ (path ≠ target → w' = w)
  | .mountpoint path, .ok output, w' =>
      w' = w ∧ (path = target → ∀ m ∈ w, m.device = trimSpace output)
  | .writeReadAhead device _, .ok (), w' =>
      ∃ kb, w' = w.map (fun m => if m.device = device then { m with readAheadKB := kb } else m)
  | .readReadAhead device, .ok output, w' =>
      w' = w ∧ ∀ m ∈ w, m.device = device → ∀ kb ∈ parseInt (trimSpace output), kb = m.readAheadKB
  | _, _, w' => w' = w

/-- A mount that fails has mounted nothing, the operations that follow a mount succeed, and the
kernel keeps the read-ahead value as it is written. -/
def Steady (w : Option Mounted) : (o : SysOp) → o.Answer → Option Mounted → Prop
  | .mount _ _ _ _, .error _, w' => w' = w
  | .lstat _, a, _ => ∃ mode, a = .ok mode
  | .chmod _ _, a, _ => a = .ok ()
  | .mountpoint _, a, _ => ∃ output, a = .ok output
  | .writeReadAhead device kb, a, w' =>
      a = .ok () ∧ ∀ m ∈ w', m.device = device → m.readAheadKB = kb
  | .readReadAhead _, a, _ => ∃ output, a = .ok output ∧ parseInt (trimSpace output) ≠ none
  | _, _, _ => True

def steadyWorld (target : String) (w : Option Mounted) (o : SysOp) (a : o.Answer)
    (w' : Option Mounted) : Prop :=
  targetWorld target w o a w' ∧ Steady w o a w'

/-- Calls with the request `q`, one after the other, and their outcomes. The lock set is what the
other calls of the driver have made of it. -/
inductive Calls (T : Option Mounted → (o : SysOp) → o.Answer → Option Mounted → Prop) (d : Driver)
    (q : NodePublishVolumeRequest) : List (Outcome RpcError Unit) → Option Mounted → Prop where
  | nil : Calls T d q [] none
  | snoc {outs : List (Outcome RpcError Unit)} {w w' : Option Mounted}
      {locks locks' : Finset String} {out : Outcome RpcError Unit} : Calls T d q outs w →
      Prog.Exec (lockedWorld T) (nodePublishVolume d q) (locks, w) (locks', w') out →
      Calls T d q (outs ++ [out]) w'

/-! ## Fully applied -/

/-- The mount is what the specification asks for. A read-ahead flag is valid, and its value is
set. -/
structure Mounted.Meets (m : Mounted) (spec : MountSpec) : Prop where
  source : m.source = spec.source
  permissions : spec.mountPermissions > 0 →
    m.mode &&& modePerm = spec.mountPermissions &&& modePerm
  readAhead : ∃ flag, extractReadAheadKBMountFlag spec.mountOptions = .ok flag ∧
    ∀ kb ∈ flag, m.readAheadKB = kb

/-- What the request asks for, for some order of the loops over its maps. -/
def Asks (d : Driver) (q : NodePublishVolumeRequest) (spec : MountSpec) : Prop :=
  ∃ volCap σ ρ, q.volumeCapability = some volCap ∧ mountSpec d σ ρ volCap q = .ok spec

/-- The target is mounted with everything that the request asks for. -/
def FullyApplied (d : Driver) (q : NodePublishVolumeRequest) (w : Option Mounted) : Prop :=
  ∃ spec m, Asks d q spec ∧ w = some m ∧ m.Meets spec

/-- A read-ahead flag of the request is a number that is not negative. -/
def ValidFlag (d : Driver) (q : NodePublishVolumeRequest) : Prop :=
  ∀ spec, Asks d q spec → ∃ flag, extractReadAheadKBMountFlag spec.mountOptions = .ok flag

/-! ## The steps after the mount -/

theorem fileMode_land (mountPermissions : ℕ) :
    fileMode mountPermissions &&& modePerm = mountPermissions &&& modePerm := by
  have hperm : modePerm = 2 ^ 9 - 1 := rfl
  rw [hperm, Nat.and_two_pow_sub_one_eq_mod, Nat.and_two_pow_sub_one_eq_mod, fileMode]
  exact Nat.mod_mod_of_dvd _ ⟨2 ^ 23, rfl⟩

section

variable {target : String} {m : Mounted} {w' : Option Mounted}

/-! ### One step in a steady world -/

theorem steady_lstat {a : Except OSError ℕ}
    (h : steadyWorld target (some m) (.lstat target) a w') : a = .ok m.mode ∧ w' = some m := by
  obtain ⟨hworld, mode, rfl⟩ := h
  obtain ⟨rfl, hmode⟩ := hworld
  exact ⟨congrArg _ (hmode rfl m rfl).symm, rfl⟩

theorem steady_chmod {mode : ℕ} {a : Except OSError Unit}
    (h : steadyWorld target (some m) (.chmod target mode) a w') :
    a = .ok () ∧ ∃ mode', mode' &&& modePerm = mode &&& modePerm ∧
      w' = some { m with mode := mode' } := by
  obtain ⟨hworld, rfl⟩ := h
  obtain ⟨mode', hland, rfl⟩ := hworld.1 rfl
  exact ⟨rfl, mode', hland, rfl⟩

theorem steady_mountpoint {a : Except OSError String}
    (h : steadyWorld target (some m) (.mountpoint target) a w') :
    ∃ output, a = .ok output ∧ trimSpace output = m.device ∧ w' = some m := by
  obtain ⟨hworld, output, rfl⟩ := h
  obtain ⟨rfl, hdevice⟩ := hworld
  exact ⟨output, rfl, (hdevice rfl m rfl).symm, rfl⟩

theorem steady_writeReadAhead {device : String} {kb : ℤ} {a : Except OSError Unit}
    (h : steadyWorld target (some m) (.writeReadAhead device kb) a w')
    (hdevice : device = m.device) :
    a = .ok () ∧ w' = some { m with readAheadKB := kb } := by
  obtain ⟨hworld, rfl, hkept⟩ := h
  obtain ⟨stored, hw'⟩ := hworld
  rw [Option.map_some, if_pos hdevice.symm] at hw'
  have hstored : stored = kb := hkept _ hw' hdevice.symm
  exact ⟨rfl, hw'.trans (by rw [hstored])⟩

theorem steady_readReadAhead {device : String} {a : Except OSError String}
    (h : steadyWorld target (some m) (.readReadAhead device) a w') (hdevice : device = m.device) :
    ∃ output, a = .ok output ∧ parseInt (trimSpace output) = some m.readAheadKB ∧ w' = some m := by
  obtain ⟨hworld, output, rfl, hparse⟩ := h
  obtain ⟨rfl, htrue⟩ := hworld
  obtain ⟨kb, hkb⟩ := Option.ne_none_iff_exists'.mp hparse
  exact ⟨output, rfl, by rw [hkb, htrue m rfl hdevice.symm kb hkb], rfl⟩

/-! ### The permissions and the read-ahead value -/

theorem setPermissions_spec (mountPermissions : ℕ) :
    (setPermissions target mountPermissions).Wp (steadyWorld target) (fun out w' =>
      out = .ret () ∧ ∃ m' : Mounted, w' = some m' ∧ m'.source = m.source ∧
        (mountPermissions > 0 → m'.mode &&& modePerm = mountPermissions &&& modePerm))
          (some m) := by
  unfold setPermissions
  split
  · simp only [chmodIfPermissionMismatch, Prog.wp_mapError, Prog.wp_bind, Prog.wp_must]
    intro a w₁ hlstat
    obtain ⟨rfl, rfl⟩ := steady_lstat hlstat
    show Prog.Wp _ (ite _ _ _) _ _
    split
    · intro a w₂ hchmod
      obtain ⟨rfl, mode', hland, rfl⟩ := steady_chmod hchmod
      exact ⟨rfl, _, rfl, rfl, fun _ => hland.trans (fileMode_land mountPermissions)⟩
    · -- no `chmod`: the directory has the mode already
      rename_i heq
      have heq : m.mode &&& modePerm = fileMode mountPermissions := not_not.mp heq
      refine ⟨rfl, m, rfl, rfl, fun _ => ?_⟩
      calc m.mode &&& modePerm = (m.mode &&& modePerm) &&& modePerm := by
            rw [Nat.and_assoc, Nat.and_self]
        _ = fileMode mountPermissions &&& modePerm := by rw [heq]
        _ = mountPermissions &&& modePerm := fileMode_land mountPermissions
  · rename_i hzero
    exact ⟨rfl, m, rfl, rfl, fun h => absurd h hzero⟩

/-- `updateReadAhead` changes nothing but the read-ahead value of the mount that it finds. -/
theorem updateReadAhead_spec (kb : ℤ) :
    (updateReadAhead target kb).Wp (steadyWorld target) (fun out w' =>
      out = .ret () ∧ w' = some { m with readAheadKB := kb }) (some m) := by
  simp only [updateReadAhead, Prog.wp_bind, Prog.wp_must, perform, Prog.op, Prog.wp_call,
    Prog.wp_done, Outcome.cases_ret]
  -- the device is that of the mount
  intro a w₁ hlookup
  obtain ⟨output, ha, hdevice, hw⟩ := steady_mountpoint hlookup
  subst ha hw
  -- the kernel keeps the value
  intro a w₂ hwrite
  obtain ⟨ha, hw⟩ := steady_writeReadAhead hwrite hdevice
  subst ha hw
  -- and shows it
  intro a w₃ hread
  obtain ⟨text, ha, hshown, hw⟩ := steady_readReadAhead hread hdevice
  subst ha hw
  rw [Outcome.ofExcept_ok, Outcome.cases_ret, hshown]
  show Prog.Wp _ (if kb ≠ kb then _ else _) _ _
  rw [if_neg (not_not.mpr rfl)]
  exact ⟨rfl, rfl⟩

theorem setReadAhead_spec {mountOptions : List String} {flag : Option ℤ}
    (hflag : extractReadAheadKBMountFlag mountOptions = .ok flag) :
    (setReadAhead target mountOptions).Wp (steadyWorld target) (fun out w' =>
      out = .ret () ∧ ∃ m' : Mounted, w' = some m' ∧ m'.source = m.source ∧ m'.mode = m.mode ∧
        ∀ kb ∈ flag, m'.readAheadKB = kb) (some m) := by
  simp only [setReadAhead, Prog.ofExcept, hflag, Outcome.ofExcept_ok, Prog.done_ret_bind]
  cases flag with
  | none => exact ⟨rfl, m, rfl, rfl, rfl, by simp⟩
  | some kb =>
      rw [Prog.wp_mapError]
      refine (updateReadAhead_spec (m := m) kb).mono ?_
      rintro out w' ⟨rfl, rfl⟩
      exact ⟨rfl, _, rfl, rfl, rfl, by simp⟩

/-- **After a mount** in a steady world, everything that is asked for is there. -/
theorem mountTarget_spec {spec : MountSpec} {w : Option Mounted}
    (hflag : ∃ flag, extractReadAheadKBMountFlag spec.mountOptions = .ok flag) :
    (mountTarget target spec).Wp (steadyWorld target) (fun out w' =>
      (w' = w ∧ out ≠ .ret ()) ∨ ∃ m, w' = some m ∧ m.Meets spec) w := by
  obtain ⟨flag, hflag⟩ := hflag
  simp only [mountTarget, Prog.wp_bind, Prog.wp_must]
  rintro a w₁ ⟨hmount, hsteady⟩
  cases a with
  | error err => exact Or.inl ⟨hsteady, by simp⟩
  | ok u =>
      obtain ⟨m, rfl, hsource⟩ := hmount.1 rfl
      refine (setPermissions_spec (m := m) spec.mountPermissions).mono ?_
      rintro out w₂ ⟨rfl, m₁, rfl, hsource₁, hperm⟩
      refine (setReadAhead_spec (m := m₁) hflag).mono ?_
      rintro out w₃ ⟨-, m₂, rfl, hsource₂, hmode, hkb⟩
      refine Or.inr ⟨m₂, rfl, ?_, ?_, flag, hflag, hkb⟩
      · rw [hsource₂, hsource₁, hsource]
      · rw [hmode]
        exact hperm

end

/-! ## Calls -/

section

variable {d : Driver} {q : NodePublishVolumeRequest}

/-- A look at the target changes nothing; "mounted" is true. -/
theorem checkTarget_spec {target : String} (mountPermissions : ℕ) (w : Option Mounted) :
    (checkTarget target mountPermissions).Wp (steadyWorld target) (fun out w' =>
      w' = w ∧ (out = .ret false → w ≠ none)) w := by
  simp only [checkTarget, Prog.wp_bind]
  rintro a w₁ ⟨hlook, -⟩
  match a, hlook with
  | .ok true, hlook => exact ⟨hlook, by simp⟩
  | .ok false, hlook => exact ⟨hlook.1, fun _ => hlook.2 rfl⟩
  | .error err, hlook =>
      obtain rfl : w₁ = w := hlook
      show Prog.Wp _ (ite _ _ _) _ _
      split
      · rw [Prog.wp_bind, Prog.wp_must]
        rintro a w₂ ⟨hmkdir, -⟩
        cases a with
        | ok u => exact ⟨hmkdir, by simp⟩
        | error err => exact ⟨hmkdir, by simp⟩
      · exact ⟨rfl, by simp⟩

/-- One call under the lock: what was fully applied or not mounted at all stays so, and success
means fully applied. -/
theorem publishTarget_spec {volCap : VolumeCapability} (hcap : q.volumeCapability = some volCap)
    (hflag : ValidFlag d q) {w : Option Mounted} (hw : w = none ∨ FullyApplied d q w) :
    (publishTarget d volCap q).Wp (steadyWorld q.targetPath) (fun out w' =>
      (w' = none ∨ FullyApplied d q w') ∧ (out = .ret () → FullyApplied d q w')) w := by
  -- the orders of the two loops
  rintro σ w₁ ⟨hσ, -⟩ ρ w₂ ⟨hρ, -⟩
  obtain rfl : w₁ = w := hσ
  obtain rfl : w₂ = w₁ := hρ
  refine Prog.wp_ofExcept_bind (fun spec hspec => ?_) (fun err _ => ⟨hw, by simp⟩)
  have hasks : Asks d q spec := ⟨volCap, σ, ρ, hcap, hspec⟩
  rw [Prog.wp_bind]
  refine (checkTarget_spec spec.mountPermissions w₂).mono ?_
  rintro out w₃ ⟨rfl, hmounted⟩
  match out, hmounted with
  | .throw err, _ => exact ⟨hw, by simp⟩
  | .panic, _ => exact ⟨hw, by simp⟩
  | .ret false, hmounted =>
      have happlied : FullyApplied d q w₃ := hw.resolve_left (hmounted rfl)
      exact ⟨Or.inr happlied, fun _ => happlied⟩
  | .ret true, _ =>
      refine (mountTarget_spec (w := w₃) (hflag spec hasks)).mono ?_
      rintro out w₄ (⟨rfl, hout⟩ | ⟨m, rfl, hmeets⟩)
      · exact ⟨hw, fun h => absurd h hout⟩
      · have happlied : FullyApplied d q (some m) := ⟨spec, m, hasks, rfl, hmeets⟩
        exact ⟨Or.inr happlied, fun _ => happlied⟩

/-- One call, with its checks and its lock. -/
theorem nodePublishVolume_spec (hflag : ValidFlag d q) {w w' : Option Mounted}
    {locks locks' : Finset String} {out : Outcome RpcError Unit}
    (hcall : Prog.Exec (lockedWorld (steadyWorld q.targetPath)) (nodePublishVolume d q) (locks, w)
      (locks', w') out) (hw : w = none ∨ FullyApplied d q w) :
    (w' = none ∨ FullyApplied d q w') ∧ (out = .ret () → FullyApplied d q w') := by
  refine Prog.Wp.exec (Q := fun out s =>
    (s.2 = none ∨ FullyApplied d q s.2) ∧ (out = .ret () → FullyApplied d q s.2)) ?_ hcall
  unfold nodePublishVolume
  cases hcap : q.volumeCapability with
  | none => exact ⟨hw, by simp⟩
  | some volCap =>
      refine Prog.wp_require_bind (fun _ => ?_) (fun _ => ⟨hw, by simp⟩)
      refine Prog.wp_require_bind (fun _ => ?_) (fun _ => ⟨hw, by simp⟩)
      unfold onNode
      cases d.ns with
      | none => exact ⟨hw, by simp⟩
      | some ns =>
          rw [Prog.wp_iff]
          intro s out he
          rcases exec_withLock.mp he with ⟨-, rfl, rfl⟩ | ⟨-, hbody, -⟩
          · exact ⟨hw, by simp⟩
          · exact (publishTarget_spec hcap hflag hw).exec hbody

theorem calls_applied (hflag : ValidFlag d q) {outs : List (Outcome RpcError Unit)}
    {w : Option Mounted} (h : Calls (steadyWorld q.targetPath) d q outs w) :
    w = none ∨ FullyApplied d q w := by
  induction h with
  | nil => exact Or.inl rfl
  | snoc _ hcall ih => exact (nodePublishVolume_spec hflag hcall ih).1

end

/-! ## A request on a fresh target -/

/-- A driver with a node server. -/
def nodeDriver (mountPermissions : ℕ) : Driver :=
  (newDriver
    { mountPermissions := mountPermissions, workingMountDir := "/tmp", defaultOnDeletePolicy := ""
      ipList := [""], runControllerServer := false, runNodeServer := true }).run true

/-- A request for `10.0.0.1:/s` at `/t` with one mount flag. -/
def flagRequest (flag : String) : NodePublishVolumeRequest where
  volumeId := "v"
  publishContext := (∅ : StringMap).set nodeAnnotationKey "10.0.0.1"
  targetPath := "/t"
  volumeCapability := some ⟨some (.mount [flag])⟩
  readonly := false
  volumeContext := (∅ : StringMap).set "share" "/s"

/-- The share as the kernel mounts it. -/
def freshMount : Mounted := ⟨"10.0.0.1:/s", 0o777, "0:45", 4096⟩

/-- The order of the loops does not matter for it. -/
theorem asks_flagRequest {mountPermissions : ℕ} {flag : String} {spec : MountSpec}
    (h : Asks (nodeDriver mountPermissions) (flagRequest flag) spec) :
    spec = ⟨"10.0.0.1:/s", [flag], mountPermissions⟩ := by
  obtain ⟨volCap, σ, ρ, hcap, hspec⟩ := h
  obtain rfl := Option.some.inj hcap
  have hrange : σ.range (flagRequest flag).volumeContext = [("share", "/s")] :=
    List.perm_singleton.mp (σ.perm _)
  simp only [mountSpec, publishParams, hrange] at hspec
  exact (Except.ok.inj hspec).symm

/-- Mounts succeed and are seen; everything else fails. -/
def failingKernel (w : Option Mounted) : (o : SysOp) → o.Answer × Option Mounted
  | .isLikelyNotMountPoint _ => (.ok w.isNone, w)
  | .mount source path _ _ =>
      if path = "/t" then (.ok (), some { freshMount with source := source }) else (.ok (), w)
  | o => (o.refused, w)

theorem failingKernel_spec (w : Option Mounted) (o : SysOp) :
    targetWorld "/t" w o (failingKernel w o).1 (failingKernel w o).2 := by
  cases o with
  | isLikelyNotMountPoint path =>
      cases w with
      | none => exact rfl
      | some m => exact ⟨rfl, fun _ => by simp⟩
  | mount source path fstype options =>
      by_cases hpath : path = "/t"
      · simp [failingKernel, targetWorld, hpath]
      · simp [failingKernel, targetWorld, hpath]
  | cleanupMountPoint path force => exact fun _ => rfl
  | _ => exact rfl

/-- A mount with the permissions 0755 and a read-ahead value of 128, step by step. -/
theorem exec_flagRequest :
    Prog.Exec (lockedWorld (steadyWorld "/t")) (nodePublishVolume (nodeDriver 0o755)
      (flagRequest "read_ahead_kb=128")) (∅, none) (∅, some ⟨"10.0.0.1:/s", 0o755, "0:45", 128⟩)
      (.ret ()) := by
  have hsome : ∀ {m : Mounted} {P : Mounted → Prop}, P m → ∀ m' ∈ some m, P m' := by
    intro m P hm m' hm'
    exact Option.some.inj hm' ▸ hm
  have hlook : steadyWorld "/t" none (.isLikelyNotMountPoint "/t") (.ok true) none := ⟨rfl, trivial⟩
  have hmount : steadyWorld "/t" none (.mount "10.0.0.1:/s" "/t" "nfs" []) (.ok ())
      (some freshMount) := ⟨⟨fun _ => ⟨freshMount, rfl, rfl⟩, fun h => absurd rfl h⟩, trivial⟩
  have hlstat : steadyWorld "/t" (some freshMount) (.lstat "/t") (.ok 0o777) (some freshMount) :=
    ⟨⟨rfl, fun _ => hsome rfl⟩, _, rfl⟩
  have hchmod : steadyWorld "/t" (some freshMount) (.chmod "/t" 0o755) (.ok ())
      (some { freshMount with mode := 0o755 }) :=
    ⟨⟨fun _ => ⟨0o755, rfl, rfl⟩, fun h => absurd rfl h⟩, rfl⟩
  have hlookup : steadyWorld "/t" (some { freshMount with mode := 0o755 }) (.mountpoint "/t")
      (.ok "0:45\n") (some { freshMount with mode := 0o755 }) :=
    ⟨⟨rfl, fun _ => hsome (by decide)⟩, _, rfl⟩
  have hwrite : steadyWorld "/t" (some { freshMount with mode := 0o755 })
      (.writeReadAhead "0:45" 128) (.ok ()) (some ⟨"10.0.0.1:/s", 0o755, "0:45", 128⟩) :=
    ⟨⟨128, rfl⟩, rfl, hsome fun _ => rfl⟩
  have hread : steadyWorld "/t" (some ⟨"10.0.0.1:/s", 0o755, "0:45", 128⟩) (.readReadAhead "0:45")
      (.ok "128\n") (some ⟨"10.0.0.1:/s", 0o755, "0:45", 128⟩) :=
    ⟨⟨rfl, hsome fun _ => by decide⟩, _, rfl, by decide⟩
  refine exec_withLock.mpr (Or.inr ⟨by simp, ?_, Or.inl ⟨by simp, rfl⟩⟩)
  refine .call (a := MapOrder.asWritten) ⟨rfl, trivial⟩
    (.call (a := MapOrder.asWritten) ⟨rfl, trivial⟩ ?_)
  exact .call hlook (.call hmount (.call hlstat (.call hchmod (.call hlookup (.call hwrite
    (.call hread (.done _ _)))))))

end NfsLbCsi
