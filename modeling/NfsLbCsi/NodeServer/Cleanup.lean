import NfsLbCsi.NodeServer.Mounts

set_option autoImplicit false

/-! # Unmounting

`NodeUnpublishVolume` leaves the work to `CleanupMountPoint` and `CleanupMountWithForce` of
`k8s.io/mount-utils`, which look at the path, run `umount` and delete the directory. They are
programs over the system calls and commands that they use; `spotKernel` says what these do to one
path.

* `cleanup_refines`: on a kernel that may fail but does not lie, the two functions do what
  `mountKernel` assumes of them, and they delete nothing but a file or an empty directory in the
  place of the mount.
* `cleanup_succeeds_iff`: on a kernel that does what it is asked for, they succeed if and only if
  there is no more than one mount to take away and nothing under it.
-/

namespace NfsLbCsi

open GoString

/-! ## The functions of `mount-utils` -/

/-- An error about a path: its text, whether it says that the path does not exist, and what
`IsCorruptedMnt` says about it. -/
structure PathError where
  text : String
  notExist : Bool := false
  corrupted : Bool := false
  deriving DecidableEq

/-- A command that fails: the error, the state of its process and the output. -/
structure CommandFailure where
  err : String
  processState : String
  processSuccess : Bool
  output : String
  deriving DecidableEq

inductive UnmountOp where
  | stat (path : String)
  | access (path : String)
  | isMountPoint (file : String)
  | isLikelyNotMountPoint (file : String)
  /-- `umount target` under a deadline. -/
  | umountWithin (target : String)
  /-- `umount target`, or `umount -f target`. -/
  | umount (target : String) (force : Bool)
  /-- `os.Remove`. -/
  | remove (path : String)

/-- After its deadline, `umountWithin` has no result. -/
@[reducible] def UnmountOp.Answer : UnmountOp → Type
  | .stat _ => Except PathError Unit
  | .access _ => Except PathError Unit
  | .isMountPoint _ => Except PathError Bool
  | .isLikelyNotMountPoint _ => Except PathError Bool
  | .umountWithin _ => Option (Except CommandFailure Unit)
  | .umount _ _ => Except CommandFailure Unit
  | .remove _ => Except PathError Unit

abbrev unmountOps : Signature := ⟨UnmountOp, UnmountOp.Answer⟩

/-- A function of `mount-utils`; an error is its text. -/
abbrev Unmounting (α : Type) := Prog unmountOps String α

def Unmounting.perform (o : UnmountOp) : Unmounting o.Answer := Prog.op (S := unmountOps) o

/-- `return err`. -/
def Unmounting.result : Option String → Unmounting Unit
  | none => pure ()
  | some err => Prog.fail err

/-- `syscall.ESTALE`. -/
def staleFileHandle : PathError := { text := "stale file handle", corrupted := true }

/-- `PathExists`. -/
def pathExists (path : String) : Unmounting (Bool × Option PathError) := do
  match ← Unmounting.perform (.stat path) with
  | .ok () => pure (true, none)
  | .error err =>
      if err.notExist then do
        match ← Unmounting.perform (.access path) with
        | .ok () => pure (true, some staleFileHandle)
        | .error _ => pure (false, none)
      else if err.corrupted then pure (true, some err)
      else pure (false, some err)

/-- `IsNotMountPoint`, or `IsLikelyNotMountPoint`: both say "not a mount point" with an error. -/
def isNotMountPoint (mountPath : String) (extensiveMountPointCheck : Bool) :
    Unmounting (Bool × Option PathError) :=
  if extensiveMountPointCheck then do
    match ← Unmounting.perform (.isMountPoint mountPath) with
    | .ok isMnt => pure (!isMnt, none)
    | .error err => pure (true, some err)
  else do
    match ← Unmounting.perform (.isLikelyNotMountPoint mountPath) with
    | .ok notMnt => pure (notMnt, none)
    | .error err => pure (true, some err)

/-- `removePathIfNotMountPoint`. -/
def removePathIfNotMountPoint (mountPath : String) (extensiveMountPointCheck : Bool) :
    Unmounting (Bool × Option String) := do
  let checked ← isNotMountPoint mountPath extensiveMountPointCheck
  match checked.2 with
  | some err => if err.notExist then pure (true, none) else pure (checked.1, some err.text)
  | none =>
      if checked.1 then do
        match ← Unmounting.perform (.remove mountPath) with
        | .ok () => pure (true, none)
        | .error err => pure (true, some err.text)
      else pure (false, none)

/-- `removePath`. -/
def removePath (mountPath : String) : Unmounting Unit := do
  match ← Unmounting.perform (.remove mountPath) with
  | .ok () => pure ()
  | .error err => if err.notExist then pure () else Prog.fail err.text

/-- `checkUmountError`. -/
def checkUmountError (target : String) (failure : CommandFailure)
    (withSafeNotMountedBehavior : Bool) : Option String :=
  let noChild := failure.err = "wait: no child processes"
  if noChild ∧ failure.processSuccess then none
  else if withSafeNotMountedBehavior ∧ contains failure.output "not mounted" then none
  else
    some ("unmount failed: " ++ (if noChild then failure.processState else failure.err) ++
      "\nUnmounting arguments: " ++ target ++ "\nOutput: " ++ failure.output)

/-- The result of an `umount` command. -/
def umountResult (target : String) (withSafeNotMountedBehavior : Bool) :
    Except CommandFailure Unit → Unmounting Unit
  | .ok () => pure ()
  | .error failure => Unmounting.result (checkUmountError target failure withSafeNotMountedBehavior)

/-- `Mounter.Unmount`. -/
def unmount (withSafeNotMountedBehavior : Bool) (target : String) : Unmounting Unit := do
  umountResult target withSafeNotMountedBehavior (← Unmounting.perform (.umount target false))

/-- `Mounter.UnmountWithForce`. -/
def unmountWithForce (withSafeNotMountedBehavior : Bool) (target : String) : Unmounting Unit := do
  match ← Unmounting.perform (.umountWithin target) with
  | some r => umountResult target withSafeNotMountedBehavior r
  | none =>
      umountResult target withSafeNotMountedBehavior (← Unmounting.perform (.umount target true))

/-- `doCleanupMountPoint`, and the second half of `CleanupMountWithForce`. -/
def doCleanupMountPoint (unmount : Unmounting Unit) (mounterCanSkip : Bool) (mountPath : String)
    (extensiveMountPointCheck corruptedMnt : Bool) : Unmounting Unit :=
  if corruptedMnt || mounterCanSkip then do
    unmount
    removePath mountPath
  else do
    let first ← removePathIfNotMountPoint mountPath extensiveMountPointCheck
    if first.2.isSome || first.1 then Unmounting.result first.2
    else do
      unmount
      let second ← removePathIfNotMountPoint mountPath extensiveMountPointCheck
      if second.1 then Unmounting.result second.2
      else Prog.fail ("failed to cleanup mount point " ++ mountPath)

/-- The first half of both functions. -/
def cleanup (unmount : Unmounting Unit) (mounterCanSkip : Bool) (mountPath : String)
    (extensiveMountPointCheck : Bool) : Unmounting Unit := do
  let found ← pathExists mountPath
  match found.2 with
  | none =>
      if found.1 then
        doCleanupMountPoint unmount mounterCanSkip mountPath extensiveMountPointCheck false
      else pure ()
  | some pathErr =>
      if pathErr.corrupted then
        doCleanupMountPoint unmount mounterCanSkip mountPath extensiveMountPointCheck true
      else Prog.fail ("Error checking path: " ++ pathErr.text)

/-- `CleanupMountPoint` with a mounter whose `umount` has the detected behaviour. -/
def cleanupMountPoint (withSafeNotMountedBehavior : Bool) (mountPath : String)
    (extensiveMountPointCheck : Bool) : Unmounting Unit :=
  cleanup (unmount withSafeNotMountedBehavior mountPath) withSafeNotMountedBehavior mountPath
    extensiveMountPointCheck

/-- `CleanupMountWithForce`. -/
def cleanupMountWithForce (withSafeNotMountedBehavior : Bool) (mountPath : String)
    (extensiveMountPointCheck : Bool) : Unmounting Unit :=
  cleanup (unmountWithForce withSafeNotMountedBehavior mountPath)
    withSafeNotMountedBehavior mountPath extensiveMountPointCheck

/-- The unmount that `NodeUnpublishVolume` runs. -/
def unpublishCleanup (forceUnmounter withSafeNotMountedBehavior : Bool) (targetPath : String) :
    Unmounting Unit :=
  if forceUnmounter then cleanupMountWithForce withSafeNotMountedBehavior targetPath true
  else cleanupMountPoint withSafeNotMountedBehavior targetPath true

/-! ## One path of the file system -/

/-- What is at a path when all mounts are away. -/
inductive Under where
  | absent
  | file
  | directory (entries : List String)
  deriving DecidableEq

/-- `os.Remove` can delete it. -/
def Under.removable : Under → Bool
  | .file => true
  | .directory entries => entries.isEmpty
  | .absent => false

/-- A path: what it is without mounts, and the mounts on it. What does not exist has no mounts. -/
@[ext] structure Spot where
  under : Under
  mounts : List MountEntry
  bare : under = .absent → mounts = []

/-- The newest mount goes. -/
def Spot.pop (s : Spot) : Spot := ⟨s.under, s.mounts.tail, fun h => by rw [s.bare h]; rfl⟩

/-- The path does not exist. -/
def Spot.gone : Spot := ⟨.absent, [], fun _ => rfl⟩

/-- What a failed `umount` leaves: its process may have succeeded all the same, and "not mounted" is
true. -/
def Spot.AfterFailure (s : Spot) (failure : CommandFailure) (s' : Spot) : Prop :=
  if failure.processSuccess then s' = s.pop
  else s' = s ∧ (contains failure.output "not mounted" = true → s.mounts = [])

/-- What may happen at the path. Any operation may fail, and what it answers is true. That is an
assumption: `PathExists` takes every error of `access` for "does not exist", and here `access` fails
only when the path does not exist; a check for mount points that answers is right; "does not exist"
is true; and a failed `umount` leaves what `AfterFailure` says. An `umount` that is killed at its
deadline may have done its work. A mount point, or a directory with entries, cannot be deleted. -/
def spotKernel (s : Spot) : (o : UnmountOp) → o.Answer → Spot → Prop
  | .stat _, .ok (), s' => s' = s ∧ s.under ≠ .absent
  | .stat _, .error _, s' => s' = s
  | .access _, .ok (), s' => s' = s ∧ s.under ≠ .absent
  | .access _, .error _, s' => s' = s ∧ s.under = .absent
  | .isMountPoint _, .ok isMnt, s' => s' = s ∧ isMnt = !s.mounts.isEmpty
  | .isMountPoint _, .error err, s' => s' = s ∧ (err.notExist = true → s.under = .absent)
  | .isLikelyNotMountPoint _, .ok notMnt, s' => s' = s ∧ notMnt = s.mounts.isEmpty
  | .isLikelyNotMountPoint _, .error err, s' => s' = s ∧ (err.notExist = true → s.under = .absent)
  | .umountWithin _, none, s' => s' = s ∨ s' = s.pop
  | .umountWithin _, some (.ok ()), s' => s' = s.pop
  | .umountWithin _, some (.error failure), s' => s.AfterFailure failure s'
  | .umount _ _, .ok (), s' => s' = s.pop
  | .umount _ _, .error failure, s' => s.AfterFailure failure s'
  | .remove _, .ok (), s' => s' = Spot.gone ∧ s.mounts = [] ∧ s.under.removable = true
  | .remove _, .error err, s' => s' = s ∧ (err.notExist = true → s.under = .absent)

/-! ## On a kernel that does not lie -/

/-- Some of the newest mounts are gone. -/
def Spot.Shrinks (s s' : Spot) : Prop := s'.under = s.under ∧ s'.mounts <:+ s.mounts

/-- What a cleanup leaves. After success the path does not exist; whatever happens, what is under
the mounts is there as before, unless it was a file or an empty directory. -/
structure Spot.Cleaned (s s' : Spot) (out : Outcome String Unit) : Prop where
  mounts : s'.mounts <:+ s.mounts
  success : out = .ret () → s'.under = .absent
  kept : s'.under = s.under ∨ (s'.under = .absent ∧ s.under.removable = true)
  returns : out ≠ .panic

section

variable {s s₁ s' : Spot} {out : Outcome String Unit} {path : String} {safe extensive : Bool}

theorem Spot.Shrinks.refl (s : Spot) : s.Shrinks s := ⟨rfl, List.suffix_rfl⟩

theorem Spot.shrinks_pop (s : Spot) : s.Shrinks s.pop := ⟨rfl, List.tail_suffix _⟩

theorem Spot.AfterFailure.shrinks {failure : CommandFailure} (h : s.AfterFailure failure s') :
    s.Shrinks s' := by
  unfold Spot.AfterFailure at h
  split at h
  · rw [h]
    exact s.shrinks_pop
  · rw [h.1]
    exact .refl s

theorem Spot.Shrinks.cleaned (h : s.Shrinks s₁) (h' : s₁.Cleaned s' out) : s.Cleaned s' out where
  mounts := h'.mounts.trans h.2
  success := h'.success
  kept := h.1 ▸ h'.kept
  returns := h'.returns

/-- A function that fails before it has deleted anything. -/
theorem Spot.Shrinks.cleaned_throw (h : s.Shrinks s') (err : String) :
    s.Cleaned s' (.throw err) where
  mounts := h.2
  success := by simp
  kept := Or.inl h.1
  returns := by simp

theorem Spot.cleaned_of_absent (h : s.under = .absent) : s.Cleaned s (.ret ()) where
  mounts := List.suffix_rfl
  success := fun _ => h
  kept := Or.inl rfl
  returns := by simp

theorem Spot.cleaned_gone (h : s.mounts = []) (hrem : s.under.removable = true) :
    s.Cleaned Spot.gone (.ret ()) where
  mounts := h ▸ List.suffix_rfl
  success := fun _ => rfl
  kept := Or.inr ⟨rfl, hrem⟩
  returns := by simp

theorem umountResult_eq (target : String) (safe : Bool) (r : Except CommandFailure Unit) :
    ∃ out, umountResult target safe r = .done out ∧ out ≠ .panic := by
  cases r with
  | ok u => exact ⟨_, rfl, by simp⟩
  | error failure =>
      cases h : checkUmountError target failure safe with
      | none => exact ⟨.ret (), by simp [umountResult, h, Unmounting.result], by simp⟩
      | some err =>
          exact ⟨.throw err, by simp [umountResult, h, Unmounting.result, Prog.fail], by simp⟩

theorem wp_umountResult {target : String} {r : Except CommandFailure Unit}
    {Q : Outcome String Unit → Spot → Prop} (h : ∀ out, out ≠ .panic → Q out s) :
    (umountResult target safe r).Wp spotKernel Q s := by
  obtain ⟨out, heq, hne⟩ := umountResult_eq target safe r
  rw [heq]
  exact h out hne

/-- An unmount takes mounts away and does nothing else. -/
def Unmounts (u : Unmounting Unit) : Prop :=
  ∀ s, u.Wp spotKernel (fun out s' => s.Shrinks s' ∧ out ≠ .panic) s

theorem unmounts_umount (safe force : Bool) (target : String) :
    Unmounts (Unmounting.perform (.umount target force) >>= umountResult target safe) := by
  intro s r s₁ hr
  refine wp_umountResult (fun out hne => ⟨?_, hne⟩)
  cases r with
  | ok u =>
      obtain rfl : s₁ = s.pop := hr
      exact s.shrinks_pop
  | error failure => exact Spot.AfterFailure.shrinks hr

/-- Two mounts may go: one before the deadline has passed, and one by force. -/
theorem unmounts_unmountWithForce (safe : Bool) (target : String) :
    Unmounts (unmountWithForce safe target) := by
  intro s r s₁ hr
  match r, hr with
  | some (.ok ()), hr =>
      obtain rfl : s₁ = s.pop := hr
      show (umountResult target safe (.ok ())).Wp _ _ _
      exact wp_umountResult (fun out hne => ⟨s.shrinks_pop, hne⟩)
  | some (.error failure), hr =>
      show (umountResult target safe (.error failure)).Wp _ _ _
      exact wp_umountResult (fun out hne => ⟨Spot.AfterFailure.shrinks hr, hne⟩)
  | none, hr =>
      have hfirst : s.Shrinks s₁ := by
        rcases hr with rfl | rfl
        · exact .refl s₁
        · exact s.shrinks_pop
      refine (unmounts_umount safe true target s₁).mono ?_
      rintro out s₂ ⟨hsecond, hne⟩
      exact ⟨⟨hsecond.1.trans hfirst.1, hsecond.2.trans hfirst.2⟩, hne⟩

/-- "It does not exist, and no error" is right. -/
theorem wp_pathExists (path : String) (s : Spot) :
    (pathExists path).Wp spotKernel (fun out s' => s' = s ∧
      ∃ r, out = .ret r ∧ (r = (false, none) → s.under = .absent)) s := by
  intro r s₁ hr
  cases r with
  | ok u => exact ⟨hr.1, _, rfl, by simp⟩
  | error err =>
      obtain rfl : s₁ = s := hr
      show Prog.Wp _ (ite _ _ _) _ _
      split
      · intro r s₂ hr
        cases r with
        | ok u => exact ⟨hr.1, _, rfl, by simp⟩
        | error err => exact ⟨hr.1, _, rfl, fun _ => hr.2⟩
      · split
        · exact ⟨rfl, _, rfl, by simp⟩
        · exact ⟨rfl, _, rfl, by simp⟩

/-- The check is right, unless it comes with an error. -/
theorem wp_isNotMountPoint (path : String) (extensive : Bool) (s : Spot) :
    (isNotMountPoint path extensive).Wp spotKernel (fun out s' => s' = s ∧ ∃ r, out = .ret r ∧
      (r.2 = none → r.1 = s.mounts.isEmpty) ∧
      ∀ err, r.2 = some err → r.1 = true ∧ (err.notExist = true → s.under = .absent)) s := by
  unfold isNotMountPoint
  split
  · intro r s₁ hr
    cases r with
    | ok isMnt =>
        obtain ⟨rfl, rfl⟩ := hr
        exact ⟨rfl, _, rfl, fun _ => Bool.not_not _, by simp⟩
    | error err => exact ⟨hr.1, _, rfl, by simp, fun e he => by cases he; exact ⟨rfl, hr.2⟩⟩
  · intro r s₁ hr
    cases r with
    | ok notMnt => exact ⟨hr.1, _, rfl, fun _ => hr.2, by simp⟩
    | error err => exact ⟨hr.1, _, rfl, by simp, fun e he => by cases he; exact ⟨rfl, hr.2⟩⟩

/-- What `removePathIfNotMountPoint` says of its own work. -/
def removalOutcome (r : Bool × Option String) : Outcome String Unit :=
  match r.2 with
  | some err => .throw err
  | none => if r.1 then .ret () else .throw "a mount point"

theorem result_eq {r : Bool × Option String} (h : (r.2.isSome || r.1) = true) :
    Unmounting.result r.2 = .done (removalOutcome r) := by
  obtain ⟨notMnt, err⟩ := r
  cases err with
  | some err => rfl
  | none =>
      obtain rfl : notMnt = true := by simpa using h
      rfl

theorem wp_removePathIfNotMountPoint (path : String) (extensive : Bool) (s : Spot) :
    (removePathIfNotMountPoint path extensive).Wp spotKernel (fun out s' => ∃ r, out = .ret r ∧
      s.Cleaned s' (removalOutcome r) ∧ (r.1 = false → s' = s)) s := by
  simp only [removePathIfNotMountPoint, Prog.wp_bind]
  refine (wp_isNotMountPoint path extensive s).mono ?_
  rintro out s₁ ⟨rfl, r, rfl, hright, herror⟩
  rw [Outcome.cases_ret]
  split
  · rename_i err herr
    obtain ⟨hnot, hmissing⟩ := herror err herr
    split
    · rename_i hnotExist
      exact ⟨_, rfl, Spot.cleaned_of_absent (hmissing hnotExist), by simp⟩
    · exact ⟨_, rfl, (Spot.Shrinks.refl s₁).cleaned_throw _, by simp⟩
  · rename_i hnone
    split
    · intro r s₂ hr
      cases r with
      | ok u =>
          obtain ⟨rfl, hmounts, hrem⟩ := hr
          exact ⟨_, rfl, Spot.cleaned_gone hmounts hrem, by simp⟩
      | error err =>
          obtain ⟨rfl, -⟩ := hr
          exact ⟨_, rfl, (Spot.Shrinks.refl s₂).cleaned_throw _, by simp⟩
    · exact ⟨_, rfl, (Spot.Shrinks.refl s₁).cleaned_throw _, fun _ => rfl⟩

theorem wp_removePath (path : String) (s : Spot) :
    (removePath path).Wp spotKernel (fun out s' => s.Cleaned s' out) s := by
  intro r s₁ hr
  cases r with
  | ok u =>
      obtain ⟨rfl, hmounts, hrem⟩ := hr
      exact Spot.cleaned_gone hmounts hrem
  | error err =>
      obtain ⟨rfl, hmissing⟩ := hr
      show Prog.Wp _ (ite _ _ _) _ _
      split
      · rename_i hnotExist
        exact Spot.cleaned_of_absent (hmissing hnotExist)
      · exact (Spot.Shrinks.refl s₁).cleaned_throw _

theorem wp_doCleanupMountPoint {u : Unmounting Unit} (hu : Unmounts u) (skip : Bool) (path : String)
    (extensive corrupted : Bool) (s : Spot) :
    (doCleanupMountPoint u skip path extensive corrupted).Wp spotKernel
      (fun out s' => s.Cleaned s' out) s := by
  unfold doCleanupMountPoint
  split
  · -- unmount, and delete what is left
    rw [Prog.wp_bind]
    refine (hu s).mono ?_
    rintro out s₁ ⟨hshrinks, hne⟩
    cases out with
    | ret a => exact (wp_removePath path s₁).mono (fun _ _ h => hshrinks.cleaned h)
    | throw err => exact hshrinks.cleaned_throw err
    | panic => exact absurd rfl hne
  · rw [Prog.wp_bind]
    refine (wp_removePathIfNotMountPoint path extensive s).mono ?_
    rintro out s₁ ⟨first, rfl, hfirst, hsame⟩
    rw [Outcome.cases_ret]
    split
    · -- it was not a mount point, or there was an error
      rename_i hdone
      rw [result_eq hdone]
      exact hfirst
    · rename_i hmounted
      obtain ⟨-, hmount⟩ : first.2.isSome = false ∧ first.1 = false := by simpa using hmounted
      obtain rfl := hsame hmount
      rw [Prog.wp_bind]
      refine (hu s₁).mono ?_
      rintro out s₂ ⟨hshrinks, hne⟩
      cases out with
      | throw err => exact hshrinks.cleaned_throw err
      | panic => exact absurd rfl hne
      | ret a =>
          rw [Outcome.cases_ret, Prog.wp_bind]
          refine (wp_removePathIfNotMountPoint path extensive s₂).mono ?_
          rintro out s₃ ⟨second, rfl, hsecond, hsame₂⟩
          rw [Outcome.cases_ret]
          split
          · rename_i hnot
            rw [result_eq (by rw [hnot, Bool.or_true])]
            exact hshrinks.cleaned hsecond
          · -- still a mount point
            rename_i hnot
            obtain rfl := hsame₂ (Bool.eq_false_iff.mpr hnot)
            exact hshrinks.cleaned_throw _

theorem wp_cleanup {u : Unmounting Unit} (hu : Unmounts u) (skip : Bool) (path : String)
    (extensive : Bool) (s : Spot) :
    (cleanup u skip path extensive).Wp spotKernel (fun out s' => s.Cleaned s' out) s := by
  simp only [cleanup, Prog.wp_bind]
  refine (wp_pathExists path s).mono ?_
  rintro out s₁ ⟨rfl, found, rfl, hmissing⟩
  rw [Outcome.cases_ret]
  split
  · rename_i hnone
    split
    · exact wp_doCleanupMountPoint hu skip path extensive false s₁
    · rename_i hnot
      refine Spot.cleaned_of_absent (hmissing (Prod.ext (Bool.eq_false_iff.mpr hnot) hnone))
  · split
    · exact wp_doCleanupMountPoint hu skip path extensive true s₁
    · exact (Spot.Shrinks.refl s₁).cleaned_throw _

/-- The answer of the mounter to `NodeUnpublishVolume`. -/
def cleanupAnswer : Outcome String Unit → Except OSError Unit
  | .ret () => .ok ()
  | .throw err => .error { text := err }
  | .panic => .error { text := "panic" }

/-- **The unmount keeps its promise.** Whichever operations fail, `CleanupMountPoint` and
`CleanupMountWithForce` do what the node server's model of the mounts assumes of them: after success
nothing is mounted, after a failure at most some of the newest mounts are gone. After success the
path is gone, too; and data under the mounts, that is a directory with entries, is never deleted and
makes every cleanup fail.

The kernel is one that does not lie (`spotKernel`): `access` fails only where nothing is, the check
for a mount point is right when it answers, an error that says "does not exist" is true, and an
`umount` that fails has done nothing unless its process has succeeded, and says "not mounted" only
where nothing is mounted. -/
theorem cleanup_refines {forceUnmounter safe : Bool} {targetPath : String} {s s' : Spot}
    {out : Outcome String Unit}
    (hexec : Prog.Exec spotKernel (unpublishCleanup forceUnmounter safe targetPath) s s' out) :
    mountKernel s.mounts (.cleanupMountPoint targetPath forceUnmounter)
      (cleanupAnswer out) s'.mounts ∧ out ≠ .panic ∧ (out = .ret () → s'.under = .absent) ∧
      ∀ entry entries, s.under = .directory (entry :: entries) → s'.under = s.under ∧
        out ≠ .ret () := by
  have hclean : s.Cleaned s' out := by
    unfold unpublishCleanup at hexec
    split at hexec
    · exact
        (wp_cleanup (unmounts_unmountWithForce safe targetPath) safe targetPath true s).exec hexec
    · exact (wp_cleanup (unmounts_umount safe false targetPath) safe targetPath true s).exec hexec
  refine ⟨?_, hclean.returns, hclean.success, ?_⟩
  · cases out with
    | ret u => exact s'.bare (hclean.success rfl)
    | throw err => exact hclean.mounts
    | panic => exact absurd rfl hclean.returns
  · intro entry entries hunder
    have hkept : s'.under = s.under := by
      rcases hclean.kept with h | ⟨-, hrem⟩
      · exact h
      · rw [hunder] at hrem
        cases hrem
    refine ⟨hkept, fun hret => ?_⟩
    have habsent := hclean.success hret
    rw [hkept, hunder] at habsent
    cases habsent

/-! ## On a kernel that does what it is asked for -/

/-- `umount` works on a mount point, and otherwise says "not mounted". -/
def Spot.UmountWorks (s : Spot) (a : Except CommandFailure Unit) : Prop :=
  (s.mounts ≠ [] → a = .ok ()) ∧
    (s.mounts = [] → ∃ failure, a = .error failure ∧ failure.processSuccess = false ∧
      contains failure.output "not mounted" = true)

/-- Nothing fails that can be done. -/
def Responsive (s : Spot) : (o : UnmountOp) → o.Answer → Prop
  | .stat _, a => (s.under ≠ .absent → a = .ok ()) ∧
      (s.under = .absent → ∃ err, a = .error err ∧ err.notExist = true)
  | .isMountPoint _, a => s.under ≠ .absent → ∃ isMnt, a = .ok isMnt
  | .isLikelyNotMountPoint _, a => s.under ≠ .absent → ∃ notMnt, a = .ok notMnt
  | .umountWithin _, a => ∃ r, a = some r ∧ s.UmountWorks r
  | .umount _ _, a => s.UmountWorks a
  | .remove _, a => s.mounts = [] → s.under.removable = true → a = .ok ()
  | _, _ => True

def responsiveKernel (s : Spot) (o : UnmountOp) (a : o.Answer) (s' : Spot) : Prop :=
  spotKernel s o a s' ∧ Responsive s o a

theorem Spot.pop_of_nil (h : s.mounts = []) : s.pop = s := by
  refine Spot.ext rfl ?_
  show s.mounts.tail = s.mounts
  rw [h]
  rfl

theorem checkUmountError_safe {target : String} {failure : CommandFailure}
    (hout : contains failure.output "not mounted" = true) :
    checkUmountError target failure true = none := by
  simp [checkUmountError, hout]

/-- The unmount takes one mount away; when there is none, "not mounted" is no error for a mounter
that relies on it. -/
def UnmountsOne (u : Unmounting Unit) (safe : Bool) : Prop :=
  ∀ s, s.mounts ≠ [] ∨ safe = true →
    u.Wp responsiveKernel (fun out s' => out = .ret () ∧ s' = s.pop) s

theorem wp_umountResult_works {target : String} {r : Except CommandFailure Unit} {s s₁ : Spot}
    (hs : s.mounts ≠ [] ∨ safe = true) (hworks : s.UmountWorks r)
    (hok : r = .ok () → s₁ = s.pop)
    (herror : ∀ failure, r = .error failure → s.AfterFailure failure s₁) :
    (umountResult target safe r).Wp responsiveKernel (fun out s' => out = .ret () ∧
      s' = s.pop) s₁ := by
  by_cases hmounts : s.mounts = []
  · obtain ⟨failure, rfl, hfail, hout⟩ := hworks.2 hmounts
    have hafter := herror failure rfl
    rw [Spot.AfterFailure, if_neg (by simp [hfail])] at hafter
    obtain rfl : safe = true := hs.resolve_left (fun h => h hmounts)
    rw [umountResult, checkUmountError_safe hout]
    exact ⟨rfl, by rw [hafter.1, Spot.pop_of_nil hmounts]⟩
  · obtain rfl := hworks.1 hmounts
    exact ⟨rfl, hok rfl⟩

theorem unmountsOne_unmount (safe : Bool) (target : String) :
    UnmountsOne (unmount safe target) safe := by
  rintro s hs r s₁ ⟨hr, hworks⟩
  refine wp_umountResult_works hs hworks ?_ ?_
  · rintro rfl
    exact hr
  · rintro failure rfl
    exact hr

theorem unmountsOne_unmountWithForce (safe : Bool) (target : String) :
    UnmountsOne (unmountWithForce safe target) safe := by
  rintro s hs r s₁ ⟨hr, r, rfl, hworks⟩
  show (umountResult target safe r).Wp _ _ _
  refine wp_umountResult_works hs hworks ?_ ?_
  · rintro rfl
    exact hr
  · rintro failure rfl
    exact hr

/-- The directory can be deleted at once. -/
def Spot.free (s : Spot) : Prop := s.mounts = [] ∧ s.under.removable = true

theorem responsive_remove {s : Spot} {a : Except PathError Unit} {s₁ : Spot}
    (hs : s.under ≠ .absent) (h : responsiveKernel s (.remove path) a s₁) :
    (s.free ∧ a = .ok ()) ∨ (¬s.free ∧ ∃ err, a = .error err ∧ err.notExist = false) := by
  obtain ⟨hkernel, hresponds⟩ := h
  cases a with
  | ok u => exact Or.inl ⟨⟨hkernel.2.1, hkernel.2.2⟩, rfl⟩
  | error err =>
      refine Or.inr ⟨fun hfree => ?_, err, rfl, Bool.eq_false_iff.mpr (fun h => hs (hkernel.2 h))⟩
      cases hresponds hfree.1 hfree.2

theorem wp_removePath_responsive {s : Spot} (hs : s.under ≠ .absent) :
    (removePath path).Wp responsiveKernel (fun out _ => out = .ret () ↔ s.free) s := by
  intro a s₁ h
  rcases responsive_remove hs h with ⟨hfree, rfl⟩ | ⟨hfree, err, rfl, hnot⟩
  · exact iff_of_true rfl hfree
  · show Prog.Wp _ (ite _ _ _) _ _
    rw [if_neg (by simp [hnot])]
    exact iff_of_false (by simp) hfree

theorem wp_isNotMountPoint_responsive {s : Spot} (hs : s.under ≠ .absent) (extensive : Bool) :
    (isNotMountPoint path extensive).Wp responsiveKernel
      (fun out s' => s' = s ∧ out = .ret (s.mounts.isEmpty, none)) s := by
  unfold isNotMountPoint
  split
  · rintro a s₁ ⟨hkernel, hresponds⟩
    obtain ⟨isMnt, rfl⟩ := hresponds hs
    obtain ⟨rfl, rfl⟩ := hkernel
    exact ⟨rfl, by rw [Bool.not_not]⟩
  · rintro a s₁ ⟨hkernel, hresponds⟩
    obtain ⟨notMnt, rfl⟩ := hresponds hs
    obtain ⟨rfl, rfl⟩ := hkernel
    exact ⟨rfl, rfl⟩

theorem wp_removePathIfNotMountPoint_responsive {s : Spot} (hs : s.under ≠ .absent)
    (extensive : Bool) :
    (removePathIfNotMountPoint path extensive).Wp responsiveKernel (fun out s' =>
      (s.mounts ≠ [] ∧ out = .ret (false, none) ∧ s' = s) ∨
      (s.mounts = [] ∧ ∃ err, out = .ret (true, err) ∧ (err = none ↔ s.free))) s := by
  simp only [removePathIfNotMountPoint, Prog.wp_bind]
  refine (wp_isNotMountPoint_responsive hs extensive).mono ?_
  rintro out s₁ ⟨rfl, rfl⟩
  show Prog.Wp _ (ite _ _ _) _ _
  split
  · rename_i hempty
    have hnil : s₁.mounts = [] := List.isEmpty_iff.mp hempty
    intro a s₂ h
    rcases responsive_remove hs h with ⟨hfree, rfl⟩ | ⟨hfree, err, rfl, -⟩
    · exact Or.inr ⟨hnil, none, rfl, iff_of_true rfl hfree⟩
    · exact Or.inr ⟨hnil, some err.text, rfl, iff_of_false (by simp) hfree⟩
  · rename_i hempty
    exact Or.inl ⟨fun h => hempty (List.isEmpty_iff.mpr h), rfl, rfl⟩

/-- The cleanup can finish: nothing is there, or one mount at most over something that can be
deleted. -/
def Spot.Cleanable (s : Spot) : Prop :=
  s.under = .absent ∨ (s.mounts.length ≤ 1 ∧ s.under.removable = true)

theorem Spot.free_pop_iff {s : Spot} (hs : s.under ≠ .absent) : s.pop.free ↔ s.Cleanable := by
  have hmounts : s.pop.mounts = [] ↔ s.mounts.length ≤ 1 := by
    show s.mounts.tail = [] ↔ _
    rw [← List.length_eq_zero_iff, List.length_tail]
    omega
  rw [Spot.free, hmounts, Spot.Cleanable, or_iff_right hs]
  exact Iff.rfl

theorem Spot.free_iff_of_nil {s : Spot} (hs : s.under ≠ .absent) (h : s.mounts = []) :
    s.free ↔ s.Cleanable := by
  rw [← Spot.free_pop_iff hs, Spot.pop_of_nil h]

theorem wp_result {s : Spot} {err : Option String} {p : Prop} (h : err = none ↔ p) :
    (Unmounting.result err).Wp responsiveKernel (fun out _ => out = .ret () ↔ p) s := by
  cases err with
  | none => exact iff_of_true rfl (h.mp rfl)
  | some err => exact iff_of_false nofun (fun hp => nomatch h.mpr hp)

theorem wp_doCleanupMountPoint_responsive {u : Unmounting Unit} {skip : Bool}
    (hu : UnmountsOne u skip) {s : Spot} (hs : s.under ≠ .absent) (extensive : Bool) :
    (doCleanupMountPoint u skip path extensive false).Wp responsiveKernel
      (fun out _ => out = .ret () ↔ s.Cleanable) s := by
  have hpop : s.pop.under ≠ .absent := hs
  unfold doCleanupMountPoint
  split
  · rename_i hskip
    rw [Prog.wp_bind]
    refine (hu s (Or.inr hskip)).mono ?_
    rintro out s₁ ⟨rfl, rfl⟩
    rw [Outcome.cases_ret, ← Spot.free_pop_iff hs]
    exact wp_removePath_responsive hpop
  · rw [Prog.wp_bind]
    refine (wp_removePathIfNotMountPoint_responsive hs extensive).mono ?_
    rintro out s₁ (⟨hmounts, rfl, rfl⟩ | ⟨hnil, err, rfl, herr⟩)
    · show Prog.Wp _ (u >>= _) _ _
      rw [Prog.wp_bind]
      refine (hu s₁ (Or.inl hmounts)).mono ?_
      rintro out s₂ ⟨rfl, rfl⟩
      rw [Outcome.cases_ret, Prog.wp_bind]
      refine (wp_removePathIfNotMountPoint_responsive hpop extensive).mono ?_
      rintro out s₃ (⟨hleft, rfl, -⟩ | ⟨-, err, rfl, herr⟩)
      · -- a second mount is left
        rw [← Spot.free_pop_iff hs]
        exact iff_of_false nofun (fun hfree => hleft hfree.1)
      · rw [Outcome.cases_ret, if_pos rfl]
        exact wp_result (herr.trans (Spot.free_pop_iff hs))
    · rw [Outcome.cases_ret, if_pos (Bool.or_true _)]
      exact wp_result (herr.trans (Spot.free_iff_of_nil hs hnil))

theorem wp_pathExists_responsive (s : Spot) :
    (pathExists path).Wp responsiveKernel (fun out s' => s' = s ∧
      out = .ret (decide (s.under ≠ .absent), none)) s := by
  rintro a s₁ ⟨hkernel, hpresent, habsent⟩
  by_cases hs : s.under = .absent
  · obtain ⟨err, rfl, hnot⟩ := habsent hs
    obtain rfl : s₁ = s := hkernel
    show Prog.Wp _ (ite _ _ _) _ _
    rw [if_pos hnot]
    rintro a s₂ ⟨hkernel, -⟩
    cases a with
    | ok u => exact absurd hs hkernel.2
    | error err => exact ⟨hkernel.1, by simp [hs]⟩
  · obtain rfl := hpresent hs
    exact ⟨hkernel.1, by simp [hs]⟩

theorem wp_cleanup_responsive {u : Unmounting Unit} {skip : Bool}
    (hu : UnmountsOne u skip) (s : Spot) (extensive : Bool) :
    (cleanup u skip path extensive).Wp responsiveKernel
      (fun out _ => out = .ret () ↔ s.Cleanable) s := by
  simp only [cleanup, Prog.wp_bind]
  refine (wp_pathExists_responsive s).mono ?_
  rintro out s₁ ⟨rfl, rfl⟩
  rw [Outcome.cases_ret]
  by_cases hs : s₁.under = .absent
  · rw [if_neg (by simp [hs])]
    exact iff_of_true rfl (Or.inl hs)
  · rw [if_pos (by simp [hs])]
    exact wp_doCleanupMountPoint_responsive hu hs extensive

/-- **When an unmount succeeds.** On a kernel that does what it is asked for, the cleanup of
`NodeUnpublishVolume` succeeds if and only if the path does not exist, or carries at most one mount
over a file or an empty directory: it takes one mount away and not a second, and nothing that it
would have to delete with its contents. That does not depend on the mounter. -/
theorem cleanup_succeeds_iff {forceUnmounter safe : Bool} {targetPath : String} {s s' : Spot}
    {out : Outcome String Unit}
    (hexec : Prog.Exec responsiveKernel
      (unpublishCleanup forceUnmounter safe targetPath) s s' out) :
    out = .ret () ↔ s.Cleanable := by
  unfold unpublishCleanup at hexec
  split at hexec
  · exact (wp_cleanup_responsive (unmountsOne_unmountWithForce safe targetPath) s true).exec hexec
  · exact (wp_cleanup_responsive (unmountsOne_unmount safe targetPath) s true).exec hexec

/-! ## Two unmounts that fail -/

/-- `umount` where nothing is mounted. -/
def notMounted : CommandFailure :=
    ⟨"exit status 32", "exit status 32", false, "umount: not mounted."⟩

/-- A kernel that does what it is asked for. -/
def obedientKernel (s : Spot) : (o : UnmountOp) → o.Answer × Spot
  | .stat _ | .access _ =>
      if s.under = .absent then
        (.error { text := "no such file or directory", notExist := true }, s)
      else (.ok (), s)
  | .isMountPoint _ => (.ok (!s.mounts.isEmpty), s)
  | .isLikelyNotMountPoint _ => (.ok s.mounts.isEmpty, s)
  | .umountWithin _ =>
      if s.mounts = [] then (some (.error notMounted), s) else (some (.ok ()), s.pop)
  | .umount _ _ => if s.mounts = [] then (.error notMounted, s) else (.ok (), s.pop)
  | .remove _ =>
      if s.mounts = [] ∧ s.under.removable = true then (.ok (), Spot.gone)
      else (.error { text := "cannot remove", notExist := decide (s.under = .absent) }, s)

theorem notMounted_works (h : s.mounts = []) :
    s.AfterFailure notMounted s ∧ s.UmountWorks (.error notMounted) :=
  ⟨⟨rfl, fun _ => h⟩, fun hne => absurd h hne, fun _ => ⟨_, rfl, rfl, by decide⟩⟩

theorem obedientKernel_spec (s : Spot) (o : UnmountOp) :
    responsiveKernel s o (obedientKernel s o).1 (obedientKernel s o).2 := by
  cases o with
  | stat path =>
      by_cases hs : s.under = .absent
      · simp [obedientKernel, responsiveKernel, spotKernel, Responsive, hs]
      · simp [obedientKernel, responsiveKernel, spotKernel, Responsive, hs]
  | access path =>
      by_cases hs : s.under = .absent
      · simp [obedientKernel, responsiveKernel, spotKernel, Responsive, hs]
      · simp [obedientKernel, responsiveKernel, spotKernel, Responsive, hs]
  | isMountPoint file => exact ⟨⟨rfl, rfl⟩, fun _ => ⟨_, rfl⟩⟩
  | isLikelyNotMountPoint file => exact ⟨⟨rfl, rfl⟩, fun _ => ⟨_, rfl⟩⟩
  | umountWithin target =>
      by_cases hs : s.mounts = []
      · rw [obedientKernel, if_pos hs]
        exact ⟨(notMounted_works hs).1, _, rfl, (notMounted_works hs).2⟩
      · rw [obedientKernel, if_neg hs]
        exact ⟨rfl, _, rfl, fun _ => rfl, fun h => absurd h hs⟩
  | umount target force =>
      by_cases hs : s.mounts = []
      · rw [obedientKernel, if_pos hs]
        exact notMounted_works hs
      · rw [obedientKernel, if_neg hs]
        exact ⟨rfl, fun _ => rfl, fun h => absurd h hs⟩
  | remove path =>
      by_cases hs : s.mounts = [] ∧ s.under.removable = true
      · rw [obedientKernel, if_pos hs]
        exact ⟨⟨rfl, hs.1, hs.2⟩, fun _ _ => rfl⟩
      · rw [obedientKernel, if_neg hs]
        exact ⟨⟨rfl, of_decide_eq_true⟩, fun h h' => absurd ⟨h, h'⟩ hs⟩

/-- One mount over a directory that is not empty. -/
def fullDirectory : Spot := ⟨.directory ["data"], [⟨"10.0.0.1:/s", "nfs", []⟩], nofun⟩

theorem cleanup_refines_fullDirectory :
    ∃ s' out, Prog.Exec spotKernel (unpublishCleanup true false "/t") fullDirectory s' out ∧
      s'.mounts = [] ∧ s'.under = .directory ["data"] ∧ out ≠ .ret () := by
  have hexec := Prog.exec_interp (T := spotKernel) (fun s o => (obedientKernel_spec s o).1)
    (unpublishCleanup true false "/t") fullDirectory
  exact ⟨_, _, hexec, rfl, (cleanup_refines hexec).2.2.2 "data" [] rfl⟩

/-- Mounts from two servers over an empty directory. -/
def mountedTwice : Spot :=
  ⟨.directory [], [⟨"10.0.0.2:/s", "nfs", []⟩, ⟨"10.0.0.1:/s", "nfs", []⟩], nofun⟩

theorem cleanup_succeeds_iff_mountedTwice :
    ∃ s', Prog.Exec responsiveKernel (unpublishCleanup true false "/t") mountedTwice s'
        (.throw "failed to cleanup mount point /t") ∧
      s'.mounts.length = 1 ∧ ¬mountedTwice.Cleanable := by
  have hexec := Prog.exec_interp obedientKernel_spec (unpublishCleanup true false "/t") mountedTwice
  exact ⟨_, hexec, rfl, fun h => nomatch (cleanup_succeeds_iff hexec).mpr h⟩

end

end NfsLbCsi
