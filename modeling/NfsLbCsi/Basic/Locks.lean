import NfsLbCsi.Basic.Prog
import NfsLbCsi.Basic.Run

set_option autoImplicit false

/-! # Programs that share a lock set

A set of keys serves as locks: `tryAcquire` adds a key that is not in the set, and fails otherwise;
`release` takes a key out, whoever put it there. Nothing blocks.

* `locked K S`: the operations of `S` and the two on the lock set. A program over `S` uses no locks;
  `lift` carries it over, and `withLock` runs it under a key.
* `lockedWorld T`: a world for the locked operations from one for those of `S`; `exec_withLock` says
  what a program under a key does in it.
* `Opening`: programs that take at most one key and give it back as their last step;
  `opening_withLock` says that a program under a key is one.
-/

namespace Locks

variable {K : Type} {S : Signature} {ε α : Type}

/-! ## Operations on locks -/

inductive LockedOp (K : Type) (S : Signature) where
  | tryAcquire (key : K)
  | release (key : K)
  | base (o : S.Op)

/-- `tryAcquire` tells whether the key was free. -/
@[reducible] def LockedOp.Answer : LockedOp K S → Type
  | .tryAcquire _ => Bool
  | .release _ => Unit
  | .base o => S.Answer o

/-- The operations of `S` with those on a lock set. -/
abbrev locked (K : Type) (S : Signature) : Signature := ⟨LockedOp K S, LockedOp.Answer⟩

/-- A program without locks. -/
def lift (K : Type) : Prog S ε α → Prog (locked K S) ε α
  | .done out => .done out
  | .call o next => .call (S := locked K S) (.base o) (fun a => lift K (next a))

/-- `if !TryAcquire(key) { return busy }; defer Release(key)`, and the body. -/
def withLock (key : K) (busy : ε) (body : Prog S ε α) : Prog (locked K S) ε α :=
  .call (S := locked K S) (.tryAcquire key) (fun (acquired : Bool) =>
    if acquired then (lift K body).ensure (Prog.op (S := locked K S) (ε := ε) (.release key))
    else .done (.throw busy))

/-! ## Executions over a lock set -/

section

variable [DecidableEq K] {W : Type} {T : W → (o : S.Op) → S.Answer o → W → Prop}

/-- The lock set answers the operations on locks; the others go to the world. -/
def lockedWorld (T : W → (o : S.Op) → S.Answer o → W → Prop) :
    Finset K × W → (o : (locked K S).Op) → (locked K S).Answer o → Finset K × W → Prop
  | s, .tryAcquire key, acquired, s' =>
      acquired = decide (key ∉ s.1) ∧ s' = (insert key s.1, s.2)
  | s, .release key, _, s' => s' = (s.1.erase key, s.2)
  | s, .base o, a, s' => s'.1 = s.1 ∧ T s.2 o a s'.2

/-- The answers of a lock set together with given answers to the other operations. -/
def lockedAnswer (answer : W → (o : S.Op) → S.Answer o × W) (s : Finset K × W) :
    (o : (locked K S).Op) → (locked K S).Answer o × (Finset K × W)
  | .tryAcquire key => (decide (key ∉ s.1), (insert key s.1, s.2))
  | .release key => ((), (s.1.erase key, s.2))
  | .base o => ((answer s.2 o).1, (s.1, (answer s.2 o).2))

theorem lockedAnswer_spec {answer : W → (o : S.Op) → S.Answer o × W}
    (h : ∀ w o, T w o (answer w o).1 (answer w o).2) (s : Finset K × W) (o : (locked K S).Op) :
    lockedWorld T s o (lockedAnswer answer s o).1 (lockedAnswer answer s o).2 := by
  cases o with
  | tryAcquire key => exact ⟨rfl, rfl⟩
  | release key => exact rfl
  | base o => exact ⟨rfl, h s.2 o⟩

theorem exec_lift {p : Prog S ε α} {s s' : Finset K × W} {out : Outcome ε α} :
    Prog.Exec (S := locked K S) (lockedWorld T) (lift K p) s s' out ↔
      s'.1 = s.1 ∧ Prog.Exec T p s.2 s'.2 out := by
  induction p generalizing s with
  | done out' =>
      rw [lift, Prog.exec_done, Prog.exec_done, Prod.ext_iff, and_assoc]
  | call o next ih =>
      rw [lift, Prog.exec_call, Prog.exec_call]
      constructor
      · rintro ⟨a, v, ⟨hlocks, hT⟩, he⟩
        obtain ⟨h₁, h₂⟩ := ih a |>.mp he
        exact ⟨h₁.trans hlocks, a, v.2, hT, h₂⟩
      · rintro ⟨hlocks, a, v, hT, he⟩
        exact ⟨a, (s.1, v), ⟨rfl, hT⟩, (ih a).mpr ⟨hlocks, he⟩⟩

/-- The last step of a program under a key. -/
theorem exec_endWith_release {key : K} {s s' : Finset K × W} {out out' : Outcome ε α} :
    Prog.Exec (S := locked K S) (lockedWorld T)
        (Prog.endWith out' (Prog.op (S := locked K S) (ε := ε) (.release key))) s s' out ↔
      s' = (s.1.erase key, s.2) ∧ out = out' := by
  rw [Prog.op, Prog.endWith, Prog.exec_call]
  constructor
  · rintro ⟨u, v, rfl, he⟩
    exact Prog.exec_done.mp he
  · rintro ⟨rfl, rfl⟩
    exact ⟨(), _, rfl, .done _ _⟩

/-- **A program under a key.** When the key is taken nothing happens. When it is free the body runs,
and unless it panics the lock set is as before. -/
theorem exec_withLock {key : K} {busy : ε} {body : Prog S ε α} {s s' : Finset K × W}
    {out : Outcome ε α} :
    Prog.Exec (S := locked K S) (lockedWorld T) (withLock key busy body) s s' out ↔
      (key ∈ s.1 ∧ s' = s ∧ out = .throw busy) ∨
      (key ∉ s.1 ∧ Prog.Exec T body s.2 s'.2 out ∧
        ((out ≠ .panic ∧ s'.1 = s.1) ∨ (out = .panic ∧ s'.1 = insert key s.1))) := by
  rw [withLock, Prog.exec_call]
  by_cases hkey : key ∈ s.1
  · -- taken
    constructor
    · rintro ⟨acquired, v, ⟨hacq, rfl⟩, he⟩
      have hfalse : acquired = false := by simpa [hkey] using hacq
      subst hfalse
      rw [if_neg (by simp), Prog.exec_done] at he
      refine Or.inl ⟨hkey, ?_, he.2⟩
      rw [he.1, Finset.insert_eq_of_mem hkey]
    · rintro (⟨-, rfl, rfl⟩ | ⟨hnot, -⟩)
      · refine ⟨false, s', ⟨by simp [hkey], by rw [Finset.insert_eq_of_mem hkey]⟩, ?_⟩
        exact .done _ _
      · exact absurd hkey hnot
  · -- free
    constructor
    · rintro ⟨acquired, v, ⟨hacq, rfl⟩, he⟩
      have htrue : acquired = true := by simpa [hkey] using hacq
      subst htrue
      rw [if_pos rfl, Prog.exec_ensure] at he
      refine Or.inr ⟨hkey, ?_⟩
      rcases he with ⟨v, out', hne, hbody, hend⟩ | ⟨hbody, rfl⟩
      · obtain ⟨hlocks, hbody⟩ := exec_lift.mp hbody
        obtain ⟨rfl, rfl⟩ := exec_endWith_release.mp hend
        refine ⟨hbody, Or.inl ⟨hne, ?_⟩⟩
        rw [hlocks, Finset.erase_insert hkey]
      · obtain ⟨hlocks, hbody⟩ := exec_lift.mp hbody
        exact ⟨hbody, Or.inr ⟨rfl, hlocks⟩⟩
    · rintro (⟨hin, -⟩ | ⟨-, hbody, hend⟩)
      · exact absurd hin hkey
      · refine ⟨true, (insert key s.1, s.2), ⟨by simp [hkey], rfl⟩, ?_⟩
        rw [if_pos rfl, Prog.exec_ensure]
        rcases hend with ⟨hne, hlocks⟩ | ⟨rfl, hlocks⟩
        · refine Or.inl ⟨(insert key s.1, s'.2), out, hne, exec_lift.mpr ⟨rfl, hbody⟩, ?_⟩
          refine exec_endWith_release.mpr ⟨?_, rfl⟩
          rw [Finset.erase_insert hkey, ← hlocks]
        · exact Or.inr ⟨exec_lift.mpr ⟨hlocks, hbody⟩, rfl⟩

end

/-! ## One key, given back last -/

/-- The key is held. The program uses no other, gives it back as its last step and ends with `Q`,
unless it panics before. -/
def Closing (Q : Outcome ε α → Prop) (key : K) : Prog (locked K S) ε α → Prop
  | .done out => out = .panic
  | .call (.tryAcquire _) _ => False
  | .call (.release key') next => key' = key ∧ ∃ out, Q out ∧ next () = .done out
  | .call (.base _) next => ∀ a, Closing Q key (next a)

/-- No key is held. The program may take one, and ends when that fails. -/
def Opening (Q : Outcome ε α → Prop) : Prog (locked K S) ε α → Prop
  | .done _ => True
  | .call (.tryAcquire key) next => (∃ out, next false = .done out) ∧ Closing Q key (next true)
  | .call (.release _) _ => False
  | .call (.base _) next => ∀ a, Opening Q (next a)

section

variable {Q : Outcome ε α → Prop} {key : K} {busy : ε} {body : Prog S ε α}

theorem closing_ensure (h : body.Leaves Q) :
    Closing Q key ((lift K body).ensure (Prog.op (S := locked K S) (ε := ε) (.release key))) := by
  induction body with
  | done out =>
      cases out with
      | ret a => exact ⟨rfl, .ret a, h, rfl⟩
      | throw e => exact ⟨rfl, .throw e, h, rfl⟩
      | panic => exact rfl
  | call o next ih => exact fun a => ih a (h a)

/-- **A program under a key** takes that key and gives it back last. -/
theorem opening_withLock (h : body.Leaves Q) :
    Opening Q (withLock key busy body) :=
  ⟨⟨_, rfl⟩, closing_ensure h⟩

theorem opening_require_bind {c : Prop} [Decidable c] {e : ε} {β : Type}
    {g : Unit → Prog (locked K S) ε β} {Q : Outcome ε β → Prop} (h : Opening Q (g ())) :
    Opening Q (Prog.require c e >>= g) := by
  unfold Prog.require
  split
  · exact h
  · trivial

variable {β : Type} {g : α → β} {Q' : Outcome ε β → Prop}

/-- The result may be changed at the end. -/
theorem Closing.map (hret : ∀ a, Q (.ret a) → Q' (.ret (g a)))
    (hthrow : ∀ e, Q (.throw e) → Q' (.throw e)) (hpanic : Q .panic → Q' .panic)
    {p : Prog (locked K S) ε α} (h : Closing Q key p) :
    Closing Q' key (p >>= fun a => pure (g a)) := by
  induction p with
  | done out =>
      have hout : out = .panic := h
      subst hout
      rfl
  | call o next ih =>
      cases o with
      | tryAcquire key' => exact h
      | release key' =>
          obtain ⟨hkey, out, hQ, hout⟩ := h
          refine ⟨hkey, ?_⟩
          show ∃ out, Q' out ∧ (next () >>= fun a => pure (g a)) = .done out
          rw [hout]
          cases out with
          | ret a => exact ⟨_, hret a hQ, rfl⟩
          | throw e => exact ⟨_, hthrow e hQ, rfl⟩
          | panic => exact ⟨_, hpanic hQ, rfl⟩
      | base o => exact fun a => ih a (h a)

theorem Opening.map (hret : ∀ a, Q (.ret a) → Q' (.ret (g a)))
    (hthrow : ∀ e, Q (.throw e) → Q' (.throw e)) (hpanic : Q .panic → Q' .panic)
    {p : Prog (locked K S) ε α} (h : Opening Q p) : Opening Q' (p >>= fun a => pure (g a)) := by
  induction p with
  | done out => cases out <;> trivial
  | call o next ih =>
      cases o with
      | tryAcquire key' =>
          obtain ⟨⟨out, hout⟩, hclose⟩ := h
          refine ⟨?_, hclose.map hret hthrow hpanic⟩
          show ∃ out, (next false >>= fun a => pure (g a)) = .done out
          rw [hout]
          cases out <;> exact ⟨_, rfl⟩
      | release key' => exact h
      | base o => exact fun a => ih a (h a)

end

/-! ## Panics -/

theorem neverPanics_lift {p : Prog S ε α} (h : p.NeverPanics) : (lift K p).NeverPanics := by
  induction p with
  | done out => exact h
  | call o next ih => exact fun a => ih a (h a)

/-- Taking and releasing a key never panics. -/
theorem neverPanics_withLock {key : K} {busy : ε} {body : Prog S ε α} (h : body.NeverPanics) :
    (withLock key busy body).NeverPanics := by
  intro (acquired : Bool)
  cases acquired with
  | true => exact (neverPanics_lift h).ensure (Prog.neverPanics_op _)
  | false => exact Prog.neverPanics_fail busy

/-! ## Operations that can occur -/

section

variable {o : S.Op}

theorem performs_lift {p : Prog S ε α} :
    (lift K p).Performs (.base o) ↔ p.Performs o := by
  induction p with
  | done out => exact Iff.rfl
  | call o' next ih =>
      exact or_congr ⟨LockedOp.base.inj, congrArg LockedOp.base⟩ (exists_congr ih)

/-- A program under a key performs what its body performs. -/
theorem performs_withLock {key : K} {busy : ε} {body : Prog S ε α} :
    (withLock key busy body).Performs (.base o) ↔ body.Performs o := by
  have hrelease : ¬(Prog.op (S := locked K S) (ε := ε) (.release key)).Performs (.base o) := by
    intro h
    cases Prog.performs_op.mp h
  have hbody := (Prog.performs_ensure hrelease).trans (performs_lift (K := K) (p := body) (o := o))
  constructor
  · rintro (h | ⟨acquired, h⟩)
    · cases h
    · cases acquired with
      | true => exact hbody.mp h
      | false => exact absurd h Prog.performs_done
  · exact fun h => Or.inr ⟨true, hbody.mpr h⟩

end

end Locks
