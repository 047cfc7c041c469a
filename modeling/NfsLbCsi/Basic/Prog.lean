import Mathlib.Tactic

set_option autoImplicit false

/-! # Programs with effects

A program is a tree: it is done, with a value, an error or a panic, or it calls an operation and
goes on with the answer. What an operation does and what it answers is not part of the program; it
is given by a relation `T w o a w'` ("in `w`, operation `o` may answer `a` and lead to `w'`"), so
that one program can be run in many worlds.

* `Prog`, with `pure` and `bind`; `fail`, `panic`, `op`, `require`, `must`, and `ensure` for
  deferred calls.
* `Exec T p w w' out`: an execution of `p` in the world `T`; `interp` computes one.
* `Wp T p Q w`: whatever `p` does from `w`, it ends with `Q`. There is one rule for each way to
  build a program.
* `Leaves Q p`: every way in which `p` can end, in any world, satisfies `Q`.
* `NeverPanics p`: no way to end is a panic, with one rule for each way to build a program.
* `Performs p o`: some answers lead `p` to the operation `o`, with one rule for each way to build a
  program.
-/

/-- The operations of a program and the answers to them. -/
structure Signature where
  Op : Type
  Answer : Op → Type

/-- How a program ends. -/
inductive Outcome (ε α : Type) where
  | ret (a : α)
  | throw (e : ε)
  | panic
  deriving DecidableEq

/-- A condition for each way to end. -/
def Outcome.Cases {ε α : Type} (ret : α → Prop) (throw : ε → Prop) (panic : Prop) :
    Outcome ε α → Prop
  | .ret a => ret a
  | .throw e => throw e
  | .panic => panic

/-- The outcome of a computation that does not panic; `f` makes the error. -/
def Outcome.ofExcept {ε ε' α : Type} (f : ε → ε') : Except ε α → Outcome ε' α
  | .ok a => .ret a
  | .error e => .throw (f e)

/-- Change the error. -/
def Outcome.mapError {ε ε' α : Type} (f : ε → ε') : Outcome ε α → Outcome ε' α
  | .ret a => .ret a
  | .throw e => .throw (f e)
  | .panic => .panic

section

variable {ε ε' α : Type} {a : α} {e : ε} {P : α → Prop} {E : ε → Prop} {N : Prop} {f : ε → ε'}

@[simp] theorem Outcome.cases_ret : (Outcome.ret a : Outcome ε α).Cases P E N ↔ P a := Iff.rfl
@[simp] theorem Outcome.cases_throw : (Outcome.throw e : Outcome ε α).Cases P E N ↔ E e := Iff.rfl
@[simp] theorem Outcome.cases_panic : (Outcome.panic : Outcome ε α).Cases P E N ↔ N := Iff.rfl
theorem Outcome.ret_ne_panic : (Outcome.ret a : Outcome ε α) ≠ .panic := by simp
theorem Outcome.throw_ne_panic : (Outcome.throw e : Outcome ε α) ≠ .panic := by simp

theorem Outcome.ne_panic_iff {out : Outcome ε α} :
    out ≠ .panic ↔ (∃ a, out = .ret a) ∨ ∃ e, out = .throw e := by
  cases out <;> simp

@[simp] theorem Outcome.ofExcept_ok : Outcome.ofExcept f (.ok a) = .ret a := rfl
@[simp] theorem Outcome.ofExcept_error :
    Outcome.ofExcept f (.error e : Except ε α) = .throw (f e) := rfl

end

/-- Programs over `S` with errors `ε` and results `α`. -/
inductive Prog (S : Signature) (ε α : Type) where
  | done (out : Outcome ε α)
  | call (o : S.Op) (next : S.Answer o → Prog S ε α)

namespace Prog

variable {S : Signature} {ε ε' α β γ : Type}

/-! ## Building programs -/

def bind : Prog S ε α → (α → Prog S ε β) → Prog S ε β
  | .done (.ret a), f => f a
  | .done (.throw e), _ => .done (.throw e)
  | .done .panic, _ => .done .panic
  | .call o next, f => .call o (fun a => (next a).bind f)

instance : Monad (Prog S ε) where
  pure a := .done (.ret a)
  bind := Prog.bind

/-- End with an error. -/
def fail (e : ε) : Prog S ε α := .done (.throw e)

/-- A nil pointer or an index out of range. -/
def panic : Prog S ε α := .done .panic

/-- One operation. -/
def op (o : S.Op) : Prog S ε (S.Answer o) := .call o (fun a => .done (.ret a))

/-- The error of a computation becomes the error of the program. -/
def ofExcept (f : ε → ε') (r : Except ε α) : Prog S ε' α := .done (.ofExcept f r)

/-- `if !c { return err }`. -/
def require (c : Prop) [Decidable c] (e : ε) : Prog S ε Unit :=
  if c then .done (.ret ()) else .done (.throw e)

/-- Change the error. -/
def mapError (f : ε → ε') : Prog S ε α → Prog S ε' α
  | .done out => .done (out.mapError f)
  | .call o next => .call o (fun a => (next a).mapError f)

/-- `if err != nil { return f(err) }` after an operation. -/
def must (f : ε → ε') (p : Prog S ε' (Except ε α)) : Prog S ε' α :=
  p >>= ofExcept f

/-- Run `p`, whose result and error are ignored, and end with `out`. -/
def endWith (out : Outcome ε α) : Prog S ε' β → Prog S ε α
  | .done .panic => .done .panic
  | .done _ => .done out
  | .call o next => .call o (fun a => (next a).endWith out)

/-- `defer`: when `p` has returned or failed, `cleanup` runs. A panic ends the process. -/
def ensure (p : Prog S ε α) (cleanup : Prog S ε' β) : Prog S ε α :=
  match p with
  | .done .panic => .done .panic
  | .done out => cleanup.endWith out
  | .call o next => .call o (fun a => (next a).ensure cleanup)

section

variable {a : α} {e : ε} {o : S.Op} {next : S.Answer o → Prog S ε α} {f : α → Prog S ε β}

@[simp] theorem pure_eq : (pure a : Prog S ε α) = .done (.ret a) := rfl
@[simp] theorem done_ret_bind : ((.done (.ret a) : Prog S ε α) >>= f) = f a := rfl
@[simp] theorem done_throw_bind : ((.done (.throw e) : Prog S ε α) >>= f) = .done (.throw e) := rfl
@[simp] theorem done_panic_bind : ((.done .panic : Prog S ε α) >>= f) = .done .panic := rfl
@[simp] theorem call_bind :
    ((.call o next : Prog S ε α) >>= f) = .call o (fun a => next a >>= f) := rfl
@[simp] theorem fail_bind : ((fail e : Prog S ε α) >>= f) = fail e := rfl
@[simp] theorem panic_bind : ((panic : Prog S ε α) >>= f) = panic := rfl

end

/-! ## Executions -/

section

variable {W : Type} {T : W → (o : S.Op) → S.Answer o → W → Prop}

/-- `p` leads from the first world to the second and ends with the outcome. -/
inductive Exec (T : W → (o : S.Op) → S.Answer o → W → Prop) :
    Prog S ε α → W → W → Outcome ε α → Prop where
  | done (out : Outcome ε α) (w : W) : Exec T (.done out) w w out
  | call {o : S.Op} {next : S.Answer o → Prog S ε α} {a : S.Answer o} {w w' w'' : W}
      {out : Outcome ε α} :
      T w o a w' → Exec T (next a) w' w'' out → Exec T (.call o next) w w'' out

theorem exec_done {w w' : W} {out out' : Outcome ε α} :
    Exec T (.done out) w w' out' ↔ w' = w ∧ out' = out := by
  constructor
  · rintro ⟨⟩
    exact ⟨rfl, rfl⟩
  · rintro ⟨rfl, rfl⟩
    exact .done _ _

theorem exec_call {o : S.Op} {next : S.Answer o → Prog S ε α} {w w'' : W} {out : Outcome ε α} :
    Exec T (.call o next) w w'' out ↔ ∃ a w', T w o a w' ∧ Exec T (next a) w' w'' out := by
  constructor
  · rintro ⟨⟩
    rename_i w' a hT h
    exact ⟨a, w', hT, h⟩
  · rintro ⟨a, w', hT, h⟩
    exact .call hT h

/-- The second program starts where the first one has returned; an error or a panic of the first one
is that of the whole. -/
theorem exec_bind {p : Prog S ε α} {f : α → Prog S ε β} {w w'' : W} {out : Outcome ε β} :
    Exec T (p >>= f) w w'' out ↔
      (∃ a w', Exec T p w w' (.ret a) ∧ Exec T (f a) w' w'' out) ∨
      (∃ e, Exec T p w w'' (.throw e) ∧ out = .throw e) ∨
      (Exec T p w w'' .panic ∧ out = .panic) := by
  induction p generalizing w with
  | done out' => cases out' <;> simp [exec_done]
  | call o next ih =>
      simp only [call_bind, exec_call, ih]
      constructor
      · rintro ⟨a, v, hT, ⟨b, w', hp, hf⟩ | ⟨e, hp, rfl⟩ | ⟨hp, rfl⟩⟩
        · exact Or.inl ⟨b, w', ⟨a, v, hT, hp⟩, hf⟩
        · exact Or.inr (Or.inl ⟨e, ⟨a, v, hT, hp⟩, rfl⟩)
        · exact Or.inr (Or.inr ⟨⟨a, v, hT, hp⟩, rfl⟩)
      · rintro (⟨b, w', ⟨a, v, hT, hp⟩, hf⟩ | ⟨e, ⟨a, v, hT, hp⟩, rfl⟩ | ⟨⟨a, v, hT, hp⟩, rfl⟩)
        · exact ⟨a, v, hT, Or.inl ⟨b, w', hp, hf⟩⟩
        · exact ⟨a, v, hT, Or.inr (Or.inl ⟨e, hp, rfl⟩)⟩
        · exact ⟨a, v, hT, Or.inr (Or.inr ⟨hp, rfl⟩)⟩

theorem Exec.panic_bind {p : Prog S ε α} {f : α → Prog S ε β} {w w' : W}
    (hp : Exec T p w w' .panic) : Exec T (p >>= f) w w' .panic :=
  exec_bind.mpr (Or.inr (Or.inr ⟨hp, rfl⟩))

theorem Exec.require_bind {c : Prop} [Decidable c] {e : ε} {g : Unit → Prog S ε β} {w w' : W}
    {out : Outcome ε β} (hc : c) (h : Exec T (g ()) w w' out) :
    Exec T (require c e >>= g) w w' out := by
  rw [require, if_pos hc]
  exact h

theorem Exec.ofExcept_bind {f : ε → ε'} {r : Except ε α} {a : α} {g : α → Prog S ε' β} {w w' : W}
    {out : Outcome ε' β} (hr : r = .ok a) (h : Exec T (g a) w w' out) :
    Exec T (ofExcept f r >>= g) w w' out := by
  rw [hr]
  exact h

theorem exec_mapError {f : ε → ε'} {p : Prog S ε α} {w w' : W} {out : Outcome ε' α} :
    Exec T (p.mapError f) w w' out ↔ ∃ out', Exec T p w w' out' ∧ out = out'.mapError f := by
  induction p generalizing w with
  | done out' => simp [mapError, exec_done, and_assoc]
  | call o next ih =>
      simp only [mapError, exec_call, ih]
      constructor
      · rintro ⟨a, v, hT, out', hp, rfl⟩
        exact ⟨out', ⟨a, v, hT, hp⟩, rfl⟩
      · rintro ⟨out', ⟨a, v, hT, hp⟩, rfl⟩
        exact ⟨a, v, hT, out', hp, rfl⟩

/-- A deferred call runs after `p` has returned or failed. -/
theorem exec_ensure {p : Prog S ε α} {cleanup : Prog S ε' β} {w w'' : W} {o : Outcome ε α} :
    Exec T (p.ensure cleanup) w w'' o ↔
      (∃ w' out, out ≠ .panic ∧ Exec T p w w' out ∧ Exec T (cleanup.endWith out) w' w'' o) ∨
        (Exec T p w w'' .panic ∧ o = .panic) := by
  induction p generalizing w with
  | done out => cases out <;> simp [ensure, exec_done]
  | call o' next ih =>
      simp only [ensure, exec_call, ih]
      constructor
      · rintro ⟨a, v, hT, ⟨w', out, hne, he, hc⟩ | ⟨he, rfl⟩⟩
        · exact Or.inl ⟨w', out, hne, ⟨a, v, hT, he⟩, hc⟩
        · exact Or.inr ⟨⟨a, v, hT, he⟩, rfl⟩
      · rintro (⟨w', out, hne, ⟨a, v, hT, he⟩, hc⟩ | ⟨⟨a, v, hT, he⟩, rfl⟩)
        · exact ⟨a, v, hT, Or.inl ⟨w', out, hne, he, hc⟩⟩
        · exact ⟨a, v, hT, Or.inr ⟨he, rfl⟩⟩

/-- A world that keeps a log of the operations. -/
def logged (T : W → (o : S.Op) → S.Answer o → W → Prop) (s : W × List S.Op) (o : S.Op)
    (a : S.Answer o) (s' : W × List S.Op) : Prop :=
  T s.1 o a s'.1 ∧ s'.2 = s.2 ++ [o]

/-- A computed execution in a world whose answers are given by a function. -/
def interp (answer : W → (o : S.Op) → S.Answer o × W) : Prog S ε α → W → W × Outcome ε α
  | .done out, w => (w, out)
  | .call o next, w => (next (answer w o).1).interp answer (answer w o).2

theorem exec_interp {answer : W → (o : S.Op) → S.Answer o × W}
    (h : ∀ w o, T w o (answer w o).1 (answer w o).2) (p : Prog S ε α) (w : W) :
    Exec T p w (p.interp answer w).1 (p.interp answer w).2 := by
  induction p generalizing w with
  | done out => exact .done out w
  | call o next ih => exact .call (h w o) (ih _ _)

/-- Where every operation is answered, every program runs to its end. -/
theorem exists_exec (h : ∀ w o, ∃ a w', T w o a w') (p : Prog S ε α) (w : W) :
    ∃ w' out, Exec T p w w' out := by
  induction p generalizing w with
  | done out => exact ⟨w, out, .done out w⟩
  | call o next ih =>
      obtain ⟨a, w', hT⟩ := h w o
      obtain ⟨w'', out, he⟩ := ih a w'
      exact ⟨w'', out, .call hT he⟩

/-! ## Pre- and postconditions -/

/-- Every execution of `p` from `w` ends with `Q`. -/
def Wp (T : W → (o : S.Op) → S.Answer o → W → Prop) :
    Prog S ε α → (Outcome ε α → W → Prop) → W → Prop
  | .done out, Q, w => Q out w
  | .call o next, Q, w => ∀ a w', T w o a w' → (next a).Wp T Q w'

theorem wp_iff {p : Prog S ε α} {Q : Outcome ε α → W → Prop} {w : W} :
    p.Wp T Q w ↔ ∀ w' out, Exec T p w w' out → Q out w' := by
  induction p generalizing w with
  | done out =>
      constructor
      · intro h w' out' he
        obtain ⟨rfl, rfl⟩ := exec_done.mp he
        exact h
      · exact fun h => h w out (.done out w)
  | call o next ih =>
      constructor
      · intro h w'' out he
        obtain ⟨a, w', hT, he⟩ := exec_call.mp he
        exact (ih a).mp (h a w' hT) w'' out he
      · exact fun h a w' hT => (ih a).mpr (fun w'' out he => h w'' out (.call hT he))

section

variable {p : Prog S ε α} {w : W}

theorem Wp.exec {Q : Outcome ε α → W → Prop} (h : p.Wp T Q w) {w' : W} {out : Outcome ε α}
    (he : Exec T p w w' out) : Q out w' := wp_iff.mp h w' out he

theorem wp_done {out : Outcome ε α} {Q : Outcome ε α → W → Prop} :
    (Prog.done out : Prog S ε α).Wp T Q w ↔ Q out w := Iff.rfl

theorem wp_call {o : S.Op} {next : S.Answer o → Prog S ε α} {Q : Outcome ε α → W → Prop} :
    (Prog.call o next).Wp T Q w ↔ ∀ a w', T w o a w' → (next a).Wp T Q w' := Iff.rfl

theorem Wp.mono {Q Q' : Outcome ε α → W → Prop} (h : p.Wp T Q w)
    (hQ : ∀ out w, Q out w → Q' out w) :
    p.Wp T Q' w := wp_iff.mpr fun w' out he => hQ out w' (h.exec he)

/-- What `p` leaves behind when it returns is what the next program starts from; its errors and
panics are those of the whole. -/
theorem wp_bind {f : α → Prog S ε β} {Q : Outcome ε β → W → Prop} :
    (p >>= f).Wp T Q w ↔
      p.Wp T (fun out w =>
        out.Cases (fun a => (f a).Wp T Q w) (fun e => Q (.throw e) w) (Q .panic w)) w := by
  induction p generalizing w with
  | done out => cases out <;> exact Iff.rfl
  | call o next ih =>
      exact forall_congr' fun a => forall_congr' fun w' => forall_congr' fun _ => ih a

theorem wp_mapError {f : ε → ε'} {Q : Outcome ε' α → W → Prop} :
    (p.mapError f).Wp T Q w ↔ p.Wp T (fun out w => Q (out.mapError f) w) w := by
  induction p generalizing w with
  | done out => exact Iff.rfl
  | call o next ih =>
      exact forall_congr' fun a => forall_congr' fun w' => forall_congr' fun _ => ih a

theorem wp_must {f : ε → ε'} {p : Prog S ε' (Except ε α)} {Q : Outcome ε' α → W → Prop} :
    (must f p).Wp T Q w ↔
      p.Wp T (fun out w => out.Cases (fun r => Q (.ofExcept f r) w)
        (fun e => Q (.throw e) w) (Q .panic w)) w := wp_bind

theorem wp_ofExcept_bind {f : ε → ε'} {r : Except ε α} {g : α → Prog S ε' β}
    {Q : Outcome ε' β → W → Prop} (hok : ∀ a, r = .ok a → (g a).Wp T Q w)
    (herror : ∀ e, r = .error e → Q (.throw (f e)) w) : (ofExcept f r >>= g).Wp T Q w := by
  cases r with
  | ok a => exact hok a rfl
  | error e => exact herror e rfl

theorem wp_require_bind {c : Prop} [Decidable c] {e : ε} {g : Unit → Prog S ε β}
    {Q : Outcome ε β → W → Prop} (hyes : c → (g ()).Wp T Q w) (hno : ¬c → Q (.throw e) w) :
    (require c e >>= g).Wp T Q w := by
  unfold require
  split
  · rename_i hc
    exact hyes hc
  · rename_i hc
    exact hno hc

end

end

/-! ## Leaves -/

/-- Every end of the tree satisfies `Q`. -/
def Leaves (Q : Outcome ε α → Prop) : Prog S ε α → Prop
  | .done out => Q out
  | .call _ next => ∀ a, (next a).Leaves Q

theorem Leaves.bind {Q : Outcome ε α → Prop} {Q' : Outcome ε β → Prop} {p : Prog S ε α}
    {f : α → Prog S ε β} (hp : p.Leaves Q) (hret : ∀ a, Q (.ret a) → (f a).Leaves Q')
    (hthrow : ∀ e, Q (.throw e) → Q' (.throw e)) (hpanic : Q .panic → Q' .panic) :
    (p >>= f).Leaves Q' := by
  induction p with
  | done out =>
      cases out with
      | ret a => exact hret a hp
      | throw e => exact hthrow e hp
      | panic => exact hpanic hp
  | call o next ih => exact fun a => ih a (hp a)

theorem leaves_of_forall {Q : Outcome ε α → Prop} (h : ∀ out, Q out) (p : Prog S ε α) :
    p.Leaves Q := by
  induction p with
  | done out => exact h out
  | call o next ih => exact fun a => ih a

theorem leaves_mapError {f : ε → ε'} {Q : Outcome ε' α → Prop} {p : Prog S ε α}
    (h : p.Leaves (fun out => Q (out.mapError f))) : (p.mapError f).Leaves Q := by
  induction p with
  | done out => exact h
  | call o next ih => exact fun a => ih a (h a)

theorem Leaves.exec {W : Type} {T : W → (o : S.Op) → S.Answer o → W → Prop} {Q : Outcome ε α → Prop}
    {p : Prog S ε α} (h : p.Leaves Q) {w w' : W} {out : Outcome ε α} (he : Exec T p w w' out) :
    Q out := by
  induction he with
  | done out w => exact h
  | call hT _ ih => exact ih (h _)

/-! ## Programs that never panic -/

/-- No end of the tree is a panic. -/
def NeverPanics (p : Prog S ε α) : Prop := p.Leaves (fun out => out ≠ .panic)

section

variable {p : Prog S ε α}

theorem neverPanics_pure (a : α) : (pure a : Prog S ε α).NeverPanics := Outcome.ret_ne_panic

theorem neverPanics_fail (e : ε) : (fail e : Prog S ε α).NeverPanics := Outcome.throw_ne_panic

theorem neverPanics_op (o : S.Op) : (op o : Prog S ε (S.Answer o)).NeverPanics :=
  fun _ => Outcome.ret_ne_panic

theorem neverPanics_ofExcept (f : ε → ε') (r : Except ε α) :
    (ofExcept f r : Prog S ε' α).NeverPanics := by
  cases r with
  | ok a => exact neverPanics_pure a
  | error e => exact neverPanics_fail (f e)

theorem NeverPanics.bind (hp : p.NeverPanics) {f : α → Prog S ε β} (hf : ∀ a, (f a).NeverPanics) :
    (p >>= f).NeverPanics :=
  Leaves.bind hp (fun a _ => hf a) (fun _ _ => Outcome.throw_ne_panic) (fun h => absurd rfl h)

theorem neverPanics_require_bind {c : Prop} [Decidable c] {e : ε} {g : Unit → Prog S ε β}
    (h : c → (g ()).NeverPanics) : (require c e >>= g).NeverPanics := by
  unfold require
  split
  · rename_i hc
    exact h hc
  · exact neverPanics_fail e

theorem neverPanics_ofExcept_bind {f : ε → ε'} {r : Except ε α} {g : α → Prog S ε' β}
    (h : ∀ a, r = .ok a → (g a).NeverPanics) : (ofExcept f r >>= g).NeverPanics := by
  cases r with
  | ok a => exact h a rfl
  | error e => exact neverPanics_fail (f e)

theorem NeverPanics.must {f : ε → ε'} {p : Prog S ε' (Except ε α)} (hp : p.NeverPanics) :
    (must f p).NeverPanics :=
  hp.bind (neverPanics_ofExcept f)

theorem NeverPanics.mapError {f : ε → ε'} (hp : p.NeverPanics) : (p.mapError f).NeverPanics := by
  induction p with
  | done out =>
      cases out with
      | ret a => exact neverPanics_pure a
      | throw e => exact neverPanics_fail (f e)
      | panic => exact absurd rfl hp
  | call o next ih => exact fun a => ih a (hp a)

theorem NeverPanics.endWith {out : Outcome ε' β} (hp : p.NeverPanics) (hout : out ≠ .panic) :
    (p.endWith out).NeverPanics := by
  induction p with
  | done out' =>
      cases out' with
      | ret a => exact hout
      | throw e => exact hout
      | panic => exact absurd rfl hp
  | call o next ih => exact fun a => ih a (hp a)

theorem NeverPanics.ensure {cleanup : Prog S ε' β} (hp : p.NeverPanics) (hc : cleanup.NeverPanics) :
    (p.ensure cleanup).NeverPanics := by
  induction p with
  | done out =>
      cases out with
      | ret a => exact hc.endWith Outcome.ret_ne_panic
      | throw e => exact hc.endWith Outcome.throw_ne_panic
      | panic => exact absurd rfl hp
  | call o next ih => exact fun a => ih a (hp a)

end

/-! ## Operations that can occur -/

/-- Some answers lead the program to the operation `o`. -/
def Performs : Prog S ε α → S.Op → Prop
  | .done _, _ => False
  | .call o' next, o => o' = o ∨ ∃ a, (next a).Performs o

/-- Some answers lead the program to the result `a`. -/
def Returns : Prog S ε α → α → Prop
  | .done out, a => out = .ret a
  | .call _ next, a => ∃ b, (next b).Returns a

section

variable {o : S.Op} {p : Prog S ε α}

theorem performs_done {out : Outcome ε α} : ¬(Prog.done out : Prog S ε α).Performs o := id

/-- The second program goes on with what the first one can return. -/
theorem performs_bind {f : α → Prog S ε β} :
    (p >>= f).Performs o ↔ p.Performs o ∨ ∃ a, p.Returns a ∧ (f a).Performs o := by
  induction p with
  | done out => cases out <;> simp [Performs, Returns]
  | call o' next ih =>
      simp only [call_bind, Performs, Returns, ih]
      constructor
      · rintro (rfl | ⟨b, h | ⟨a, ha, hf⟩⟩)
        · exact Or.inl (Or.inl rfl)
        · exact Or.inl (Or.inr ⟨b, h⟩)
        · exact Or.inr ⟨a, ⟨b, ha⟩, hf⟩
      · rintro ((rfl | ⟨b, h⟩) | ⟨a, ⟨b, ha⟩, hf⟩)
        · exact Or.inl rfl
        · exact Or.inr ⟨b, Or.inl h⟩
        · exact Or.inr ⟨b, Or.inr ⟨a, ha, hf⟩⟩

theorem performs_op {o' : S.Op} : (op o' : Prog S ε (S.Answer o')).Performs o ↔ o' = o := by
  simp [op, Performs]

theorem performs_op_bind {o' : S.Op} {f : S.Answer o' → Prog S ε β} :
    (op o' >>= f).Performs o ↔ o' = o ∨ ∃ a, (f a).Performs o := Iff.rfl

theorem performs_must {f : ε → ε'} {p : Prog S ε' (Except ε α)} :
    (must f p).Performs o ↔ p.Performs o := by
  rw [must, performs_bind]
  exact or_iff_left (fun ⟨_, _, h⟩ => h)

theorem performs_mapError {f : ε → ε'} : (p.mapError f).Performs o ↔ p.Performs o := by
  induction p with
  | done out => exact Iff.rfl
  | call o' next ih => exact or_congr_right (exists_congr ih)

theorem performs_require_bind {c : Prop} [Decidable c] {e : ε} {g : Unit → Prog S ε β} :
    (require c e >>= g).Performs o ↔ c ∧ (g ()).Performs o := by
  unfold require
  split
  · rename_i hc
    exact (and_iff_right hc).symm
  · rename_i hc
    exact (iff_false_left performs_done).mpr (fun h => hc h.1)

theorem performs_ofExcept_bind {f : ε → ε'} {r : Except ε α} {g : α → Prog S ε' β} :
    (ofExcept f r >>= g).Performs o ↔ ∃ a, r = .ok a ∧ (g a).Performs o := by
  cases r with
  | ok a => simp [ofExcept]
  | error e => simp [ofExcept, Performs]

theorem performs_endWith {out : Outcome ε' β} : (p.endWith out).Performs o ↔ p.Performs o := by
  induction p with
  | done out' => cases out' <;> exact Iff.rfl
  | call o' next ih => exact or_congr_right (exists_congr ih)

/-- A deferred call adds its own operations only. -/
theorem performs_ensure {cleanup : Prog S ε' β} (hc : ¬cleanup.Performs o) :
    (p.ensure cleanup).Performs o ↔ p.Performs o := by
  induction p with
  | done out =>
      cases out with
      | panic => exact Iff.rfl
      | ret a => exact (performs_endWith.trans (iff_false_intro hc))
      | throw e => exact (performs_endWith.trans (iff_false_intro hc))
  | call o' next ih => exact or_congr_right (exists_congr ih)

end

end Prog
