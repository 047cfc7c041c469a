import NfsLbCsi.Basic.Pool
import NfsLbCsi.Basic.Refinement

set_option autoImplicit false

/-! # Places that locks protect

The calls of a pool act on a world that consists of places, each with a state of its own. An
operation happens at one place, where it does what a relation `L` says, or nowhere, and then it
changes nothing (`placeWorld`).

A call that works at a place does so under a key. When all calls at one place use one key, the key
protects the place: between two operations of the call that holds it nobody changes what is there.
So it is enough to know about each call what it does when it runs alone (`Prog.Safe`: all states on
the way are in the invariant of the place, the last one satisfies the postcondition of the call). It
then holds over every interleaving: the invariant at every place in every state
(`Pool.good_of_path`), and the postcondition of every call when it returns (`Pool.Good.returns`).
-/

variable {S : Signature} {ε α β : Type}

/-! ## Programs at one place -/

section

variable {X V : Type} (place : S.Op → Option X) (L : V → (o : S.Op) → S.Answer o → V → Prop)

/-- An operation at `x` changes the state of `x` as `L` says; the others change nothing. -/
def placeWorld (w : X → V) (o : S.Op) (a : S.Answer o) (w' : X → V) : Prop :=
  match place o with
  | none => w' = w
  | some x => L (w x) o a (w' x) ∧ ∀ y, y ≠ x → w' y = w y

/-- The program works at `x` and nowhere else. After each of its operations there, the state of `x`
is in `I`, and when it ends, `Q` holds. -/
def Prog.Safe (x : X) (I : V → Prop) (Q : Outcome ε α → V → Prop) : Prog S ε α → V → Prop
  | .done out, v => Q out v
  | .call o next, v =>
      (place o = none ∧ ∀ a, (next a).Safe x I Q v) ∨
        (place o = some x ∧ ∀ a v', L v o a v' → I v' ∧ (next a).Safe x I Q v')

/-- None of the operations of the program happens at a place. -/
def Prog.Nowhere (p : Prog S ε α) : Prop := ∀ o, p.Performs o → place o = none

end

namespace Prog

variable {X V : Type} {place : S.Op → Option X} {L : V → (o : S.Op) → S.Answer o → V → Prop}
  {x : X} {I : V → Prop} {Q : Outcome ε α → V → Prop} {Q' : Outcome ε β → V → Prop}
  {p : Prog S ε α} {f : α → Prog S ε β} {v : V}

theorem Nowhere.safe (hp : p.Nowhere place) (hQ : p.Leaves (fun out => Q out v)) :
    p.Safe place L x I Q v := by
  induction p with
  | done out => exact hQ
  | call o next ih =>
      refine Or.inl ⟨hp o (Or.inl rfl), fun a =>
        ih a (fun o' ho' => hp o' (Or.inr ⟨a, ho'⟩)) (hQ a)⟩

theorem Nowhere.bind (hp : p.Nowhere place) (hf : ∀ a, (f a).Nowhere place) :
    (p >>= f).Nowhere place := by
  intro o ho
  rcases performs_bind.mp ho with h | ⟨a, -, h⟩
  · exact hp o h
  · exact hf a o h

theorem nowhere_must {ε' : Type} {g : ε' → ε} {p : Prog S ε (Except ε' α)} (hp : p.Nowhere place) :
    (must g p).Nowhere place :=
  fun o ho => hp o (performs_must.mp ho)

theorem nowhere_mapError {ε' : Type} {g : ε → ε'} (hp : p.Nowhere place) :
    (p.mapError g).Nowhere place :=
  fun o ho => hp o (performs_mapError.mp ho)

theorem nowhere_op {o : S.Op} (h : place o = none) :
    (op o : Prog S ε (S.Answer o)).Nowhere place := by
  intro o' ho'
  rw [← performs_op.mp ho']
  exact h

theorem nowhere_done (out : Outcome ε α) : (done out : Prog S ε α).Nowhere place :=
  fun _ ho => absurd ho performs_done

theorem nowhere_ofExcept_bind {ε' : Type} {g : ε' → ε} {r : Except ε' α}
    (hf : ∀ a, r = .ok a → (f a).Nowhere place) : (ofExcept g r >>= f).Nowhere place := by
  intro o ho
  obtain ⟨a, hr, h⟩ := performs_ofExcept_bind.mp ho
  exact hf a hr o h

theorem safe_bind (h : p.Safe place L x I (fun out v => out.Cases
      (fun a => (f a).Safe place L x I Q' v) (fun e => Q' (.throw e) v) (Q' .panic v)) v) :
    (p >>= f).Safe place L x I Q' v := by
  induction p generalizing v with
  | done out => cases out <;> exact h
  | call o next ih =>
      rcases h with ⟨hnone, h⟩ | ⟨hx, h⟩
      · exact Or.inl ⟨hnone, fun a => ih a (h a)⟩
      · exact Or.inr ⟨hx, fun a v' hL => ⟨(h a v' hL).1, ih a (h a v' hL).2⟩⟩

theorem Safe.mono {Q₂ : Outcome ε α → V → Prop} (h : p.Safe place L x I Q v)
    (hQ : ∀ out v, Q out v → Q₂ out v) : p.Safe place L x I Q₂ v := by
  induction p generalizing v with
  | done out => exact hQ out v h
  | call o next ih =>
      rcases h with ⟨hnone, h⟩ | ⟨hx, h⟩
      · exact Or.inl ⟨hnone, fun a => ih a (h a)⟩
      · exact Or.inr ⟨hx, fun a v' hL => ⟨(h a v' hL).1, ih a (h a v' hL).2⟩⟩

theorem safe_ofExcept_bind {ε' : Type} {g : ε' → ε} {r : Except ε' α}
    (hok : ∀ a, r = .ok a → (f a).Safe place L x I Q' v)
    (herror : ∀ e, r = .error e → Q' (.throw (g e)) v) :
    (ofExcept g r >>= f).Safe place L x I Q' v := by
  cases r with
  | ok a => exact hok a rfl
  | error e => exact herror e rfl

end Prog

/-! ## A part of an execution -/

/-- The first operations of a program and what is left of it. -/
inductive Prog.Steps {W : Type} (T : W → (o : S.Op) → S.Answer o → W → Prop) :
    Prog S ε α → W → Prog S ε α → W → Prop where
  | refl {p : Prog S ε α} {w : W} : Prog.Steps T p w p w
  | call {o : S.Op} {next : S.Answer o → Prog S ε α} {a : S.Answer o} {w w' w'' : W}
      {p : Prog S ε α} : T w o a w' → Prog.Steps T (next a) w' p w'' →
      Prog.Steps T (.call o next) w p w''

theorem Prog.Steps.neverPanics {W : Type} {T : W → (o : S.Op) → S.Answer o → W → Prop}
    {p p' : Prog S ε α} {w w' : W} (h : Prog.Steps T p w p' w') (hp : p.NeverPanics) :
    p'.NeverPanics := by
  induction h with
  | refl => exact hp
  | call _ _ ih => exact ih (hp _)

namespace Locks

open Lts

variable {K R W : Type}

/-! ## Pools in a world -/

/-- A request arrives, or call `i` makes its next operation. -/
inductive Turn (R : Type) where
  | start (r : R)
  | act (i : ℕ)

def Turn.request : Turn R → Option R
  | .start r => some r
  | .act _ => none

/-- The requests that have arrived; the first one is that of call 0, and so on. -/
def requests (ts : List (Turn R)) : List R := ts.filterMap Turn.request

theorem requests_start (ts : List (Turn R)) (r : R) :
    requests (ts ++ [.start r]) = requests ts ++ [r] := by
  simp [requests, Turn.request]

theorem requests_act (ts : List (Turn R)) (i : ℕ) : requests (ts ++ [.act i]) = requests ts := by
  simp [requests, Turn.request]

theorem requests_replicate_act (ts : List (Turn R)) (k i : ℕ) :
    requests (ts ++ List.replicate k (.act i)) = requests ts := by
  simp [requests, Turn.request]

section

variable [DecidableEq K] (T : W → (o : S.Op) → S.Answer o → W → Prop)

/-- The next operation of a call: the lock set answers it, or the world does. -/
inductive Call.Move (locks : Finset K) (w : W) :
    Call K S ε α → Finset K → Call K S ε α → W → Prop where
  | acquire {acquired : List K} {key : K} {next : Bool → Prog (locked K S) ε α} : key ∉ locks →
      Call.Move locks w ⟨acquired, .call (S := locked K S) (.tryAcquire key) next⟩
        (insert key locks) ⟨key :: acquired, next true⟩ w
  | busy {acquired : List K} {key : K} {next : Bool → Prog (locked K S) ε α} : key ∈ locks →
      Call.Move locks w ⟨acquired, .call (S := locked K S) (.tryAcquire key) next⟩ locks
        ⟨acquired, next false⟩ w
  | release {acquired : List K} {key : K} {next : Unit → Prog (locked K S) ε α} :
      Call.Move locks w ⟨acquired, .call (S := locked K S) (.release key) next⟩ (locks.erase key)
        ⟨acquired, next ()⟩ w
  | base {acquired : List K} {o : S.Op} {next : S.Answer o → Prog (locked K S) ε α} {a : S.Answer o}
      {w' : W} : T w o a w' →
      Call.Move locks w ⟨acquired, .call (S := locked K S) (.base o) next⟩ locks
        ⟨acquired, next a⟩ w'

/-- One step of a pool in the world `T`. A call that panics ends the process. -/
inductive Pool.Next (code : R → Prog (locked K S) ε α) :
    Pool K S ε α × W → Turn R → Pool K S ε α × W → Prop where
  | start {s : Pool K S ε α} {w : W} {r : R} :
      Call.panicked (⟨[], code r⟩ : Call K S ε α) = false →
      Pool.Next code (s, w) (.start r) ({ s with calls := s.calls ++ [⟨[], code r⟩] }, w)
  | act {s : Pool K S ε α} {w w' : W} {i : ℕ} {c c' : Call K S ε α} {locks' : Finset K} :
      s.calls[i]? = some c → Call.Move T s.locks w c locks' c' w' → c'.panicked = false →
      Pool.Next code (s, w) (.act i) ({ locks := locks', calls := s.calls.set i c' }, w')

variable {T} {locks locks' : Finset K} {w w' : W} {c c' : Call K S ε α}

/-- For the lock set, it is a step as in any pool. -/
theorem Call.Move.act (h : Call.Move T locks w c locks' c' w') : Call.Act locks c locks' c' := by
  cases h with
  | acquire hkey => exact .acquire hkey
  | busy hkey => exact .busy hkey
  | release => exact .release
  | base => exact .base _

/-! ## Pools in a world that computes its answers -/

variable {code : R → Prog (locked K S) ε α}

/-- The world after the next operation of a call. -/
def Call.worldAfter (answer : W → (o : S.Op) → S.Answer o × W) (c : Call K S ε α) (w : W) : W :=
  match c.rest with
  | .call (.base o) _ => (answer w o).2
  | _ => w

/-- What the call has returned. -/
def Call.outcome (c : Call K S ε α) : Option (Outcome ε α) :=
  match c.rest with
  | .done out => some out
  | .call _ _ => none

/-- One step of the pool. -/
def Pool.next (answer : W → (o : S.Op) → S.Answer o × W) (code : R → Prog (locked K S) ε α)
    (s : Pool K S ε α × W) : Turn R → Option (Pool K S ε α × W)
  | .start r =>
      if Call.panicked (⟨[], code r⟩ : Call K S ε α) then none
      else some ({ s.1 with calls := s.1.calls ++ [⟨[], code r⟩] }, s.2)
  | .act i =>
      match s.1.calls[i]? with
      | none => none
      | some c =>
          match c.act s.1.locks (fun o => (answer s.2 o).1) with
          | none => none
          | some (locks, c') =>
              if c'.panicked then none
              else some (⟨locks, s.1.calls.set i c'⟩, c.worldAfter answer s.2)

/-- One step after the other. -/
def Pool.play (answer : W → (o : S.Op) → S.Answer o × W) (code : R → Prog (locked K S) ε α) :
    Pool K S ε α × W → List (Turn R) → Option (Pool K S ε α × W)
  | s, [] => some s
  | s, t :: ts => (Pool.next answer code s t).bind (fun s' => Pool.play answer code s' ts)

variable {answer : W → (o : S.Op) → S.Answer o × W}

omit [DecidableEq K] in
theorem Call.rest_of_outcome {out : Outcome ε α} (h : c.outcome = some out) :
    c.rest = .done out := by
  unfold Call.outcome at h
  split at h
  · rename_i hrest
    rw [hrest, Option.some.inj h]
  · cases h

theorem Call.move_of_act (hanswer : ∀ w o, T w o (answer w o).1 (answer w o).2)
    (h : c.act locks (fun o => (answer w o).1) = some (locks', c')) :
    Call.Move T locks w c locks' c' (c.worldAfter answer w) := by
  obtain ⟨acquired, rest⟩ := c
  cases rest with
  | done out => cases h
  | call o next =>
      cases o with
      | tryAcquire key =>
          simp only [Call.act] at h
          split at h
          · rename_i hkey
            obtain ⟨rfl, rfl⟩ := Prod.mk.inj (Option.some.inj h)
            exact .busy hkey
          · rename_i hkey
            obtain ⟨rfl, rfl⟩ := Prod.mk.inj (Option.some.inj h)
            exact .acquire hkey
      | release key =>
          obtain ⟨rfl, rfl⟩ := Prod.mk.inj (Option.some.inj h)
          exact .release
      | base o =>
          obtain ⟨rfl, rfl⟩ := Prod.mk.inj (Option.some.inj h)
          exact .base (hanswer w o)

theorem Pool.next_spec (hanswer : ∀ w o, T w o (answer w o).1 (answer w o).2)
    {s s' : Pool K S ε α × W} {t : Turn R} (h : Pool.next answer code s t = some s') :
    Pool.Next T code s t s' := by
  cases t with
  | start r =>
      simp only [Pool.next] at h
      split at h
      · cases h
      · rename_i hp
        cases h
        exact .start (Bool.eq_false_iff.mpr hp)
  | act i =>
      simp only [Pool.next] at h
      split at h
      · cases h
      · rename_i c hc
        split at h
        · cases h
        · rename_i locks c' hact
          split at h
          · cases h
          · rename_i hp
            cases h
            exact .act hc (Call.move_of_act hanswer hact) (Bool.eq_false_iff.mpr hp)

theorem Pool.path_play (hanswer : ∀ w o, T w o (answer w o).1 (answer w o).2)
    {s₀ s s' : Pool K S ε α × W} {ts ts' : List (Turn R)} (hpath : Path (Pool.Next T code) s₀ ts s)
    (h : Pool.play answer code s ts' = some s') : Path (Pool.Next T code) s₀ (ts ++ ts') s' := by
  induction ts' generalizing s ts with
  | nil =>
      cases h
      rwa [List.append_nil]
  | cons t ts' ih =>
      obtain ⟨s₁, hnext, hplay⟩ := Option.bind_eq_some_iff.mp h
      rw [List.append_cons]
      exact ih (hpath.snoc (Pool.next_spec hanswer hnext)) hplay

/-- **Playing a schedule**: the state that it ends in is reached, and passes the test. -/
theorem Pool.exists_path (hanswer : ∀ w o, T w o (answer w o).1 (answer w o).2)
    (code : R → Prog (locked K S) ε α) (s₀ : Pool K S ε α × W) (ts : List (Turn R))
    (p : Pool K S ε α × W → Bool) (h : (Pool.play answer code s₀ ts).any p = true) :
    ∃ s, Path (Pool.Next T code) s₀ ts s ∧ p s = true := by
  obtain ⟨s, hplay, hp⟩ := (Option.any_eq_true _ _).mp h
  exact ⟨s, Pool.path_play hanswer Path.nil hplay, hp⟩

end

/-! ## Calls under a key -/

/-- What is left of a call under a key after the key was taken. -/
def underKey (key : K) (body : Prog S ε α) : Prog (locked K S) ε α :=
  (lift K body).ensure (Prog.op (S := locked K S) (ε := ε) (.release key))

/-- The result may be changed under the key. -/
theorem withLock_bind_pure {key : K} {busy : ε} {body : Prog S ε α} {g : α → β} :
    (withLock key busy body >>= fun a => pure (g a))
      = withLock key busy (body >>= fun a => pure (g a)) := by
  have hbody : (underKey key body >>= fun a => pure (g a))
      = underKey key (body >>= fun a => pure (g a)) := by
    induction body with
    | done out => cases out <;> rfl
    | call o next ih => exact congrArg _ (funext ih)
  refine congrArg _ (funext fun (acquired : Bool) => ?_)
  cases acquired with
  | true => exact hbody
  | false => rfl

theorem Closing.weaken {Q : Outcome ε α → Prop} {key : K} {p : Prog (locked K S) ε α}
    (h : Closing Q key p) : Closing (fun _ => True) key p := by
  induction p with
  | done out => exact h
  | call o next ih =>
      cases o with
      | tryAcquire key' => exact h
      | release key' =>
          obtain ⟨hkey, out, -, hout⟩ := h
          exact ⟨hkey, out, trivial, hout⟩
      | base o => exact fun a => ih a (h a)

theorem Opening.weaken {Q : Outcome ε α → Prop} {p : Prog (locked K S) ε α} (h : Opening Q p) :
    Opening (fun _ => True) p := by
  induction p with
  | done out => trivial
  | call o next ih =>
      cases o with
      | tryAcquire key => exact ⟨h.1, h.2.weaken⟩
      | release key => exact h
      | base o => exact fun a => ih a (h a)

theorem underKey_inFlight {key : K} {body : Prog S ε α} {c : Call K S ε α}
    (hc : c.rest = underKey key body) (hp : c.panicked = false) : c.InFlight := by
  intro out hout
  cases body with
  | call o next =>
      rw [hc] at hout
      cases hout
  | done out' =>
      cases out' with
      | ret a =>
          rw [hc] at hout
          cases hout
      | throw e =>
          rw [hc] at hout
          cases hout
      | panic =>
          rw [Call.panicked, hc] at hp
          cases hp

theorem panicked_underKey {key : K} {body : Prog S ε α} {acquired : List K} (h : body.NeverPanics) :
    Call.panicked (⟨acquired, underKey key body⟩ : Call K S ε α) = false := by
  cases body with
  | call o next => rfl
  | done out =>
      cases out with
      | ret a => rfl
      | throw e => rfl
      | panic => exact absurd rfl h

section

variable [DecidableEq K] {T : W → (o : S.Op) → S.Answer o → W → Prop}
  {code : R → Prog (locked K S) ε α}

theorem Call.move_enter {locks : Finset K} {acquired : List K} {key : K} {busy : ε}
    {body : Prog S ε α} {w : W} (h : key ∉ locks) :
    Call.Move T locks w ⟨acquired, withLock key busy body⟩ (insert key locks)
      ⟨key :: acquired, underKey key body⟩ w :=
  .acquire h

variable {s₀ : Pool K S ε α × W} {s : Pool K S ε α} {w w' : W} {ts : List (Turn R)} {key : K}
  {p p' : Prog S ε α}

/-- A new call takes a key that is free, whatever the others do. -/
theorem Pool.path_enter {r : R} {busy : ε} (hpath : Path (Pool.Next T code) s₀ ts (s, w))
    (hcode : code r = withLock key busy p) (hp : p.NeverPanics) (hkey : key ∉ s.locks) :
    Path (Pool.Next T code) s₀ (ts ++ [.start r] ++ [.act s.calls.length])
      (⟨insert key s.locks, s.calls ++ [⟨[key], underKey key p⟩]⟩, w) := by
  have hstart := hpath.snoc (.start (r := r) (by rw [hcode]; rfl))
  rw [hcode] at hstart
  have henter := hstart.snoc (.act List.getElem?_concat_length (Call.move_enter hkey)
    (panicked_underKey hp))
  rwa [List.set_append_right _ _ le_rfl, Nat.sub_self] at henter

/-- A call under a key can go on alone. -/
theorem Pool.path_steps {i : ℕ} {acquired : List K} (hsteps : Prog.Steps T p w p' w')
    (hp : p.NeverPanics) (hpath : Path (Pool.Next T code) s₀ ts (s, w))
    (hc : s.calls[i]? = some ⟨acquired, underKey key p⟩) :
    ∃ k, Path (Pool.Next T code) s₀ (ts ++ List.replicate k (.act i))
      ({ s with calls := s.calls.set i ⟨acquired, underKey key p'⟩ }, w') := by
  induction hsteps generalizing s ts with
  | refl =>
      refine ⟨0, ?_⟩
      obtain ⟨hi, hget⟩ := List.getElem?_eq_some_iff.mp hc
      rw [← hget, List.set_getElem_self, List.replicate_zero, List.append_nil]
      exact hpath
  | call hT hrest ih =>
      have hi : i < s.calls.length := (List.getElem?_eq_some_iff.mp hc).1
      have hstep := hpath.snoc (.act hc (.base hT) (panicked_underKey (hp _)))
      obtain ⟨k, hk⟩ := ih (hp _) hstep (List.getElem?_set_self hi)
      refine ⟨k + 1, ?_⟩
      rw [List.replicate_succ, List.append_cons]
      rwa [List.set_set] at hk

end

section

variable {X V : Type} (place : S.Op → Option X) (L : V → (o : S.Op) → S.Answer o → V → Prop)
  (code : R → Prog (locked K S) ε α) (job : R → Option (X × K)) (I : X → V → Prop)
  (Post : R → Outcome ε α → V → Prop) (P : R → Prop)

/-- The requests in `P` work nowhere and end with an outcome that is right whatever the state of the
places, or they work under a key at a place (`job`), where they keep the invariant and end with
their postcondition. One place has one key. -/
structure Discipline : Prop where
  opening : ∀ r, Opening (fun _ => True) (code r)
  nowhere : ∀ r, job r = none → ∀ o, (code r).Performs (.base o) → place o = none
  leaves : ∀ r, job r = none → (code r).Leaves (fun out => ∀ v, Post r out v)
  under : ∀ r x key, P r → job r = some (x, key) → ∃ busy body, code r = withLock key busy body ∧
    ∀ v, I x v → body.Safe place L x (I x) (Post r) v
  one_key : ∀ r r' x key key', P r → P r' → job r = some (x, key) → job r' = some (x, key') →
    key = key'

/-- How far the call for `r` is. -/
inductive Call.Phase (r : R) (w : X → V) (c : Call K S ε α) : Prop where
  | nowhere : job r = none → (∀ o, c.rest.Performs (.base o) → place o = none) →
      c.rest.Leaves (fun out => ∀ v, Post r out v) → Call.Phase r w c
  | before {x : X} {key : K} : job r = some (x, key) → c.acquired = [] → c.rest = code r →
      Call.Phase r w c
  | inside {x : X} {key : K} {body : Prog S ε α} : job r = some (x, key) → c.acquired = [key] →
      c.rest = underKey key body → c.InFlight → body.Safe place L x (I x) (Post r) (w x) →
      Call.Phase r w c
  | after {out : Outcome ε α} : c.rest = .done out → Call.Phase r w c

/-- A call of `r` changes nothing, or the place of `r` while it holds the key. -/
def Call.Changes (r : R) (c : Call K S ε α) (w w' : X → V) : Prop :=
  w' = w ∨ ∃ x key, job r = some (x, key) ∧ c.Holding key ∧ I x (w' x) ∧ ∀ y, y ≠ x → w' y = w y

/-- What holds in every state: the calls are those of the requests, each in one of its phases, and
every place is in its invariant. -/
structure Pool.Good (ts : List (Turn R)) (s : Pool K S ε α × (X → V)) : Prop where
  sound : s.1.Sound (fun _ => True)
  served : ∀ r ∈ requests ts, P r
  length : s.1.calls.length = (requests ts).length
  phase : ∀ (i : ℕ) (c : Call K S ε α) (r : R), s.1.calls[i]? = some c →
    (requests ts)[i]? = some r → c.Phase place L code job I Post r s.2
  kept : ∀ x, I x (s.2 x)

variable {place L code job I Post P} {w w' : X → V} {c c' : Call K S ε α} {r : R}
  {s s' : Pool K S ε α × (X → V)} {ts : List (Turn R)}

/-! ## A new call -/

theorem Pool.Good.start (hg : Pool.Good place L code job I Post P ts s)
    (hd : Discipline place L code job I Post P) (hr : P r) :
    Pool.Good place L code job I Post P (ts ++ [.start r])
      ({ s.1 with calls := s.1.calls ++ [⟨[], code r⟩] }, s.2) where
  sound := hg.sound.start hd.opening r
  served := by
    intro r' hr'
    rw [requests_start, List.mem_append, List.mem_singleton] at hr'
    rcases hr' with hold | rfl
    · exact hg.served r' hold
    · exact hr
  length := by rw [requests_start, List.length_append, List.length_append, hg.length]; rfl
  phase := by
    intro i c r' hc hr'
    rw [requests_start] at hr'
    rw [List.getElem?_append] at hc hr'
    rw [hg.length] at hc
    split at hc
    · rename_i hi
      rw [if_pos hi] at hr'
      exact hg.phase i c r' hc hr'
    · rename_i hi
      rw [if_neg hi] at hr'
      obtain rfl := List.mem_singleton.mp (List.mem_of_getElem? hc)
      obtain rfl := List.mem_singleton.mp (List.mem_of_getElem? hr')
      cases hjob : job r' with
      | none => exact .nowhere hjob (hd.nowhere r' hjob) (hd.leaves r' hjob)
      | some xk =>
          obtain ⟨x, key⟩ := xk
          exact .before hjob rfl rfl
  kept := hg.kept

theorem Pool.Good.exists_request (hg : Pool.Good place L code job I Post P ts s) {i : ℕ}
    (hc : s.1.calls[i]? = some c) : ∃ r, (requests ts)[i]? = some r ∧ P r := by
  have hi : i < (requests ts).length := by
    rw [← hg.length]
    exact (List.getElem?_eq_some_iff.mp hc).1
  exact ⟨_, List.getElem?_eq_getElem hi, hg.served _ (List.getElem_mem hi)⟩

/-! ## One operation of one call -/

/-- The call that moves holds the key of its place, so a call of another key is where it was. -/
theorem Call.Phase.frame {c₂ : Call K S ε α} {r₂ : R} (hd : Discipline place L code job I Post P)
    (hr : P r) (hr₂ : P r₂) (hphase : c₂.Phase place L code job I Post r₂ w)
    (hchanges : c.Changes job I r w w') (hother : ∀ key, c.Holding key → ¬c₂.Holding key) :
    c₂.Phase place L code job I Post r₂ w' := by
  rcases hchanges with rfl | ⟨x, key, hjob, hold, -, hframe⟩
  · exact hphase
  cases hphase with
  | nowhere hjob₂ hc hleaves => exact .nowhere hjob₂ hc hleaves
  | before hjob₂ hacq hrest => exact .before hjob₂ hacq hrest
  | @inside x₂ key₂ body hjob₂ hacq hrest hflight hsafe =>
      have hne : x₂ ≠ x := by
        rintro rfl
        obtain rfl := hd.one_key r r₂ x₂ key key₂ hr hr₂ hjob hjob₂
        exact hother key hold ((Call.holding_iff hacq hflight).mpr rfl)
      exact .inside hjob₂ hacq hrest hflight (by rwa [hframe x₂ hne])
  | after hrest => exact .after hrest

variable [DecidableEq K] {locks locks' : Finset K}

theorem Call.Move.leaves {T : (X → V) → (o : S.Op) → S.Answer o → (X → V) → Prop}
    {Q : Outcome ε α → Prop} (h : Call.Move T locks w c locks' c' w') (hc : c.rest.Leaves Q) :
    c'.rest.Leaves Q := by
  cases h with
  | acquire => exact hc true
  | busy => exact hc false
  | release => exact hc ()
  | base => exact hc _

theorem Call.Move.nowhere (h : Call.Move (placeWorld place L) locks w c locks' c' w')
    (hc : ∀ o, c.rest.Performs (.base o) → place o = none) :
    w' = w ∧ ∀ o, c'.rest.Performs (.base o) → place o = none := by
  cases h with
  | acquire => exact ⟨rfl, fun o ho => hc o (Or.inr ⟨true, ho⟩)⟩
  | busy => exact ⟨rfl, fun o ho => hc o (Or.inr ⟨false, ho⟩)⟩
  | release => exact ⟨rfl, fun o ho => hc o (Or.inr ⟨(), ho⟩)⟩
  | @base acquired o next a w' hT =>
      have hnone : place o = none := hc o (Or.inl rfl)
      rw [placeWorld, hnone] at hT
      exact ⟨hT, fun o' ho' => hc o' (Or.inr ⟨a, ho'⟩)⟩

/-- The first operation of a call takes the key, or the call is over. -/
theorem Call.Move.enter {T : (X → V) → (o : S.Op) → S.Answer o → (X → V) → Prop}
    {key : K} {busy : ε}
    {body : Prog S ε α} (h : Call.Move T locks w c locks' c' w')
    (hc : c.rest = withLock key busy body) :
    w' = w ∧ ((c'.acquired = key :: c.acquired ∧ c'.rest = underKey key body) ∨
      c'.rest = .done (.throw busy)) := by
  cases h with
  | acquire => cases hc; exact ⟨rfl, Or.inl ⟨rfl, rfl⟩⟩
  | busy => cases hc; exact ⟨rfl, Or.inr rfl⟩
  | release => cases hc
  | base => cases hc

/-- An operation under the key is one of the body, or the call returns with the outcome of the
body. -/
theorem Call.Move.work {T : (X → V) → (o : S.Op) → S.Answer o → (X → V) → Prop} {key : K}
    {body : Prog S ε α} (h : Call.Move T locks w c locks' c' w') (hc : c.rest = underKey key body) :
    (∃ o next a, body = .call o next ∧ T w o a w' ∧ c'.acquired = c.acquired ∧
      c'.rest = underKey key (next a)) ∨
    ∃ out, body = .done out ∧ w' = w ∧ c'.rest = .done out := by
  cases body with
  | done out =>
      refine Or.inr ⟨out, rfl, ?_⟩
      cases out with
      | ret a => cases h <;> cases hc; exact ⟨rfl, rfl⟩
      | throw e => cases h <;> cases hc; exact ⟨rfl, rfl⟩
      | panic => cases h <;> cases hc
  | call o next =>
      cases h with
      | acquire => cases hc
      | busy => cases hc
      | release => cases hc
      | base hT => cases hc; exact Or.inl ⟨o, next, _, rfl, hT, rfl, rfl⟩

/-- **A call goes on to its next phase** and changes at most its own place. -/
theorem Call.Phase.move (hd : Discipline place L code job I Post P) (hr : P r)
    (hphase : c.Phase place L code job I Post r w)
    (hmove : Call.Move (placeWorld place L) locks w c locks' c' w') (hI : ∀ x, I x (w x))
    (hp : c'.panicked = false) :
    c'.Phase place L code job I Post r w' ∧ c.Changes job I r w w' := by
  cases hphase with
  | nowhere hjob hc hleaves =>
      obtain ⟨hw, hc'⟩ := hmove.nowhere hc
      exact ⟨.nowhere hjob hc' (hmove.leaves hleaves), Or.inl hw⟩
  | @before x key hjob hacq hrest =>
      obtain ⟨busy, body, hcode, hsafe⟩ := hd.under r x key hr hjob
      obtain ⟨rfl, ⟨hacq', hrest'⟩ | hrest'⟩ := hmove.enter (hrest.trans hcode)
      · rw [hacq] at hacq'
        exact ⟨.inside hjob hacq' hrest' (underKey_inFlight hrest' hp) (hsafe _ (hI x)), Or.inl rfl⟩
      · exact ⟨.after hrest', Or.inl rfl⟩
  | @inside x key body hjob hacq hrest hflight hsafe =>
      rcases hmove.work hrest with ⟨o, next, a, rfl, hT, hacq', hrest'⟩ | ⟨out, rfl, rfl, hrest'⟩
      · have hflight' : c'.InFlight := underKey_inFlight hrest' hp
        rcases hsafe with ⟨hnone, hsafe⟩ | ⟨hx, hsafe⟩
        · rw [placeWorld, hnone] at hT
          obtain rfl : w' = w := hT
          exact ⟨.inside hjob (hacq'.trans hacq) hrest' hflight' (hsafe a), Or.inl rfl⟩
        · rw [placeWorld, hx] at hT
          obtain ⟨hL, hframe⟩ := hT
          obtain ⟨hI', hsafe'⟩ := hsafe a (w' x) hL
          have hold : c.Holding key := (Call.holding_iff hacq hflight).mpr rfl
          exact ⟨.inside hjob (hacq'.trans hacq) hrest' hflight' hsafe',
            Or.inr ⟨x, key, hjob, hold, hI', hframe⟩⟩
      · exact ⟨.after hrest', Or.inl rfl⟩
  | after hrest =>
      cases hmove <;> cases hrest

/-! ## Whole runs -/

/-- One operation of call `i`: the call goes on, and the others are where they were. -/
theorem Pool.Good.act (hg : Pool.Good place L code job I Post P ts s)
    (hd : Discipline place L code job I Post P) {i : ℕ} (hc : s.1.calls[i]? = some c)
    (hmove : Call.Move (placeWorld place L) s.1.locks s.2 c locks' c' w')
    (hp : c'.panicked = false) :
    Pool.Good place L code job I Post P (ts ++ [.act i])
      ({ locks := locks', calls := s.1.calls.set i c' }, w') := by
  obtain ⟨r, hri, hr⟩ := hg.exists_request hc
  obtain ⟨hphase, hchanges⟩ := (hg.phase i c r hc hri).move hd hr hmove hg.kept hp
  have hi : i < s.1.calls.length := (List.getElem?_eq_some_iff.mp hc).1
  refine ⟨hg.sound.act hc hmove.act hp, ?_, ?_, ?_, ?_⟩
  · rw [requests_act]
    exact hg.served
  · rw [requests_act, ← hg.length]
    exact List.length_set
  · intro j c₂ r₂ hc₂ hr₂
    rw [requests_act] at hr₂
    by_cases hij : i = j
    · subst hij
      rw [List.getElem?_set_self hi] at hc₂
      obtain rfl := Option.some.inj hc₂
      obtain rfl := Option.some.inj (hri.symm.trans hr₂)
      exact hphase
    · rw [List.getElem?_set_ne hij] at hc₂
      have hr₂' : P r₂ := hg.served r₂ (List.mem_of_getElem? hr₂)
      refine (hg.phase j c₂ r₂ hc₂ hr₂).frame hd hr hr₂' hchanges (fun key hold hold₂ => ?_)
      exact hij (hg.sound.exclusive i j key ⟨c, hc, hold⟩ ⟨c₂, hc₂, hold₂⟩)
  · intro y
    show I y (w' y)
    rcases hchanges with rfl | ⟨x, key, -, -, hI, hframe⟩
    · exact hg.kept y
    · by_cases hy : y = x
      · exact hy ▸ hI
      · rw [hframe y hy]
        exact hg.kept y

/-- **Every interleaving.** When the calls keep the invariants of their places each on its own, then
they keep them together, as long as one place has one key. -/
theorem Pool.good_of_path (hd : Discipline place L code job I Post P) (hI : ∀ x, I x (w x))
    (hpath : Path (Pool.Next (placeWorld place L) code) (⟨∅, []⟩, w) ts s)
    (hP : ∀ r ∈ requests ts, P r) : Pool.Good place L code job I Post P ts s := by
  refine Path.invariant (P := fun t => ∀ r, t = .start r → P r) ?_ ?_ hpath ?_
  · exact ⟨Pool.sound_empty, by simp [requests], rfl, by simp, hI⟩
  · intro ts t s s' hnext ht hg
    cases hnext with
    | start => exact hg.start hd (ht _ rfl)
    | act hc hmove hp => exact hg.act hd hc hmove hp
  · rintro t ht r rfl
    exact hP r (List.mem_filterMap.mpr ⟨_, ht, rfl⟩)

/-- **Every call that returns** was turned away and has changed nothing, or leaves its place as its
postcondition says; a call without a place returns what is right at any. -/
theorem Pool.Good.returns (hg : Pool.Good place L code job I Post P ts s)
    (hd : Discipline place L code job I Post P) {i : ℕ} {out : Outcome ε α}
    (hnext : Pool.Next (placeWorld place L) code s (.act i) s') (hr : (requests ts)[i]? = some r)
    (hc' : s'.1.calls[i]? = some c') (hout : c'.rest = .done out) :
    (∃ e, out = .throw e ∧ s'.2 = s.2) ∨ (∃ x key, job r = some (x, key) ∧ Post r out (s'.2 x)) ∨
      ∀ v, Post r out v := by
  cases hnext with
  | @act s w w' _ c c₁ locks' hc hmove hp =>
      have hi : i < s.calls.length := (List.getElem?_eq_some_iff.mp hc).1
      obtain rfl : c₁ = c' := by
        rw [List.getElem?_set_self hi] at hc'
        exact Option.some.inj hc'
      have hPr : P r := hg.served r (List.mem_of_getElem? hr)
      cases hg.phase i c r hc hr with
      | nowhere hjob hc₀ hleaves =>
          have hleaves' := hmove.leaves hleaves
          rw [hout] at hleaves'
          exact Or.inr (Or.inr hleaves')
      | @before x key hjob hacq hrest =>
          obtain ⟨busy, body, hcode, -⟩ := hd.under r x key hPr hjob
          obtain ⟨hw, ⟨-, hrest'⟩ | hrest'⟩ := hmove.enter (hrest.trans hcode)
          · exact absurd hout (underKey_inFlight hrest' hp out)
          · rw [hout] at hrest'
            cases hrest'
            exact Or.inl ⟨busy, rfl, hw⟩
      | @inside x key body hjob hacq hrest hflight hsafe =>
          rcases hmove.work hrest with ⟨o, next, a, -, -, -, hrest'⟩ | ⟨out', rfl, hw, hrest'⟩
          · exact absurd hout (underKey_inFlight hrest' hp out)
          · rw [hout] at hrest'
            cases hrest'
            refine Or.inr (Or.inl ⟨x, key, hjob, ?_⟩)
            show Post r out (w' x)
            rw [hw]
            exact hsafe
      | after hrest => cases hmove <;> cases hrest

end

end Locks
