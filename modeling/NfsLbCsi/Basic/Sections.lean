import NfsLbCsi.Basic.Pool

set_option autoImplicit false

/-! # Pools of calls that lock again and again

The programs of `Basic.Pool` take one key and end when they have given it back. Here a program may
enter any number of locked sections, one after the other: it takes a key, gives it back, goes on
without one, and may take the next (`InTurn`). The notion is closed under everything that programs
are built with, so a handler that calls another one that locks needs no argument of its own.

* `heldBy tr i`: the key that call `i` holds after the steps `tr`, read off the steps.
* `Pool.orderly_of_run`: over every run of such programs the lock set is the set of the keys that
  are held, each by one call.
* `Pool.not_forever`: without new requests no run goes on for ever.
* `Pool.exists_drained`: when panics come from bad answers only (`Prog.PanicsOnly`), good answers
  bring every call to its end.
-/

variable {S : Signature} {ε ε' α β : Type}

/-! ## Going on after the end -/

namespace Prog

/-- Go on with `g` where the program ends. -/
def graft (g : Outcome ε α → Prog S ε' β) : Prog S ε α → Prog S ε' β
  | .done out => g out
  | .call o next => .call o (fun a => (next a).graft g)

theorem bind_eq_graft (p : Prog S ε α) (f : α → Prog S ε β) :
    (p >>= f) = p.graft (fun out => .done out >>= f) := by
  induction p with
  | done out => rfl
  | call o next ih => exact congrArg (Prog.call o) (funext ih)

theorem mapError_eq_graft (p : Prog S ε α) (f : ε → ε') :
    p.mapError f = p.graft (fun out => .done (out.mapError f)) := by
  induction p with
  | done out => rfl
  | call o next ih => exact congrArg (Prog.call o) (funext ih)

theorem endWith_eq_graft (p : Prog S ε' β) (out : Outcome ε α) :
    p.endWith out = p.graft (fun out' => (done out' : Prog S ε' β).endWith out) := by
  induction p with
  | done out => rfl
  | call o next ih => exact congrArg (Prog.call o) (funext ih)

theorem ensure_eq_graft (p : Prog S ε α) (cleanup : Prog S ε' β) :
    p.ensure cleanup = p.graft (fun out => (done out : Prog S ε α).ensure cleanup) := by
  induction p with
  | done out => rfl
  | call o next ih => exact congrArg (Prog.call o) (funext ih)

/-! ## Panics that come from an answer -/

/-- The program panics at most where an operation has had a `bad` answer, and then at once. -/
def PanicsOnly (bad : (o : S.Op) → S.Answer o → Prop) : Prog S ε α → Prop
  | .done out => out ≠ .panic
  | .call o next => ∀ a, (bad o a ∧ next a = .done .panic) ∨ (next a).PanicsOnly bad

section

variable {bad : (o : S.Op) → S.Answer o → Prop} {p : Prog S ε α}

theorem NeverPanics.panicsOnly (h : p.NeverPanics) : p.PanicsOnly bad := by
  induction p with
  | done out => exact h
  | call o next ih => exact fun a => Or.inr (ih a (h a))

theorem PanicsOnly.graft {g : Outcome ε α → Prog S ε' β} (hp : p.PanicsOnly bad)
    (hg : ∀ out, out ≠ .panic → (g out).PanicsOnly bad) (hpanic : g .panic = .done .panic) :
    (p.graft g).PanicsOnly bad := by
  induction p with
  | done out => exact hg out hp
  | call o next ih =>
      intro a
      rcases hp a with ⟨hbad, hnext⟩ | hnext
      · refine Or.inl ⟨hbad, ?_⟩
        show (next a).graft g = .done .panic
        rw [hnext]
        exact hpanic
      · exact Or.inr (ih a hnext)

theorem PanicsOnly.bind {f : α → Prog S ε β} (hp : p.PanicsOnly bad)
    (hf : ∀ a, (f a).PanicsOnly bad) : (p >>= f).PanicsOnly bad := by
  rw [bind_eq_graft]
  refine hp.graft (fun out hout => ?_) rfl
  cases out with
  | ret a => exact hf a
  | throw e => exact Outcome.throw_ne_panic
  | panic => exact absurd rfl hout

theorem PanicsOnly.ensure {cleanup : Prog S ε' β} (hp : p.PanicsOnly bad)
    (hc : cleanup.NeverPanics) : (p.ensure cleanup).PanicsOnly bad := by
  rw [ensure_eq_graft]
  refine hp.graft (fun out hout => ?_) rfl
  have hdone : (done out : Prog S ε α).NeverPanics := hout
  exact (hdone.ensure hc).panicsOnly

theorem panicsOnly_require_bind {c : Prop} [Decidable c] {e : ε} {g : Unit → Prog S ε β}
    (h : (g ()).PanicsOnly bad) : (require c e >>= g).PanicsOnly bad := by
  unfold require
  split
  · exact h
  · exact Outcome.throw_ne_panic

end

/-! ## Programs end -/

/-- `q` is what is left of a program after one operation. -/
def After (q p : Prog S ε α) : Prop := ∃ o next a, p = .call o next ∧ q = next a

theorem acc_after (p : Prog S ε α) : Acc After p := by
  induction p with
  | done out =>
      constructor
      rintro q ⟨o, next, a, hp, -⟩
      cases hp
  | call o next ih =>
      constructor
      rintro q ⟨_, _, a, hp, rfl⟩
      cases hp
      exact ih a

end Prog

section

variable {X : Type} {r : X → X → Prop}

/-- One entry of a list is replaced by a smaller one. -/
def OneLess (r : X → X → Prop) (l' l : List X) : Prop :=
  ∃ i a a', l[i]? = some a ∧ r a' a ∧ l' = l.set i a'

theorem acc_cons {a : X} {l : List X} (ha : Acc r a) (hl : Acc (OneLess r) l) :
    Acc (OneLess r) (a :: l) := by
  induction ha generalizing l with
  | intro a _ iha =>
      induction hl with
      | intro l hl ihl =>
          constructor
          rintro l' ⟨i, b, b', hi, hr, rfl⟩
          cases i with
          | zero =>
              obtain rfl : a = b := Option.some.inj hi
              exact iha b' hr (Acc.intro l hl)
          | succ i => exact ihl (l.set i b') ⟨i, b, b', hi, hr, rfl⟩

theorem acc_oneLess {l : List X} (h : ∀ a ∈ l, Acc r a) : Acc (OneLess r) l := by
  induction l with
  | nil =>
      constructor
      rintro l' ⟨i, a, a', hi, -⟩
      cases hi
  | cons a l ih => exact acc_cons (h a (by simp)) (ih (fun b hb => h b (List.mem_cons_of_mem a hb)))

end

namespace Locks

open Lts

variable {K R : Type}

/-! ## One section after the other -/

/-- The program holds the key `held`, or none. It takes a key only while it holds none, gives back
the key it holds and no other, and ends without one, unless it panics. -/
def InTurn : Option K → Prog (locked K S) ε α → Prop
  | none, .done _ => True
  | some _, .done out => out = .panic
  | none, .call (.tryAcquire key) next => InTurn none (next false) ∧ InTurn (some key) (next true)
  | some _, .call (.tryAcquire _) _ => False
  | none, .call (.release _) _ => False
  | some key, .call (.release key') next => key' = key ∧ InTurn none (next ())
  | none, .call (.base _) next => ∀ a, InTurn none (next a)
  | some key, .call (.base _) next => ∀ a, InTurn (some key) (next a)

section

variable {held : Option K} {p : Prog (locked K S) ε α}

/-- Only the ends of a program change. -/
theorem InTurn.graft {g : Outcome ε α → Prog (locked K S) ε' β} (hp : InTurn held p)
    (hg : ∀ out, InTurn none (g out)) (hpanic : g .panic = .done .panic) :
    InTurn held (p.graft g) := by
  induction p generalizing held with
  | done out =>
      cases held with
      | none => exact hg out
      | some key =>
          obtain rfl : out = .panic := hp
          show InTurn (some key) (g .panic)
          rw [hpanic]
          rfl
  | call o next ih =>
      cases o with
      | tryAcquire key =>
          cases held with
          | none => exact ⟨ih false hp.1, ih true hp.2⟩
          | some key' => exact hp
      | release key =>
          cases held with
          | none => exact hp
          | some key' => exact ⟨hp.1, ih () hp.2⟩
      | base o =>
          cases held with
          | none => exact fun a => ih a (hp a)
          | some key => exact fun a => ih a (hp a)

theorem InTurn.bind {f : α → Prog (locked K S) ε β} (hp : InTurn held p)
    (hf : ∀ a, InTurn none (f a)) : InTurn held (p >>= f) := by
  rw [Prog.bind_eq_graft]
  refine hp.graft (fun out => ?_) rfl
  cases out with
  | ret a => exact hf a
  | throw e => trivial
  | panic => trivial

theorem InTurn.mapError {f : ε → ε'} (hp : InTurn held p) : InTurn held (p.mapError f) := by
  rw [Prog.mapError_eq_graft]
  exact hp.graft (fun _ => trivial) rfl

theorem InTurn.endWith {out : Outcome ε' β} (hp : InTurn held p) : InTurn held (p.endWith out) := by
  rw [Prog.endWith_eq_graft]
  refine hp.graft (fun out' => ?_) rfl
  cases out' <;> trivial

theorem InTurn.ensure {cleanup : Prog (locked K S) ε' β} (hp : InTurn held p)
    (hc : InTurn none cleanup) : InTurn held (p.ensure cleanup) := by
  rw [Prog.ensure_eq_graft]
  refine hp.graft (fun out => ?_) rfl
  cases out with
  | ret a => exact hc.endWith
  | throw e => exact hc.endWith
  | panic => trivial

theorem InTurn.must {f : ε' → ε} {p : Prog (locked K S) ε (Except ε' α)} (hp : InTurn held p) :
    InTurn held (Prog.must f p) :=
  hp.bind (fun _ => trivial)

theorem inTurn_require_bind {c : Prop} [Decidable c] {e : ε} {g : Unit → Prog (locked K S) ε β}
    (h : InTurn none (g ())) : InTurn none (Prog.require c e >>= g) := by
  unfold Prog.require
  split
  · exact h
  · trivial

/-- **A program under a key** is one section. -/
theorem inTurn_withLock (key : K) (busy : ε) (body : Prog S ε α) :
    InTurn none (withLock key busy body) := by
  refine ⟨trivial, ?_⟩
  induction body with
  | done out =>
      cases out with
      | ret a => exact ⟨rfl, trivial⟩
      | throw e => exact ⟨rfl, trivial⟩
      | panic => exact rfl
  | call o next ih => exact fun a => ih a

end

/-! ## Orderly pools -/

/-- Every call is in its turn with the key it holds, the lock set is the set of these keys, each
held by one call, and no call has panicked. -/
structure Pool.Orderly (held : ℕ → Option K) (s : Pool K S ε α) : Prop where
  inTurn : ∀ (i : ℕ) (c : Call K S ε α), s.calls[i]? = some c → InTurn (held i) c.rest
  started : ∀ i, s.calls[i]? = none → held i = none
  alive : ∀ c ∈ s.calls, c.panicked = false
  locks : ∀ key, key ∈ s.locks ↔ ∃ i, held i = some key
  exclusive : ∀ (i j : ℕ) (key : K), held i = some key → held j = some key → i = j

section

variable {s : Pool K S ε α} {c : Call K S ε α} {held : ℕ → Option K}
  {code : R → Prog (locked K S) ε α} {bad : (o : S.Op) → S.Answer o → Prop}

theorem Pool.Orderly.start (h : s.Orderly held) {r : R} (hr : InTurn none (code r))
    (hp : Call.panicked (⟨[], code r⟩ : Call K S ε α) = false) :
    Pool.Orderly held { s with calls := s.calls ++ [⟨[], code r⟩] } := by
  refine ⟨?_, ?_, ?_, h.locks, h.exclusive⟩
  · intro i c hc
    rcases Nat.lt_trichotomy i s.calls.length with hi | hi | hi
    · rw [List.getElem?_append_left hi] at hc
      exact h.inTurn i c hc
    · rw [hi, List.getElem?_concat_length] at hc
      obtain rfl := Option.some.inj hc
      rw [h.started i (List.getElem?_eq_none hi.ge)]
      exact hr
    · rw [List.getElem?_eq_none (by simpa using hi)] at hc
      cases hc
  · intro i hi
    refine h.started i (List.getElem?_eq_none ?_)
    have hlen : s.calls.length + 1 ≤ i := by simpa using hi
    omega
  · intro c hc
    rcases List.mem_append.mp hc with hmem | hmem
    · exact h.alive c hmem
    · rw [List.mem_singleton.mp hmem]
      exact hp

theorem Pool.orderly_empty : Pool.Orderly (fun _ => none) (⟨∅, []⟩ : Pool K S ε α) :=
  ⟨by simp, by simp, by simp, by simp, by simp⟩

/-- A call that has returned holds nothing. -/
theorem Pool.Orderly.held_eq_none (h : s.Orderly held) {i : ℕ} {c : Call K S ε α}
    (hc : s.calls[i]? = some c) {out : Outcome ε α} (hdone : c.rest = .done out) :
    held i = none := by
  have hturn := h.inTurn i c hc
  have hp := h.alive c (List.mem_of_getElem? hc)
  cases hheld : held i with
  | none => rfl
  | some key =>
      rw [hheld, hdone] at hturn
      obtain rfl : out = .panic := hturn
      rw [Call.panicked, hdone] at hp
      cases hp

theorem Pool.Orderly.locks_eq_empty (h : s.Orderly held) (hidle : ∀ c ∈ s.calls, ¬c.InFlight) :
    s.locks = ∅ := by
  refine Finset.eq_empty_iff_forall_notMem.mpr (fun key hkey => ?_)
  obtain ⟨i, hi⟩ := (h.locks key).mp hkey
  cases hc : s.calls[i]? with
  | none => exact absurd ((h.started i hc).symm.trans hi) (by simp)
  | some c =>
      have hdone := hidle c (List.mem_of_getElem? hc)
      simp only [Call.InFlight, not_forall, not_not] at hdone
      obtain ⟨out, hout⟩ := hdone
      exact absurd ((h.held_eq_none hc hout).symm.trans hi) (by simp)

/-- The lock set never answers badly. -/
def lockedBad (K : Type) (bad : (o : S.Op) → S.Answer o → Prop) :
    (o : (locked K S).Op) → (locked K S).Answer o → Prop
  | .tryAcquire _, _ => False
  | .release _, _ => False
  | .base o, a => bad o a

/-- The calls of the pool panic after bad answers only. -/
def Pool.Steady (bad : (o : S.Op) → S.Answer o → Prop) (s : Pool K S ε α) : Prop :=
  ∀ c ∈ s.calls, c.rest.PanicsOnly (lockedBad K bad)

theorem panicsOnly_lift {p : Prog S ε α} (h : p.PanicsOnly bad) :
    (lift K p).PanicsOnly (lockedBad K bad) := by
  induction p with
  | done out => exact h
  | call o next ih =>
      intro a
      rcases h a with ⟨hbad, hpanic⟩ | hnext
      · refine Or.inl ⟨hbad, ?_⟩
        show lift K (next a) = .done .panic
        rw [hpanic]
        rfl
      · exact Or.inr (ih a hnext)

theorem panicsOnly_withLock {key : K} {busy : ε} {body : Prog S ε α} (h : body.PanicsOnly bad) :
    (withLock key busy body).PanicsOnly (lockedBad K bad) := by
  intro (acquired : Bool)
  cases acquired with
  | true => exact Or.inr ((panicsOnly_lift h).ensure (Prog.neverPanics_op _))
  | false => exact Or.inr Outcome.throw_ne_panic

theorem Call.panicked_eq_false (h : c.rest.PanicsOnly (lockedBad K bad)) : c.panicked = false := by
  unfold Call.panicked
  split
  · rename_i hdone
    rw [hdone] at h
    exact absurd rfl h
  · rfl

end

/-! ## The key of a call -/

section

variable [DecidableEq K]

/-- The key that a call holds after its next operation, when it has held `held` before. -/
def Call.heldAfter (locks : Finset K) (held : Option K) (c : Call K S ε α) : Option K :=
  match c.rest with
  | .call (.tryAcquire key) _ => if key ∈ locks then held else some key
  | .call (.release _) _ => none
  | _ => held

/-- The key of call `i` after one step. -/
def heldStep (i : ℕ) (held : Option K) (t : Transition (Pool K S ε α) (PoolEvent R S) Unit) :
    Option K :=
  match t.event with
  | .start _ => held
  | .act j _ => if j = i then t.pre.calls[i]?.elim held (Call.heldAfter t.pre.locks held) else held

/-- The key that call `i` has taken in the steps `tr` and not given back. -/
def heldBy (tr : List (Transition (Pool K S ε α) (PoolEvent R S) Unit)) (i : ℕ) : Option K :=
  tr.foldl (heldStep i) none

theorem heldBy_snoc (tr : List (Transition (Pool K S ε α) (PoolEvent R S) Unit))
    (t : Transition (Pool K S ε α) (PoolEvent R S) Unit) (i : ℕ) :
    heldBy (tr ++ [t]) i = heldStep i (heldBy tr i) t :=
  List.foldl_concat _ _ _ _

variable {locks locks' : Finset K} {c c' : Call K S ε α} {held : Option K}

theorem heldStep_self {s s' : Pool K S ε α} {i : ℕ} {reply : (o : S.Op) → S.Answer o} {o : Unit}
    (hc : s.calls[i]? = some c) :
    heldStep (R := R) i held ⟨s, .act i reply, o, s'⟩ = c.heldAfter s.locks held := by
  simp [heldStep, hc]

theorem Call.Act.inTurn (h : Call.Act locks c locks' c') (hc : InTurn held c.rest) :
    InTurn (c.heldAfter locks held) c'.rest := by
  cases h with
  | acquire hkey =>
      cases held with
      | none =>
          simp only [Call.heldAfter, if_neg hkey]
          exact hc.2
      | some key => exact hc.elim
  | busy hkey =>
      cases held with
      | none =>
          simp only [Call.heldAfter, if_pos hkey]
          exact hc.1
      | some key => exact hc.elim
  | release =>
      cases held with
      | none => exact hc.elim
      | some key => exact hc.2
  | base a =>
      cases held with
      | none => exact hc a
      | some key => exact hc a

/-- What one operation does to the lock set, in terms of the key of the call. -/
theorem Call.Act.mem_locks_iff (h : Call.Act locks c locks' c') (hc : InTurn held c.rest)
    (hheld : ∀ key, held = some key → key ∈ locks) (key : K) :
    key ∈ locks' ↔ c.heldAfter locks held = some key ∨ (key ∈ locks ∧ held ≠ some key) := by
  cases h with
  | acquire hkey =>
      cases held with
      | none => simp [Call.heldAfter, if_neg hkey, eq_comm]
      | some key => exact hc.elim
  | busy hkey =>
      cases held with
      | none => simp [Call.heldAfter, if_pos hkey]
      | some key => exact hc.elim
  | release =>
      cases held with
      | none => exact hc.elim
      | some key₀ =>
          obtain ⟨rfl, -⟩ := hc
          simp [Call.heldAfter, and_comm, eq_comm]
  | base a =>
      show key ∈ locks ↔ held = some key ∨ (key ∈ locks ∧ held ≠ some key)
      by_cases hkey : held = some key
      · simp [hkey, hheld key hkey]
      · simp [hkey]

/-- A key that a call holds now, it has held before or it has found it free. -/
theorem Call.Act.heldAfter_cases (h : Call.Act locks c locks' c') {key : K}
    (hkey : c.heldAfter locks held = some key) : held = some key ∨ key ∉ locks := by
  cases h with
  | acquire hfree =>
      simp only [Call.heldAfter, if_neg hfree, Option.some.injEq] at hkey
      exact Or.inr (hkey ▸ hfree)
  | busy hbusy =>
      simp only [Call.heldAfter, if_pos hbusy] at hkey
      exact Or.inl hkey
  | release => cases hkey
  | base a => exact Or.inl hkey

/-! ## The lock set over whole runs -/

variable {s s' : Pool K S ε α} {held held' : ℕ → Option K} {code : R → Prog (locked K S) ε α}
  {e : PoolEvent R S} {tr : List (Transition (Pool K S ε α) (PoolEvent R S) Unit)}

/-- **One operation of one call.** The other calls keep their keys. -/
theorem Pool.Orderly.act (h : s.Orderly held) {i : ℕ} {c c' : Call K S ε α} {locks' : Finset K}
    (hc : s.calls[i]? = some c) (hact : Call.Act s.locks c locks' c') (hp : c'.panicked = false)
    (hself : held' i = c.heldAfter s.locks (held i)) (hother : ∀ j, j ≠ i → held' j = held j) :
    Pool.Orderly held' ⟨locks', s.calls.set i c'⟩ := by
  have hi : i < s.calls.length := (List.getElem?_eq_some_iff.mp hc).1
  have hturn : InTurn (held i) c.rest := h.inTurn i c hc
  have hmem : ∀ key, held i = some key → key ∈ s.locks := fun key hkey =>
    (h.locks key).mpr ⟨i, hkey⟩
  -- nobody else holds what call `i` holds after the step
  have hclash : ∀ j key, j ≠ i → held' i = some key → held j ≠ some key := by
    intro j key hne hkey hj
    rcases hact.heldAfter_cases (hself ▸ hkey) with hold | hfree
    · exact hne (h.exclusive j i key hj hold)
    · exact hfree ((h.locks key).mpr ⟨j, hj⟩)
  refine ⟨?_, ?_, ?_, ?_, ?_⟩
  · intro j d hd
    by_cases hij : i = j
    · subst hij
      rw [List.getElem?_set_self hi] at hd
      obtain rfl := Option.some.inj hd
      rw [hself]
      exact hact.inTurn hturn
    · rw [List.getElem?_set_ne hij] at hd
      rw [hother j (Ne.symm hij)]
      exact h.inTurn j d hd
  · intro j hj
    have hne : j ≠ i := by
      rintro rfl
      rw [List.getElem?_set_self hi] at hj
      cases hj
    rw [List.getElem?_set_ne (Ne.symm hne)] at hj
    rw [hother j hne]
    exact h.started j hj
  · intro d hd
    rcases List.mem_or_eq_of_mem_set hd with hmem | rfl
    · exact h.alive d hmem
    · exact hp
  · intro key
    rw [hact.mem_locks_iff hturn hmem key, ← hself]
    constructor
    · rintro (hkey | ⟨hkey, hnot⟩)
      · exact ⟨i, hkey⟩
      · obtain ⟨j, hj⟩ := (h.locks key).mp hkey
        have hne : j ≠ i := by
          rintro rfl
          exact hnot hj
        exact ⟨j, by rw [hother j hne]; exact hj⟩
    · rintro ⟨j, hj⟩
      by_cases hij : j = i
      · exact Or.inl (hij ▸ hj)
      · rw [hother j hij] at hj
        exact Or.inr ⟨(h.locks key).mpr ⟨j, hj⟩, fun hi => hij (h.exclusive j i key hj hi)⟩
  · intro j k key hj hk
    by_cases hji : j = i
    · by_cases hki : k = i
      · exact hji.trans hki.symm
      · rw [hother k hki] at hk
        exact absurd hk (hclash k key hki (hji ▸ hj))
    · rw [hother j hji] at hj
      by_cases hki : k = i
      · exact absurd hj (hclash j key hji (hki ▸ hk))
      · rw [hother k hki] at hk
        exact h.exclusive j k key hj hk

/-- A call that panics at once is not started. -/
theorem Pool.not_panicked_of_start {r : R} {o : Unit}
    (h : Pool.step code s (.start r) = some (s', o)) :
    Call.panicked (⟨[], code r⟩ : Call K S ε α) = false := by
  simp only [Pool.step] at h
  split at h
  · cases h
  · rename_i hp
    simpa using hp

theorem Pool.orderly_step {t : Transition (Pool K S ε α) (PoolEvent R S) Unit}
    (hstep : Pool.step code t.pre t.event = some (t.post, t.obs))
    (hcode : ∀ r, InTurn none (code r))
    (h : t.pre.Orderly (heldBy tr)) : t.post.Orderly (heldBy (tr ++ [t])) := by
  obtain ⟨s, e, o, s'⟩ := t
  have hstep' : Pool.Step code s e s' := Pool.step_cases hstep
  cases hstep' with
  | start r =>
      have hsame : ∀ s', heldBy (tr ++ [⟨s, .start r, o, s'⟩]) = heldBy tr :=
        fun s' => funext (heldBy_snoc tr ⟨s, .start r, o, s'⟩)
      rw [hsame]
      exact Pool.Orderly.start h (hcode r) (Pool.not_panicked_of_start hstep)
  | @act i reply c c' locks' hc hact hp =>
      refine Pool.Orderly.act h hc hact hp ?_ (fun j hne => ?_)
      · rw [heldBy_snoc]
        exact heldStep_self hc
      · rw [heldBy_snoc]
        exact if_neg (Ne.symm hne)

/-- **Every run** of programs that lock in turn, from an empty pool. -/
theorem Pool.orderly_of_run (hcode : ∀ r, InTurn none (code r))
    (hrun : Run (Pool.step code) ⟨∅, []⟩ tr s) : s.Orderly (heldBy tr) :=
  Run.traceInvariant (I := fun tr s => s.Orderly (heldBy tr))
    (P := fun _ => True) Pool.orderly_empty
    (fun _ _ _ hstep _ _ h => Pool.orderly_step hstep hcode h) hrun (fun _ _ => trivial)

/-- A key leaves the lock set by the hand of the call that holds it, and a call takes a key when it
holds none. -/
theorem Pool.Orderly.changed (h : s.Orderly held) {i : ℕ} {reply : (o : S.Op) → S.Answer o}
    (hstep : Pool.Step code s (.act i reply) s') {key : K} :
    (key ∈ s.locks → key ∉ s'.locks → held i = some key) ∧
      (key ∉ s.locks → key ∈ s'.locks → held i = none) := by
  cases hstep with
  | @act _ _ c c' locks' hc hact hp =>
      have hturn := h.inTurn i c hc
      have hiff := hact.mem_locks_iff hturn (fun key hkey => (h.locks key).mpr ⟨i, hkey⟩) key
      constructor
      · intro hkey hgone
        by_contra hnot
        exact hgone (hiff.mpr (Or.inr ⟨hkey, hnot⟩))
      · intro hfree hkey
        cases hact with
        | acquire _ =>
            cases hheld : held i with
            | none => rfl
            | some key' =>
                rw [hheld] at hturn
                exact hturn.elim
        | busy _ => exact absurd hkey hfree
        | release => exact absurd (Finset.mem_of_mem_erase hkey) hfree
        | base a => exact absurd hkey hfree

/-! ## Nothing waits -/

variable {bad : (o : S.Op) → S.Answer o → Prop}

/-- One operation, whatever its answer, as long as it does not end the process. -/
theorem Call.Act.panicsOnly (h : Call.Act locks c locks' c')
    (hc : c.rest.PanicsOnly (lockedBad K bad))
    (hp : c'.panicked = false) : c'.rest.PanicsOnly (lockedBad K bad) := by
  cases h with
  | acquire hkey => exact (hc true).resolve_left And.left
  | busy hkey => exact (hc false).resolve_left And.left
  | release => exact (hc ()).resolve_left And.left
  | base a =>
      refine (hc a).resolve_left ?_
      rintro ⟨-, hpanic⟩
      rw [Call.panicked, hpanic] at hp
      cases hp

theorem Pool.Steady.step (h : s.Steady bad) (hstep : Pool.Step code s e s')
    (hstart : ∀ r, e = .start r → (code r).PanicsOnly (lockedBad K bad)) : s'.Steady bad := by
  cases hstep with
  | start r =>
      intro c hc
      rcases List.mem_append.mp hc with hmem | hmem
      · exact h c hmem
      · rw [List.mem_singleton.mp hmem]
        exact hstart r rfl
  | act hc hact hp =>
      intro d hd
      rcases List.mem_or_eq_of_mem_set hd with hmem | rfl
      · exact h d hmem
      · exact hact.panicsOnly (h _ (List.mem_of_getElem? hc)) hp

theorem Pool.steady_of_run (hrun : Run (Pool.step code) ⟨∅, []⟩ tr s)
    (hstart : ∀ t ∈ tr, ∀ r, t.event = .start r → (code r).PanicsOnly (lockedBad K bad)) :
    s.Steady bad :=
  Run.invariant (I := fun s => s.Steady bad)
    (P := fun t => ∀ r, t.event = .start r → (code r).PanicsOnly (lockedBad K bad))
    (by simp [Pool.Steady])
    (fun _ hs hP hI => hI.step (Pool.step_cases hs) hP) hrun hstart

/-- Good answers let a call make its next operation. -/
theorem Call.exists_act (locks : Finset K) (hc : c.rest.PanicsOnly (lockedBad K bad))
    (hflight : c.InFlight) {reply : (o : S.Op) → S.Answer o} (hreply : ∀ o, ¬bad o (reply o)) :
    ∃ locks' c', c.act locks reply = some (locks', c') ∧ c'.rest.PanicsOnly (lockedBad K bad) := by
  obtain ⟨acquired, rest⟩ := c
  cases rest with
  | done out => exact absurd rfl (hflight out)
  | call o next =>
      cases o with
      | tryAcquire key =>
          by_cases hkey : key ∈ locks
          · exact ⟨_, _, if_pos hkey, (hc false).resolve_left And.left⟩
          · exact ⟨_, _, if_neg hkey, (hc true).resolve_left And.left⟩
      | release key => exact ⟨_, _, rfl, (hc ()).resolve_left And.left⟩
      | base o => exact ⟨_, _, rfl, (hc (reply o)).resolve_left (fun h => hreply o h.1)⟩

/-- **No call waits for another**: every call in flight can make its next operation. -/
theorem Pool.Steady.exists_step (h : s.Steady bad) {i : ℕ} (hc : s.calls[i]? = some c)
    (hflight : c.InFlight) {reply : (o : S.Op) → S.Answer o} (hreply : ∀ o, ¬bad o (reply o)) :
    ∃ s', Pool.step code s (.act i reply) = some (s', ()) := by
  obtain ⟨locks', c', hact, hnext⟩ :=
    Call.exists_act s.locks (h c (List.mem_of_getElem? hc)) hflight hreply
  refine ⟨⟨locks', s.calls.set i c'⟩, ?_⟩
  simp only [Pool.step, hc, Option.bind_some, hact, Call.panicked_eq_false hnext]
  rfl

/-! ## Nothing goes on for ever -/

/-- A call makes an operation. -/
def Pool.Acts (code : R → Prog (locked K S) ε α) (s' s : Pool K S ε α) : Prop :=
  ∃ i reply, Pool.step code s (.act i reply) = some (s', ())

theorem Call.Act.after (h : Call.Act locks c locks' c') : Prog.After c'.rest c.rest := by
  cases h with
  | acquire _ => exact ⟨_, _, true, rfl, rfl⟩
  | busy _ => exact ⟨_, _, false, rfl, rfl⟩
  | release => exact ⟨_, _, (), rfl, rfl⟩
  | base a => exact ⟨_, _, a, rfl, rfl⟩

/-- Each operation leaves less of one call, and the same of the others. -/
theorem Pool.acc_acts (s : Pool K S ε α) : Acc (Pool.Acts code) s := by
  have hacc : Acc (OneLess Prog.After) (s.calls.map Call.rest) :=
    acc_oneLess (fun p _ => p.acc_after)
  refine Subrelation.accessible ?_
    (InvImage.accessible (fun s : Pool K S ε α => s.calls.map Call.rest) hacc)
  rintro s' s ⟨i, reply, hstep⟩
  cases Pool.step_cases hstep with
  | @act _ _ c c' locks' hc hact hp =>
      exact ⟨i, c.rest, c'.rest, by rw [List.getElem?_map, hc]; rfl, hact.after, List.map_set⟩

/-- **Without new requests** the calls make finitely many operations. -/
theorem Pool.not_forever (u : ℕ → Pool K S ε α) : ¬∀ n, Pool.Acts code (u (n + 1)) (u n) := by
  intro h
  exact (acc_iff_isEmpty_descending_chain.mp (Pool.acc_acts (u 0))).false ⟨u, rfl, h⟩

variable (code) in
/-- **Good answers** bring every call to its end. -/
theorem Pool.exists_drained (h : s.Steady bad) {reply : (o : S.Op) → S.Answer o}
    (hreply : ∀ o, ¬bad o (reply o)) :
    ∃ tr s', Run (Pool.step code) s tr s' ∧ (∀ t ∈ tr, ∃ i, t.event = .act i reply) ∧
      s'.calls.length = s.calls.length ∧ ∀ c ∈ s'.calls, ¬c.InFlight := by
  -- as long as a call is in flight it makes a step, and this comes to an end
  have hacc : Acc (Pool.Acts code) s := Pool.acc_acts s
  induction hacc with
  | intro s _ ih =>
      by_cases hidle : ∀ c ∈ s.calls, ¬c.InFlight
      · exact ⟨[], s, .nil, by simp, rfl, hidle⟩
      · push Not at hidle
        obtain ⟨c, hmem, hflight⟩ := hidle
        obtain ⟨i, hc⟩ := List.mem_iff_getElem?.mp hmem
        obtain ⟨s₁, hstep⟩ : ∃ s₁, Pool.step code s (.act i reply) = some (s₁, ()) :=
          h.exists_step hc hflight hreply
        have hsteady : s₁.Steady bad := h.step (Pool.step_cases hstep) (fun r hr => by cases hr)
        have hlen : s₁.calls.length = s.calls.length := by
          cases Pool.step_cases hstep with
          | act _ _ _ => exact List.length_set
        obtain ⟨tr, s', hrun, hacts, hlen', hdone⟩ := ih s₁ ⟨i, reply, hstep⟩ hsteady
        refine ⟨⟨s, .act i reply, (), s₁⟩ :: tr, s', (Run.single hstep).append hrun, ?_,
          hlen'.trans hlen, hdone⟩
        intro t ht
        rcases List.mem_cons.mp ht with rfl | ht
        · exact ⟨i, rfl⟩
        · exact hacts t ht

end

end Locks
