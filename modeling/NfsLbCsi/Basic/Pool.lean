import NfsLbCsi.Basic.Locks
import NfsLbCsi.Basic.Run

set_option autoImplicit false

/-! # Pools of calls over one lock set

Any number of calls, each a program in the middle of its execution, share a lock set. A step starts
a call or lets one call make its next operation; the lock set answers the operations on locks, and
the step brings the answer to any other. The operation after which a call has returned is its last
step. A call that panics ends the process, so there is no such step.

A call remembers the keys that it has acquired (`Call.acquired`). In a pool of programs that take at
most one key and give it back last (`Opening`), the lock set is the set of keys of the calls that
have acquired one and not yet returned (`Pool.Sound`).
-/

namespace Locks

open Lts

variable {K : Type} {S : Signature} {ε α R : Type}

/-- A call: the keys it has acquired so far, newest first, and what is left to do. -/
structure Call (K : Type) (S : Signature) (ε α : Type) where
  acquired : List K
  rest : Prog (locked K S) ε α

/-- The call has not returned. -/
def Call.InFlight (c : Call K S ε α) : Prop := ∀ out, c.rest ≠ .done out

/-- The call has panicked. -/
def Call.panicked (c : Call K S ε α) : Bool :=
  match c.rest with
  | .done .panic => true
  | _ => false

/-- The lock set and the calls, in the order of their start. -/
structure Pool (K : Type) (S : Signature) (ε α : Type) where
  locks : Finset K
  calls : List (Call K S ε α)

/-- A request arrives, or a call makes its next operation; `reply` is the answer to it when it is
not one on locks. -/
inductive PoolEvent (R : Type) (S : Signature) where
  | start (r : R)
  | act (i : ℕ) (reply : (o : S.Op) → S.Answer o)

section

variable [DecidableEq K]

/-- The next operation of a call. -/
def Call.act (locks : Finset K) (reply : (o : S.Op) → S.Answer o) (c : Call K S ε α) :
    Option (Finset K × Call K S ε α) :=
  match c.rest with
  | .done _ => none
  | .call (.tryAcquire key) next =>
      if key ∈ locks then some (locks, { c with rest := next false })
      else some (insert key locks, { acquired := key :: c.acquired, rest := next true })
  | .call (.release key) next => some (locks.erase key, { c with rest := next () })
  | .call (.base o) next => some (locks, { c with rest := next (reply o) })

/-- One step of a pool in which a request `r` runs `code r`. -/
def Pool.step (code : R → Prog (locked K S) ε α) (s : Pool K S ε α) :
    PoolEvent R S → Option (Pool K S ε α × Unit)
  | .start r =>
      let c : Call K S ε α := { acquired := [], rest := code r }
      if c.panicked then none else some ({ s with calls := s.calls ++ [c] }, ())
  | .act i reply =>
      match s.calls[i]?.bind (Call.act s.locks reply) with
      | none => none
      | some (locks, c) =>
          if c.panicked then none else some ({ locks := locks, calls := s.calls.set i c }, ())

variable {code : R → Prog (locked K S) ε α} {s s' : Pool K S ε α} {c c' : Call K S ε α}
  {e : PoolEvent R S} {Q : Outcome ε α → Prop}

/-! ## What a call can do -/

/-- The next operation of a call, by what it is. -/
inductive Call.Act (locks : Finset K) : Call K S ε α → Finset K → Call K S ε α → Prop where
  | acquire {acquired : List K} {key : K} {next : Bool → Prog (locked K S) ε α} : key ∉ locks →
      Call.Act locks ⟨acquired, .call (S := locked K S) (.tryAcquire key) next⟩ (insert key locks)
        ⟨key :: acquired, next true⟩
  | busy {acquired : List K} {key : K} {next : Bool → Prog (locked K S) ε α} : key ∈ locks →
      Call.Act locks ⟨acquired, .call (S := locked K S) (.tryAcquire key) next⟩ locks
        ⟨acquired, next false⟩
  | release {acquired : List K} {key : K} {next : Unit → Prog (locked K S) ε α} :
      Call.Act locks ⟨acquired, .call (S := locked K S) (.release key) next⟩ (locks.erase key)
        ⟨acquired, next ()⟩
  | base {acquired : List K} {o : S.Op} {next : S.Answer o → Prog (locked K S) ε α}
      (a : S.Answer o) :
      Call.Act locks ⟨acquired, .call (S := locked K S) (.base o) next⟩ locks ⟨acquired, next a⟩

theorem Call.act_cases {locks locks' : Finset K} {reply : (o : S.Op) → S.Answer o}
    (h : c.act locks reply = some (locks', c')) : Call.Act locks c locks' c' := by
  obtain ⟨acquired, rest⟩ := c
  cases rest with
  | done out => cases h
  | call o next =>
      cases o with
      | tryAcquire key =>
          simp only [Call.act] at h
          split at h
          · rename_i hkey
            obtain ⟨rfl, rfl⟩ := Prod.mk.inj (Option.some.inj h)
            exact .busy hkey
          · rename_i hkey
            obtain ⟨rfl, rfl⟩ := Prod.mk.inj (Option.some.inj h)
            exact .acquire hkey
      | release key =>
          obtain ⟨rfl, rfl⟩ := Prod.mk.inj (Option.some.inj h)
          exact .release
      | base o =>
          obtain ⟨rfl, rfl⟩ := Prod.mk.inj (Option.some.inj h)
          exact .base _

end

/-! ## Disciplined calls -/

section

variable {c : Call K S ε α} {Q : Outcome ε α → Prop} {key : K}

/-- A call that has taken no key yet, or holds one, or has given it back and returned with `Q`. -/
def Call.Disciplined (Q : Outcome ε α → Prop) (c : Call K S ε α) : Prop :=
  (c.acquired = [] ∧ Opening Q c.rest) ∨
    ∃ key, c.acquired = [key] ∧ (Closing Q key c.rest ∨ ∃ out, Q out ∧ c.rest = .done out)

/-- The call has acquired the key and not yet returned. -/
def Call.Holding (c : Call K S ε α) (key : K) : Prop := c.InFlight ∧ key ∈ c.acquired

theorem Closing.inFlight (h : Closing Q key c.rest) (hp : c.panicked = false) : c.InFlight := by
  intro out hout
  rw [hout] at h
  have hpanic : out = .panic := h
  rw [Call.panicked, hout, hpanic] at hp
  cases hp

theorem Call.not_holding_of_nil (h : c.acquired = []) : ¬c.Holding key := by
  rintro ⟨-, hmem⟩
  rw [h] at hmem
  exact List.not_mem_nil hmem

theorem Call.holding_iff {key₀ : K} (h : c.acquired = [key₀]) (hf : c.InFlight) :
    c.Holding key ↔ key = key₀ := by
  rw [Call.Holding, h, List.mem_singleton]
  exact and_iff_right hf

theorem Call.inFlight_call {acquired : List K} {o : LockedOp K S}
    {next : LockedOp.Answer o → Prog (locked K S) ε α} :
    Call.InFlight (⟨acquired, .call (S := locked K S) o next⟩ : Call K S ε α) := by
  intro out hout
  cases hout

end

section

variable [DecidableEq K] {c c' : Call K S ε α} {Q : Outcome ε α → Prop} {locks locks' : Finset K}

/-- What an operation of a disciplined call does to the lock set and to the key it holds: nothing,
or it takes a free key, or it gives its key back. -/
inductive Call.Effect (locks : Finset K) (c : Call K S ε α) (locks' : Finset K)
    (c' : Call K S ε α) : Prop where
  | none : locks' = locks → (∀ key, c'.Holding key ↔ c.Holding key) → Call.Effect locks c locks' c'
  | taken (key₀ : K) : key₀ ∉ locks → locks' = insert key₀ locks → (∀ key, ¬c.Holding key) →
      (∀ key, c'.Holding key ↔ key = key₀) → c'.acquired ≠ [] → Call.Effect locks c locks' c'
  | given (key₀ : K) : locks' = locks.erase key₀ → (∀ key, c.Holding key ↔ key = key₀) →
      (∀ key, ¬c'.Holding key) → c'.acquired ≠ [] → Call.Effect locks c locks' c'

theorem Call.Act.disciplined (h : Call.Act locks c locks' c') (hc : c.Disciplined Q) :
    c'.Disciplined Q := by
  cases h with
  | acquire hkey =>
      rcases hc with ⟨rfl, hopen⟩ | ⟨key, -, hclose | ⟨out, -, hdone⟩⟩
      · exact Or.inr ⟨_, rfl, Or.inl hopen.2⟩
      · exact hclose.elim
      · cases hdone
  | busy hkey =>
      rcases hc with ⟨rfl, hopen⟩ | ⟨key, -, hclose | ⟨out, -, hdone⟩⟩
      · obtain ⟨⟨out, hout⟩, -⟩ := hopen
        refine Or.inl ⟨rfl, ?_⟩
        show Opening Q _
        rw [hout]
        trivial
      · exact hclose.elim
      · cases hdone
  | release =>
      rcases hc with ⟨-, hopen⟩ | ⟨key, rfl, hclose | ⟨out, -, hdone⟩⟩
      · exact hopen.elim
      · obtain ⟨-, out, hQ, hout⟩ := hclose
        exact Or.inr ⟨_, rfl, Or.inr ⟨out, hQ, hout⟩⟩
      · cases hdone
  | base a =>
      rcases hc with ⟨rfl, hopen⟩ | ⟨key, rfl, hclose | ⟨out, -, hdone⟩⟩
      · exact Or.inl ⟨rfl, hopen a⟩
      · exact Or.inr ⟨key, rfl, Or.inl (hclose a)⟩
      · cases hdone

theorem Call.Act.effect (h : Call.Act locks c locks' c') (hc : c.Disciplined Q)
    (hp : c'.panicked = false) : Call.Effect locks c locks' c' := by
  cases h with
  | @acquire acquired key₀ next hkey =>
      rcases hc with ⟨rfl, hopen⟩ | ⟨key, -, hclose | ⟨out, -, hdone⟩⟩
      · exact .taken key₀ hkey rfl (fun _ => Call.not_holding_of_nil rfl)
          (fun _ => Call.holding_iff rfl (hopen.2.inFlight hp)) (by simp)
      · exact hclose.elim
      · cases hdone
  | busy hkey =>
      rcases hc with ⟨rfl, hopen⟩ | ⟨key, -, hclose | ⟨out, -, hdone⟩⟩
      · exact .none rfl fun _ =>
          iff_of_false (Call.not_holding_of_nil rfl) (Call.not_holding_of_nil rfl)
      · exact hclose.elim
      · cases hdone
  | @release acquired key₀ next =>
      rcases hc with ⟨-, hopen⟩ | ⟨key, rfl, hclose | ⟨out, -, hdone⟩⟩
      · exact hopen.elim
      · obtain ⟨rfl, out, -, hout⟩ := hclose
        exact .given key₀ rfl (fun _ => Call.holding_iff rfl Call.inFlight_call)
          (fun _ hk => hk.1 out hout) (by simp)
      · cases hdone
  | base a =>
      rcases hc with ⟨rfl, hopen⟩ | ⟨key, rfl, hclose | ⟨out, -, hdone⟩⟩
      · exact .none rfl fun _ =>
          iff_of_false (Call.not_holding_of_nil rfl) (Call.not_holding_of_nil rfl)
      · refine .none rfl fun _ => ?_
        rw [Call.holding_iff rfl ((hclose a).inFlight hp),
          Call.holding_iff rfl Call.inFlight_call]
      · cases hdone

end

/-! ## Sound pools -/

/-- Call `i` holds the key. -/
def Pool.Holds (s : Pool K S ε α) (i : ℕ) (key : K) : Prop :=
  ∃ c, s.calls[i]? = some c ∧ c.Holding key

/-- The lock set is the set of keys that are held, each by one call. -/
structure Pool.Sound (Q : Outcome ε α → Prop) (s : Pool K S ε α) : Prop where
  disciplined : ∀ (i : ℕ) (c : Call K S ε α), s.calls[i]? = some c → c.Disciplined Q
  held : ∀ key : K, key ∈ s.locks ↔ ∃ i, s.Holds i key
  exclusive : ∀ (i j : ℕ) (key : K), s.Holds i key → s.Holds j key → i = j

section

variable {code : R → Prog (locked K S) ε α} {s : Pool K S ε α} {Q : Outcome ε α → Prop}

/-- The calls after call `i` has changed to `c'`. -/
theorem Pool.holds_set {i j : ℕ} {c c' : Call K S ε α} {locks' : Finset K} {key : K}
    (hc : s.calls[i]? = some c) :
    Pool.Holds ⟨locks', s.calls.set i c'⟩ j key ↔
      if i = j then c'.Holding key else s.Holds j key := by
  have hi : i < s.calls.length := (List.getElem?_eq_some_iff.mp hc).1
  unfold Pool.Holds
  by_cases hij : i = j
  · subst hij
    simp [List.getElem?_set_self hi]
  · simp [List.getElem?_set_ne hij, hij]

theorem Pool.holds_self {i : ℕ} {c : Call K S ε α} {key : K} (hc : s.calls[i]? = some c) :
    s.Holds i key ↔ c.Holding key := by
  constructor
  · rintro ⟨c₁, hc₁, hold⟩
    rw [hc] at hc₁
    exact Option.some.inj hc₁ ▸ hold
  · exact fun hold => ⟨c, hc, hold⟩

/-- After an operation of call `i` a key is held by that call, or by another that held it before. -/
theorem Pool.exists_holds_set {i : ℕ} {c c' : Call K S ε α} {locks' : Finset K} {key : K}
    (hc : s.calls[i]? = some c) :
    (∃ j, Pool.Holds ⟨locks', s.calls.set i c'⟩ j key) ↔
      c'.Holding key ∨ ∃ j, j ≠ i ∧ s.Holds j key := by
  simp only [Pool.holds_set hc]
  constructor
  · rintro ⟨j, hj⟩
    by_cases hij : i = j
    · exact Or.inl (by simpa [hij] using hj)
    · exact Or.inr ⟨j, Ne.symm hij, by simpa [hij] using hj⟩
  · rintro (hold | ⟨j, hne, hj⟩)
    · exact ⟨i, by simpa using hold⟩
    · exact ⟨j, by simpa [Ne.symm hne] using hj⟩

theorem Pool.Sound.mem_locks_iff (h : s.Sound Q) {i : ℕ} {c : Call K S ε α} {key : K}
    (hc : s.calls[i]? = some c) :
    key ∈ s.locks ↔ c.Holding key ∨ ∃ j, j ≠ i ∧ s.Holds j key := by
  rw [h.held key]
  constructor
  · rintro ⟨j, hj⟩
    by_cases hij : j = i
    · exact Or.inl ((Pool.holds_self hc).mp (hij ▸ hj))
    · exact Or.inr ⟨j, hij, hj⟩
  · rintro (hold | ⟨j, -, hj⟩)
    · exact ⟨i, (Pool.holds_self hc).mpr hold⟩
    · exact ⟨j, hj⟩

theorem Pool.Sound.not_holding (h : s.Sound Q) {i j : ℕ} {c : Call K S ε α} {key : K}
    (hc : s.calls[i]? = some c) (hne : j ≠ i) (hj : s.Holds j key) : ¬c.Holding key :=
  fun hold => hne (h.exclusive j i key hj ((Pool.holds_self hc).mpr hold))

/-- Starting a call changes nothing about the keys. -/
theorem Pool.holds_start {r : R} {j : ℕ} {key : K} :
    Pool.Holds { s with calls := s.calls ++ [⟨[], code r⟩] } j key ↔ s.Holds j key := by
  constructor
  · rintro ⟨c, hc, hold⟩
    rcases Nat.lt_trichotomy j s.calls.length with hj | hj | hj
    · rw [List.getElem?_append_left hj] at hc
      exact ⟨c, hc, hold⟩
    · rw [hj, List.getElem?_concat_length] at hc
      obtain rfl := Option.some.inj hc
      exact absurd hold (Call.not_holding_of_nil rfl)
    · rw [List.getElem?_eq_none (by simpa using hj)] at hc
      cases hc
  · rintro ⟨c, hc, hold⟩
    have hj : j < s.calls.length := (List.getElem?_eq_some_iff.mp hc).1
    exact ⟨c, by rw [List.getElem?_append_left hj]; exact hc, hold⟩

theorem Pool.Sound.start (h : s.Sound Q) (hcode : ∀ r, Opening Q (code r)) (r : R) :
    Pool.Sound Q { s with calls := s.calls ++ [⟨[], code r⟩] } := by
  refine ⟨?_, ?_, ?_⟩
  · intro i c hc
    rcases List.mem_append.mp (List.mem_of_getElem? hc) with hmem | hmem
    · obtain ⟨j, hj⟩ := List.mem_iff_getElem?.mp hmem
      exact h.disciplined j c hj
    · obtain rfl := List.mem_singleton.mp hmem
      exact Or.inl ⟨rfl, hcode r⟩
  · intro key
    simp only [Pool.holds_start]
    exact h.held key
  · intro i j key hi hj
    exact h.exclusive i j key (Pool.holds_start.mp hi) (Pool.holds_start.mp hj)

theorem Pool.sound_empty : Pool.Sound Q (⟨∅, []⟩ : Pool K S ε α) :=
  ⟨by simp, by simp [Pool.Holds], by simp [Pool.Holds]⟩

end

section

variable [DecidableEq K] {code : R → Prog (locked K S) ε α} {s s' : Pool K S ε α}
  {Q : Outcome ε α → Prop} {e : PoolEvent R S}
  {tr : List (Transition (Pool K S ε α) (PoolEvent R S) Unit)}

/-- A step of a pool. -/
inductive Pool.Step (code : R → Prog (locked K S) ε α) (s : Pool K S ε α) :
    PoolEvent R S → Pool K S ε α → Prop where
  | start (r : R) :
      Pool.Step code s (.start r) { s with calls := s.calls ++ [⟨[], code r⟩] }
  | act {i : ℕ} {reply : (o : S.Op) → S.Answer o} {c c' : Call K S ε α} {locks' : Finset K} :
      s.calls[i]? = some c → Call.Act s.locks c locks' c' → c'.panicked = false →
      Pool.Step code s (.act i reply) { locks := locks', calls := s.calls.set i c' }

theorem Pool.step_cases {o : Unit} (h : Pool.step code s e = some (s', o)) :
    Pool.Step code s e s' := by
  cases e with
  | start r =>
      simp only [Pool.step] at h
      split at h
      · cases h
      · obtain ⟨rfl, -⟩ := Prod.mk.inj (Option.some.inj h)
        exact .start r
  | act i reply =>
      simp only [Pool.step] at h
      split at h
      · cases h
      · rename_i locks' c' hact
        split at h
        · cases h
        · rename_i hp
          obtain ⟨rfl, -⟩ := Prod.mk.inj (Option.some.inj h)
          obtain ⟨c, hc, hact⟩ := Option.bind_eq_some_iff.mp hact
          exact .act hc (Call.act_cases hact) (by simpa using hp)

/-- The lock set follows the call that moves. -/
theorem Pool.Sound.held_act (h : s.Sound Q) {i : ℕ} {c c' : Call K S ε α} {locks' : Finset K}
    (hc : s.calls[i]? = some c) (hact : Call.Act s.locks c locks' c') (hp : c'.panicked = false)
    (key : K) : key ∈ locks' ↔ c'.Holding key ∨ ∃ j, j ≠ i ∧ s.Holds j key := by
  have hbefore : ∀ key, key ∈ s.locks ↔ _ := fun _ => h.mem_locks_iff hc
  cases hact.effect (h.disciplined i c hc) hp with
  | none hlocks hsame => rw [hlocks, hbefore, hsame]
  | taken key₀ _ hlocks hno hnew _ =>
      rw [hlocks, Finset.mem_insert, hbefore, hnew]
      simp [hno]
  | given key₀ hlocks hold hno _ =>
      -- no other call holds the key that is given back
      rw [hlocks, Finset.mem_erase, hbefore, hold]
      constructor
      · rintro ⟨hne, heq | hj⟩
        · exact absurd heq hne
        · exact Or.inr hj
      · rintro (hk | ⟨j, hne, hj⟩)
        · exact absurd hk (hno key)
        · exact ⟨fun heq => h.not_holding hc hne hj ((hold key).mpr heq), Or.inr ⟨j, hne, hj⟩⟩

/-- A key that the moving call holds now, it held before or it was free: no other call holds it. -/
theorem Pool.Sound.no_clash (h : s.Sound Q) {i j : ℕ} {c c' : Call K S ε α} {locks' : Finset K}
    {key : K} (hc : s.calls[i]? = some c) (hact : Call.Act s.locks c locks' c')
    (hp : c'.panicked = false) (hne : j ≠ i) (hk : c'.Holding key) : ¬s.Holds j key := by
  intro hj
  cases hact.effect (h.disciplined i c hc) hp with
  | none _ hsame => exact h.not_holding hc hne hj ((hsame key).mp hk)
  | taken key₀ hfree _ _ hnew _ =>
      obtain rfl := (hnew key).mp hk
      exact hfree ((h.held _).mpr ⟨j, hj⟩)
  | given key₀ _ _ hno _ => exact hno key hk

/-- **One operation of one call** keeps the pool sound: the other calls hold what they held, and the
key that this call takes is free. -/
theorem Pool.Sound.act (h : s.Sound Q) {i : ℕ} {c c' : Call K S ε α} {locks' : Finset K}
    (hc : s.calls[i]? = some c) (hact : Call.Act s.locks c locks' c') (hp : c'.panicked = false) :
    Pool.Sound Q ⟨locks', s.calls.set i c'⟩ := by
  refine ⟨?_, ?_, ?_⟩
  · intro j d hd
    rcases List.mem_or_eq_of_mem_set (List.mem_of_getElem? hd) with hmem | rfl
    · obtain ⟨j', hj'⟩ := List.mem_iff_getElem?.mp hmem
      exact h.disciplined j' d hj'
    · exact hact.disciplined (h.disciplined i c hc)
  · intro key
    rw [Pool.exists_holds_set hc]
    exact h.held_act hc hact hp key
  · -- of two holders of one key, neither or both are call `i`
    intro j k key hj hk
    rw [Pool.holds_set hc] at hj hk
    by_cases hij : i = j
    · by_cases hik : i = k
      · exact hij.symm.trans hik
      · rw [if_pos hij] at hj
        rw [if_neg hik] at hk
        exact absurd hk (h.no_clash hc hact hp (Ne.symm hik) hj)
    · by_cases hik : i = k
      · rw [if_neg hij] at hj
        rw [if_pos hik] at hk
        exact absurd hj (h.no_clash hc hact hp (Ne.symm hij) hk)
      · rw [if_neg hij] at hj
        rw [if_neg hik] at hk
        exact h.exclusive j k key hj hk

theorem Pool.Step.sound (h : Pool.Step code s e s') (hcode : ∀ r, Opening Q (code r))
    (hs : s.Sound Q) : s'.Sound Q := by
  cases h with
  | start r => exact hs.start hcode r
  | act hc hact hp => exact hs.act hc hact hp

/-- **Every run** of disciplined programs from an empty pool leads to sound pools. -/
theorem Pool.sound_of_run (hcode : ∀ r, Opening Q (code r))
    (hrun : Run (Pool.step code) ⟨∅, []⟩ tr s) : s.Sound Q :=
  Run.invariant (P := fun _ => True) Pool.sound_empty
    (fun _ hs _ hI => (Pool.step_cases hs).sound hcode hI) hrun (fun _ _ => trivial)

/-! ## Who gives a key back -/

/-- A key that leaves the lock set was held by the call that made the step. -/
theorem Pool.Step.removed {i : ℕ} {reply : (o : S.Op) → S.Answer o}
    (h : Pool.Step code s (.act i reply) s') (hs : s.Sound Q) {key : K} (hkey : key ∈ s.locks)
    (hgone : key ∉ s'.locks) : s.Holds i key := by
  cases h with
  | act hc hact hp =>
      cases hact.effect (hs.disciplined i _ hc) hp with
      | none hlocks _ => exact absurd (hlocks ▸ hkey) hgone
      | taken key₀ _ hlocks _ _ _ => exact absurd (hlocks ▸ Finset.mem_insert_of_mem hkey) hgone
      | given key₀ hlocks hold _ _ =>
          rw [Pool.holds_self hc, hold]
          by_contra hne
          exact hgone (hlocks ▸ Finset.mem_erase.mpr ⟨hne, hkey⟩)

theorem Pool.Step.exists_call {i : ℕ} {reply : (o : S.Op) → S.Answer o}
    (h : Pool.Step code s (.act i reply) s') : ∃ c, s.calls[i]? = some c := by
  cases h with
  | act hc _ _ => exact ⟨_, hc⟩

/-- A step of a call that has acquired nothing after it leaves the lock set alone. -/
theorem Pool.Step.locks_eq {i : ℕ} {reply : (o : S.Op) → S.Answer o}
    (h : Pool.Step code s (.act i reply) s') (hs : s.Sound Q) {c : Call K S ε α}
    (hc : s'.calls[i]? = some c) (hnil : c.acquired = []) : s'.locks = s.locks := by
  cases h with
  | @act _ _ c₀ c' locks' hc₀ hact hp =>
      have hi : i < s.calls.length := (List.getElem?_eq_some_iff.mp hc₀).1
      rw [List.getElem?_set_self hi] at hc
      obtain rfl := Option.some.inj hc
      cases hact.effect (hs.disciplined i _ hc₀) hp with
      | none hlocks _ => exact hlocks
      | taken _ _ _ _ _ hne => exact absurd hnil hne
      | given _ _ _ _ hne => exact absurd hnil hne

/-- Calls stay where they are and forget no key. -/
theorem Pool.Step.acquired (h : Pool.Step code s e s') {i : ℕ} {c : Call K S ε α}
    (hc : s.calls[i]? = some c) :
    ∃ c', s'.calls[i]? = some c' ∧ (c'.acquired = [] → c.acquired = []) := by
  have hi : i < s.calls.length := (List.getElem?_eq_some_iff.mp hc).1
  cases h with
  | start r => exact ⟨c, by rw [List.getElem?_append_left hi]; exact hc, id⟩
  | @act j reply c₀ c' locks' hc₀ hact hp =>
      by_cases hij : j = i
      · subst hij
        rw [hc] at hc₀
        obtain rfl := Option.some.inj hc₀
        refine ⟨c', List.getElem?_set_self hi, fun hnil => ?_⟩
        cases hact with
        | acquire hkey => cases hnil
        | busy hkey => exact hnil
        | release => exact hnil
        | base a => exact hnil
      · exact ⟨c, by rw [List.getElem?_set_ne hij]; exact hc, id⟩

theorem Pool.acquired_of_run (hrun : Run (Pool.step code) s tr s') {i : ℕ} {c : Call K S ε α}
    (hc : s.calls[i]? = some c) :
    ∃ c', s'.calls[i]? = some c' ∧ (c'.acquired = [] → c.acquired = []) := by
  induction hrun with
  | nil => exact ⟨c, hc, id⟩
  | snoc _ hs ih =>
      obtain ⟨c₁, hc₁, h₁⟩ := ih
      obtain ⟨c₂, hc₂, h₂⟩ := (Pool.step_cases hs).acquired hc₁
      exact ⟨c₂, hc₂, h₁ ∘ h₂⟩

/-- **A call that has never acquired a key** has left the lock set alone in each of its steps. -/
theorem Pool.locks_eq_of_run (hcode : ∀ r, Opening Q (code r))
    (hrun : Run (Pool.step code) ⟨∅, []⟩ tr s) {i : ℕ} {c : Call K S ε α}
    (hc : s.calls[i]? = some c) (hnil : c.acquired = []) {reply : (o : S.Op) → S.Answer o}
    {t : Transition (Pool K S ε α) (PoolEvent R S) Unit} (ht : t ∈ tr)
    (he : t.event = .act i reply) : t.post.locks = t.pre.locks := by
  obtain ⟨tr₁, tr₂, -, hrun₁, hstep, hrun₂⟩ := hrun.reached ht
  have hs : t.pre.Sound Q := Pool.sound_of_run hcode hrun₁
  have hstep := Pool.step_cases hstep
  rw [he] at hstep
  obtain ⟨c₁, hc₁⟩ := hstep.exists_call
  obtain ⟨c₂, hc₂, -⟩ := hstep.acquired hc₁
  obtain ⟨c₃, hc₃, hmono⟩ := Pool.acquired_of_run hrun₂ hc₂
  rw [hc] at hc₃
  obtain rfl := Option.some.inj hc₃
  exact hstep.locks_eq hs hc₂ (hmono hnil)

end

/-- A disciplined call that has returned something else than `Q` has acquired nothing. -/
theorem Call.Disciplined.acquired_eq_nil {c : Call K S ε α} {Q : Outcome ε α → Prop}
    {out : Outcome ε α} (hc : c.Disciplined Q) (hdone : c.rest = .done out) (hp : out ≠ .panic)
    (hQ : ¬Q out) : c.acquired = [] := by
  rcases hc with ⟨hnil, -⟩ | ⟨key, -, hclose | ⟨out', hout', hdone'⟩⟩
  · exact hnil
  · rw [hdone] at hclose
    exact absurd hclose hp
  · rw [hdone] at hdone'
    obtain rfl : out = out' := by simpa using hdone'
    exact absurd hout' hQ

end Locks
