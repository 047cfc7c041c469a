import NfsLbCsi.Basic.Balance
import NfsLbCsi.Basic.Refinement
import NfsLbCsi.Basic.Tally

set_option autoImplicit false

/-! # A least-loaded balancer that can be wrong

A balancer places clients on servers and remembers a number for each server, its *belief*. It places
a client on a server with the least belief. The true *load* of a server is the number of clients on
it. Belief and load come apart when something happens behind the balancer's back: a client leaves,
or a placement or a release takes effect and the balancer does not learn it (`seen = false`).

* `Balancer.spread_le`: between two configurations the beliefs stay within the larger of 1 and their
  spread at the beginning, plus one for each seen release.
* `Balancer.load_sub_le`: so the true loads of two servers differ by at most that and the difference
  of the errors, belief minus load.
-/

namespace Balance

open Tally Lts

/-! ## Taking one away -/

section

variable {ι : Type} [DecidableEq ι]

/-- The counters after one has been taken from the counter `i`. -/
def unplace (f : ι → ℤ) (i : ι) : ι → ℤ := fun j => f j - if j = i then 1 else 0

theorem spread_unplace (s : Finset ι) (f : ι → ℤ) (i : ι) :
    spread s (unplace f i) ≤ spread s f + 1 := by
  have hnonneg := spread_nonneg s f
  have hdiff := (spread_le_iff hnonneg).mp (le_refl (spread s f))
  rw [spread_le_iff (by omega)]
  intro j hj k hk
  have hold : f j - f k ≤ spread s f := hdiff j hj k hk
  unfold unplace
  split <;> split <;> omega

end

/-! ## The machine -/

/-- The servers in use, the server of each client, and what the balancer believes the loads to
be. -/
@[ext]
structure Balancer (N I : Type) where
  servers : Finset I
  placed : Table N I
  belief : I → ℤ

inductive Action (N I : Type) where
  | place (seen : Bool) (n : N) (i : I)
  | release (seen : Bool) (n : N) (i : I)
  | leave (n : N)
  | configure (servers : Finset I)
  | stop
  deriving DecidableEq

/-- The balancer is configured anew or stopped. -/
def Action.resets {N I : Type} : Action N I → Bool
  | .configure _ => true
  | .stop => true
  | _ => false

/-- A client is released, and the balancer knows. -/
def Action.releases {N I : Type} : Action N I → Bool
  | .release seen _ _ => seen
  | _ => false

section

variable {N I : Type} [DecidableEq N] [DecidableEq I]

/-- The number of clients on the server `i`. -/
def Balancer.load (b : Balancer N I) (i : I) : ℕ := tally some b.placed i

/-- What the balancer believes too much. -/
def Balancer.error (b : Balancer N I) (i : I) : ℤ := b.belief i - b.load i

inductive Balancer.Next : Balancer N I → Action N I → Balancer N I → Prop where
  -- a client that is on no server in use goes to one with the least belief
  | place {b : Balancer N I} {seen : Bool} {n : N} {i : I} (hleast : Least b.servers b.belief i)
      (hfree : ∀ j, b.placed.lookup n = some j → j ∉ b.servers) :
      Next b (.place seen n i)
        { b with placed := Table.set b.placed n (some i),
                 belief := if seen then Balance.place b.belief i else b.belief }
  | release {b : Balancer N I} {seen : Bool} {n : N} {i : I} (hat : b.placed.lookup n = some i)
      (hi : i ∈ b.servers) :
      Next b (.release seen n i)
        { b with placed := Table.set b.placed n none,
                 belief := if seen then unplace b.belief i else b.belief }
  | leave {b : Balancer N I} {n : N} :
      Next b (.leave n) { b with placed := Table.set b.placed n none }
  -- the loads are counted afresh
  | configure {b : Balancer N I} {servers : Finset I} (hne : servers.Nonempty) :
      Next b (.configure servers)
        { b with servers := servers,
                 belief := fun i => if i ∈ servers then (b.load i : ℤ) else 0 }
  | stop {b : Balancer N I} : Next b .stop { b with servers := ∅, belief := fun _ => 0 }

variable {b b' b₀ : Balancer N I} {l : Action N I} {ls : List (Action N I)}

/-! ## The spread -/

theorem Balancer.Next.servers_eq (h : Next b l b') (hl : l.resets = false) :
    b'.servers = b.servers := by
  cases h with
  | configure => cases hl
  | stop => cases hl
  | _ => rfl

theorem Balancer.Next.spread_le (h : Next b l b') (hl : l.resets = false) :
    spread b'.servers b'.belief ≤ max 1 (spread b.servers b.belief)
      + if l.releases then 1 else 0 := by
  have hmax : spread b.servers b.belief ≤ max 1 (spread b.servers b.belief) := le_max_right 1 _
  cases h with
  | @place seen n i hleast hfree =>
      cases seen with
      | false => simp [Action.releases]
      | true => simpa [Action.releases] using spread_place hleast
  | @release seen n i hat hi =>
      cases seen with
      | false => simp [Action.releases]
      | true =>
          have hstep := spread_unplace b.servers b.belief i
          simp only [Action.releases, if_true]
          omega
  | leave => simp [Action.releases]
  | configure => cases hl
  | stop => cases hl

/-- The number of seen releases. -/
def releases (ls : List (Action N I)) : ℕ := ls.countP Action.releases

/-- **The beliefs stay together**, up to the releases. -/
theorem Balancer.spread_le (hpath : Path Next b₀ ls b) (hls : ∀ l ∈ ls, l.resets = false) :
    b.servers = b₀.servers ∧
      spread b.servers b.belief ≤ max 1 (spread b₀.servers b₀.belief) + releases ls := by
  refine Path.invariant (I := fun ls b => b.servers = b₀.servers ∧
      spread b.servers b.belief ≤ max 1 (spread b₀.servers b₀.belief) + releases ls)
    (P := fun l => l.resets = false) ⟨rfl, by simp [releases]⟩ ?_ hpath hls
  intro ls l a a' hnext hl ⟨ihs, ih⟩
  have hstep := hnext.spread_le hl
  have hcount : releases (ls ++ [l]) = releases ls + if l.releases then 1 else 0 := by
    rw [releases, List.countP_append, List.countP_singleton, releases]
  refine ⟨(hnext.servers_eq hl).trans ihs, ?_⟩
  rw [hcount]
  push_cast
  have hnonneg : (0 : ℤ) ≤ releases ls := Int.natCast_nonneg _
  omega

omit [DecidableEq N] in
/-- **The loads of two servers**: apart by the spread of the beliefs and the difference of the
errors. -/
theorem Balancer.load_sub_le {d : ℤ} (hspread : spread b.servers b.belief ≤ d) {i j : I}
    (hi : i ∈ b.servers) (hj : j ∈ b.servers) :
    (b.load i : ℤ) - b.load j ≤ d + b.error j - b.error i := by
  have hd : 0 ≤ d := le_trans (spread_nonneg _ _) hspread
  have hbelief := (spread_le_iff hd).mp hspread i hi j hj
  unfold Balancer.error
  omega

end

end Balance
