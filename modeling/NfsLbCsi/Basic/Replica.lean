import NfsLbCsi.Basic.Tally

set_option autoImplicit false

/-! # A versioned store with a watching cache

The pattern behind every client that reads a local cache and writes with optimistic concurrency:

* the *server* keeps one versioned object per key; every write takes the next revision number as
  the object's version, and `update` is refused unless the writer's copy has the current version;
* every write is announced on a *watch*; the *cache* applies the announcements of one key in the
  order of the writes, those of different keys in any order and any amount of time later.

`Replica` carries its coherence as fields: whoever holds a copy of an object holds one that the
server once stored (`history`), a key and a version determine the object (`history_inj`), and the
cache after the announcements still under way is the server (`view_eq`). The rule that the users
of the pattern live on is `update_basis`: an `update` that commits replaces exactly the object
that the writer's copy was made from.
-/

namespace Optimistic

open Tally

/-- A stored object: its version and its contents. -/
structure Versioned (V : Type) where
  version : Nat
  value : V
  deriving DecidableEq

/-- The announcement of one write; `none` announces a removal. -/
structure Change (K V : Type) where
  key : K
  state : Option (Versioned V)

section

variable {K V : Type} [DecidableEq K]

/-! ## Announcements under way -/

/-- What the announcements `w` make of the state `o` of the key `k`. -/
def settled (k : K) (w : List (Change K V)) (o : Option (Versioned V)) : Option (Versioned V) :=
  w.foldl (fun o c => if c.key = k then c.state else o) o

/-- The oldest announcement of the key `k`, and the ones that stay under way. -/
def nextChange (k : K) : List (Change K V) → Option (Change K V × List (Change K V))
  | [] => none
  | c :: w => if c.key = k then some (c, w) else (nextChange k w).map (fun p => (p.1, c :: p.2))

theorem settled_cons (k : K) (c : Change K V) (w : List (Change K V))
    (o : Option (Versioned V)) :
    settled k (c :: w) o = settled k w (if c.key = k then c.state else o) := rfl

theorem settled_snoc (k : K) (c : Change K V) (w : List (Change K V))
    (o : Option (Versioned V)) :
    settled k (w ++ [c]) o = if c.key = k then c.state else settled k w o := by
  simp [settled, List.foldl_append]

theorem nextChange_key {k : K} : ∀ {w : List (Change K V)} {c : Change K V}
    {w' : List (Change K V)}, nextChange k w = some (c, w') → c.key = k
  | [], _, _, h => by cases h
  | d :: w, c, w', h => by
      by_cases hd : d.key = k
      · simp only [nextChange, if_pos hd, Option.some.injEq, Prod.mk.injEq] at h
        rw [← h.1, hd]
      · simp only [nextChange, if_neg hd, Option.map_eq_some_iff] at h
        obtain ⟨⟨c₁, w₁⟩, hnext, heq⟩ := h
        obtain ⟨rfl, -⟩ := Prod.mk.inj heq
        exact nextChange_key hnext

theorem nextChange_mem {k : K} : ∀ {w : List (Change K V)} {c : Change K V}
    {w' : List (Change K V)}, nextChange k w = some (c, w') → c ∈ w ∧ ∀ d ∈ w', d ∈ w
  | [], _, _, h => by cases h
  | d :: w, c, w', h => by
      by_cases hd : d.key = k
      · simp only [nextChange, if_pos hd, Option.some.injEq, Prod.mk.injEq] at h
        obtain ⟨rfl, rfl⟩ := h
        exact ⟨by simp, fun e he => List.mem_cons_of_mem _ he⟩
      · simp only [nextChange, if_neg hd, Option.map_eq_some_iff] at h
        obtain ⟨⟨c₁, w₁⟩, hnext, heq⟩ := h
        obtain ⟨rfl, rfl⟩ := Prod.mk.inj heq
        obtain ⟨hc, hw⟩ := nextChange_mem hnext
        refine ⟨List.mem_cons_of_mem _ hc, fun e he => ?_⟩
        rcases List.mem_cons.mp he with rfl | he
        · exact List.mem_cons_self
        · exact List.mem_cons_of_mem _ (hw e he)

/-- Taking the oldest announcement of `k` out and applying it settles to the same state. -/
theorem settled_nextChange {k : K} : ∀ {w : List (Change K V)} {c : Change K V}
    {w' : List (Change K V)} (o : Option (Versioned V)), nextChange k w = some (c, w') →
    settled k w' c.state = settled k w o
  | [], _, _, _, h => by cases h
  | d :: w, c, w', o, h => by
      by_cases hd : d.key = k
      · simp only [nextChange, if_pos hd, Option.some.injEq, Prod.mk.injEq] at h
        obtain ⟨rfl, rfl⟩ := h
        rw [settled_cons, if_pos hd]
      · simp only [nextChange, if_neg hd, Option.map_eq_some_iff] at h
        obtain ⟨⟨c₁, w₁⟩, hnext, heq⟩ := h
        obtain ⟨rfl, rfl⟩ := Prod.mk.inj heq
        rw [settled_cons, settled_cons, if_neg hd, if_neg hd]
        exact settled_nextChange o hnext

theorem settled_nextChange_of_ne {k k' : K} (hk : k' ≠ k) : ∀ {w : List (Change K V)}
    {c : Change K V} {w' : List (Change K V)} (o : Option (Versioned V)),
    nextChange k w = some (c, w') → settled k' w' o = settled k' w o
  | [], _, _, _, h => by cases h
  | d :: w, c, w', o, h => by
      by_cases hd : d.key = k
      · simp only [nextChange, if_pos hd, Option.some.injEq, Prod.mk.injEq] at h
        obtain ⟨rfl, rfl⟩ := h
        rw [settled_cons, if_neg (fun hd' => hk (hd'.symm.trans hd))]
      · simp only [nextChange, if_neg hd, Option.map_eq_some_iff] at h
        obtain ⟨⟨c₁, w₁⟩, hnext, heq⟩ := h
        obtain ⟨rfl, rfl⟩ := Prod.mk.inj heq
        rw [settled_cons, settled_cons]
        exact settled_nextChange_of_ne hk _ hnext

theorem settled_mem {k : K} : ∀ {w : List (Change K V)} {o : Option (Versioned V)}
    {x : Versioned V}, settled k w o = some x →
    o = some x ∨ ∃ c ∈ w, c.key = k ∧ c.state = some x
  | [], _, _, h => Or.inl h
  | d :: w, o, x, h => by
      rw [settled_cons] at h
      rcases settled_mem h with h | ⟨c, hc, hck, hcs⟩
      · by_cases hd : d.key = k
        · rw [if_pos hd] at h
          exact Or.inr ⟨d, by simp, hd, h⟩
        · rw [if_neg hd] at h
          exact Or.inl h
      · exact Or.inr ⟨c, List.mem_cons_of_mem _ hc, hck, hcs⟩

end

/-! ## The replica -/

/-- A server, the cache of one client, and the announcements on their way from the one to the
other. `history` lists every object the server has ever stored. -/
structure Replica (K V : Type) [DecidableEq K] where
  server : Table K (Versioned V)
  revision : Nat
  history : List (K × Versioned V)
  watch : List (Change K V)
  cache : Table K (Versioned V)
  history_le : ∀ k o, (k, o) ∈ history → o.version ≤ revision
  history_inj : ∀ k o o', (k, o) ∈ history → (k, o') ∈ history → o.version = o'.version → o = o'
  cache_mem : ∀ k o, cache.lookup k = some o → (k, o) ∈ history
  watch_mem : ∀ c ∈ watch, ∀ o, c.state = some o → (c.key, o) ∈ history
  view_eq : ∀ k, settled k watch (cache.lookup k) = server.lookup k

namespace Replica

variable {K V : Type} [DecidableEq K]

/-- A copy of the object of `k` that the cache holds or is about to receive. -/
def InPlay (r : Replica K V) (k : K) (o : Versioned V) : Prop :=
  r.cache.lookup k = some o ∨ ∃ c ∈ r.watch, c.key = k ∧ c.state = some o

/-- The cache has caught up with the server. -/
def Synced (r : Replica K V) : Prop := r.cache = r.server

theorem inPlay_of_server {r : Replica K V} {k : K} {o : Versioned V}
    (h : r.server.lookup k = some o) : r.InPlay k o := by
  rw [← r.view_eq k] at h
  exact settled_mem h

theorem InPlay.mem_history {r : Replica K V} {k : K} {o : Versioned V} (h : r.InPlay k o) :
    (k, o) ∈ r.history := by
  rcases h with h | ⟨c, hc, rfl, hs⟩
  · exact r.cache_mem k o h
  · exact r.watch_mem c hc o hs

theorem server_mem {r : Replica K V} {k : K} {o : Versioned V}
    (h : r.server.lookup k = some o) : (k, o) ∈ r.history :=
  (inPlay_of_server h).mem_history

/-- **The version identifies the object.** A copy that still has the current version is the
current object. -/
theorem eq_of_version {r : Replica K V} {k : K} {o cur : Versioned V} (ho : (k, o) ∈ r.history)
    (hcur : r.server.lookup k = some cur) (hv : cur.version = o.version) : cur = o :=
  r.history_inj k cur o (server_mem hcur) ho hv

/-- The store before the first write. -/
def empty : Replica K V where
  server := ∅
  revision := 0
  history := []
  watch := []
  cache := ∅
  history_le := by simp
  history_inj := by simp
  cache_mem := by simp
  watch_mem := by simp
  view_eq := fun _ => rfl

/-! ## Writing -/

/-- The object that the next write stores. -/
def stamp (r : Replica K V) (v : Option V) : Option (Versioned V) :=
  v.map (fun v => ⟨r.revision + 1, v⟩)

/-- Store `v` at `k` (`none` removes the object) under the next revision and announce it. -/
def commit (r : Replica K V) (k : K) (v : Option V) : Replica K V where
  server := Table.set r.server k (r.stamp v)
  revision := r.revision + 1
  history := r.history ++ ((r.stamp v).map (fun o => (k, o))).toList
  watch := r.watch ++ [⟨k, r.stamp v⟩]
  cache := r.cache
  history_le := by
    intro k' o ho
    rcases List.mem_append.mp ho with ho | ho
    · exact Nat.le_succ_of_le (r.history_le k' o ho)
    · cases v with
      | none => simp [stamp] at ho
      | some v =>
          simp only [stamp, Option.map_some, Option.toList_some, List.mem_singleton,
            Prod.mk.injEq] at ho
          rw [ho.2]
  history_inj := by
    intro k' o o' ho ho' hv
    -- an old object has a version of at most `revision`, the new one has the next
    cases v with
    | none =>
        simp only [stamp, Option.map_none, Option.toList_none, List.append_nil] at ho ho'
        exact r.history_inj k' o o' ho ho' hv
    | some v =>
        simp only [stamp, Option.map_some, Option.toList_some, List.mem_append,
          List.mem_singleton, Prod.mk.injEq] at ho ho'
        rcases ho with ho | ⟨-, rfl⟩ <;> rcases ho' with ho' | ⟨-, rfl⟩
        · exact r.history_inj k' o o' ho ho' hv
        · have := r.history_le k' o ho
          simp only at hv
          omega
        · have := r.history_le k' o' ho'
          simp only at hv
          omega
        · rfl
  cache_mem := fun k' o h => List.mem_append_left _ (r.cache_mem k' o h)
  watch_mem := by
    intro c hc o ho
    rcases List.mem_append.mp hc with hc | hc
    · exact List.mem_append_left _ (r.watch_mem c hc o ho)
    · obtain rfl := List.mem_singleton.mp hc
      simp only at ho
      exact List.mem_append_right _ (by simp [ho])
  view_eq := by
    intro k'
    rw [settled_snoc, r.view_eq k', lookup_set]
    by_cases hk : k = k'
    · subst hk; simp
    · rw [if_neg hk, if_neg (fun h => hk h.symm)]

/-- Replace the object of `k` by `copy`, provided `copy` has the current version. -/
def update (r : Replica K V) (k : K) (copy : Versioned V) : Option (Replica K V) :=
  match r.server.lookup k with
  | none => none
  | some cur => if cur.version = copy.version then some (r.commit k (some copy.value)) else none

theorem update_eq_some {r r' : Replica K V} {k : K} {copy : Versioned V}
    (h : r.update k copy = some r') :
    ∃ cur, r.server.lookup k = some cur ∧ cur.version = copy.version ∧
      r' = r.commit k (some copy.value) := by
  unfold update at h
  split at h
  · cases h
  · rename_i cur hcur
    split at h
    · rename_i hv
      exact ⟨cur, hcur, hv, (Option.some.inj h).symm⟩
    · cases h

/-- **An update that commits replaces its basis.** `basis` is the copy the writer read, `copy`
what it made of it without touching the version. -/
theorem update_basis {r r' : Replica K V} {k : K} {basis copy : Versioned V}
    (hbasis : (k, basis) ∈ r.history) (hcopy : copy.version = basis.version)
    (h : r.update k copy = some r') :
    r.server.lookup k = some basis ∧ r' = r.commit k (some copy.value) := by
  obtain ⟨cur, hcur, hv, rfl⟩ := update_eq_some h
  have heq : cur = basis := eq_of_version hbasis hcur (hv.trans hcopy)
  exact ⟨heq ▸ hcur, rfl⟩

/-! ## Receiving -/

/-- The cache applies the oldest announcement of the key `k`. -/
def deliver (r : Replica K V) (k : K) : Option (Replica K V) :=
  match h : nextChange k r.watch with
  | none => none
  | some (c, w) => some
      { r with
        watch := w
        cache := Table.set r.cache k c.state
        cache_mem := by
          intro k' o ho
          rw [lookup_set] at ho
          by_cases hk : k' = k
          · subst hk
            rw [if_pos rfl] at ho
            have hmem := r.watch_mem c (nextChange_mem h).1 o ho
            rwa [nextChange_key h] at hmem
          · rw [if_neg hk] at ho
            exact r.cache_mem k' o ho
        watch_mem := fun d hd => r.watch_mem d ((nextChange_mem h).2 d hd)
        view_eq := by
          intro k'
          rw [lookup_set, ← r.view_eq k']
          by_cases hk : k' = k
          · subst hk
            rw [if_pos rfl]
            exact settled_nextChange _ h
          · rw [if_neg hk]
            exact settled_nextChange_of_ne hk _ h }

/-- A fresh list of all objects replaces the cache and the announcements. -/
def relist (r : Replica K V) : Replica K V :=
  { r with
    watch := []
    cache := r.server
    cache_mem := fun _ _ h => server_mem h
    watch_mem := by simp
    view_eq := fun _ => rfl }

theorem deliver_eq_some {r r' : Replica K V} {k : K} (h : r.deliver k = some r') :
    r'.server = r.server ∧ r'.revision = r.revision ∧ r'.history = r.history ∧
      ∀ k' o, r'.InPlay k' o → r.InPlay k' o := by
  unfold deliver at h
  split at h
  · cases h
  · rename_i c w hnext
    obtain rfl := Option.some.inj h
    refine ⟨rfl, rfl, rfl, ?_⟩
    rintro k' o (ho | ⟨d, hd, hdk, hds⟩)
    · simp only [lookup_set] at ho
      by_cases hk : k' = k
      · subst hk
        rw [if_pos rfl] at ho
        exact Or.inr ⟨c, (nextChange_mem hnext).1, nextChange_key hnext, ho⟩
      · rw [if_neg hk] at ho
        exact Or.inl ho
    · exact Or.inr ⟨d, (nextChange_mem hnext).2 d hd, hdk, hds⟩

theorem InPlay.of_commit {r : Replica K V} {k k' : K} {v : Option V} {o : Versioned V}
    (h : (r.commit k v).InPlay k' o) : r.InPlay k' o ∨ (k' = k ∧ r.stamp v = some o) := by
  rcases h with h | ⟨c, hc, hck, hcs⟩
  · exact Or.inl (Or.inl h)
  · rcases List.mem_append.mp hc with hc | hc
    · exact Or.inl (Or.inr ⟨c, hc, hck, hcs⟩)
    · obtain rfl := List.mem_singleton.mp hc
      exact Or.inr ⟨hck.symm, hcs⟩

theorem InPlay.of_relist {r : Replica K V} {k : K} {o : Versioned V}
    (h : r.relist.InPlay k o) : r.server.lookup k = some o := by
  rcases h with h | ⟨c, hc, -⟩
  · exact h
  · cases hc

/-! ## The history only grows -/

theorem mem_history_commit {r : Replica K V} {k : K} {v : Option V} {p : K × Versioned V}
    (h : p ∈ r.history) : p ∈ (r.commit k v).history :=
  List.mem_append_left _ h

@[simp] theorem commit_server (r : Replica K V) (k : K) (v : Option V) :
    (r.commit k v).server = Table.set r.server k (r.stamp v) := rfl

end Replica

end Optimistic
