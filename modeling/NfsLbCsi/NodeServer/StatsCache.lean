import NfsLbCsi.Basic.Refinement
import NfsLbCsi.NodeServer.Stats

set_option autoImplicit false

/-! # The volume stats cache under concurrency

`NodeGetVolumeStats` takes no operation lock, so any number of calls use `volStatsCache` at the same
time. `azcache.TimedCache` is a store of pointers to entries: `Get` fetches the pointer, creates an
entry without data under a mutex when there is none, and then reads the entry under the lock of the
entry; `Set` puts a new entry into the store without the mutex.

* `EntryCache`, `cachedStats`: the cache and the calls as they are, step by step.
* `atomicStats`: the same calls on a map (`TimedCache`). `Get` takes what is under its key in one
  step and checks its age in a later one, `Set` takes the time in one step and stores the value in a
  later one; entries, pointers and locks are gone.
* `stats_cache_atomic`: every interleaving of the former is one of the latter. No `Set` is lost to
  an entry that another call creates, because a call creates one only when no call can be about to
  set it.
-/

namespace NfsLbCsi

open Lts

/-! ## Calls of `NodeGetVolumeStats` -/

/-- What is left of a call after its `Get` has found nothing. -/
inductive StatsRest where
  | measure
  /-- `time.Now()` in `Set`. -/
  | stamp (resp : NodeGetVolumeStatsResponse)
  /-- `Store.Add` in `Set`. -/
  | set (resp : NodeGetVolumeStatsResponse) (createdOn : ℕ)
  | done (out : Except RpcError NodeGetVolumeStatsResponse)

structure StatsCall (Φ : Type) where
  volumeId : String
  volumePath : String
  phase : Φ

/-- The clock, the file system, the cache, and the calls in the order in which they have come in. -/
structure StatsPool (C Φ : Type) where
  now : ℕ
  paths : String → PathState
  cache : C
  calls : List (StatsCall Φ)

inductive StatsTurn where
  | call (volumeId volumePath : String)
  /-- Call `i` makes its next step. -/
  | act (i : ℕ)
  | change (path : String) (state : PathState)
  /-- The clock shows another time, earlier or later. -/
  | clock (now : ℕ)

/-- How a call uses a cache of the type `C`: its first phase, the phases after its `Get`, and the
step of call `i` at a time and in a file system. -/
structure StatsMachine (C Φ : Type) where
  first : Φ
  rest : StatsRest → Φ
  act : ℕ → (String → PathState) → ℕ → StatsCall Φ → C → Option (Φ × C)

section

variable {C Φ : Type}

/-- The checks of the arguments. -/
def StatsMachine.start (M : StatsMachine C Φ) (volumeId volumePath : String) : Φ :=
  if volumeId = "" then
    M.rest (.done (.error (invalidArgument "NodeGetVolumeStats volume ID was empty")))
  else if volumePath = "" then
    M.rest (.done (.error (invalidArgument "NodeGetVolumeStats volume path was empty")))
  else M.first

def StatsMachine.step (M : StatsMachine C Φ) (w : StatsPool C Φ) :
    StatsTurn → Option (StatsPool C Φ × Unit)
  | .call volumeId volumePath =>
      some
        ({ w with calls := w.calls ++ [⟨volumeId, volumePath, M.start volumeId volumePath⟩] }, ())
  | .act i => do
      let call ← w.calls[i]?
      let (phase, cache) ← M.act w.now w.paths i call w.cache
      some ({ w with cache := cache, calls := w.calls.set i { call with phase := phase } }, ())
  | .change path state => some ({ w with paths := Function.update w.paths path state }, ())
  | .clock now => some ({ w with now := now }, ())

/-- What one step can do. -/
inductive StatsMachine.Step (M : StatsMachine C Φ) (w : StatsPool C Φ) :
    StatsTurn → StatsPool C Φ → Prop where
  | call (volumeId volumePath : String) :
      M.Step w (.call volumeId volumePath)
        { w with calls := w.calls ++ [⟨volumeId, volumePath, M.start volumeId volumePath⟩] }
  | act {i : ℕ} {call : StatsCall Φ} {phase : Φ} {cache : C} : w.calls[i]? = some call →
      M.act w.now w.paths i call w.cache = some (phase, cache) →
      M.Step w (.act i)
        { w with cache := cache, calls := w.calls.set i { call with phase := phase } }
  | change (path : String) (state : PathState) :
      M.Step w (.change path state) { w with paths := Function.update w.paths path state }
  | clock (now : ℕ) : M.Step w (.clock now) { w with now := now }

theorem StatsMachine.step_iff {M : StatsMachine C Φ} {w w' : StatsPool C Φ} {t : StatsTurn} :
    M.step w t = some (w', ()) ↔ M.Step w t w' := by
  constructor
  · intro h
    cases t with
    | call volumeId volumePath => cases h; exact .call volumeId volumePath
    | act i =>
        obtain ⟨call, hcall, h⟩ := Option.bind_eq_some_iff.mp h
        obtain ⟨⟨phase, cache⟩, hact, h⟩ := Option.bind_eq_some_iff.mp h
        cases h
        exact .act hcall hact
    | change path state => cases h; exact .change path state
    | clock now => cases h; exact .clock now
  · intro h
    cases h with
    | call volumeId volumePath => rfl
    | act hcall hact => simp [StatsMachine.step, hcall, hact]
    | change path state => rfl
    | clock now => rfl

/-- The steps after the `Get`, on a cache with the given `Set`. -/
def StatsRest.act (set : NodeGetVolumeStatsResponse → ℕ → C) (now : ℕ) (paths : String → PathState)
    (volumePath : String) (c : C) : StatsRest → Option (StatsRest × C)
  | .measure =>
      match NfsLbCsi.measure volumePath (paths volumePath) with
      | .error err => some (.done (.error err), c)
      | .ok resp => some (.stamp resp, c)
  | .stamp resp => some (.set resp now, c)
  | .set resp createdOn => some (.done (.ok resp), set resp createdOn)
  | .done _ => none

/-- Two caches differ in what `Set` does only. -/
theorem StatsRest.act_match {C' : Type} {set : NodeGetVolumeStatsResponse → ℕ → C}
    {set' : NodeGetVolumeStatsResponse → ℕ → C'} {now : ℕ} {paths : String → PathState}
    {volumePath : String} {c c₁ : C} (f : C') {r r' : StatsRest}
    (h : r.act set now paths volumePath c = some (r', c₁)) :
    (c₁ = c ∧ r.act set' now paths volumePath f = some (r', f)) ∨
      ∃ resp createdOn, r = .set resp createdOn ∧ r' = .done (.ok resp) ∧
        c₁ = set resp createdOn := by
  cases r with
  | measure =>
      simp only [StatsRest.act] at h ⊢
      split at h
      · cases h; exact Or.inl ⟨rfl, rfl⟩
      · cases h; exact Or.inl ⟨rfl, rfl⟩
  | stamp resp => cases h; exact Or.inl ⟨rfl, rfl⟩
  | set resp createdOn => cases h; exact Or.inr ⟨resp, createdOn, rfl, rfl, rfl⟩
  | done out => cases h

end

/-! ## The cache as it is -/

/-- `AzureCacheEntry` without its lock, under which it is read and written in one step. -/
structure CacheEntry (V : Type) where
  key : String
  data : Option V
  createdOn : ℕ

/-- `azcache.TimedCache`: all entries in the order of their allocation, the store of pointers to
them, and the call that holds the mutex. -/
structure EntryCache (V : Type) where
  entries : List (CacheEntry V)
  store : String → Option ℕ
  mutex : Option ℕ

namespace EntryCache

variable {V : Type}

def empty : EntryCache V := ⟨[], fun _ => none, none⟩

/-- `Store.Add` of a new entry. -/
def add (c : EntryCache V) (e : CacheEntry V) : EntryCache V :=
  { c with
    entries := c.entries ++ [e]
    store := Function.update c.store e.key (some c.entries.length) }

/-- `get` after `getInternal`, with `CacheReadTypeDefault` and a getter that returns nothing: an
entry that has expired loses its data. -/
def read (ttl now : ℕ) (c : EntryCache V) (entry : ℕ) : Option V × EntryCache V :=
  match c.entries[entry]? with
  | none => (none, c)
  | some e =>
      match e.data.filter (fun _ => decide (now < e.createdOn + ttl)) with
      | some v => (some v, c)
      | none =>
          (none,
            { c with entries := c.entries.set entry { e with data := none, createdOn := now } })

end EntryCache

inductive StatsPhase where
  /-- The first `GetByKey` of `getInternal`. -/
  | look
  | lock
  /-- The second one, under the mutex. -/
  | relook
  | add
  | unlock (entry : ℕ)
  /-- `get` under the lock of the entry. -/
  | read (entry : ℕ)
  | rest (r : StatsRest)

/-- One step of call `i`. -/
def cachedAct (ttl now : ℕ) (paths : String → PathState) (i : ℕ) (call : StatsCall StatsPhase)
    (c : EntryCache NodeGetVolumeStatsResponse) :
    Option (StatsPhase × EntryCache NodeGetVolumeStatsResponse) :=
  match call.phase with
  | .look =>
      match c.store call.volumeId with
      | some entry => some (.read entry, c)
      | none => some (.lock, c)
  | .lock => if c.mutex = none then some (.relook, { c with mutex := some i }) else none
  | .relook =>
      match c.store call.volumeId with
      | some entry => some (.unlock entry, c)
      | none => some (.add, c)
  | .add => some (.unlock c.entries.length, c.add ⟨call.volumeId, none, 0⟩)
  | .unlock entry => some (.read entry, { c with mutex := none })
  | .read entry =>
      match c.read ttl now entry with
      | (some resp, c') => some (.rest (.done (.ok resp)), c')
      | (none, c') => some (.rest .measure, c')
  | .rest r =>
      (r.act (fun resp createdOn => c.add ⟨call.volumeId, some resp, createdOn⟩) now paths
        call.volumePath c).map (fun x => (.rest x.1, x.2))

def cachedStats (ttl : ℕ) : StatsMachine (EntryCache NodeGetVolumeStatsResponse) StatsPhase :=
  ⟨.look, .rest, cachedAct ttl⟩

/-! ## The cache as it is meant -/

inductive AtomicPhase where
  | get
  /-- The value and the time of the entry at the moment of the `Get`. -/
  | check (found : Option (NodeGetVolumeStatsResponse × ℕ))
  | rest (r : StatsRest)

/-- What `TimedCache.get` makes of an entry. -/
def freshValue {V : Type} (ttl now : ℕ) (found : Option (V × ℕ)) : Option V :=
  (found.filter (fun e => decide (now < e.2 + ttl))).map Prod.fst

def atomicAct (ttl now : ℕ) (paths : String → PathState) (call : StatsCall AtomicPhase)
    (c : TimedCache NodeGetVolumeStatsResponse) :
    Option (AtomicPhase × TimedCache NodeGetVolumeStatsResponse) :=
  match call.phase with
  | .get => some (.check (c call.volumeId), c)
  | .check found =>
      match freshValue ttl now found with
      | some resp => some (.rest (.done (.ok resp)), c)
      | none => some (.rest .measure, c)
  | .rest r =>
      (r.act (fun resp createdOn => c.set createdOn call.volumeId resp) now paths call.volumePath
        c).map (fun x => (.rest x.1, x.2))

def atomicStats (ttl : ℕ) : StatsMachine (TimedCache NodeGetVolumeStatsResponse) AtomicPhase :=
  ⟨.get, .rest, fun now paths _ call c => atomicAct ttl now paths call c⟩

/-! ## One step of one call -/

namespace EntryCache

variable {V : Type} {ttl now i : ℕ} {c c' : EntryCache V}

/-- The entry stands for what was found. Without data it stands for anything that has expired. -/
def Shows (ttl now : ℕ) (c : EntryCache V) (entry : ℕ) (found : Option (V × ℕ)) : Prop :=
  ∃ e, c.entries[entry]? = some e ∧ ((∃ v, e.data = some v ∧ found = some (v, e.createdOn)) ∨
    (e.data = none ∧ freshValue ttl now found = none))

/-- So does what is in the store under the key. -/
def Stores (ttl now : ℕ) (c : EntryCache V) (key : String) (found : Option (V × ℕ)) : Prop :=
  (c.store key = none ∧ found = none) ∨ ∃ entry, c.store key = some entry ∧
  c.Shows ttl now entry found

/-- What the others can rely on in a step of call `i`. -/
structure Frame (ttl now i : ℕ) (c c' : EntryCache V) : Prop where
  shows : ∀ entry found, c.Shows ttl now entry found → c'.Shows ttl now entry found
  stored : ∀ key, c.store key ≠ none → c'.store key ≠ none
  held : ∀ j, j ≠ i → c.mutex = some j →
    c'.mutex = some j ∧ ∀ key, c.store key = none → c'.store key = none

theorem Frame.refl : Frame ttl now i c c :=
  ⟨fun _ _ h => h, fun _ h => h, fun _ _ h => ⟨h, fun _ h => h⟩⟩

theorem Shows.later {now' entry : ℕ} {found : Option (V × ℕ)} (h : c.Shows ttl now entry found)
    (hle : now ≤ now') : c.Shows ttl now' entry found := by
  obtain ⟨e, he, hdata | ⟨hdata, hfresh⟩⟩ := h
  · exact ⟨e, he, Or.inl hdata⟩
  · refine ⟨e, he, Or.inr ⟨hdata, ?_⟩⟩
    cases found with
    | none => rfl
    | some f =>
        simp only [freshValue, Option.map_eq_none_iff, Option.filter_eq_none_iff,
          Option.some.injEq, decide_eq_true_eq, forall_eq'] at hfresh ⊢
        omega

theorem add_store (e : CacheEntry V) (key : String) :
    (c.add e).store key = if key = e.key then some c.entries.length else c.store key := by
  show Function.update c.store e.key _ key = _
  rw [Function.update_apply]

theorem shows_add_self (e : CacheEntry V) :
    (c.add e).Shows ttl now c.entries.length (e.data.map (fun v => (v, e.createdOn))) := by
  refine ⟨e, List.getElem?_concat_length, ?_⟩
  cases hdata : e.data with
  | none => exact Or.inr ⟨rfl, rfl⟩
  | some v => exact Or.inl ⟨v, rfl, rfl⟩

theorem Shows.add {entry : ℕ} {found : Option (V × ℕ)} (h : c.Shows ttl now entry found)
    (e : CacheEntry V) : (c.add e).Shows ttl now entry found := by
  obtain ⟨e', he', hdata⟩ := h
  have hlt : entry < c.entries.length := (List.getElem?_eq_some_iff.mp he').1
  exact ⟨e', by rw [show (c.add e).entries = c.entries ++ [e] from rfl,
    List.getElem?_append_left hlt, he'], hdata⟩

/-- A new entry is in the store, and the other keys are as they were. -/
theorem stores_add {f : String → Option (V × ℕ)} (h : ∀ key, c.Stores ttl now key (f key))
    (e : CacheEntry V) (key : String) : (c.add e).Stores ttl now key
      (Function.update f e.key (e.data.map (fun v => (v, e.createdOn))) key) := by
  by_cases hkey : key = e.key
  · subst hkey
    rw [Function.update_self]
    exact Or.inr ⟨_, by rw [add_store, if_pos rfl], shows_add_self e⟩
  · rw [Function.update_of_ne hkey]
    rcases h key with ⟨hnone, hf⟩ | ⟨entry, hentry, hshows⟩
    · exact Or.inl ⟨by rw [add_store, if_neg hkey]; exact hnone, hf⟩
    · exact Or.inr ⟨entry, by rw [add_store, if_neg hkey]; exact hentry, hshows.add e⟩

theorem stores_add_nothing {f : String → Option (V × ℕ)} (h : ∀ key, c.Stores ttl now key (f key))
    {key : String} (hf : f key = none) (key' : String) :
    (c.add ⟨key, none, 0⟩).Stores ttl now key' (f key') := by
  have hadd : (c.add ⟨key, none, 0⟩).Stores ttl now key' (Function.update f key none key') :=
    stores_add h ⟨key, none, 0⟩ key'
  rwa [Function.update_eq_self_iff.mpr hf.symm] at hadd

theorem frame_add (e : CacheEntry V) (h : c.mutex = some i ∨ c.store e.key ≠ none) :
    Frame ttl now i c (c.add e) where
  shows entry found hshows := hshows.add e
  stored key hkey := by
    rw [add_store]
    split
    · exact Option.some_ne_none _
    · exact hkey
  held j hj hmutex := by
    refine ⟨hmutex, fun key hkey => ?_⟩
    rcases h with hi | hstored
    · rw [hmutex] at hi
      exact absurd (Option.some.inj hi) hj
    · have hne : key ≠ e.key := fun heq => hstored (heq ▸ hkey)
      rw [add_store, if_neg hne, hkey]

/-- Taking the data from an entry that shows nothing fresh changes nothing for anybody. -/
theorem frame_expire {entry : ℕ} {e : CacheEntry V} (he : c.entries[entry]? = some e)
    (hdata : e.data.filter (fun _ => decide (now < e.createdOn + ttl)) = none) :
    Frame ttl now i c
      { c with entries := c.entries.set entry { e with data := none, createdOn := now } } where
  shows entry' found hshows := by
    obtain ⟨e', he', hfound⟩ := hshows
    have hlt : entry < c.entries.length := (List.getElem?_eq_some_iff.mp he).1
    by_cases hentry : entry = entry'
    · subst hentry
      obtain rfl := Option.some.inj (he.symm.trans he')
      refine ⟨_, List.getElem?_set_self hlt, Or.inr ⟨rfl, ?_⟩⟩
      rcases hfound with ⟨v, hv, rfl⟩ | ⟨-, hfresh⟩
      · rw [hv] at hdata
        simpa [freshValue] using hdata
      · exact hfresh
    · exact ⟨e', by rw [List.getElem?_set_ne hentry, he'], hfound⟩
  stored _ hkey := hkey
  held _ _ hmutex := ⟨hmutex, fun _ hkey => hkey⟩

/-- **Reading an entry** finds what is fresh of what it stands for. -/
theorem read_eq {entry : ℕ} {found : Option (V × ℕ)} (h : c.Shows ttl now entry found) :
    ∃ c', c.read ttl now entry = (freshValue ttl now found, c') ∧ Frame ttl now i c c' ∧
      c'.store = c.store := by
  obtain ⟨e, he, hfound⟩ := h
  cases hdata : e.data.filter (fun _ => decide (now < e.createdOn + ttl)) with
  | some v =>
      obtain ⟨hv, hfresh⟩ := Option.filter_eq_some_iff.mp hdata
      refine ⟨c, ?_, Frame.refl, rfl⟩
      rcases hfound with ⟨v', hv', rfl⟩ | ⟨hnone, -⟩
      · obtain rfl := Option.some.inj (hv.symm.trans hv')
        have hvalue : freshValue ttl now (some (v, e.createdOn)) = some v := by
          simp only [freshValue, Option.filter_some, hfresh, if_true, Option.map_some]
        simp only [read, he, hdata, hvalue]
      · rw [hnone] at hv
        cases hv
  | none =>
      refine ⟨_, ?_, frame_expire he hdata, rfl⟩
      have hfresh : freshValue ttl now found = none := by
        rcases hfound with ⟨v, hv, rfl⟩ | ⟨-, hfresh⟩
        · rw [hv] at hdata
          simpa [freshValue] using hdata
        · exact hfresh
      simp only [read, he, hdata, hfresh]

end EntryCache

/-- The phase of a call stands for a phase on the atomic cache. A call between `Lock` and `Unlock`
holds the mutex; one that is about to add an entry still finds none; and one that has an entry in
hand, or had one, knows that the store has one. -/
inductive Stands (ttl now : ℕ) (c : EntryCache NodeGetVolumeStatsResponse) (i : ℕ) (key : String) :
    StatsPhase → AtomicPhase → Prop where
  | look : Stands ttl now c i key .look .get
  | lock : Stands ttl now c i key .lock .get
  | relook : c.mutex = some i → Stands ttl now c i key .relook .get
  | add : c.mutex = some i → c.store key = none → Stands ttl now c i key .add .get
  | unlock {entry : ℕ} {found : Option (NodeGetVolumeStatsResponse × ℕ)} : c.mutex = some i →
      c.store key ≠ none → c.Shows ttl now entry found →
      Stands ttl now c i key (.unlock entry) (.check found)
  | read {entry : ℕ} {found : Option (NodeGetVolumeStatsResponse × ℕ)} : c.store key ≠ none →
      c.Shows ttl now entry found → Stands ttl now c i key (.read entry) (.check found)
  | rest {r : StatsRest} : c.store key ≠ none → Stands ttl now c i key (.rest r) (.rest r)
  | done {out : Except RpcError NodeGetVolumeStatsResponse} :
      Stands ttl now c i key (.rest (.done out)) (.rest (.done out))

section

variable {ttl now i j : ℕ} {c c' : EntryCache NodeGetVolumeStatsResponse} {key : String}
  {phase : StatsPhase} {phase' : AtomicPhase}

/-- A step of another call leaves it so. -/
theorem Stands.frame (h : Stands ttl now c j key phase phase') (hframe : c.Frame ttl now i c')
    (hne : j ≠ i) : Stands ttl now c' j key phase phase' := by
  cases h with
  | look => exact .look
  | lock => exact .lock
  | relook hmutex => exact .relook (hframe.held j hne hmutex).1
  | add hmutex hnone =>
      obtain ⟨hmutex', hkept⟩ := hframe.held j hne hmutex
      exact .add hmutex' (hkept key hnone)
  | unlock hmutex hstored hshows =>
      exact .unlock (hframe.held j hne hmutex).1 (hframe.stored key hstored)
        (hframe.shows _ _ hshows)
  | read hstored hshows => exact .read (hframe.stored key hstored) (hframe.shows _ _ hshows)
  | rest hstored => exact .rest (hframe.stored key hstored)
  | done => exact .done

theorem Stands.later {now' : ℕ} (h : Stands ttl now c j key phase phase') (hle : now ≤ now') :
    Stands ttl now' c j key phase phase' := by
  cases h with
  | look => exact .look
  | lock => exact .lock
  | relook hmutex => exact .relook hmutex
  | add hmutex hnone => exact .add hmutex hnone
  | unlock hmutex hstored hshows => exact .unlock hmutex hstored (hshows.later hle)
  | read hstored hshows => exact .read hstored (hshows.later hle)
  | rest hstored => exact .rest hstored
  | done => exact .done

end

/-- How far a call is on the atomic cache: before its `Get`, with an entry in hand, after it. -/
def StatsPhase.stage : StatsPhase → ℕ
  | .look | .lock | .relook | .add => 0
  | .unlock _ | .read _ => 1
  | .rest _ => 2

/-- The steps of `getInternal` that the atomic cache does not make. -/
def StatsPhase.silent (phase phase' : StatsPhase) : Bool :=
  decide (phase.stage = phase'.stage ∧ phase'.stage < 2)

@[simp] theorem StatsPhase.silent_rest (phase : StatsPhase) (r : StatsRest) :
    phase.silent (.rest r) = false := by
  simp [StatsPhase.silent, StatsPhase.stage]

/-- **One step of one call** is a step of the call on the atomic cache, or a silent one, and the
others can rely on what it does to the cache. -/
theorem cachedAct_stands {ttl now i : ℕ} {paths : String → PathState} {call : StatsCall StatsPhase}
    {call' : StatsCall AtomicPhase} {c c' : EntryCache NodeGetVolumeStatsResponse}
    {f : TimedCache NodeGetVolumeStatsResponse} {phase : StatsPhase}
    (hid : call'.volumeId = call.volumeId) (hpath : call'.volumePath = call.volumePath)
    (hstands : Stands ttl now c i call.volumeId call.phase call'.phase)
    (hstores : ∀ key, c.Stores ttl now key (f key))
    (hact : cachedAct ttl now paths i call c = some (phase, c')) :
    c.Frame ttl now i c' ∧ ∃ phase' f',
      (if call.phase.silent phase then phase' = call'.phase ∧ f' = f
        else atomicAct ttl now paths call' f = some (phase', f')) ∧
      Stands ttl now c' i call.volumeId phase phase' ∧ ∀ key, c'.Stores ttl now key (f' key) := by
  obtain ⟨volumeId, volumePath, phase₀⟩ := call
  obtain ⟨volumeId', volumePath', phase₀'⟩ := call'
  obtain rfl : volumeId' = volumeId := hid
  obtain rfl : volumePath' = volumePath := hpath
  cases hstands with
  | look =>
      simp only [cachedAct] at hact
      rcases hstores volumeId' with ⟨hnone, -⟩ | ⟨entry, hentry, hshows⟩
      · rw [hnone] at hact
        cases hact
        exact ⟨.refl, _, _, ⟨rfl, rfl⟩, .lock, hstores⟩
      · rw [hentry] at hact
        cases hact
        exact ⟨.refl, _, _, rfl, .read (by simp [hentry]) hshows, hstores⟩
  | lock =>
      simp only [cachedAct] at hact
      split at hact
      · rename_i hfree
        cases hact
        refine ⟨⟨fun _ _ h => h, fun _ h => h, fun j _ hj => ?_⟩, _, _, ⟨rfl, rfl⟩,
          .relook rfl, hstores⟩
        rw [hfree] at hj
        cases hj
      · cases hact
  | relook hmutex =>
      simp only [cachedAct] at hact
      rcases hstores volumeId' with ⟨hnone, -⟩ | ⟨entry, hentry, hshows⟩
      · rw [hnone] at hact
        cases hact
        exact ⟨.refl, _, _, ⟨rfl, rfl⟩, .add hmutex hnone, hstores⟩
      · rw [hentry] at hact
        cases hact
        exact ⟨.refl, _, _, rfl, .unlock hmutex (by simp [hentry]) hshows, hstores⟩
  | add hmutex hnone =>
      cases hact
      -- the store has no entry, so the atomic cache has none, and the new one stands for that
      rcases hstores volumeId' with ⟨-, hf⟩ | ⟨entry, hentry, -⟩
      · refine ⟨EntryCache.frame_add _ (Or.inl hmutex), _, _, rfl, ?_, fun key => ?_⟩
        · show Stands _ _ _ _ _ _ (.check (f volumeId'))
          rw [hf]
          exact .unlock hmutex (by simp [EntryCache.add_store]) (EntryCache.shows_add_self _)
        · exact EntryCache.stores_add_nothing hstores hf key
      · rw [hnone] at hentry
        cases hentry
  | unlock hmutex hstored hshows =>
      cases hact
      refine ⟨⟨fun _ _ h => h, fun _ h => h, fun j hj hmutex' => ?_⟩, _, _, ⟨rfl, rfl⟩,
        .read hstored hshows, hstores⟩
      exact absurd (Option.some.inj (hmutex'.symm.trans hmutex)) hj
  | @read entry found hstored hshows =>
      obtain ⟨c₁, hread, hframe, hstore⟩ := EntryCache.read_eq hshows (i := i)
      have hstores₁ : ∀ key, c₁.Stores ttl now key (f key) := by
        intro key
        rcases hstores key with ⟨hnone, hf⟩ | ⟨entry', hentry', hshows'⟩
        · exact Or.inl ⟨by rw [hstore, hnone], hf⟩
        · exact Or.inr ⟨entry', by rw [hstore, hentry'], hframe.shows _ _ hshows'⟩
      simp only [cachedAct, hread] at hact
      cases hfresh : freshValue ttl now found with
      | some resp =>
          rw [hfresh] at hact
          cases hact
          exact ⟨hframe, _, _, by simp [atomicAct, hfresh], .done, hstores₁⟩
      | none =>
          rw [hfresh] at hact
          cases hact
          exact ⟨hframe, _, _, by simp [atomicAct, hfresh],
            .rest (hframe.stored _ hstored), hstores₁⟩
  | @rest r hstored =>
      obtain ⟨⟨r', c₁⟩, hrest, heq⟩ := Option.map_eq_some_iff.mp hact
      cases heq
      rcases StatsRest.act_match f hrest with ⟨rfl, hrest'⟩ | ⟨resp, createdOn, rfl, rfl, rfl⟩
      · refine ⟨.refl, .rest r', f, ?_, .rest hstored, hstores⟩
        simp only [StatsPhase.silent_rest, atomicAct]
        exact Option.map_eq_some_iff.mpr ⟨_, hrest', rfl⟩
      · exact ⟨EntryCache.frame_add _ (Or.inr hstored), _, _, rfl, .done,
          EntryCache.stores_add hstores ⟨volumeId', some resp, createdOn⟩⟩
  | done => cases hact

/-! ## All calls -/

abbrev CachedPool : Type := StatsPool (EntryCache NodeGetVolumeStatsResponse) StatsPhase

abbrev AtomicPool : Type := StatsPool (TimedCache NodeGetVolumeStatsResponse) AtomicPhase

/-- One step of any of the calls on the atomic cache. -/
def AtomicNext (ttl : ℕ) (a : AtomicPool) (t : StatsTurn) (a' : AtomicPool) : Prop :=
  (atomicStats ttl).step a t = some (a', ())

structure Simulates (ttl : ℕ) (w : CachedPool) (a : AtomicPool) : Prop where
  now : a.now = w.now
  paths : a.paths = w.paths
  cache : ∀ key, w.cache.Stores ttl w.now key (a.cache key)
  length : a.calls.length = w.calls.length
  calls : ∀ (i : ℕ) (call : StatsCall StatsPhase) (call' : StatsCall AtomicPhase),
    w.calls[i]? = some call → a.calls[i]? = some call' → call'.volumeId = call.volumeId ∧
      call'.volumePath = call.volumePath ∧
      Stands ttl w.now w.cache i call.volumeId call.phase call'.phase

/-- The step of call `i` is one that the atomic cache does not make. -/
def silentAt (i : ℕ) (w w' : CachedPool) : Bool :=
  (w.calls[i]?).any (fun call => (w'.calls[i]?).any (fun call' => call.phase.silent call'.phase))

/-- What a step is on the atomic cache. -/
def visible (t : Transition CachedPool StatsTurn Unit) : Option StatsTurn :=
  match t.event with
  | .act i => if silentAt i t.pre t.post then none else some (.act i)
  | e => some e

/-- The clock does not go back in the step. -/
def forward (t : Transition CachedPool StatsTurn Unit) : Bool :=
  match t.event with
  | .clock now => decide (t.pre.now ≤ now)
  | _ => true

theorem le_of_forward {t : Transition CachedPool StatsTurn Unit} (h : forward t = true) {now : ℕ}
    (hevent : t.event = .clock now) : t.pre.now ≤ now := by
  rw [forward, hevent] at h
  exact of_decide_eq_true h

theorem stands_start (ttl now : ℕ) (c : EntryCache NodeGetVolumeStatsResponse) (i : ℕ)
    (volumeId volumePath : String) : Stands ttl now c i volumeId
      ((cachedStats ttl).start volumeId volumePath)
      ((atomicStats ttl).start volumeId volumePath) := by
  unfold StatsMachine.start
  split
  · exact .done
  · split
    · exact .done
    · exact .look

section

variable {ttl : ℕ} {w w' : CachedPool} {a : AtomicPool}

theorem Simulates.call (h : Simulates ttl w a) (volumeId volumePath : String) :
    Simulates ttl
      { w with
        calls := w.calls ++ [⟨volumeId, volumePath, (cachedStats ttl).start volumeId volumePath⟩] }
      { a with
        calls := a.calls ++
          [⟨volumeId, volumePath, (atomicStats ttl).start volumeId volumePath⟩] } where
  now := h.now
  paths := h.paths
  cache := h.cache
  length := by simp [h.length]
  calls := by
    intro i call call' hcall hcall'
    rw [List.getElem?_append] at hcall hcall'
    rw [h.length] at hcall'
    split at hcall
    · rename_i hi
      rw [if_pos hi] at hcall'
      exact h.calls i call call' hcall hcall'
    · rename_i hi
      rw [if_neg hi] at hcall'
      obtain rfl := List.mem_singleton.mp (List.mem_of_getElem? hcall)
      obtain rfl := List.mem_singleton.mp (List.mem_of_getElem? hcall')
      exact ⟨rfl, rfl, stands_start ttl w.now w.cache i volumeId volumePath⟩

theorem Simulates.clock (h : Simulates ttl w a) {now : ℕ} (hle : w.now ≤ now) :
    Simulates ttl { w with now := now } { a with now := now } where
  now := rfl
  paths := h.paths
  cache := by
    intro key
    rcases h.cache key with hnone | ⟨entry, hentry, hshows⟩
    · exact Or.inl hnone
    · exact Or.inr ⟨entry, hentry, hshows.later hle⟩
  length := h.length
  calls := by
    intro i call call' hcall hcall'
    obtain ⟨hid, hpath, hstands⟩ := h.calls i call call' hcall hcall'
    exact ⟨hid, hpath, hstands.later hle⟩

/-- Call `i` goes on, and the others stand for what they stood for. -/
theorem Simulates.act (h : Simulates ttl w a) {i : ℕ} {call : StatsCall StatsPhase}
    {call' : StatsCall AtomicPhase} {phase : StatsPhase} {phase' : AtomicPhase}
    {c' : EntryCache NodeGetVolumeStatsResponse} {f' : TimedCache NodeGetVolumeStatsResponse}
    (hcall : w.calls[i]? = some call) (hcall' : a.calls[i]? = some call')
    (hframe : w.cache.Frame ttl w.now i c')
    (hstands : Stands ttl w.now c' i call.volumeId phase phase')
    (hstores : ∀ key, c'.Stores ttl w.now key (f' key)) :
    Simulates ttl { w with cache := c', calls := w.calls.set i { call with phase := phase } }
      { a with cache := f', calls := a.calls.set i { call' with phase := phase' } } where
  now := h.now
  paths := h.paths
  cache := hstores
  length := by simp [h.length]
  calls := by
    intro j call₁ call₁' hcall₁ hcall₁'
    have hi : i < w.calls.length := (List.getElem?_eq_some_iff.mp hcall).1
    by_cases hij : i = j
    · subst hij
      rw [List.getElem?_set_self hi] at hcall₁
      rw [List.getElem?_set_self (h.length ▸ hi)] at hcall₁'
      obtain rfl := Option.some.inj hcall₁
      obtain rfl := Option.some.inj hcall₁'
      obtain ⟨hid, hpath, -⟩ := h.calls i call call' hcall hcall'
      exact ⟨hid, hpath, hstands⟩
    · rw [List.getElem?_set_ne hij] at hcall₁ hcall₁'
      obtain ⟨hid, hpath, hother⟩ := h.calls j call₁ call₁' hcall₁ hcall₁'
      exact ⟨hid, hpath, hother.frame hframe (Ne.symm hij)⟩

theorem Simulates.step {t : StatsTurn} (h : Simulates ttl w a)
    (hstep : (cachedStats ttl).Step w t w') (hclock : ∀ now, t = .clock now → w.now ≤ now) :
    ∃ a', Matches (AtomicNext ttl) a (visible ⟨w, t, (), w'⟩) a' ∧ Simulates ttl w' a' := by
  cases hstep with
  | call volumeId volumePath => exact ⟨_, rfl, h.call volumeId volumePath⟩
  | @act i call phase c' hcall hact =>
      have hi : i < w.calls.length := (List.getElem?_eq_some_iff.mp hcall).1
      obtain ⟨call', hcall'⟩ : ∃ call', a.calls[i]? = some call' :=
        ⟨_, List.getElem?_eq_getElem (h.length ▸ hi)⟩
      obtain ⟨hid, hpath, hstands⟩ := h.calls i call call' hcall hcall'
      obtain ⟨hframe, phase', f', hmatch, hstands', hstores'⟩ :=
        cachedAct_stands hid hpath hstands h.cache hact
      have hsilent : silentAt i w
          { w with cache := c', calls := w.calls.set i { call with phase := phase } }
          = call.phase.silent phase := by
        simp [silentAt, hcall, List.getElem?_set_self hi]
      have hsim := h.act hcall hcall' hframe hstands' hstores'
      simp only [visible, hsilent]
      split at hmatch
      · rename_i hyes
        obtain ⟨rfl, rfl⟩ := hmatch
        rw [if_pos hyes]
        refine ⟨a, rfl, ?_⟩
        obtain ⟨hi', hget⟩ := List.getElem?_eq_some_iff.mp hcall'
        have hsame : a.calls.set i { call' with phase := call'.phase } = a.calls := by
          rw [← hget, List.set_getElem_self]
        rwa [hsame] at hsim
      · rename_i hno
        rw [if_neg hno]
        refine ⟨_, ?_, hsim⟩
        refine StatsMachine.step_iff.mpr (.act hcall' ?_)
        rw [h.now, h.paths]
        exact hmatch
  | change path state =>
      refine ⟨_, rfl, h.now, ?_, h.cache, h.length, h.calls⟩
      show Function.update a.paths path state = Function.update w.paths path state
      rw [h.paths]
  | clock now => exact ⟨_, rfl, h.clock (hclock now rfl)⟩

end

/-- What a call has returned, if it has. -/
def StatsRest.answer : StatsRest → Option (Except RpcError NodeGetVolumeStatsResponse)
  | .done out => some out
  | _ => none

def StatsPhase.answer : StatsPhase → Option (Except RpcError NodeGetVolumeStatsResponse)
  | .rest r => r.answer
  | _ => none

def AtomicPhase.answer : AtomicPhase → Option (Except RpcError NodeGetVolumeStatsResponse)
  | .rest r => r.answer
  | _ => none

theorem Stands.answer {ttl now i : ℕ} {c : EntryCache NodeGetVolumeStatsResponse} {key : String}
    {phase : StatsPhase} {phase' : AtomicPhase} (h : Stands ttl now c i key phase phase') :
    phase'.answer = phase.answer := by
  cases h <;> rfl

/-- No calls yet. -/
def StatsPool.initial {C Φ : Type} (cache : C) (now : ℕ) (paths : String → PathState) :
    StatsPool C Φ := ⟨now, paths, cache, []⟩

theorem simulates_initial (ttl now : ℕ) (paths : String → PathState) :
    Simulates ttl (.initial .empty now paths) (.initial .empty now paths) :=
  ⟨rfl, rfl, fun _ => Or.inl ⟨rfl, rfl⟩, rfl, by simp [StatsPool.initial]⟩

/-- The value that a `Get` of the key would find. -/
def EntryCache.peek {V : Type} (ttl now : ℕ) (c : EntryCache V) (key : String) : Option V :=
  (c.store key).bind (fun entry => (c.read ttl now entry).1)

theorem TimedCache.get_eq_freshValue {V : Type} (c : TimedCache V) (ttl now : ℕ) (key : String) :
    c.get ttl now key = freshValue ttl now (c key) := by
  unfold TimedCache.get freshValue
  split
  · rename_i v time hc
    rw [hc, Option.filter_some]
    split
    · rename_i hlt
      simp [hlt]
    · rename_i hlt
      simp [hlt]
  · rename_i hc
    rw [hc]
    rfl

theorem EntryCache.Stores.peek_eq {ttl now : ℕ} {c : EntryCache NodeGetVolumeStatsResponse}
    {f : TimedCache NodeGetVolumeStatsResponse} {key : String} (h : c.Stores ttl now key (f key)) :
    c.peek ttl now key = f.get ttl now key := by
  rw [TimedCache.get_eq_freshValue, EntryCache.peek]
  rcases h with ⟨hnone, hf⟩ | ⟨entry, hentry, hshows⟩
  · rw [hnone, hf]
    rfl
  · obtain ⟨c', hread, -⟩ := EntryCache.read_eq hshows (i := 0)
    rw [hentry, Option.bind_some, hread]

/-- What can be seen of the calls. -/
def StatsPool.answers {C Φ : Type}
    (answer : Φ → Option (Except RpcError NodeGetVolumeStatsResponse))
    (w : StatsPool C Φ) : List (String × String × Option
      (Except RpcError NodeGetVolumeStatsResponse)) :=
  w.calls.map (fun call => (call.volumeId, call.volumePath, answer call.phase))

theorem Simulates.answers_eq {ttl : ℕ} {w : CachedPool} {a : AtomicPool} (h : Simulates ttl w a) :
    a.answers AtomicPhase.answer = w.answers StatsPhase.answer := by
  refine List.ext_getElem? (fun i => ?_)
  simp only [StatsPool.answers, List.getElem?_map]
  by_cases hi : i < w.calls.length
  · have hcall := List.getElem?_eq_getElem hi
    have hcall' := List.getElem?_eq_getElem (h.length ▸ hi : i < a.calls.length)
    obtain ⟨hid, hpath, hstands⟩ := h.calls i _ _ hcall hcall'
    rw [hcall, hcall', Option.map_some, Option.map_some, hid, hpath, hstands.answer]
  · rw [List.getElem?_eq_none (not_lt.mp hi), List.getElem?_eq_none (h.length ▸ not_lt.mp hi)]
    rfl

/-- **The cache is a map.** While the clock does not go back, every interleaving of
`NodeGetVolumeStats` calls on the cache of entries is one of the same calls on a map, which a `Get`
and a `Set` touch in one step each: with the same answers, and with the same values in the cache.
The age of what a `Get` has taken is checked in a step of its own, at the time that the clock shows
then, and the time that a `Set` stores is taken in the step before. -/
theorem stats_cache_atomic {ttl now₀ : ℕ} {paths₀ : String → PathState}
    {tr : List (Transition CachedPool StatsTurn Unit)} {w : CachedPool}
    (hrun : Run (cachedStats ttl).step (.initial .empty now₀ paths₀) tr w)
    (hclock : ∀ t ∈ tr, forward t = true) :
    ∃ a : AtomicPool, Path (AtomicNext ttl) (.initial .empty now₀ paths₀) (tr.filterMap visible) a ∧
      a.answers AtomicPhase.answer = w.answers StatsPhase.answer ∧
      ∀ key, w.cache.peek ttl w.now key = a.cache.get ttl a.now key := by
  obtain ⟨a, hpath, hsim⟩ := Run.simulates (R := Simulates ttl) visible
    (simulates_initial ttl now₀ paths₀)
    (fun t a hstep hforward hsim =>
      hsim.step (StatsMachine.step_iff.mp hstep) (fun _ => le_of_forward hforward)) hrun hclock
  refine ⟨a, hpath, hsim.answers_eq, fun key => ?_⟩
  rw [hsim.now]
  exact (hsim.cache key).peek_eq

/-- Two calls for one volume at the same time, and a third one after them. Both find no entry, the
first one creates it, both measure, and the third call finds what the second has stored. -/
def overlapTurns : List StatsTurn :=
  [.call "v" "/a", .call "v" "/b", .act 0, .act 1, .act 0, .act 0, .act 0, .act 0, .act 0, .act 0,
   .act 1, .act 1, .act 1, .act 1, .act 1, .act 0, .clock 1, .act 0, .act 1, .act 1, .call "v" "/a",
   .act 2, .clock 2, .act 2]

/-- Two paths with different usage. -/
def twoPaths (path : String) : PathState :=
  .present (.ok (uniformMetrics (if path = "/a" then 1 else 2)))

theorem exists_overlap (ts : List StatsTurn)
    (p : List (Transition CachedPool StatsTurn Unit) → CachedPool → Bool)
    (h : (exec (cachedStats 10).step (.initial .empty 0 twoPaths) ts).any
      (fun r => p r.1 r.2) = true) :
    ∃ tr w, Run (cachedStats 10).step (.initial .empty 0 twoPaths) tr w ∧ p tr w = true :=
  run_of_exec h

theorem stats_cache_atomic_overlapTurns :
    ∃ tr w, Run (cachedStats 10).step (.initial .empty 0 twoPaths) tr w ∧
      w.answers StatsPhase.answer = [("v", "/a", some (.ok (uniformUsage 1))),
        ("v", "/b", some (.ok (uniformUsage 2))), ("v", "/a", some (.ok (uniformUsage 2)))] ∧
      ∃ a : AtomicPool, Path (AtomicNext 10) (.initial .empty 0 twoPaths) (tr.filterMap visible) a ∧
        a.answers AtomicPhase.answer = w.answers StatsPhase.answer := by
  obtain ⟨tr, w, hrun, hp⟩ := exists_overlap overlapTurns (fun tr w => tr.all forward &&
    decide (w.answers StatsPhase.answer = [("v", "/a", some (.ok (uniformUsage 1))),
      ("v", "/b", some (.ok (uniformUsage 2))), ("v", "/a", some (.ok (uniformUsage 2)))]))
        (by decide)
  simp only [Bool.and_eq_true, decide_eq_true_eq, List.all_eq_true] at hp
  obtain ⟨a, hpath, hanswers, -⟩ := stats_cache_atomic hrun hp.1
  exact ⟨tr, w, hrun, hp.2, a, hpath, hanswers⟩

end NfsLbCsi
