import NfsLbCsi.NodeServer.StatsCache

set_option autoImplicit false

/-! # What the volume stats cache answers

Two consequences for `NodeGetVolumeStats`, one for calls that do not overlap and one for all others.

* `stats_cache_serial`: one call after the other, the handler on the cache of entries is a function
  from a map with a lifetime to the next one (`nodeGetVolumeStatsAt`), whatever the clock and the
  file system do during a call.
* `stats_fresh`: whatever the interleaving, and even when the clock is set back, what a call takes
  from the cache was measured for its volume and stored less than the lifetime of an entry ago.
-/

namespace NfsLbCsi

open Lts

/-! ## One call after the other -/

/-- What a call meets: the time at which its `Get` checks the age of the entry, the state of its
path when it measures it, and the time that its `Set` gives the value. -/
structure StatsMoments where
  checked : ℕ
  state : PathState
  stored : ℕ

/-- `NodeGetVolumeStats` as a function of the cache and of what the call meets. -/
def nodeGetVolumeStatsAt (ttl : ℕ) (m : StatsMoments) (volumeId volumePath : String)
    (cache : TimedCache NodeGetVolumeStatsResponse) :
    Except RpcError NodeGetVolumeStatsResponse × TimedCache NodeGetVolumeStatsResponse :=
  if volumeId = "" then
    (.error (invalidArgument "NodeGetVolumeStats volume ID was empty"), cache)
  else if volumePath = "" then
    (.error (invalidArgument "NodeGetVolumeStats volume path was empty"), cache)
  else
    match cache.get ttl m.checked volumeId with
    | some resp => (.ok resp, cache)
    | none =>
        match NfsLbCsi.measure volumePath m.state with
        | .error err => (.error err, cache)
        | .ok resp => (.ok resp, cache.set m.stored volumeId resp)

/-- While the clock and the path stand still, it is the handler of `statsStep`. -/
theorem nodeGetVolumeStatsAt_still (ttl : ℕ) (s : StatsState) (volumeId volumePath : String) :
    nodeGetVolumeStatsAt ttl ⟨s.now, s.paths volumePath, s.now⟩ volumeId volumePath s.cache
      = nodeGetVolumeStats ttl s volumeId volumePath := rfl

/-- A call that has returned. -/
structure StatsVisit where
  volumeId : String
  volumePath : String
  moments : StatsMoments
  out : Except RpcError NodeGetVolumeStatsResponse

/-- The visit is a single step from one cache to the next. -/
def StatsVisit.Next (ttl : ℕ) (cache : TimedCache NodeGetVolumeStatsResponse) (v : StatsVisit)
    (cache' : TimedCache NodeGetVolumeStatsResponse) : Prop :=
  nodeGetVolumeStatsAt ttl v.moments v.volumeId v.volumePath cache = (v.out, cache')

def StatsVisit.answer (v : StatsVisit) :
    String × String × Option (Except RpcError NodeGetVolumeStatsResponse) :=
  (v.volumeId, v.volumePath, some v.out)

def StatsVisit.call (v : StatsVisit) : StatsCall AtomicPhase :=
  ⟨v.volumeId, v.volumePath, .rest (.done v.out)⟩

/-- The step is one of call `i`, or the one in which the call comes in. -/
def stepOf (i : ℕ) (t : Transition CachedPool StatsTurn Unit) : Bool :=
  match t.event with
  | .call _ _ => decide (t.pre.calls.length = i)
  | .act j => decide (j = i)
  | _ => false

/-- In a step of call `i`, this is what the state looked like. -/
def Meets {α : Type} (tr : List (Transition CachedPool StatsTurn Unit)) (i : ℕ)
    (look : CachedPool → α) (x : α) : Prop :=
  ∃ t ∈ tr, stepOf i t = true ∧ look t.pre = x

structure Met (tr : List (Transition CachedPool StatsTurn Unit)) (i : ℕ) (volumePath : String)
    (m : StatsMoments) : Prop where
  checked : Meets tr i StatsPool.now m.checked
  state : Meets tr i (fun w => w.paths volumePath) m.state
  stored : Meets tr i StatsPool.now m.stored
  le : m.checked ≤ m.stored

section

variable {tr : List (Transition CachedPool StatsTurn Unit)} {i : ℕ}

theorem Meets.mono {α : Type} {look : CachedPool → α} {x : α} (h : Meets tr i look x)
    (t : Transition CachedPool StatsTurn Unit) : Meets (tr ++ [t]) i look x := by
  obtain ⟨u, hu, hstep, hlook⟩ := h
  exact ⟨u, List.mem_append_left _ hu, hstep, hlook⟩

theorem meets_last {α : Type} {t : Transition CachedPool StatsTurn Unit} (h : stepOf i t = true)
    (look : CachedPool → α) : Meets (tr ++ [t]) i look (look t.pre) :=
  ⟨t, List.mem_append_right _ List.mem_cons_self, h, rfl⟩

theorem Met.mono {volumePath : String} {m : StatsMoments} (h : Met tr i volumePath m)
    (t : Transition CachedPool StatsTurn Unit) : Met (tr ++ [t]) i volumePath m :=
  ⟨h.checked.mono t, h.state.mono t, h.stored.mono t, h.le⟩

/-- A call for which nothing but the present step counts. -/
theorem met_last {t : Transition CachedPool StatsTurn Unit} (h : stepOf i t = true)
    (volumePath : String) :
    Met (tr ++ [t]) i volumePath ⟨t.pre.now, t.pre.paths volumePath, t.pre.now⟩ :=
  ⟨meets_last h _, meets_last h (fun w => w.paths volumePath), meets_last h _, le_refl _⟩

end

/-- The call has found nothing that was fresh when it checked. -/
structure Missed (ttl : ℕ) (tr : List (Transition CachedPool StatsTurn Unit)) (i now : ℕ)
    (cache : TimedCache NodeGetVolumeStatsResponse) (volumeId : String) (checked : ℕ) : Prop where
  meets : Meets tr i StatsPool.now checked
  le : checked ≤ now
  get : cache.get ttl checked volumeId = none

/-- What call `i` knows while it is the only one. -/
inductive Progress (ttl : ℕ) (tr : List (Transition CachedPool StatsTurn Unit)) (i now : ℕ)
    (cache : TimedCache NodeGetVolumeStatsResponse) (volumeId volumePath : String) :
    AtomicPhase → Prop where
  | get : Progress ttl tr i now cache volumeId volumePath .get
  | check : Progress ttl tr i now cache volumeId volumePath (.check (cache volumeId))
  | measure {checked : ℕ} : Missed ttl tr i now cache volumeId checked →
      Progress ttl tr i now cache volumeId volumePath (.rest .measure)
  | stamp {checked : ℕ} {state : PathState} {resp : NodeGetVolumeStatsResponse} :
      Missed ttl tr i now cache volumeId checked →
      Meets tr i (fun w => w.paths volumePath) state →
      NfsLbCsi.measure volumePath state = .ok resp →
      Progress ttl tr i now cache volumeId volumePath (.rest (.stamp resp))
  | set {m : StatsMoments} {resp : NodeGetVolumeStatsResponse} : Met tr i volumePath m →
      cache.get ttl m.checked volumeId = none → NfsLbCsi.measure volumePath m.state = .ok resp →
      Progress ttl tr i now cache volumeId volumePath (.rest (.set resp m.stored))

section

variable {ttl i now : ℕ} {tr : List (Transition CachedPool StatsTurn Unit)}
  {cache : TimedCache NodeGetVolumeStatsResponse} {volumeId volumePath : String}

theorem Missed.later {now' checked : ℕ} (h : Missed ttl tr i now cache volumeId checked)
    (t : Transition CachedPool StatsTurn Unit) (hle : now ≤ now') :
    Missed ttl (tr ++ [t]) i now' cache volumeId checked :=
  ⟨h.meets.mono t, h.le.trans hle, h.get⟩

theorem Progress.later {now' : ℕ} {phase : AtomicPhase}
    (h : Progress ttl tr i now cache volumeId volumePath phase)
    (t : Transition CachedPool StatsTurn Unit) (hle : now ≤ now') :
    Progress ttl (tr ++ [t]) i now' cache volumeId volumePath phase := by
  cases h with
  | get => exact .get
  | check => exact .check
  | measure hmiss => exact .measure (hmiss.later t hle)
  | stamp hmiss hstate hm => exact .stamp (hmiss.later t hle) (hstate.mono t) hm
  | set hmet hget hm => exact .set (hmet.mono t) hget hm

variable {m : StatsMoments} {resp : NodeGetVolumeStatsResponse}

theorem nodeGetVolumeStatsAt_hit (hid : volumeId ≠ "") (hpath : volumePath ≠ "")
    (hget : cache.get ttl m.checked volumeId = some resp) :
    nodeGetVolumeStatsAt ttl m volumeId volumePath cache = (.ok resp, cache) := by
  simp only [nodeGetVolumeStatsAt, if_neg hid, if_neg hpath, hget]

theorem nodeGetVolumeStatsAt_failed (hid : volumeId ≠ "") (hpath : volumePath ≠ "")
    (hget : cache.get ttl m.checked volumeId = none) {err : RpcError}
    (hm : NfsLbCsi.measure volumePath m.state = .error err) :
    nodeGetVolumeStatsAt ttl m volumeId volumePath cache = (.error err, cache) := by
  simp only [nodeGetVolumeStatsAt, if_neg hid, if_neg hpath, hget, hm]

theorem nodeGetVolumeStatsAt_measured (hid : volumeId ≠ "") (hpath : volumePath ≠ "")
    (hget : cache.get ttl m.checked volumeId = none)
    (hm : NfsLbCsi.measure volumePath m.state = .ok resp) :
    nodeGetVolumeStatsAt ttl m volumeId volumePath cache
      = (.ok resp, cache.set m.stored volumeId resp) := by
  simp only [nodeGetVolumeStatsAt, if_neg hid, if_neg hpath, hget, hm]

/-- **One step of the only call**: it knows more, or it returns what the function returns. -/
theorem atomicAct_progress {t : Transition CachedPool StatsTurn Unit} {call : StatsCall AtomicPhase}
    {phase : AtomicPhase} {f : TimedCache NodeGetVolumeStatsResponse} (ht : stepOf i t = true)
    (hid : call.volumeId ≠ "") (hpath : call.volumePath ≠ "")
    (h : Progress ttl tr i t.pre.now cache call.volumeId call.volumePath call.phase)
    (hact : atomicAct ttl t.pre.now t.pre.paths call cache = some (phase, f)) :
    (f = cache ∧ phase.answer = none ∧
        Progress ttl (tr ++ [t]) i t.pre.now cache call.volumeId call.volumePath phase) ∨
      ∃ m out, phase = .rest (.done out) ∧ Met (tr ++ [t]) i call.volumePath m ∧
        nodeGetVolumeStatsAt ttl m call.volumeId call.volumePath cache = (out, f) := by
  unfold atomicAct at hact
  generalize call.phase = phase₀ at h hact
  cases h with
  | get => cases hact; exact Or.inl ⟨rfl, rfl, .check⟩
  | check =>
      simp only [← TimedCache.get_eq_freshValue] at hact
      cases hget : cache.get ttl t.pre.now call.volumeId with
      | some resp =>
          rw [hget] at hact
          cases hact
          exact Or.inr ⟨_, _, rfl, met_last ht _, nodeGetVolumeStatsAt_hit hid hpath hget⟩
      | none =>
          rw [hget] at hact
          cases hact
          exact Or.inl ⟨rfl, rfl, .measure ⟨meets_last ht _, le_refl _, hget⟩⟩
  | @measure checked hmiss =>
      have hstate : Meets (tr ++ [t]) i (fun w => w.paths call.volumePath)
          (t.pre.paths call.volumePath) := meets_last ht (fun w => w.paths call.volumePath)
      cases hm : NfsLbCsi.measure call.volumePath (t.pre.paths call.volumePath) with
      | error err =>
          simp only [StatsRest.act, hm] at hact
          cases hact
          exact Or.inr ⟨⟨checked, t.pre.paths call.volumePath, t.pre.now⟩, _, rfl,
            ⟨hmiss.meets.mono t, hstate, meets_last ht _, hmiss.le⟩,
            nodeGetVolumeStatsAt_failed hid hpath hmiss.get hm⟩
      | ok resp =>
          simp only [StatsRest.act, hm] at hact
          cases hact
          exact Or.inl ⟨rfl, rfl, .stamp (hmiss.later t (le_refl _)) hstate hm⟩
  | @stamp checked state resp hmiss hstate hm =>
      cases hact
      exact Or.inl ⟨rfl, rfl, .set (m := ⟨checked, state, t.pre.now⟩)
        ⟨hmiss.meets.mono t, hstate.mono t, meets_last ht _, hmiss.le⟩ hmiss.get hm⟩
  | set hmet hget hm =>
      cases hact
      exact Or.inr ⟨_, _, rfl, hmet.mono t, nodeGetVolumeStatsAt_measured hid hpath hget hm⟩

end

/-- The call has come in and not returned. -/
structure Begun (ttl : ℕ) (tr : List (Transition CachedPool StatsTurn Unit)) (i : ℕ)
    (a : AtomicPool) (call : StatsCall AtomicPhase) : Prop where
  unanswered : call.phase.answer = none
  volumeId : call.volumeId ≠ ""
  volumePath : call.volumePath ≠ ""
  progress : Progress ttl tr i a.now a.cache call.volumeId call.volumePath call.phase

/-- The calls are visits, one after the other, and at most one that has begun. -/
structure Serial (ttl : ℕ) (tr : List (Transition CachedPool StatsTurn Unit)) (vs : List StatsVisit)
    (a : AtomicPool) : Prop where
  path : Path (StatsVisit.Next ttl) .empty vs a.cache
  met : ∀ (i : ℕ) (v : StatsVisit), vs[i]? = some v → Met tr i v.volumePath v.moments
  calls : a.calls = vs.map StatsVisit.call ∨
    ∃ call, a.calls = vs.map StatsVisit.call ++ [call] ∧ Begun ttl tr vs.length a call

section

variable {ttl : ℕ} {tr : List (Transition CachedPool StatsTurn Unit)} {vs : List StatsVisit}
  {a a' : AtomicPool} {t : Transition CachedPool StatsTurn Unit}

theorem serial_initial (ttl now : ℕ) (paths : String → PathState) :
    Serial ttl [] [] (.initial .empty now paths) :=
  ⟨.nil, by simp, Or.inl rfl⟩

theorem getElem?_snoc_cases {α : Type} {l : List α} {x y : α} {i : ℕ}
    (h : (l ++ [x])[i]? = some y) : l[i]? = some y ∨ (i = l.length ∧ y = x) := by
  rw [List.getElem?_append] at h
  split at h
  · exact Or.inl h
  · rename_i hi
    obtain ⟨hlt, hy⟩ := List.getElem?_eq_some_iff.mp h
    rw [List.length_singleton] at hlt
    exact Or.inr ⟨by omega, by rw [← hy, List.getElem_singleton]⟩

/-- The call that has not returned is the last one. -/
theorem Serial.begun (h : Serial ttl tr vs a) {i : ℕ} {call : StatsCall AtomicPhase}
    (hcall : a.calls[i]? = some call) (hnone : call.phase.answer = none) :
    i = vs.length ∧ a.calls = vs.map StatsVisit.call ++ [call] ∧ Begun ttl tr i a call := by
  have hvisits : ∀ j : ℕ, (vs.map StatsVisit.call)[j]? ≠ some call := by
    intro j hj
    obtain ⟨v, -, rfl⟩ := List.mem_map.mp (List.mem_of_getElem? hj)
    cases hnone
  rcases h.calls with hall | ⟨call', hcalls, hbegun⟩
  · rw [hall] at hcall
    exact absurd hcall (hvisits i)
  · rw [hcalls] at hcall
    rcases getElem?_snoc_cases hcall with hvisit | ⟨hi, rfl⟩
    · exact absurd hvisit (hvisits i)
    · rw [List.length_map] at hi
      subst hi
      exact ⟨rfl, hcalls, hbegun⟩

/-- Time goes by, and other things happen. -/
theorem Serial.later (h : Serial ttl tr vs a) (t : Transition CachedPool StatsTurn Unit)
    (hcache : a'.cache = a.cache) (hcalls : a'.calls = a.calls) (hnow : a.now ≤ a'.now) :
    Serial ttl (tr ++ [t]) vs a' := by
  refine ⟨hcache ▸ h.path, fun i v hv => (h.met i v hv).mono t, ?_⟩
  rw [hcalls]
  refine h.calls.imp_right ?_
  rintro ⟨call, hlast, hbegun⟩
  refine ⟨call, hlast, hbegun.unanswered, hbegun.volumeId, hbegun.volumePath, ?_⟩
  rw [hcache]
  exact hbegun.progress.later t hnow

/-- One more visit. -/
theorem Serial.snoc (h : Serial ttl tr vs a) {v : StatsVisit} (hnext : v.Next ttl a.cache a'.cache)
    (hcalls : a'.calls = vs.map StatsVisit.call ++ [v.call])
    (hmet : Met (tr ++ [t]) vs.length v.volumePath v.moments) :
    Serial ttl (tr ++ [t]) (vs ++ [v]) a' := by
  refine ⟨h.path.snoc hnext, fun i v' hv' => ?_, Or.inl ?_⟩
  · rcases getElem?_snoc_cases hv' with hold | ⟨rfl, rfl⟩
    · exact (h.met i v' hold).mono t
    · exact hmet
  · rw [hcalls, List.map_append, List.map_singleton]

/-- A new call. One with an empty argument returns at once. -/
theorem Serial.call (h : Serial ttl tr vs a) (hall : ∀ call ∈ a.calls, call.phase.answer ≠ none)
    (ht : stepOf a.calls.length t = true) {volumeId volumePath : String}
    (hnext : AtomicNext ttl a (.call volumeId volumePath) a') :
    ∃ vs', Serial ttl (tr ++ [t]) vs' a' := by
  cases hnext
  have hvisits : a.calls = vs.map StatsVisit.call := by
    rcases h.calls with hvisits | ⟨call, hcalls, hbegun⟩
    · exact hvisits
    · exact absurd hbegun.unanswered (hall call (by rw [hcalls]; simp))
  have hlength : a.calls.length = vs.length := by rw [hvisits, List.length_map]
  rw [hlength] at ht
  have hreturn : ∀ out, (atomicStats ttl).start volumeId volumePath = .rest (.done out) →
      (∀ m, nodeGetVolumeStatsAt ttl m volumeId volumePath a.cache = (out, a.cache)) →
      ∃ vs', Serial ttl (tr ++ [t]) vs' { a with calls := a.calls ++
        [⟨volumeId, volumePath, (atomicStats ttl).start volumeId volumePath⟩] } := by
    intro out hstart hstats
    refine ⟨_, h.snoc (v := ⟨volumeId, volumePath, _, out⟩) (hstats _) ?_ (met_last ht volumePath)⟩
    rw [hvisits, hstart]
    rfl
  by_cases hid : volumeId = ""
  · exact hreturn _ (if_pos hid) (fun m => if_pos hid)
  · by_cases hpath : volumePath = ""
    · exact hreturn _ ((if_neg hid).trans (if_pos hpath))
        (fun m => (if_neg hid).trans (if_pos hpath))
    · refine ⟨vs, h.path, fun i v hv => (h.met i v hv).mono t, Or.inr ⟨_, by rw [hvisits], ?_⟩⟩
      simp only [StatsMachine.start, if_neg hid, if_neg hpath]
      exact ⟨rfl, hid, hpath, .get⟩

theorem atomicAct_unfinished {now : ℕ} {paths : String → PathState} {call : StatsCall AtomicPhase}
    {f f' : TimedCache NodeGetVolumeStatsResponse} {phase : AtomicPhase}
    (hact : atomicAct ttl now paths call f = some (phase, f')) : call.phase.answer = none := by
  unfold atomicAct at hact
  split at hact
  · rename_i hphase
    rw [hphase]
    rfl
  · rename_i hphase
    rw [hphase]
    rfl
  · rename_i r hphase
    rw [hphase]
    cases r with
    | done out => cases hact
    | measure => rfl
    | stamp resp => rfl
    | set resp createdOn => rfl

/-- Call `i` goes on, or returns. -/
theorem Serial.act (h : Serial ttl tr vs a) {i : ℕ} (ht : stepOf i t = true)
    (hnow : a.now = t.pre.now)
    (hpaths : a.paths = t.pre.paths) (hnext : AtomicNext ttl a (.act i) a') :
    ∃ vs', Serial ttl (tr ++ [t]) vs' a' := by
  cases StatsMachine.step_iff.mp hnext with
  | @act _ call phase f hcall hact =>
      obtain ⟨rfl, hcalls, hbegun⟩ := h.begun hcall (atomicAct_unfinished hact)
      have hset : a.calls.set vs.length { call with phase := phase }
          = vs.map StatsVisit.call ++ [{ call with phase := phase }] := by
        rw [hcalls, List.set_append_right _ _ (by rw [List.length_map]),
          List.length_map, Nat.sub_self]
        rfl
      have hprogress := hbegun.progress
      have hact : atomicAct ttl t.pre.now t.pre.paths call a.cache = some (phase, f) := by
        rw [← hnow, ← hpaths]
        exact hact
      rw [hnow] at hprogress
      rcases atomicAct_progress ht hbegun.volumeId hbegun.volumePath hprogress hact with
        ⟨rfl, hnone, hprogress'⟩ | ⟨m, out, rfl, hmet, hstats⟩
      · refine ⟨vs, h.path, fun i v hv => (h.met i v hv).mono t, Or.inr ⟨_, hset, hnone,
          hbegun.volumeId, hbegun.volumePath, ?_⟩⟩
        rw [← hnow] at hprogress'
        exact hprogress'
      · exact ⟨_, h.snoc (v := ⟨call.volumeId, call.volumePath, m, out⟩) hstats hset hmet⟩

theorem Serial.answers (h : Serial ttl tr vs a) : ∃ begun : Option (String × String),
    a.answers AtomicPhase.answer
      = vs.map StatsVisit.answer ++ begun.toList.map (fun call => (call.1, call.2, none)) := by
  rcases h.calls with hcalls | ⟨call, hcalls, hbegun⟩
  · refine ⟨none, ?_⟩
    rw [StatsPool.answers, hcalls, List.map_map]
    exact (List.append_nil _).symm
  · refine ⟨some (call.volumeId, call.volumePath), ?_⟩
    rw [StatsPool.answers, hcalls, List.map_append, List.map_map, List.map_singleton,
      hbegun.unanswered]
    rfl

end

theorem visible_eq {t : Transition CachedPool StatsTurn Unit} {e : StatsTurn}
    (h : visible t = some e) : e = t.event := by
  obtain ⟨w, e', o, w'⟩ := t
  cases e' with
  | act i =>
      simp only [visible] at h
      split at h
      · cases h
      · exact (Option.some.inj h).symm
  | _ => exact (Option.some.inj h).symm

theorem Simulates.all_answered {ttl : ℕ} {w : CachedPool} {a : AtomicPool} (h : Simulates ttl w a)
    (hall : ∀ call ∈ w.calls, call.phase.answer ≠ none) :
    ∀ call ∈ a.calls, call.phase.answer ≠ none := by
  intro call' hcall'
  obtain ⟨i, hi⟩ := List.mem_iff_getElem?.mp hcall'
  have hlt : i < w.calls.length := h.length ▸ (List.getElem?_eq_some_iff.mp hi).1
  have hcall := List.getElem?_eq_getElem hlt
  rw [(h.calls i _ call' hcall hi).2.2.answer]
  exact hall _ (List.mem_of_getElem? hcall)

/-- A call comes in only while no other is unfinished. -/
def oneAtATime (t : Transition CachedPool StatsTurn Unit) : Bool :=
  match t.event with
  | .call _ _ => t.pre.calls.all (fun call => call.phase.answer.isSome)
  | _ => true

/-- **One step.** The pool of calls that do not overlap goes on as a pool of visits. -/
theorem Serial.step {ttl : ℕ} {tr : List (Transition CachedPool StatsTurn Unit)}
    {vs : List StatsVisit}
    {a a' : AtomicPool} {t : Transition CachedPool StatsTurn Unit} (h : Serial ttl tr vs a)
    (hsim : Simulates ttl t.pre a) (hmatch : Matches (AtomicNext ttl) a (visible t) a')
    (hclock : forward t = true) (hone : oneAtATime t = true) :
    ∃ vs', Serial ttl (tr ++ [t]) vs' a' := by
  cases hvisible : visible t with
  | none =>
      rw [hvisible] at hmatch
      obtain rfl : a' = a := hmatch
      exact ⟨vs, h.later t rfl rfl (le_refl _)⟩
  | some e =>
      rw [hvisible] at hmatch
      obtain rfl := visible_eq hvisible
      have hmatch : AtomicNext ttl a t.event a' := hmatch
      cases hevent : t.event with
      | call volumeId volumePath =>
          rw [hevent] at hmatch
          rw [oneAtATime, hevent] at hone
          have hall : ∀ call ∈ t.pre.calls, call.phase.answer ≠ none := fun call hcall =>
            Option.isSome_iff_ne_none.mp (List.all_eq_true.mp hone call hcall)
          refine h.call (hsim.all_answered hall) ?_ hmatch
          rw [stepOf, hevent]
          exact decide_eq_true hsim.length.symm
      | act i =>
          rw [hevent] at hmatch
          refine h.act ?_ hsim.now hsim.paths hmatch
          rw [stepOf, hevent]
          exact decide_eq_true rfl
      | change path state =>
          rw [hevent] at hmatch
          cases hmatch
          exact ⟨vs, h.later t rfl rfl (le_refl _)⟩
      | clock now =>
          rw [hevent] at hmatch
          cases hmatch
          refine ⟨vs, h.later t rfl rfl ?_⟩
          rw [hsim.now]
          exact le_of_forward hclock hevent

/-- **One call after the other.** When a call comes in only while no other is unfinished, and the
clock does not go back, the calls that have returned are visits to a map with a lifetime, one after
the other: what a call returns and leaves in the cache is `nodeGetVolumeStatsAt` of the cache that
the calls before it have left, at the times that the clock has shown and for the state that its path
has had in steps of its own. The clock and the file system may change at any time. -/
theorem stats_cache_serial {ttl now₀ : ℕ} {paths₀ : String → PathState}
    {tr : List (Transition CachedPool StatsTurn Unit)} {w : CachedPool}
    (hrun : Run (cachedStats ttl).step (.initial .empty now₀ paths₀) tr w)
    (hclock : ∀ t ∈ tr, forward t = true) (hserial : ∀ t ∈ tr, oneAtATime t = true) :
    ∃ (vs : List StatsVisit) (cache : TimedCache NodeGetVolumeStatsResponse)
      (begun : Option (String × String)), Path (StatsVisit.Next ttl) .empty vs cache ∧
      (∀ i v, vs[i]? = some v → Met tr i v.volumePath v.moments) ∧
      w.answers StatsPhase.answer
        = vs.map StatsVisit.answer ++ begun.toList.map (fun call => (call.1, call.2, none)) ∧
      ∀ key, w.cache.peek ttl w.now key = cache.get ttl w.now key := by
  have hsim : ∃ a vs, Simulates ttl w a ∧ Serial ttl tr vs a := by
    refine Run.traceInvariant (I := fun tr w => ∃ a vs, Simulates ttl w a ∧ Serial ttl tr vs a)
      (P := fun t => forward t = true ∧ oneAtATime t = true) ?_ ?_ hrun
      (fun t ht => ⟨hclock t ht, hserial t ht⟩)
    · exact ⟨_, [], simulates_initial ttl now₀ paths₀, serial_initial ttl now₀ paths₀⟩
    · rintro tr t - hstep ⟨hclock, hone⟩ - ⟨a, vs, hsim, hvisits⟩
      obtain ⟨a', hmatch, hsim'⟩ := hsim.step (StatsMachine.step_iff.mp hstep)
        (fun _ => le_of_forward hclock)
      obtain ⟨vs', hvisits'⟩ := hvisits.step hsim hmatch hclock hone
      exact ⟨a', vs', hsim', hvisits'⟩
  obtain ⟨a, vs, hsim, hvisits⟩ := hsim
  obtain ⟨begun, hanswers⟩ := hvisits.answers
  exact ⟨vs, a.cache, begun, hvisits.path, hvisits.met, hsim.answers_eq ▸ hanswers,
    fun key => (hsim.cache key).peek_eq⟩

/-- A call that takes its time, another one that finds its value, and a third one that begins while
the value is fresh and checks it when it has expired. -/
def serialTurns : List StatsTurn :=
  [.call "v" "/a", .act 0, .clock 1, .act 0, .act 0, .act 0, .act 0, .act 0, .act 0, .clock 2,
   .act 0, .clock 3, .act 0, .call "v" "/b", .clock 11, .act 1, .act 1, .call "v" "/b", .act 2,
   .clock 12, .act 2, .act 2, .change "/b" .absent, .act 2, .act 2]

theorem stats_cache_serial_serialTurns :
    ∃ (tr : List (Transition CachedPool StatsTurn Unit)) (w : CachedPool) (vs : List StatsVisit)
      (cache : TimedCache NodeGetVolumeStatsResponse),
      Run (cachedStats 10).step (.initial .empty 0 twoPaths) tr w ∧
      Path (StatsVisit.Next 10) .empty vs cache ∧
      vs.map StatsVisit.answer = [("v", "/a", some (.ok (uniformUsage 1))),
        ("v", "/b", some (.ok (uniformUsage 1))), ("v", "/b", some (.ok (uniformUsage 2)))] := by
  obtain ⟨tr, w, hrun, hp⟩ := exists_overlap serialTurns (fun tr w => tr.all forward &&
    tr.all oneAtATime && decide (w.answers StatsPhase.answer =
      [("v", "/a", some (.ok (uniformUsage 1))), ("v", "/b", some (.ok (uniformUsage 1))),
        ("v", "/b", some (.ok (uniformUsage 2)))])) (by decide)
  simp only [Bool.and_eq_true, decide_eq_true_eq, List.all_eq_true] at hp
  obtain ⟨vs, cache, begun, hpath, -, hanswers, -⟩ := stats_cache_serial hrun hp.1.1 hp.1.2
  refine ⟨tr, w, vs, cache, hrun, hpath, ?_⟩
  rw [hp.2] at hanswers
  cases begun with
  | none => exact (hanswers.trans (List.append_nil _)).symm
  | some call =>
      -- the last of the three calls has returned
      have hlast := congrArg List.getLast? hanswers
      simp at hlast

/-! ## Where an answer comes from -/

/-- Call `i` measures its path in the step. -/
def Measures (t : Transition CachedPool StatsTurn Unit) (i : ℕ) (volumeId volumePath : String)
    (resp : NodeGetVolumeStatsResponse) : Prop :=
  t.event = .act i ∧ t.pre.calls[i]? = some ⟨volumeId, volumePath, .rest .measure⟩ ∧
    NfsLbCsi.measure volumePath (t.pre.paths volumePath) = .ok resp

/-- Call `i` takes the time for its `Set` in the step. -/
def Stamps (t : Transition CachedPool StatsTurn Unit) (i : ℕ) (volumeId volumePath : String)
    (resp : NodeGetVolumeStatsResponse) (time : ℕ) : Prop :=
  t.event = .act i ∧ t.pre.calls[i]? = some ⟨volumeId, volumePath, .rest (.stamp resp)⟩ ∧
    t.pre.now = time

/-- A call has measured the value for the volume, and the clock showed `time` when the same call was
about to store it. -/
def MeasuredAt (tr : List (Transition CachedPool StatsTurn Unit)) (volumeId : String)
    (resp : NodeGetVolumeStatsResponse) (time : ℕ) : Prop :=
  ∃ i volumePath, (∃ t ∈ tr, Measures t i volumeId volumePath resp) ∧
    ∃ t ∈ tr, Stamps t i volumeId volumePath resp time

namespace EntryCache

variable {V : Type} {c : EntryCache V} {Q : String → V → ℕ → Prop} {entry : ℕ} {key : String}

/-- The entry is there, and it is one for the key. -/
def Keyed (c : EntryCache V) (entry : ℕ) (key : String) : Prop :=
  ∃ e, c.entries[entry]? = some e ∧ e.key = key

/-- All data satisfies `Q`, and the store has entries under their keys. -/
structure Sound (Q : String → V → ℕ → Prop) (c : EntryCache V) : Prop where
  data : ∀ e ∈ c.entries, ∀ v, e.data = some v → Q e.key v e.createdOn
  store : ∀ key entry, c.store key = some entry → c.Keyed entry key

theorem Keyed.add (h : c.Keyed entry key) (e : CacheEntry V) : (c.add e).Keyed entry key := by
  obtain ⟨e', he', hkey⟩ := h
  have hlt : entry < c.entries.length := (List.getElem?_eq_some_iff.mp he').1
  exact ⟨e', by rw [show (c.add e).entries = c.entries ++ [e] from rfl,
    List.getElem?_append_left hlt, he'], hkey⟩

theorem keyed_add_self (c : EntryCache V) (e : CacheEntry V) :
    (c.add e).Keyed c.entries.length e.key :=
  ⟨e, List.getElem?_concat_length, rfl⟩

theorem Sound.add (h : c.Sound Q) {e : CacheEntry V}
    (he : ∀ v, e.data = some v → Q e.key v e.createdOn) : (c.add e).Sound Q where
  data := by
    intro e' he' v hv
    rcases List.mem_append.mp he' with hold | hnew
    · exact h.data e' hold v hv
    · obtain rfl := List.mem_singleton.mp hnew
      exact he v hv
  store := by
    intro key entry hentry
    rw [add_store] at hentry
    split at hentry
    · rename_i hkey
      obtain rfl := Option.some.inj hentry
      rw [hkey]
      exact keyed_add_self c e
    · exact (h.store key entry hentry).add e

/-- **Reading an entry** of a sound cache. -/
theorem Sound.read (ttl now : ℕ) (h : c.Sound Q) (hentry : c.Keyed entry key) :
    ∃ found c', c.read ttl now entry = (found, c') ∧ c'.Sound Q ∧
      (∀ entry' key', c.Keyed entry' key' → c'.Keyed entry' key') ∧
      ∀ v, found = some v → ∃ time, Q key v time ∧ now < time + ttl := by
  obtain ⟨e, he, rfl⟩ := hentry
  cases hdata : e.data.filter (fun _ => decide (now < e.createdOn + ttl)) with
  | some v =>
      obtain ⟨hv, hfresh⟩ := Option.filter_eq_some_iff.mp hdata
      refine ⟨some v, c, by simp only [EntryCache.read, he, hdata], h, fun _ _ hk => hk, ?_⟩
      intro v' hv'
      obtain rfl := Option.some.inj hv'
      exact ⟨e.createdOn, h.data e (List.mem_of_getElem? he) v hv, of_decide_eq_true hfresh⟩
  | none =>
      have hlt : entry < c.entries.length := (List.getElem?_eq_some_iff.mp he).1
      have hkeyed : ∀ entry' key', c.Keyed entry' key' → EntryCache.Keyed
          { c with entries := c.entries.set entry { e with data := none, createdOn := now } }
          entry' key' := by
        rintro entry' key' ⟨e', he', hkey'⟩
        by_cases hentry : entry = entry'
        · subst hentry
          obtain rfl := Option.some.inj (he.symm.trans he')
          exact ⟨_, List.getElem?_set_self hlt, hkey'⟩
        · exact ⟨e', by rw [List.getElem?_set_ne hentry, he'], hkey'⟩
      refine ⟨none, _, by simp only [EntryCache.read, he, hdata], ⟨?_, ?_⟩, hkeyed, by rintro _ ⟨⟩⟩
      · intro e' he' v hv
        rcases List.mem_or_eq_of_mem_set he' with hold | rfl
        · exact h.data e' hold v hv
        · cases hv
      · exact fun key' entry' hstore => hkeyed entry' key' (h.store key' entry' hstore)

end EntryCache

/-- What an unfinished call has: an entry for its volume, what it has measured (`M`), and the time
at which it was about to be stored (`Q`). -/
inductive Knows (M : NodeGetVolumeStatsResponse → Prop) (Q : NodeGetVolumeStatsResponse → ℕ → Prop)
    (c : EntryCache NodeGetVolumeStatsResponse) (key : String) : StatsPhase → Prop where
  | look : Knows M Q c key .look
  | lock : Knows M Q c key .lock
  | relook : Knows M Q c key .relook
  | add : Knows M Q c key .add
  | unlock {entry : ℕ} : c.Keyed entry key → Knows M Q c key (.unlock entry)
  | read {entry : ℕ} : c.Keyed entry key → Knows M Q c key (.read entry)
  | measure : Knows M Q c key (.rest .measure)
  | stamp {resp : NodeGetVolumeStatsResponse} : M resp → Knows M Q c key (.rest (.stamp resp))
  | set {resp : NodeGetVolumeStatsResponse} {createdOn : ℕ} : M resp → Q resp createdOn →
      Knows M Q c key (.rest (.set resp createdOn))
  | done {out : Except RpcError NodeGetVolumeStatsResponse} : Knows M Q c key (.rest (.done out))

/-- Why a call may return what it returns: it has measured it, the cache had it and it was fresh, or
the path cannot be measured now. -/
inductive Justified (ttl now : ℕ) (M : NodeGetVolumeStatsResponse → Prop)
    (Q : NodeGetVolumeStatsResponse → ℕ → Prop) (volumePath : String) (state : PathState) :
    Except RpcError NodeGetVolumeStatsResponse → Prop where
  | measured {resp : NodeGetVolumeStatsResponse} : M resp →
      Justified ttl now M Q volumePath state (.ok resp)
  | cached {resp : NodeGetVolumeStatsResponse} {time : ℕ} : Q resp time → now < time + ttl →
      Justified ttl now M Q volumePath state (.ok resp)
  | failed {err : RpcError} : NfsLbCsi.measure volumePath state = .error err →
      Justified ttl now M Q volumePath state (.error err)

section

variable {ttl now i : ℕ} {paths : String → PathState} {call : StatsCall StatsPhase}
  {c c' : EntryCache NodeGetVolumeStatsResponse} {phase : StatsPhase}
  {M : NodeGetVolumeStatsResponse → Prop} {Q : String → NodeGetVolumeStatsResponse → ℕ → Prop}

theorem Knows.mono {M' : NodeGetVolumeStatsResponse → Prop}
    {q q' : NodeGetVolumeStatsResponse → ℕ → Prop} {key : String} (h : Knows M q c key phase)
    (hM : ∀ resp, M resp → M' resp) (hq : ∀ resp time, q resp time → q' resp time)
    (hkeyed : ∀ entry key, c.Keyed entry key → c'.Keyed entry key) : Knows M' q' c' key phase := by
  cases h with
  | look => exact .look
  | lock => exact .lock
  | relook => exact .relook
  | add => exact .add
  | unlock hk => exact .unlock (hkeyed _ _ hk)
  | read hk => exact .read (hkeyed _ _ hk)
  | measure => exact .measure
  | stamp hm => exact .stamp (hM _ hm)
  | set hm hs => exact .set (hM _ hm) (hq _ _ hs)
  | done => exact .done

/-- Nothing is to be shown about the answer of a call that has not returned. -/
theorem StatsPhase.not_done {phase : StatsPhase}
    {p : Except RpcError NodeGetVolumeStatsResponse → Prop}
    (h : phase.answer = none) : ∀ out, phase = .rest (.done out) → p out := by
  rintro out rfl
  cases h

/-- **One step of one call**: the cache stays sound, and what the call returns is justified. -/
theorem cachedAct_knows (hc : c.Sound Q) (h : Knows M (Q call.volumeId) c call.volumeId call.phase)
    (hmeasure : ∀ resp, call.phase = .rest .measure →
      NfsLbCsi.measure call.volumePath (paths call.volumePath) = .ok resp → M resp)
    (hstamp : ∀ resp, call.phase = .rest (.stamp resp) → Q call.volumeId resp now)
    (hact : cachedAct ttl now paths i call c = some (phase, c')) :
    c'.Sound Q ∧ (∀ entry key, c.Keyed entry key → c'.Keyed entry key) ∧
      Knows M (Q call.volumeId) c' call.volumeId phase ∧
      ∀ out, phase = .rest (.done out) → Justified ttl now M (Q call.volumeId) call.volumePath
        (paths call.volumePath) out := by
  unfold cachedAct at hact
  generalize call.phase = phase₀ at h hact hmeasure hstamp
  cases h with
  | look =>
      cases hstore : c.store call.volumeId with
      | none =>
          simp only [hstore] at hact
          cases hact
          exact ⟨hc, fun _ _ hk => hk, .lock, StatsPhase.not_done rfl⟩
      | some entry =>
          simp only [hstore] at hact
          cases hact
          exact ⟨hc, fun _ _ hk => hk, .read (hc.store _ _ hstore), StatsPhase.not_done rfl⟩
  | lock =>
      simp only at hact
      split at hact
      · cases hact
        exact ⟨⟨hc.data, hc.store⟩, fun _ _ hk => hk, .relook, StatsPhase.not_done rfl⟩
      · cases hact
  | relook =>
      cases hstore : c.store call.volumeId with
      | none =>
          simp only [hstore] at hact
          cases hact
          exact ⟨hc, fun _ _ hk => hk, .add, StatsPhase.not_done rfl⟩
      | some entry =>
          simp only [hstore] at hact
          cases hact
          exact ⟨hc, fun _ _ hk => hk, .unlock (hc.store _ _ hstore), StatsPhase.not_done rfl⟩
  | add =>
      cases hact
      exact ⟨hc.add (by rintro _ ⟨⟩), fun _ _ hk => hk.add _, .unlock (c.keyed_add_self _),
        StatsPhase.not_done rfl⟩
  | unlock hk =>
      cases hact
      exact ⟨⟨hc.data, hc.store⟩, fun _ _ hk => hk, .read hk, StatsPhase.not_done rfl⟩
  | read hk =>
      obtain ⟨found, c₁, hread, hsound, hkeyed, hfresh⟩ := EntryCache.Sound.read ttl now hc hk
      simp only [hread] at hact
      cases found with
      | none =>
          cases hact
          exact ⟨hsound, hkeyed, .measure, StatsPhase.not_done rfl⟩
      | some resp =>
          cases hact
          obtain ⟨time, hrecorded, hlt⟩ := hfresh resp rfl
          refine ⟨hsound, hkeyed, .done, fun out hout => ?_⟩
          cases hout
          exact .cached hrecorded hlt
  | measure =>
      cases hm : NfsLbCsi.measure call.volumePath (paths call.volumePath) with
      | error err =>
          simp only [StatsRest.act, hm] at hact
          cases hact
          refine ⟨hc, fun _ _ hk => hk, .done, fun out hout => ?_⟩
          cases hout
          exact .failed hm
      | ok resp =>
          simp only [StatsRest.act, hm] at hact
          cases hact
          exact ⟨hc, fun _ _ hk => hk, .stamp (hmeasure resp rfl hm), StatsPhase.not_done rfl⟩
  | stamp hm =>
      cases hact
      exact ⟨hc, fun _ _ hk => hk, .set hm (hstamp _ rfl), StatsPhase.not_done rfl⟩
  | @set resp createdOn hm hs =>
      cases hact
      refine ⟨hc.add ?_, fun _ _ hk => hk.add _, .done, fun out hout => ?_⟩
      · intro v hv
        obtain rfl := Option.some.inj hv
        exact hs
      · cases hout
        exact .measured hm
  | done => cases hact

end

theorem MeasuredAt.mono {tr : List (Transition CachedPool StatsTurn Unit)}
    {t : Transition CachedPool StatsTurn Unit} {volumeId : String}
    {resp : NodeGetVolumeStatsResponse}
    {time : ℕ} (h : MeasuredAt tr volumeId resp time) :
    MeasuredAt (tr ++ [t]) volumeId resp time := by
  obtain ⟨i, volumePath, ⟨u, hu, hmeasures⟩, ⟨v, hv, hstamps⟩⟩ := h
  exact ⟨i, volumePath, ⟨u, List.mem_append_left _ hu, hmeasures⟩,
    ⟨v, List.mem_append_left _ hv, hstamps⟩⟩

/-- What is known after the steps `tr`: everything in the cache and in the hands of the calls was
measured and stamped in them. -/
structure Fresh (tr : List (Transition CachedPool StatsTurn Unit)) (w : CachedPool) : Prop where
  cache : w.cache.Sound (MeasuredAt tr)
  calls : ∀ (i : ℕ) (call : StatsCall StatsPhase), w.calls[i]? = some call →
    Knows (fun resp => ∃ t ∈ tr, Measures t i call.volumeId call.volumePath resp)
      (MeasuredAt tr call.volumeId) w.cache call.volumeId call.phase

section

variable {ttl : ℕ} {tr : List (Transition CachedPool StatsTurn Unit)} {w w' : CachedPool}

/-- The knowledge after one more step `t` in which the cache becomes `c'`. -/
theorem Fresh.later (h : Fresh tr w) (t : Transition CachedPool StatsTurn Unit)
    {c' : EntryCache NodeGetVolumeStatsResponse}
    (hkeyed : ∀ entry key, w.cache.Keyed entry key → c'.Keyed entry key) {i : ℕ}
    {call : StatsCall StatsPhase} (hcall : w.calls[i]? = some call) :
    Knows (fun resp => ∃ u ∈ tr ++ [t], Measures u i call.volumeId call.volumePath resp)
      (MeasuredAt (tr ++ [t]) call.volumeId) c' call.volumeId call.phase := by
  refine (h.calls i call hcall).mono ?_ (fun _ _ hrecorded => hrecorded.mono) hkeyed
  rintro resp ⟨u, hu, hmeasures⟩
  exact ⟨u, List.mem_append_left _ hu, hmeasures⟩

theorem Fresh.cache_later (h : Fresh tr w) (t : Transition CachedPool StatsTurn Unit) :
    w.cache.Sound (MeasuredAt (tr ++ [t])) :=
  ⟨fun e he v hv => (h.cache.data e he v hv).mono, h.cache.store⟩

/-- Call `i` goes on, and what it returns is justified. -/
theorem Fresh.act (h : Fresh tr w) {i : ℕ} {call : StatsCall StatsPhase} {phase : StatsPhase}
    {c' : EntryCache NodeGetVolumeStatsResponse} (hcall : w.calls[i]? = some call)
    (hact : cachedAct ttl w.now w.paths i call w.cache = some (phase, c')) :
    Fresh (tr ++ [⟨w, .act i, (), w'⟩])
        { w with cache := c', calls := w.calls.set i { call with phase := phase } } ∧
      ∀ out, phase = .rest (.done out) → Justified ttl w.now
        (fun resp => ∃ t ∈ tr ++ [⟨w, .act i, (), w'⟩],
          Measures t i call.volumeId call.volumePath resp)
        (MeasuredAt (tr ++ [⟨w, .act i, (), w'⟩]) call.volumeId) call.volumePath
        (w.paths call.volumePath) out := by
  have hmem : ⟨w, .act i, (), w'⟩ ∈ tr ++ [⟨w, .act i, (), w'⟩] :=
    List.mem_append_right _ List.mem_cons_self
  have hself : ∀ p, call.phase = p → w.calls[i]? = some ⟨call.volumeId, call.volumePath, p⟩ := by
    rintro p rfl
    exact hcall
  have hmeasure : ∀ resp, call.phase = .rest .measure →
      NfsLbCsi.measure call.volumePath (w.paths call.volumePath) = .ok resp →
      ∃ t ∈ tr ++ [⟨w, .act i, (), w'⟩], Measures t i call.volumeId call.volumePath resp :=
    fun resp hphase hm => ⟨_, hmem, rfl, hself _ hphase, hm⟩
  have hstamp : ∀ resp, call.phase = .rest (.stamp resp) →
      MeasuredAt (tr ++ [⟨w, .act i, (), w'⟩]) call.volumeId resp w.now := by
    intro resp hphase
    have hknows := h.calls i call hcall
    rw [hphase] at hknows
    cases hknows with
    | stamp hm =>
        obtain ⟨u, hu, hmeasures⟩ := hm
        exact ⟨i, _, ⟨u, List.mem_append_left _ hu, hmeasures⟩, _, hmem, rfl, hself _ hphase, rfl⟩
  obtain ⟨hsound, hkeyed, hknows, hjustified⟩ := cachedAct_knows (h.cache_later _)
    (h.later _ (fun _ _ hk => hk) hcall) hmeasure hstamp hact
  refine ⟨⟨hsound, fun j call₁ hcall₁ => ?_⟩, hjustified⟩
  by_cases hij : i = j
  · subst hij
    obtain ⟨hi, hget⟩ := List.getElem?_eq_some_iff.mp hcall₁
    rw [List.getElem_set_self] at hget
    exact hget ▸ hknows
  · rw [List.getElem?_set_ne hij] at hcall₁
    exact h.later _ hkeyed hcall₁

theorem Fresh.step {e : StatsTurn} (h : Fresh tr w) (hstep : (cachedStats ttl).Step w e w') :
    Fresh (tr ++ [⟨w, e, (), w'⟩]) w' := by
  cases hstep with
  | call volumeId volumePath =>
      refine ⟨h.cache_later _, fun i call hcall => ?_⟩
      rcases getElem?_snoc_cases hcall with hold | ⟨-, rfl⟩
      · exact h.later _ (fun _ _ hk => hk) hold
      · show Knows _ _ _ _ ((cachedStats ttl).start volumeId volumePath)
        unfold StatsMachine.start
        split
        · exact .done
        · split
          · exact .done
          · exact .look
  | act hcall hact => exact (h.act hcall hact).1
  | change path state =>
      exact ⟨h.cache_later _, fun i call hcall => h.later _ (fun _ _ hk => hk) hcall⟩
  | clock now =>
      exact ⟨h.cache_later _, fun i call hcall => h.later _ (fun _ _ hk => hk) hcall⟩

theorem fresh_of_run {now₀ : ℕ} {paths₀ : String → PathState}
    (hrun : Run (cachedStats ttl).step (.initial .empty now₀ paths₀) tr w) : Fresh tr w := by
  have hinitial : Fresh [] (.initial .empty now₀ paths₀) := by
    refine ⟨⟨?_, ?_⟩, ?_⟩ <;> simp [StatsPool.initial, EntryCache.empty]
  exact Run.traceInvariant (I := Fresh) (P := fun _ => True) hinitial
    (fun _ _ _ hstep _ _ h => h.step (StatsMachine.step_iff.mp hstep)) hrun (fun _ _ => trivial)

end

/-- **Answers are fresh.** Whatever the interleaving, and even when the clock is set back: a call
that returns usage has measured it itself on its path, or it has taken it from the cache, and then a
call for the same volume had measured it, and when that call was about to store it the clock showed
a time less than the lifetime of an entry before the present one. A call that returns an error (an
empty argument apart) cannot measure its path at that moment. -/
theorem stats_fresh {ttl now₀ i : ℕ} {paths₀ : String → PathState}
    {tr : List (Transition CachedPool StatsTurn Unit)} {t : Transition CachedPool StatsTurn Unit}
    {w : CachedPool} {call : StatsCall StatsPhase}
    {out : Except RpcError NodeGetVolumeStatsResponse}
    (hrun : Run (cachedStats ttl).step (.initial .empty now₀ paths₀) (tr ++ [t]) w)
    (hact : t.event = .act i) (hcall : w.calls[i]? = some call)
    (hret : call.phase = .rest (.done out)) :
    Justified ttl t.pre.now
      (fun resp => ∃ u ∈ tr ++ [t], Measures u i call.volumeId call.volumePath resp)
      (MeasuredAt (tr ++ [t]) call.volumeId) call.volumePath (t.pre.paths call.volumePath) out := by
  obtain ⟨hpre, hstep, rfl⟩ := hrun.snoc_inv
  obtain ⟨w, e, o, w'⟩ := t
  obtain rfl : e = .act i := hact
  have hfresh : Fresh tr w := fresh_of_run hpre
  have hstep : (cachedStats ttl).Step w (.act i) w' := StatsMachine.step_iff.mp hstep
  cases hstep with
  | @act _ call₀ phase c' hcall₀ hact₀ =>
      obtain ⟨hi, hget⟩ := List.getElem?_eq_some_iff.mp hcall
      rw [List.getElem_set_self] at hget
      subst hget
      exact (hfresh.act hcall₀ hact₀).2 out hret

theorem StatsPhase.eq_done {phase : StatsPhase} {out : Except RpcError NodeGetVolumeStatsResponse}
    (h : phase.answer = some out) : phase = .rest (.done out) := by
  cases phase with
  | rest r =>
      cases r with
      | done out' => rw [Option.some.inj h]
      | _ => cases h
  | _ => cases h

/-- The third call has returned what was measured on the other path. -/
def thirdAnswered (r : CachedPool × Unit) : Bool :=
  decide ((r.1.answers StatsPhase.answer)[2]? = some ("v", "/a", some (.ok (uniformUsage 2))))

/-- The third call takes from the cache what the second one has measured on another path. -/
theorem stats_fresh_overlapTurns :
    ∃ tr t w, Run (cachedStats 10).step (.initial .empty 0 twoPaths) (tr ++ [t]) w ∧ t.pre.now = 2 ∧
      Justified 10 t.pre.now (fun resp => ∃ u ∈ tr ++ [t], Measures u 2 "v" "/a" resp)
        (MeasuredAt (tr ++ [t]) "v") "/a" (t.pre.paths "/a") (.ok (uniformUsage 2)) := by
  obtain ⟨tr, w, hrun, hp⟩ := exists_overlap overlapTurns.dropLast (fun _ w => decide (w.now = 2) &&
    ((cachedStats 10).step w (.act 2)).any thirdAnswered) (by decide)
  rw [Bool.and_eq_true, decide_eq_true_eq, Option.any_eq_true] at hp
  obtain ⟨hnow, ⟨w', u⟩, hstep, hanswer⟩ := hp
  have hanswer := of_decide_eq_true hanswer
  rw [StatsPool.answers, List.getElem?_map, Option.map_eq_some_iff] at hanswer
  obtain ⟨⟨volumeId, volumePath, phase⟩, hcall, heq⟩ := hanswer
  obtain ⟨rfl, rfl, hphase⟩ : volumeId = "v" ∧ volumePath = "/a" ∧
      phase.answer = some (.ok (uniformUsage 2)) := by
    simpa using heq
  refine ⟨tr, _, w', hrun.snoc hstep, hnow, ?_⟩
  exact stats_fresh (hrun.snoc hstep) rfl hcall (StatsPhase.eq_done hphase)

end NfsLbCsi
