import NfsLbCsi.Driver.Effects

set_option autoImplicit false

/-! # `NodeGetVolumeStats` and its cache

`NodeGetVolumeStats` answers from a timed cache with one entry per volume ID; without an entry it
looks at the path of the request, measures it and stores the answer. The path is not part of the key
and is not looked at when there is an entry. So an answer may stem from another path of the volume,
or from a path that is gone.

* `TimedCache`: the cache as the driver uses it, a value and the time at which it was set.
* `StatsState`, `statsStep`: calls, changes of the file system and the passing of time, in any
  order.
* `lastMeasured`: the path that the entry of a volume was measured on.
* `stats_honest`: calls whose cached entry was measured on the requested path, which still exists,
  answer as if there were no cache.
-/

namespace NfsLbCsi

/-! ## The timed cache -/

/-- `azcache.TimedCache` with a getter that returns nothing: the value that was set last, and
when. -/
def TimedCache (V : Type) : Type := String → Option (V × ℕ)

namespace TimedCache

variable {V : Type} {c : TimedCache V} {ttl now : ℕ} {k k' : String} {v : V}

def empty : TimedCache V := fun _ => none

/-- `Get` with `CacheReadTypeDefault`. -/
def get (c : TimedCache V) (ttl now : ℕ) (k : String) : Option V :=
  match c k with
  | some (v, set) => if now < set + ttl then some v else none
  | none => none

/-- `Set`. -/
def set (c : TimedCache V) (now : ℕ) (k : String) (v : V) : TimedCache V :=
  Function.update c k (some (v, now))

theorem exists_of_get (h : c.get ttl now k = some v) : ∃ time, c k = some (v, time) := by
  unfold get at h
  split at h
  · rename_i v' time hc
    obtain ⟨-, hv⟩ := Option.ite_none_right_eq_some.mp h
    exact ⟨time, Option.some.inj hv ▸ hc⟩
  · cases h

theorem set_self : c.set now k v k = some (v, now) := Function.update_self k _ c

theorem set_of_ne (h : k' ≠ k) : c.set now k v k' = c k' := Function.update_of_ne h _ c

end TimedCache

/-! ## Measuring a path -/

/-- A `resource.Quantity`: what `AsInt64` says, and its text. -/
structure Quantity where
  int64 : Option ℤ
  text : String

/-- `volume.Metrics`. -/
structure Metrics where
  available : Quantity
  capacity : Quantity
  used : Quantity
  inodesFree : Quantity
  inodes : Quantity
  inodesUsed : Quantity

/-- What there is at a path: nothing, something that `Lstat` refuses to show, or a file whose
metrics can be taken or not. -/
inductive PathState where
  | absent
  | unreadable (err : String)
  | present (metrics : Except String Metrics)

inductive UsageUnit where
  | bytes
  | inodes
  deriving DecidableEq

structure VolumeUsage where
  unit : UsageUnit
  available : ℤ
  total : ℤ
  used : ℤ
  deriving DecidableEq

structure NodeGetVolumeStatsResponse where
  usage : List VolumeUsage
  deriving DecidableEq

/-- `AsInt64`, with the error of the handler. -/
def Quantity.asInt64 (what : String) (q : Quantity) : Except RpcError ℤ :=
  match q.int64 with
  | some n => .ok n
  | none => .error (internal ("failed to transform " ++ what ++ "(" ++ q.text ++ ")"))

/-- `NodeGetVolumeStats` after its look into the cache. -/
def measure (volumePath : String) : PathState → Except RpcError NodeGetVolumeStatsResponse
  | .absent => .error ⟨.notFound, "path " ++ volumePath ++ " does not exist"⟩
  | .unreadable err => .error (internal ("failed to stat file " ++ volumePath ++ ": " ++ err))
  | .present (.error err) => .error (internal ("failed to get metrics: " ++ err))
  | .present (.ok m) => do
      let available ← m.available.asInt64 "volume available size"
      let capacity ← m.capacity.asInt64 "volume capacity size"
      let used ← m.used.asInt64 "volume used size"
      let inodesFree ← m.inodesFree.asInt64 "disk inodes free"
      let inodes ← m.inodes.asInt64 "disk inodes"
      let inodesUsed ← m.inodesUsed.asInt64 "disk inodes used"
      pure ⟨[⟨.bytes, available, capacity, used⟩, ⟨.inodes, inodesFree, inodes, inodesUsed⟩]⟩

/-! ## The system -/

/-- A minute, in nanoseconds. -/
def minute : ℕ := 60 * 10 ^ 9

/-- The lifetime of an entry: `NewDriver` takes ten minutes when the option is not positive. A
`time.Duration` has 64 bits, so the product wraps around; no entry is younger than a lifetime that
has become negative. -/
def volStatsCacheTTL (volStatsCacheExpireInMinutes : ℤ) : ℕ :=
  (Int.bmod ((if volStatsCacheExpireInMinutes ≤ 0 then 10 else volStatsCacheExpireInMinutes)
    * minute) (2 ^ 64)).toNat

/-- The option is taken as it is up to 292 years. -/
theorem volStatsCacheTTL_of_le {volStatsCacheExpireInMinutes : ℤ}
    (hpos : 0 < volStatsCacheExpireInMinutes) (hle : volStatsCacheExpireInMinutes ≤ 153722867) :
    (volStatsCacheTTL volStatsCacheExpireInMinutes : ℤ) = volStatsCacheExpireInMinutes
    * minute := by
  have hminute : (minute : ℤ) = 60000000000 := rfl
  rw [volStatsCacheTTL, if_neg (by omega), hminute, Int.bmod_eq_of_le (by omega) (by omega)]
  omega

-- with a minute more nothing is cached
example : volStatsCacheTTL 153722868 = 0 := by decide

structure StatsState where
  now : ℕ
  paths : String → PathState
  cache : TimedCache NodeGetVolumeStatsResponse

inductive StatsEvent where
  /-- `NodeGetVolumeStats`. -/
  | stats (volumeId volumePath : String)
  /-- A path is created, changed or removed. -/
  | change (path : String) (state : PathState)
  | wait (time : ℕ)

/-- The answer of `NodeGetVolumeStats` and the cache after it. -/
def nodeGetVolumeStats (ttl : ℕ) (s : StatsState) (volumeId volumePath : String) :
    Except RpcError NodeGetVolumeStatsResponse × TimedCache NodeGetVolumeStatsResponse :=
  if volumeId = "" then
    (.error (invalidArgument "NodeGetVolumeStats volume ID was empty"), s.cache)
  else if volumePath = "" then
    (.error (invalidArgument "NodeGetVolumeStats volume path was empty"), s.cache)
  else
    match s.cache.get ttl s.now volumeId with
    | some resp => (.ok resp, s.cache)
    | none =>
        match measure volumePath (s.paths volumePath) with
        | .error err => (.error err, s.cache)
        | .ok resp => (.ok resp, s.cache.set s.now volumeId resp)

/-- One event. Only a call shows something. -/
def statsStep (ttl : ℕ) (s : StatsState) : StatsEvent →
    Option (StatsState × Option (Except RpcError NodeGetVolumeStatsResponse))
  | .stats volumeId volumePath =>
      let answer := nodeGetVolumeStats ttl s volumeId volumePath
      some ({ s with cache := answer.2 }, some answer.1)
  | .change path state => some ({ s with paths := Function.update s.paths path state }, none)
  | .wait time => some ({ s with now := s.now + time }, none)

abbrev StatsTransition : Type :=
  Lts.Transition StatsState StatsEvent (Option (Except RpcError NodeGetVolumeStatsResponse))

/-! ## Where an answer comes from -/

/-- The volume, the path and the answer that a call stores, if it gets past the cache and
measures. -/
def stored (ttl : ℕ) (t : StatsTransition) :
    Option (String × String × NodeGetVolumeStatsResponse) :=
  match t.event with
  | .stats volumeId volumePath =>
      if volumeId = "" ∨ volumePath = "" ∨ (t.pre.cache.get ttl t.pre.now volumeId).isSome then none
      else
        match measure volumePath (t.pre.paths volumePath) with
        | .error _ => none
        | .ok resp => some (volumeId, volumePath, resp)
  | _ => none

/-- The paths and answers that the calls of a run have stored for a volume. -/
def measurements (ttl : ℕ) (tr : List StatsTransition) (volumeId : String) :
    List (String × NodeGetVolumeStatsResponse) :=
  (tr.filterMap (stored ttl)).filterMap (fun m => if m.1 = volumeId then some m.2 else none)

/-- The usage was measured on the path by a call of the run. -/
def MeasuredOn (ttl : ℕ) (tr : List StatsTransition) (volumePath : String)
    (resp : NodeGetVolumeStatsResponse) : Prop :=
  ∃ t ∈ tr, ∃ volumeId, stored ttl t = some (volumeId, volumePath, resp)

/-- The path that the last measurement for a volume was made on. -/
def lastMeasured (ttl : ℕ) (tr : List StatsTransition) (volumeId : String) : Option String :=
  (measurements ttl tr volumeId).getLast?.map Prod.fst

section

variable {ttl : ℕ} {tr : List StatsTransition} {s s₀ : StatsState} {t : StatsTransition}
  {volumeId volumePath : String} {resp : NodeGetVolumeStatsResponse}

theorem measurements_snoc (ttl : ℕ) (tr : List StatsTransition) (t : StatsTransition)
    (volumeId : String) : measurements ttl (tr ++ [t]) volumeId =
      measurements ttl tr volumeId ++ measurements ttl [t] volumeId := by
  simp [measurements]

theorem measuredOn_of_mem (h : (volumePath, resp) ∈ measurements ttl tr volumeId) :
    MeasuredOn ttl tr volumePath resp := by
  obtain ⟨m, hm, hid⟩ := List.mem_filterMap.mp h
  obtain ⟨t, ht, hstored⟩ := List.mem_filterMap.mp hm
  obtain ⟨-, heq⟩ := Option.ite_none_right_eq_some.mp hid
  refine ⟨t, ht, m.1, ?_⟩
  rw [hstored, ← Option.some.inj heq]

/-- The cache after a step: what the call has stored, and everything else as before. -/
theorem cache_post (hstep : statsStep ttl t.pre t.event = some (t.post, t.obs)) :
    t.post.cache = (stored ttl t).elim t.pre.cache
      (fun m => t.pre.cache.set t.pre.now m.1 m.2.2) := by
  unfold stored
  cases hevent : t.event with
  | stats volumeId volumePath =>
      rw [hevent] at hstep
      have hcache : (nodeGetVolumeStats ttl t.pre volumeId volumePath).2 = t.post.cache :=
        congrArg (fun r => r.1.cache) (Option.some.inj hstep)
      rw [← hcache]
      unfold nodeGetVolumeStats
      by_cases hid : volumeId = ""
      · simp [hid]
      by_cases hpath : volumePath = ""
      · simp [hid, hpath]
      cases hget : t.pre.cache.get ttl t.pre.now volumeId with
      | some resp => simp [hid, hpath, hget]
      | none =>
          cases hmeasure : measure volumePath (t.pre.paths volumePath) <;>
            simp [hid, hpath, hget, hmeasure]
  | change path state =>
      rw [hevent] at hstep
      exact congrArg (fun r => r.1.cache) (Option.some.inj hstep).symm
  | wait time =>
      rw [hevent] at hstep
      exact congrArg (fun r => r.1.cache) (Option.some.inj hstep).symm

/-- **The entry of a volume** is the last measurement that was made for it. -/
theorem cache_eq_last (h₀ : s₀.cache = .empty) (hrun : Lts.Run (statsStep ttl) s₀ tr s)
    (volumeId : String) : (s.cache volumeId).map Prod.fst =
      (measurements ttl tr volumeId).getLast?.map Prod.snd := by
  refine Lts.Run.traceInvariant (P := fun _ => True)
    (I := fun tr s => ∀ volumeId, (s.cache volumeId).map Prod.fst =
      (measurements ttl tr volumeId).getLast?.map Prod.snd) ?_ ?_ hrun (fun _ _ => trivial) volumeId
  · intro volumeId
    rw [h₀]
    rfl
  · intro tr t _ hstep _ _ ih volumeId
    -- a step adds at most one measurement, and the cache takes it over
    rw [cache_post hstep, measurements_snoc, List.getLast?_append]
    cases hstored : stored ttl t with
    | none =>
        have hnone : measurements ttl [t] volumeId = [] := by simp [measurements, hstored]
        rw [hnone]
        exact ih volumeId
    | some m =>
        by_cases hid : m.1 = volumeId
        · have hone : measurements ttl [t] volumeId = [m.2] := by simp [measurements, hstored, hid]
          subst hid
          rw [hone, Option.elim_some, TimedCache.set_self]
          rfl
        · have hnone : measurements ttl [t] volumeId = [] := by simp [measurements, hstored, hid]
          rw [hnone, Option.elim_some, TimedCache.set_of_ne (Ne.symm hid)]
          exact ih volumeId

/-! ## Calls and the cache -/

/-- The call names a volume and a path, and when there is an entry for the volume, the path exists
and was measured last. -/
def Fits (ttl : ℕ) (tr : List StatsTransition) (s : StatsState) (volumeId volumePath : String) :
    Prop :=
  volumeId ≠ "" ∧ volumePath ≠ "" ∧
    ((s.cache.get ttl s.now volumeId).isSome →
      s.paths volumePath ≠ .absent ∧ lastMeasured ttl tr volumeId = some volumePath)

/-- A missing path is not found, and usage is that of the requested path. -/
def Honest (ttl : ℕ) (tr : List StatsTransition) (t : StatsTransition) (volumePath : String) :
    Prop :=
  (t.pre.paths volumePath = .absent →
    t.obs = some (.error ⟨.notFound, "path " ++ volumePath ++ " does not exist"⟩)) ∧
  ∀ resp, t.obs = some (.ok resp) → MeasuredOn ttl (tr ++ [t]) volumePath resp

theorem obs_of_call (hstep : statsStep ttl t.pre t.event = some (t.post, t.obs))
    (hcall : t.event = .stats volumeId volumePath) :
    t.obs = some (nodeGetVolumeStats ttl t.pre volumeId volumePath).1 := by
  rw [hcall] at hstep
  exact congrArg Prod.snd (Option.some.inj hstep).symm

/-- A call that finds an entry answers with it. -/
theorem obs_of_cached (hstep : statsStep ttl t.pre t.event = some (t.post, t.obs))
    (hcall : t.event = .stats volumeId volumePath) (hid : volumeId ≠ "") (hpath : volumePath ≠ "")
    (hget : t.pre.cache.get ttl t.pre.now volumeId = some resp) : t.obs = some (.ok resp) := by
  rw [obs_of_call hstep hcall, nodeGetVolumeStats, if_neg hid, if_neg hpath, hget]

/-- A call that finds no entry measures. -/
theorem obs_of_uncached (hstep : statsStep ttl t.pre t.event = some (t.post, t.obs))
    (hcall : t.event = .stats volumeId volumePath) (hid : volumeId ≠ "") (hpath : volumePath ≠ "")
    (hget : t.pre.cache.get ttl t.pre.now volumeId = none) :
    t.obs = some (measure volumePath (t.pre.paths volumePath)) := by
  rw [obs_of_call hstep hcall, nodeGetVolumeStats, if_neg hid, if_neg hpath, hget]
  cases measure volumePath (t.pre.paths volumePath) <;> rfl

theorem stored_of_uncached (hcall : t.event = .stats volumeId volumePath) (hid : volumeId ≠ "")
    (hpath : volumePath ≠ "") (hget : t.pre.cache.get ttl t.pre.now volumeId = none)
    (hmeasure : measure volumePath (t.pre.paths volumePath) = .ok resp) :
    stored ttl t = some (volumeId, volumePath, resp) := by
  simp [stored, hcall, hid, hpath, hget, hmeasure]

theorem honest_of_fits (h₀ : s₀.cache = .empty) (hrun : Lts.Run (statsStep ttl) s₀ tr t.pre)
    (hstep : statsStep ttl t.pre t.event = some (t.post, t.obs))
    (hcall : t.event = .stats volumeId volumePath) (hfits : Fits ttl tr t.pre volumeId volumePath) :
    Honest ttl tr t volumePath := by
  obtain ⟨hid, hpath, hentry⟩ := hfits
  cases hget : t.pre.cache.get ttl t.pre.now volumeId with
  | none =>
      have hobs := obs_of_uncached hstep hcall hid hpath hget
      constructor
      · intro habsent
        rw [hobs, habsent]
        rfl
      · intro resp hresp
        have hmeasure := Option.some.inj (hobs.symm.trans hresp)
        exact ⟨t, by simp, volumeId, stored_of_uncached hcall hid hpath hget hmeasure⟩
  | some resp =>
      rw [hget] at hentry
      obtain ⟨hexists, hlast⟩ := hentry rfl
      have hobs := obs_of_cached hstep hcall hid hpath hget
      refine ⟨fun habsent => absurd habsent hexists, fun resp' hresp' => ?_⟩
      obtain rfl : resp = resp' := Except.ok.inj (Option.some.inj (hobs.symm.trans hresp'))
      -- the entry is the last measurement, which was made on this path
      obtain ⟨time, hcache⟩ := TimedCache.exists_of_get hget
      have hentry := cache_eq_last h₀ hrun volumeId
      rw [hcache] at hentry
      unfold lastMeasured at hlast
      cases hm : (measurements ttl tr volumeId).getLast? with
      | none =>
          rw [hm] at hlast
          cases hlast
      | some m =>
          rw [hm] at hlast hentry
          obtain rfl : m = (volumePath, resp) :=
            Prod.ext (Option.some.inj hlast) (Option.some.inj hentry).symm
          obtain ⟨u, hu, hstored⟩ := measuredOn_of_mem (List.mem_of_getLast? hm)
          exact ⟨u, List.mem_append_left _ hu, hstored⟩

/-- **Stats and the cache.** In every run from an empty cache, a call answers as it should when it
finds no entry for its volume, or one that was measured on its path, which still exists. A call that
finds an entry while its path is gone does not. -/
theorem stats_honest (volStatsCacheExpireInMinutes : ℤ) (s₀ s : StatsState)
    (tr tr' : List StatsTransition) (t : StatsTransition) (volumeId volumePath : String)
    (h₀ : s₀.cache = .empty)
    (hrun : Lts.Run (statsStep (volStatsCacheTTL volStatsCacheExpireInMinutes)) s₀
      (tr ++ t :: tr') s)
    (hcall : t.event = .stats volumeId volumePath) :
    (Fits (volStatsCacheTTL volStatsCacheExpireInMinutes) tr t.pre volumeId volumePath →
      Honest (volStatsCacheTTL volStatsCacheExpireInMinutes) tr t volumePath) ∧
    (Honest (volStatsCacheTTL volStatsCacheExpireInMinutes) tr t volumePath →
      volumeId ≠ "" → volumePath ≠ "" →
      (t.pre.cache.get (volStatsCacheTTL volStatsCacheExpireInMinutes) t.pre.now volumeId).isSome →
      t.pre.paths volumePath ≠ .absent) := by
  obtain ⟨hpre, hstep, -⟩ := hrun.split
  refine ⟨honest_of_fits h₀ hpre hstep hcall, ?_⟩
  -- the handler looks at the cache first, and answers with the entry
  rintro ⟨hmissing, -⟩ hid hpath hsome habsent
  obtain ⟨resp, hget⟩ := Option.isSome_iff_exists.mp hsome
  have hobs := obs_of_cached hstep hcall hid hpath hget
  rw [hmissing habsent] at hobs
  cases hobs

end

/-- Metrics that are all the same number. -/
def uniformMetrics (n : ℤ) : Metrics :=
  ⟨⟨some n, ""⟩, ⟨some n, ""⟩, ⟨some n, ""⟩, ⟨some n, ""⟩, ⟨some n, ""⟩, ⟨some n, ""⟩⟩

/-- The usage that is reported for them. -/
def uniformUsage (n : ℤ) : NodeGetVolumeStatsResponse := ⟨[⟨.bytes, n, n, n⟩, ⟨.inodes, n, n, n⟩]⟩

/-- Nothing is mounted and nothing is cached. -/
def emptyStats : StatsState := ⟨0, fun _ => .absent, .empty⟩

theorem stats_honest_retry : ∃ tr s t,
    Lts.Run (statsStep (volStatsCacheTTL 10)) emptyStats (tr ++ [t]) s ∧
    t.event = .stats "v" "/a" ∧ (t.pre.cache.get (volStatsCacheTTL 10) t.pre.now "v").isSome ∧
    Honest (volStatsCacheTTL 10) tr t "/a" := by
  have hexec : Lts.exec (statsStep (volStatsCacheTTL 10)) emptyStats
      [.change "/a" (.present (.ok (uniformMetrics 1))), .stats "v" "/a", .wait minute,
        .stats "v" "/a"] = some ([_, _, _] ++ [_], _) := rfl
  have hrun := Lts.exec_run hexec
  refine ⟨_, _, _, hrun, rfl, rfl, ?_⟩
  refine (stats_honest 10 emptyStats _ _ [] _ "v" "/a" rfl hrun rfl).1 ⟨by decide, by decide, ?_⟩
  intro _
  exact ⟨PathState.noConfusion, rfl⟩

/-- Two calls for one volume after the first one: its path is gone, and another path has other
usage. -/
theorem cached_stats_outlive_path : ∃ tr s t u,
    Lts.Run (statsStep (volStatsCacheTTL 10)) emptyStats (tr ++ [t, u]) s ∧
    t.event = .stats "v" "/a" ∧ t.pre.paths "/a" = .absent ∧ t.obs = some (.ok (uniformUsage 1)) ∧
    u.event = .stats "v" "/b" ∧ measure "/b" (u.pre.paths "/b") = .ok (uniformUsage 2) ∧
    u.obs = some (.ok (uniformUsage 1)) := by
  have hexec : Lts.exec (statsStep (volStatsCacheTTL 10)) emptyStats
      [.change "/a" (.present (.ok (uniformMetrics 1))), .stats "v" "/a", .change "/a" .absent,
        .change "/b" (.present (.ok (uniformMetrics 2))), .stats "v" "/a", .stats "v" "/b"] =
      some ([_, _, _, _] ++ [_, _], _) := rfl
  exact ⟨_, _, _, _, Lts.exec_run hexec, rfl, rfl, rfl, rfl, rfl, rfl⟩

end NfsLbCsi
