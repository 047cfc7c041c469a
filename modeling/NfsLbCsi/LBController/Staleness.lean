import NfsLbCsi.LBController.Counting

set_option autoImplicit false

/-! # Early returns on a stale copy

The version check protects the writes of the controller. The early returns write nothing, so what
they answer is as good as the copy that the lister gave out:

* `AssignIPToNode` returns the IP of its copy when the map knows it. That IP is recorded on the API
  server exactly if the copy is not stale in this respect (`recorded_iff_not_staleHit`).
* `RemoveIPFromNode` returns `nil` when its copy has no IP that the map knows, or when the lister
  has no copy. If no call begins with such a copy while the node does carry a known IP, a removal
  that returns `nil` has taken effect (`removal_effective`).
-/

namespace NfsLbCsi

open Tally Optimistic Lts

section

variable {B : Type}

/-! ## Between the write and the count -/

/-- The node carries what the call that is about to count has written, unless it has been
deleted. -/
theorem counting_assignedAt [DecidableEq B] {s₀ s : System B} {tr : Trace B} (h₀ : s₀.Idle)
    (hrun : Run step s₀ tr s) :
    ∀ c call ip, s.ctl = some c → c.critical = some (.counting call ip) →
      s.assignedAt call.info.nodeName = call.info.op.written ip ∨
      (s.assignedAt call.info.nodeName = none ∧ ∃ t ∈ tr, t.event.deletes = true) := by
  refine Run.traceInvariant
    (I := fun tr s => ∀ c call ip, s.ctl = some c → c.critical = some (.counting call ip) →
      s.assignedAt call.info.nodeName = call.info.op.written ip ∨
      (s.assignedAt call.info.nodeName = none ∧ ∃ t ∈ tr, t.event.deletes = true))
    (P := fun _ => True) ?_ ?_ hrun (fun _ _ => trivial)
  · intro c call ip hc hcrit
    rw [(h₀ c hc).2] at hcrit
    cases hcrit
  · intro tr t hpre hstep _ _ ih c' call ip hc' hcrit'
    rcases (step_cases hstep).counting_written (sound_of_run h₀ hpre) hc' hcrit' with
      ⟨hnew, -⟩ | ⟨c, hc, hcrit, hsame | ⟨hdelete, hnone⟩⟩
    · exact Or.inl hnew
    · rw [hsame]
      rcases ih c call ip hc hcrit with hold | ⟨hnone, u, hu, hdel⟩
      · exact Or.inl hold
      · exact Or.inr ⟨hnone, u, List.mem_append_left _ hu, hdel⟩
    · exact Or.inr ⟨hnone, t, by simp, by rw [hdelete]; rfl⟩

/-! ## `AssignIPToNode` -/

/-- If the step ends an `AssignIPToNode` with `(ip, nil)`, the node carries `ip` on the API server
and is counted in `ipMap[ip]`. -/
def Recorded (t : Move B) : Prop :=
  ∀ a ip, t.obs.actor = some a → t.obs.ret = some (.assigned ip) →
    t.post.assignedAt a.nodeName = some ip ∧
    ∃ c, t.post.ctl = some c ∧ ip ∈ c.ipMap ∧ IPMap.count c.ipMap ip = t.post.nodesAt ip ∧
      0 < IPMap.count c.ipMap ip

/-- A call takes the mutex for `AssignIPToNode` with a copy of the node that carries a known IP,
while on the API server the node does not carry that IP. -/
def StaleHit (t : Move B) : Prop :=
  ∃ i ips c call ip, t.event = .lock i ips ∧ t.pre.ctl = some c ∧ c.waiting[i]? = some call ∧
    call.info.op = .assign ∧ assigned call.node = some ip ∧ ip ∈ c.ipMap ∧
    t.pre.assignedAt call.info.nodeName ≠ some ip

/-- How a call comes to return an IP: from its copy, or from the update it has made. -/
theorem Step.assigned_cases {s s' : System B} {e : Event B} {o : Obs} (h : Step s e o s')
    {a : CallInfo} {ip : String} (ha : o.actor = some a) (hret : o.ret = some (.assigned ip)) :
    (∃ i ips c call, e = .lock i ips ∧ s.ctl = some c ∧ c.critical = none ∧
      c.waiting[i]? = some call ∧ call.info = a ∧ a.op = .assign ∧ assigned call.node = some ip ∧
      ip ∈ c.ipMap ∧ s'.api = s.api ∧
      s'.ctl = some { c with waiting := c.waiting.eraseIdx i }) ∨
    (∃ c call, s.ctl = some c ∧ c.critical = some (.counting call ip) ∧ call.info = a ∧
      a.op = .assign ∧ s'.api = s.api ∧
      s'.ctl = some { c with ipMap := IPMap.add c.ipMap ip 1, critical := none }) := by
  cases h with
  | getReturn hctl hget => exact absurd (Option.some.inj hret) (beforeLock_error hget ip)
  | @lockReturn c i ips call r hctl hfree hcall hsort hnext hr =>
      obtain rfl := Option.some.inj hret
      obtain rfl := Option.some.inj ha
      obtain ⟨hop, hassigned, hmem⟩ := afterLock_ret_assigned hnext
      exact Or.inl ⟨i, ips, c, call, rfl, hctl, hfree, hcall, rfl, hop, hassigned, hmem, rfl, rfl⟩
  | updateRefused => exact absurd (Option.some.inj hret) (updateFailed_ne_assigned _ _ _ _ ip)
  | updateLost => exact absurd (Option.some.inj hret) (updateFailed_ne_assigned _ _ _ _ ip)
  | @count c call ip₀ hctl hcrit =>
      obtain rfl := Option.some.inj ha
      have hdone := Option.some.inj hret
      cases hop : call.info.op with
      | assign =>
          rw [hop] at hdone
          obtain rfl := Ret.assigned.inj hdone
          exact Or.inr ⟨c, call, hctl, hcrit, rfl, rfl, rfl, by rw [Op.delta]⟩
      | remove => rw [hop] at hdone; cases hdone
  | _ => cases hret

/-- A copy with a known IP makes `AssignIPToNode` return at once. -/
theorem Step.lock_hit {s s' : System B} {i : Nat} {ips : List String} {o : Obs}
    (h : Step s (.lock i ips) o s') {c : Controller B} {call : Call B} {ip : String}
    (hc : s.ctl = some c) (hcall : c.waiting[i]? = some call) (hop : call.info.op = .assign)
    (hassigned : assigned call.node = some ip) (hmem : ip ∈ c.ipMap) :
    o.actor = some call.info ∧ o.ret = some (.assigned ip) ∧ s'.api = s.api := by
  have hnext : ∀ ips : List String,
      call.info.op.afterLock c.ipMap call.node ips = .ret (.assigned ip) := by
    intro ips
    rw [hop, Op.afterLock, assignAfterLock, hassigned]
    exact if_pos hmem
  -- the call that takes the mutex is the one the event names
  have hsame : ∀ {c' : Controller B} {call' : Call B}, s.ctl = some c' →
      c'.waiting[i]? = some call' → c' = c ∧ call' = call := by
    intro c' call' hctl hcall'
    rw [hc] at hctl
    obtain rfl := Option.some.inj hctl
    rw [hcall] at hcall'
    exact ⟨rfl, (Option.some.inj hcall').symm⟩
  cases h with
  | lockPanic hctl _ hcall' _ hnext' =>
      obtain ⟨rfl, rfl⟩ := hsame hctl hcall'
      rw [hnext] at hnext'
      cases hnext'
  | lockReturn hctl _ hcall' _ hnext' =>
      obtain ⟨rfl, rfl⟩ := hsame hctl hcall'
      rw [hnext] at hnext'
      obtain rfl := Next.ret.inj hnext'
      exact ⟨rfl, rfl, rfl⟩
  | lockUpdate hctl _ hcall' _ hnext' =>
      obtain ⟨rfl, rfl⟩ := hsame hctl hcall'
      rw [hnext] at hnext'
      cases hnext'

/-- **An assignment is recorded exactly if it is not a stale hit.** -/
theorem recorded_iff_not_staleHit [DecidableEq B] {ipList : List String} {s₀ s : System B}
    {tr : Trace B} (h₀ : s₀.Balanced ipList) (hrun : Run step s₀ tr s)
    (hdel : ∀ t ∈ tr, t.event.deletes = false) (hlost : ∀ t ∈ tr, t.event.loses = false) :
    (∀ t ∈ tr, Recorded t) ↔ ∀ t ∈ tr, ¬ StaleHit t := by
  constructor
  · rintro hrec t ht ⟨i, ips, c, call, ip, he, hc, hcall, hop, hassigned, hmem, hstale⟩
    obtain ⟨tr₁, tr₂, rfl, -, hstep, -⟩ := hrun.reached ht
    -- the early return: nothing is written, and the answer is the IP of the copy
    obtain ⟨hactor, hret, happ⟩ : t.obs.actor = some call.info ∧
        t.obs.ret = some (.assigned ip) ∧ t.post.api = t.pre.api := by
      rw [he] at hstep
      exact Step.lock_hit (step_cases hstep) hc hcall hop hassigned hmem
    have hrecorded := (hrec t ht call.info ip hactor hret).1
    rw [System.assignedAt, happ] at hrecorded
    exact hstale hrecorded
  · intro hfresh t ht a ip hactor hret
    obtain ⟨tr₁, tr₂, rfl, hpre, hstep, -⟩ := hrun.reached ht
    have hpost : Run step s₀ (tr₁ ++ [t]) t.post := hpre.snoc hstep
    have hsub : ∀ u ∈ tr₁ ++ [t], u ∈ tr₁ ++ t :: tr₂ := by
      intro u hu
      simp only [List.mem_append, List.mem_cons] at hu ⊢
      tauto
    -- the IP is known and the mutex is free, so the ledger gives the count
    have hcounted : ∀ c, t.post.ctl = some c → c.critical = none → ip ∈ c.ipMap →
        t.post.assignedAt a.nodeName = some ip → IPMap.count c.ipMap ip = t.post.nodesAt ip ∧
          0 < IPMap.count c.ipMap ip := by
      intro c hc hfree hmem hat
      have hcount := count_eq_of_free h₀ hpost hc hfree hmem
      rw [drift_eq_zero (fun u hu => hdel u (hsub u hu)) (fun u hu => hlost u (hsub u hu)),
        Int.add_zero] at hcount
      obtain ⟨node, hnode, hassigned⟩ := Option.bind_eq_some_iff.mp hat
      have hpos : 0 < t.post.nodesAt ip := tally_pos hnode hassigned
      omega
    rcases (step_cases hstep).assigned_cases hactor hret with
      ⟨i, ips, c, call, he, hc, hfree, hcall, rfl, hop, hassigned, hmem, happ, hctl⟩ |
      ⟨c, call, hc, hcrit, rfl, hop, happ, hctl⟩
    · -- the IP of the copy: not stale, by the condition
      have hat : t.post.assignedAt call.info.nodeName = some ip := by
        by_contra hne
        rw [System.assignedAt, happ] at hne
        exact hfresh t ht ⟨i, ips, c, call, ip, he, hc, hcall, hop, hassigned, hmem, hne⟩
      exact ⟨hat, _, hctl, hmem, hcounted _ hctl hfree hmem hat⟩
    · -- the IP that the call has written itself
      have hat : t.post.assignedAt call.info.nodeName = some ip := by
        rw [System.assignedAt, happ]
        rcases counting_assignedAt h₀.idle hpre c call ip hc hcrit with hw | ⟨-, u, hu, hud⟩
        · rw [hop] at hw
          exact hw
        · rw [hdel u (List.mem_append_left _ hu)] at hud
          cases hud
      have hmem : ip ∈ IPMap.add c.ipMap ip 1 := Finmap.mem_insert.mpr (Or.inl rfl)
      exact ⟨hat, _, hctl, hmem, hcounted _ hctl rfl hmem hat⟩

end

/-- A node is assigned an IP and loses it again; the next publish reads the node from a cache that
has not seen the removal. -/
def staleHitEvents : List (Event Unit) :=
  [.get .assign "n1" "v1", .lock 0 ["10.0.0.1"], .update (.answered ""), .count, .deliver "n1",
   .get .remove "n1" "v1", .lock 0 [], .update (.answered ""), .count,
   .get .assign "n1" "v2", .lock 0 ["10.0.0.1"]]

theorem staleHitEvents_run :
    ∃ tr s, Run step (booted ["n1"] ["10.0.0.1"]) tr s ∧
      (∀ t ∈ tr, t.event.deletes = false ∧ t.event.loses = false) ∧
      ∃ t ∈ tr, t.obs.actor = some ⟨2, .assign, "n1", "v2"⟩ ∧
        t.obs.ret = some (.assigned "10.0.0.1") ∧ t.post.assignedAt "n1" = none := by
  obtain ⟨tr, s, c, hrun, hup, hp⟩ := exists_run (booted ["n1"] ["10.0.0.1"]) staleHitEvents
    (fun tr _ _ => tr.all (fun t => !t.event.deletes && !t.event.loses)
      && tr.any (fun t => decide (t.obs.actor = some ⟨2, .assign, "n1", "v2"⟩)
        && decide (t.obs.ret = some (.assigned "10.0.0.1"))
        && decide (t.post.assignedAt "n1" = none))) (by decide)
  simp only [Bool.and_eq_true, decide_eq_true_eq, List.all_eq_true, List.any_eq_true,
    Bool.not_eq_true'] at hp
  obtain ⟨hplain, t, ht, ⟨hactor, hret⟩, hnone⟩ := hp
  exact ⟨tr, s, hrun, hplain, t, ht, hactor, hret, hnone⟩

/-- The publish is given an IP that the node does not carry. -/
theorem stale_assign_not_recorded :
    ∃ tr s, Run step (booted ["n1"] ["10.0.0.1"]) tr s ∧
      (∀ t ∈ tr, t.event.deletes = false ∧ t.event.loses = false) ∧
      ∃ t ∈ tr, t.obs.actor = some ⟨2, .assign, "n1", "v2"⟩ ∧
        t.obs.ret = some (.assigned "10.0.0.1") ∧ t.post.assignedAt "n1" = none ∧
        ¬ Recorded t := by
  obtain ⟨tr, s, hrun, hplain, t, ht, hactor, hret, hnone⟩ := staleHitEvents_run
  refine ⟨tr, s, hrun, hplain, t, ht, hactor, hret, hnone, fun hrec => ?_⟩
  have hat := (hrec _ _ hactor hret).1
  rw [hnone] at hat
  cases hat

theorem recorded_iff_not_staleHit_staleHitEvents :
    ∃ tr s, Run step (booted ["n1"] ["10.0.0.1"]) tr s ∧ ∃ t ∈ tr, StaleHit t := by
  obtain ⟨tr, s, hrun, hplain, t, ht, hactor, hret, hnone⟩ := staleHitEvents_run
  refine ⟨tr, s, hrun, ?_⟩
  by_contra hfresh
  have hrec := (recorded_iff_not_staleHit (booted_balanced _ _) hrun
    (fun u hu => (hplain u hu).1) (fun u hu => (hplain u hu).2)).mpr
    (fun u hu hstale => hfresh ⟨u, hu, hstale⟩) t ht _ _ hactor hret
  have hat : t.post.assignedAt "n1" = some "10.0.0.1" := hrec.1
  rw [hnone] at hat
  cases hat

/-! ## `RemoveIPFromNode` -/

/-- The annotation names an IP of the map. -/
def IPMap.Knows (m : IPMap) (o : Option String) : Prop := ∃ ip, o = some ip ∧ ip ∈ m

section

variable {B : Type}

/-- Has an `AssignIPToNode` for the node of the call `a` committed since `a` began? -/
def assignedSince (a : CallInfo) (tr : Trace B) : Bool :=
  tr.foldl (fun b t =>
    if (writer t).any (fun w => w.op == .assign && w.nodeName == a.nodeName) then true
    else if t.event.gets && t.obs.actor == some a then false
    else b) false

/-- Whenever `RemoveIPFromNode` has returned `nil` and no `AssignIPToNode` for the node has
committed since it began, the node carries no IP of the map. -/
def RemovalsEffective (tr : Trace B) : Prop :=
  ∀ tr₁ t tr₂ a, tr = tr₁ ++ t :: tr₂ → t.obs.actor = some a → a.op = .remove →
    t.obs.ret = some .removed → assignedSince a (tr₁ ++ [t]) = false →
    ∀ c, t.post.ctl = some c → ¬ IPMap.Knows c.ipMap (t.post.assignedAt a.nodeName)

/-- `RemoveIPFromNode` begins for a node that carries an IP of the map, and the copy of the node in
the cache carries none, or there is no copy. -/
def StaleMiss (t : Move B) : Prop :=
  ∃ n v c, t.event = .get .remove n v ∧ t.pre.ctl = some c ∧
    IPMap.Knows c.ipMap (t.pre.assignedAt n) ∧
    ¬ IPMap.Knows c.ipMap (assignedAt t.pre.api.cache n)

theorem IPMap.not_knows_none (m : IPMap) : ¬ IPMap.Knows m none := by
  rintro ⟨ip, h, -⟩
  cases h

theorem IPMap.knows_congr {m m' : IPMap} (h : m'.keys = m.keys) (o : Option String) :
    IPMap.Knows m' o ↔ IPMap.Knows m o := by
  simp only [IPMap.Knows, ← Finmap.mem_keys, h]

theorem assignedSince_snoc_of_writer {a w : CallInfo} {tr : Trace B} {t : Move B}
    (hw : writer t = some w) (hop : w.op = .assign) (hn : w.nodeName = a.nodeName) :
    assignedSince a (tr ++ [t]) = true := by
  simp [assignedSince, List.foldl_append, hw, hop, hn]

/-- Only the call itself can begin again. -/
theorem assignedSince_snoc {a : CallInfo} {tr : Trace B} {t : Move B}
    (hbegin : t.event.gets = true → t.obs.actor ≠ some a) (h : assignedSince a tr = true) :
    assignedSince a (tr ++ [t]) = true := by
  have hno : (t.event.gets && t.obs.actor == some a) = false := by
    by_cases hg : t.event.gets = true
    · simp [hbegin hg]
    · simp [hg]
  rw [assignedSince] at h
  rw [assignedSince, List.foldl_append, List.foldl_cons, List.foldl_nil, hno, h]
  simp

/-- How `RemoveIPFromNode` comes to return `nil`: the cache has no annotation for it, its copy has
an unknown one, or the update has been made. -/
theorem Step.removed_cases {s s' : System B} {e : Event B} {o : Obs} (h : Step s e o s')
    {a : CallInfo} (ha : o.actor = some a) (hop : a.op = .remove)
    (hret : o.ret = some .removed) :
    (e = .get .remove a.nodeName a.volumeID ∧ assignedAt s.api.cache a.nodeName = none ∧
      s'.api = s.api ∧ s'.ctl = s.ctl) ∨
    (∃ c call, e.gets = false ∧ s.ctl = some c ∧ call ∈ c.calls ∧ call.info = a ∧
      ¬ IPMap.Knows c.ipMap (assigned call.node) ∧ s'.api = s.api ∧
      ∀ c', s'.ctl = some c' → c'.ipMap.keys = c.ipMap.keys) ∨
    (∃ c call ip, s.ctl = some c ∧ c.critical = some (.counting call ip) ∧ call.info = a ∧
      s'.api = s.api) := by
  cases h with
  | getReturn hctl hget =>
      obtain rfl := Option.some.inj ha
      obtain rfl := hop
      obtain rfl := Option.some.inj hret
      exact Or.inl ⟨rfl, (removeBeforeLock_error hget).2, rfl, rfl⟩
  | @lockReturn c i ips call r hctl hfree hcall hsort hnext hr =>
      obtain rfl := Option.some.inj ha
      rw [hop] at hnext
      have hunknown := (removeAfterLock_ret hnext).2
      refine Or.inr (Or.inl ⟨c, call, rfl, hctl, ?_, rfl, ?_, rfl, ?_⟩)
      · exact NfsLbCsi.mem_calls.mpr (Or.inr (List.mem_of_getElem? hcall))
      · rintro ⟨ip, hip, hmem⟩
        exact hunknown ip hip hmem
      · intro c' hc'
        obtain rfl := Option.some.inj hc'
        rfl
  | updateRefused => exact absurd (Option.some.inj hret) (updateFailed_ne_removed _ _ _ _)
  | updateLost => exact absurd (Option.some.inj hret) (updateFailed_ne_removed _ _ _ _)
  | @count c call ip hctl hcrit =>
      obtain rfl := Option.some.inj ha
      exact Or.inr (Or.inr ⟨c, call, ip, hctl, hcrit, rfl, rfl⟩)
  | _ => cases hret

/-- What is known of every `RemoveIPFromNode` in flight. -/
def RemoversFresh (tr : Trace B) (s : System B) : Prop :=
  ∀ c, s.ctl = some c → ∀ call ∈ c.calls, call.info.op = .remove →
    assignedSince call.info tr = true ∨ IPMap.Knows c.ipMap (assigned call.node) ∨
    ¬ IPMap.Knows c.ipMap (s.assignedAt call.info.nodeName)

theorem removersFresh_of_run [DecidableEq B] {s₀ s : System B} {tr : Trace B} (h₀ : s₀.Idle)
    (hrun : Run step s₀ tr s) (hfresh : ∀ t ∈ tr, ¬ StaleMiss t) : RemoversFresh tr s := by
  refine Run.traceInvariant (I := RemoversFresh) (P := fun t => ¬ StaleMiss t) ?_ ?_ hrun hfresh
  · intro c hc call hcall
    rw [h₀.calls hc] at hcall
    cases hcall
  · intro tr t hpre hstep ht _ ih c' hc' call hcall hop
    have hsound := sound_of_run h₀ hpre
    have hstep := step_cases hstep
    obtain ⟨c, hc, hkeys, hold | ⟨he, hactor, -, hcache, happ⟩⟩ := hstep.mem_calls hsound hc' hcall
    · rw [IPMap.knows_congr hkeys, IPMap.knows_congr hkeys]
      -- the call is not the one that begins in this step: its ticket is older
      have hticket := ticket_lt h₀ hpre c hc call hold
      have hbegin : t.event.gets = true → t.obs.actor ≠ some call.info := by
        intro hg hactor
        have := hstep.gets_ticket hg hactor
        omega
      rcases ih c hc call hold hop with hsince | hknown | hunknown
      · exact Or.inl (assignedSince_snoc hbegin hsince)
      · exact Or.inr (Or.inl hknown)
      · -- the server's annotation was no known IP: only an assignment can make it one
        rcases hstep.assignedAt_cases hsound call.info.nodeName with
          ⟨hsame, -⟩ | ⟨-, hnone⟩ | ⟨_, w, ip, _, -, -, hwn, hwriter, -, hwritten⟩
        · rw [hsame]
          exact Or.inr (Or.inr hunknown)
        · rw [hnone]
          exact Or.inr (Or.inr (IPMap.not_knows_none _))
        · cases hwop : w.info.op with
          | assign => exact Or.inl (assignedSince_snoc_of_writer hwriter hwop hwn)
          | remove =>
              rw [hwop] at hwritten
              rw [hwritten]
              exact Or.inr (Or.inr (IPMap.not_knows_none _))
    · -- a call that begins: its copy is the cached one, and a miss would be a stale one
      rw [IPMap.knows_congr hkeys, IPMap.knows_congr hkeys, System.assignedAt, happ]
      right
      by_contra hstale
      rw [not_or, not_not] at hstale
      refine ht ⟨call.info.nodeName, call.info.volumeID, c, by rw [he, hop], hc, hstale.2, ?_⟩
      rw [assignedAt, hcache]
      exact hstale.1

/-- **A removal that returns `nil` has taken effect**, provided no `RemoveIPFromNode` begins with a
stale copy that hides the IP of the node. -/
theorem removal_effective [DecidableEq B] {s₀ s : System B} {tr : Trace B} (h₀ : s₀.Idle)
    (hrun : Run step s₀ tr s) (hfresh : ∀ t ∈ tr, ¬ StaleMiss t) : RemovalsEffective tr := by
  rintro tr₁ t tr₂ a rfl hactor hop hret hsince c' hc'
  obtain ⟨hpre, hstep, -⟩ := hrun.split
  have hinv := removersFresh_of_run h₀ hpre (fun u hu => hfresh u (List.mem_append_left _ hu))
  have ht : ¬ StaleMiss t := hfresh t (by simp)
  rcases (step_cases hstep).removed_cases hactor hop hret with
    ⟨hget, hmiss, happ, hctl⟩ | ⟨c, call, hlock, hc, hcall, rfl, hunknown, happ, hkeys⟩ |
    ⟨c, call, ip, hc, hcrit, rfl, happ⟩
  · -- no copy, or a copy without the annotation
    rw [System.assignedAt, happ]
    intro hknown
    rw [hctl] at hc'
    refine ht ⟨a.nodeName, a.volumeID, c', hget, hc', hknown, ?_⟩
    rw [hmiss]
    exact IPMap.not_knows_none _
  · -- a copy with an IP that the map does not know
    rw [IPMap.knows_congr (hkeys c' hc'), System.assignedAt, happ]
    rcases hinv c hc call hcall hop with hs | hknown | hserver
    · have hs' := assignedSince_snoc (t := t) (fun hg => by rw [hlock] at hg; cases hg) hs
      rw [hsince] at hs'
      cases hs'
    · exact absurd hknown hunknown
    · exact hserver
  · -- the annotation was removed and nobody has written it since
    rw [System.assignedAt, happ]
    have hnone : t.pre.assignedAt call.info.nodeName = none := by
      rcases counting_assignedAt h₀ hpre c call ip hc hcrit with hw | ⟨hnone, -⟩
      · rw [hw, hop]
        rfl
      · exact hnone
    rw [System.assignedAt] at hnone
    rw [hnone]
    exact IPMap.not_knows_none _

end

/-- A node is assigned an IP; the unpublish reads the node from a cache that has not seen it. -/
def staleMissEvents : List (Event Unit) :=
  [.get .assign "n1" "v1", .lock 0 ["10.0.0.1"], .update (.answered ""), .count,
   .get .remove "n1" "v1"]

/-- The unpublish succeeds and leaves the assignment behind. -/
theorem stale_remove_leaks :
    ∃ tr t s c, Run step (booted ["n1"] ["10.0.0.1"]) (tr ++ [t]) s ∧
      t.obs = { actor := some ⟨1, .remove, "n1", "v1"⟩, ret := some .removed } ∧
      t.post.ctl = some c ∧ "10.0.0.1" ∈ c.ipMap ∧ t.post.assignedAt "n1" = some "10.0.0.1" ∧
      ¬ RemovalsEffective (tr ++ [t]) := by
  obtain ⟨tr, s, c, hrun, hup, hp⟩ := exists_run (booted ["n1"] ["10.0.0.1"]) staleMissEvents
    (fun tr _ _ => tr.getLast?.any (fun (t : Move Unit) =>
        decide (t.obs = { actor := some ⟨1, .remove, "n1", "v1"⟩, ret := some .removed })
        && t.post.ctl.any (fun (c : Controller Unit) => decide ("10.0.0.1" ∈ c.ipMap))
        && decide (t.post.assignedAt "n1" = some "10.0.0.1"))
      && !assignedSince ⟨1, .remove, "n1", "v1"⟩ tr) (by decide)
  simp only [Bool.and_eq_true, decide_eq_true_eq, Option.any_eq_true, Bool.not_eq_true'] at hp
  obtain ⟨⟨t, hlast, ⟨hobs, c', hc', hmem⟩, hat⟩, hsince⟩ := hp
  have htr : tr.dropLast ++ [t] = tr := List.dropLast_append_getLast? t hlast
  rw [← htr] at hrun hsince
  refine ⟨tr.dropLast, t, s, c', hrun, hobs, hc', hmem, hat, fun heff => ?_⟩
  refine heff tr.dropLast t [] ⟨1, .remove, "n1", "v1"⟩ rfl ?_ rfl ?_ hsince c' hc' ?_
  · rw [hobs]
  · rw [hobs]
  · exact ⟨"10.0.0.1", hat, hmem⟩

/-- The same with a cache that has caught up. -/
def freshMissEvents : List (Event Unit) :=
  [.get .assign "n1" "v1", .lock 0 ["10.0.0.1"], .update (.answered ""), .count, .deliver "n1",
   .get .remove "n1" "v1", .lock 0 [], .update (.answered ""), .count]

theorem removal_effective_freshMissEvents :
    ∃ tr s, Run step (booted ["n1"] ["10.0.0.1"]) tr s ∧
      tr.getLast?.map (fun t => t.obs.ret) = some (some .removed) ∧ RemovalsEffective tr := by
  obtain ⟨tr, s, c, hrun, hup, hp⟩ := exists_run (booted ["n1"] ["10.0.0.1"]) freshMissEvents
    (fun tr _ _ => decide (tr.getLast?.map (fun t => t.obs.ret) = some (some .removed))
      && decide (UpToDate tr)) (by decide)
  simp only [Bool.and_eq_true, decide_eq_true_eq] at hp
  refine ⟨tr, s, hrun, hp.1, removal_effective (booted_balanced _ _).idle hrun ?_⟩
  rintro t ht ⟨n, v, c, he, -, hknown, hmiss⟩
  have hsync : t.pre.api.cache = t.pre.api.server := hp.2 t ht (by rw [he]; rfl)
  rw [hsync] at hmiss
  exact hmiss hknown

end NfsLbCsi
