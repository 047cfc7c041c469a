import NfsLbCsi.LBController.Invariants

set_option autoImplicit false

/-! # The count of a server IP and the nodes that are annotated with it

`balance s c ip` is what the controller has counted for `ip`, plus what the call that holds the
mutex has written and not yet counted, minus the number of nodes that carry `ip` on the API server.
A step changes it only if the server changes behind the controller's back: a node is deleted, or an
update commits and its answer is lost (`Step.balance`). Over a run, the balance is therefore the
sum of these changes since the process was started (`ledger`), and everything this file says about
`ipMap` is read off that equation.
-/

namespace NfsLbCsi

open Tally Optimistic Lts

section

variable {B : Type}

/-! ## One step -/

/-- What the call that holds the mutex has written and not yet counted. -/
def owed (c : Controller B) (ip : String) : Int :=
  match c.critical with
  | some (.counting call ip') => if ip = ip' then call.info.op.delta else 0
  | _ => 0

def balance (s : System B) (c : Controller B) (ip : String) : Int :=
  IPMap.count c.ipMap ip + owed c ip - s.nodesAt ip

/-- The change of the balance that the controller cannot see. -/
def slip (t : Move B) (ip : String) : Int :=
  if t.event.deletes || t.event.loses then t.pre.nodesAt ip - t.post.nodesAt ip else 0

theorem nodesAt_commit (api : Replica String (NodeData B)) (n : String)
    (v : Option (NodeData B)) (ip : String) :
    tally assigned (api.commit n v).server ip + hit assigned (api.server.lookup n) ip
      = tally assigned api.server ip + hit assigned (api.stamp v) ip := by
  rw [Replica.commit_server, tally_set]

/-- The update that commits moves the nodes of `ip'` by what the call will add to its count. -/
theorem nodesAt_update {api api' : Replica String (NodeData B)} {c : Controller B}
    {call : Call B} {ip : String} {nodeCopy : Node B} (hc : c.Sound api)
    (hcrit : c.critical = some (.updating call ip nodeCopy))
    (happ : api.update call.info.nodeName nodeCopy = some api') {ip' : String}
    (hip' : ip' ∈ c.ipMap) :
    (tally assigned api'.server ip' : Int)
      = tally assigned api.server ip' + if ip' = ip then call.info.op.delta else 0 := by
  obtain ⟨hbasis, rfl⟩ := hc.update_basis hcrit happ
  obtain ⟨ips, -, hnext⟩ := hc.holds _ hcrit
  have hrow := nodesAt_commit api call.info.nodeName (some nodeCopy.value) ip'
  have hhit := afterLock_hit hnext (api.revision + 1) hip'
  rw [hbasis] at hrow
  have hstamp : api.stamp (some nodeCopy.value) = some ⟨api.revision + 1, nodeCopy.value⟩ := rfl
  rw [hstamp] at hrow
  omega

theorem nodesAt_create {api : Replica String (NodeData B)} {n : String} {data : NodeData B}
    (hnew : api.server.lookup n = none) (hdata : data.assignedIP = none) (ip : String) :
    tally assigned (api.commit n (some data)).server ip = tally assigned api.server ip := by
  have hrow := nodesAt_commit api n (some data) ip
  have hstamp : hit assigned (api.stamp (some data)) ip = 0 := by
    simp [hit, Replica.stamp, assigned, hdata]
  rw [hnew, hit_none, hstamp] at hrow
  omega

theorem nodesAt_write {api : Replica String (NodeData B)} {n : String} {data : NodeData B}
    {old : Node B} (hold : api.server.lookup n = some old) (hdata : data.assignedIP = assigned old)
    (ip : String) :
    tally assigned (api.commit n (some data)).server ip = tally assigned api.server ip := by
  have hrow := nodesAt_commit api n (some data) ip
  have hstamp : hit assigned (api.stamp (some data)) ip = hit assigned (some old) ip :=
    hit_congr hdata ip
  rw [hold, hstamp] at hrow
  omega

theorem owed_of_free {c : Controller B} (h : c.critical = none) (ip : String) : owed c ip = 0 := by
  simp [owed, h]

/-- **What a step does to the balance.** A start makes it zero; any other step keeps the keys of the
map and moves the balance by its slip. -/
theorem Step.balance {s s' : System B} {e : Event B} {o : Obs} (h : Step s e o s') (hs : s.Sound)
    {c' : Controller B} (hc' : s'.ctl = some c') :
    (∃ ipList nodes, e = .start ipList nodes ∧ c'.ipMap.keys = ipList.toFinset ∧
      ∀ ip ∈ c'.ipMap, balance s' c' ip = 0) ∨
    ((∀ ipList nodes, e ≠ .start ipList nodes) ∧ ∃ c, s.ctl = some c ∧
      c'.ipMap.keys = c.ipMap.keys ∧
      ∀ ip ∈ c.ipMap, NfsLbCsi.balance s' c' ip
        = NfsLbCsi.balance s c ip + slip ⟨s, e, o, s'⟩ ip) := by
  cases h with
  | @start ipList clusterNodes ipMap hctl hne hlist hmap =>
      obtain rfl := Option.some.inj hc'
      -- the listing is the one of the server, so its counts are right
      obtain ⟨hkeys, hcount⟩ := resyncIPMap_spec hmap
      refine Or.inl ⟨ipList, clusterNodes, rfl, hkeys, fun ip hip => ?_⟩
      have hlisted := countP_listing (f := assigned) hlist ip
      have hnodes : (System.nodesAt
          { s with api := s.api.relist, ctl := some ⟨ipMap, [], none⟩ } ip)
          = tally assigned s.api.server ip := rfl
      rw [NfsLbCsi.balance, owed_of_free rfl, hcount ip hip, hnodes, hlisted]
      omega
  | crash => cases hc'
  | lockPanic => cases hc'
  | getReturn hctl =>
      refine Or.inr ⟨by simp, c', hc', rfl, fun ip _ => ?_⟩
      simp [slip, Event.deletes, Event.loses, NfsLbCsi.balance, System.nodesAt]
  | @getWait c op n v node hctl hget =>
      obtain rfl := Option.some.inj hc'
      refine Or.inr ⟨by simp, c, hctl, rfl, fun ip _ => ?_⟩
      simp [slip, Event.deletes, Event.loses, NfsLbCsi.balance, System.nodesAt, owed]
  | @lockReturn c i ips call r hctl hfree =>
      obtain rfl := Option.some.inj hc'
      refine Or.inr ⟨by simp, c, hctl, rfl, fun ip _ => ?_⟩
      simp [slip, Event.deletes, Event.loses, NfsLbCsi.balance, System.nodesAt, owed]
  | @lockUpdate c i ips call ip₀ nodeCopy hctl hfree =>
      -- decided, but not written: nothing is owed yet
      obtain rfl := Option.some.inj hc'
      refine Or.inr ⟨by simp, c, hctl, rfl, fun ip _ => ?_⟩
      simp [slip, Event.deletes, Event.loses, NfsLbCsi.balance, System.nodesAt, owed, hfree]
  | @updateRefused c reply call ip₀ err nodeCopy hctl hcrit =>
      obtain rfl := Option.some.inj hc'
      refine Or.inr ⟨by simp, c, hctl, rfl, fun ip _ => ?_⟩
      simp [slip, NfsLbCsi.balance, System.nodesAt, owed, hcrit]
  | @updateLost c call ip₀ err nodeCopy api hctl hcrit happ =>
      -- the server has changed and nobody will count it: this is the slip
      obtain rfl := Option.some.inj hc'
      refine Or.inr ⟨by simp, c, hctl, rfl, fun ip _ => ?_⟩
      simp [slip, Event.deletes, Event.loses, NfsLbCsi.balance, System.nodesAt, owed, hcrit]
  | @updateDone c call ip₀ err nodeCopy api hctl hcrit happ =>
      obtain rfl := Option.some.inj hc'
      refine Or.inr ⟨by simp, c, hctl, rfl, fun ip hip => ?_⟩
      -- the nodes move by what is owed from now on
      have hmove := nodesAt_update (hs c hctl) hcrit happ hip
      simp [slip, Event.deletes, Event.loses, NfsLbCsi.balance, System.nodesAt, owed, hcrit, hmove]
  | @count c call ip₀ hctl hcrit =>
      obtain rfl := Option.some.inj hc'
      -- what was owed is counted; the IP is a key, so no key is added
      obtain ⟨nodeCopy, ips, hsort, hnext⟩ := (hs c hctl).holds _ hcrit
      refine Or.inr ⟨by simp, c, hctl, keys_add (afterLock_mem hsort hnext) _, fun ip _ => ?_⟩
      simp [slip, Event.deletes, Event.loses, NfsLbCsi.balance, System.nodesAt, owed, hcrit,
        count_add]
  | deliver happ =>
      refine Or.inr ⟨by simp, c', hc', rfl, fun ip _ => ?_⟩
      have hserver := (Replica.deliver_eq_some happ).1
      simp [slip, Event.deletes, Event.loses, NfsLbCsi.balance, System.nodesAt, hserver]
  | create hnew hdata =>
      refine Or.inr ⟨by simp, c', hc', rfl, fun ip _ => ?_⟩
      have hsame := nodesAt_create hnew hdata ip
      simp only [slip, Event.deletes, Event.loses, NfsLbCsi.balance, System.nodesAt, hsame]
      simp
  | write hold hdata =>
      refine Or.inr ⟨by simp, c', hc', rfl, fun ip _ => ?_⟩
      have hsame := nodesAt_write hold hdata ip
      simp only [slip, Event.deletes, Event.loses, NfsLbCsi.balance, System.nodesAt, hsame]
      simp
  | delete hold =>
      refine Or.inr ⟨by simp, c', hc', rfl, fun ip _ => ?_⟩
      simp [slip, Event.deletes, Event.loses, NfsLbCsi.balance, System.nodesAt]

/-! ## Whole runs -/

/-- The slips since the process was started last. -/
def drift (tr : Trace B) (ip : String) : Int :=
  tr.foldl (fun d t =>
    match t.event with
    | .start _ _ => 0
    | _ => d + slip t ip) 0

/-- The IP list that the process was started with last; `ipList` before the first start. -/
def configured (ipList : List String) (tr : Trace B) : List String :=
  tr.foldl (fun ips t =>
    match t.event with
    | .start ipList _ => ipList
    | _ => ips) ipList

theorem drift_snoc_start {tr : Trace B} {t : Move B} {ip : String}
    {ipList : List String} {nodes : List (Node B)} (h : t.event = .start ipList nodes) :
    drift (tr ++ [t]) ip = 0 := by
  simp [drift, h]

theorem drift_snoc {tr : Trace B} {t : Move B} {ip : String}
    (h : ∀ ipList nodes, t.event ≠ .start ipList nodes) :
    drift (tr ++ [t]) ip = drift tr ip + slip t ip := by
  simp only [drift, List.foldl_append, List.foldl_cons, List.foldl_nil]

theorem configured_snoc_start {tr : Trace B} {t : Move B}
    {ips ipList : List String} {nodes : List (Node B)} (h : t.event = .start ipList nodes) :
    configured ips (tr ++ [t]) = ipList := by
  simp [configured, h]

theorem configured_snoc {tr : Trace B} {t : Move B}
    {ips : List String} (h : ∀ ipList nodes, t.event ≠ .start ipList nodes) :
    configured ips (tr ++ [t]) = configured ips tr := by
  simp only [configured, List.foldl_append, List.foldl_cons, List.foldl_nil]

/-- A run may begin with the process down, or up and idle with the right counts. -/
structure System.Balanced (ipList : List String) (s : System B) : Prop where
  idle : s.Idle
  keys : ∀ c, s.ctl = some c → c.ipMap.keys = ipList.toFinset
  counts : ∀ c, s.ctl = some c → ∀ ip ∈ c.ipMap, IPMap.count c.ipMap ip = s.nodesAt ip

theorem System.balanced_of_down {s : System B} (h : s.ctl = none) (ipList : List String) :
    s.Balanced ipList := by
  constructor <;> intro c hc <;> rw [h] at hc <;> cases hc

/-- What holds of the map while the process is up. -/
def Ledger (ipList : List String) (tr : Trace B) (s : System B) : Prop :=
  ∀ c, s.ctl = some c → c.ipMap.keys = (configured ipList tr).toFinset ∧
    ∀ ip ∈ c.ipMap, balance s c ip = drift tr ip

/-- **The ledger.** In every reachable state the balance of an IP is the sum of the slips since the
last start. -/
theorem ledger [DecidableEq B] {ipList : List String} {s₀ s : System B} {tr : Trace B}
    (h₀ : s₀.Balanced ipList) (hrun : Run step s₀ tr s) : Ledger ipList tr s := by
  refine Run.traceInvariant (I := Ledger ipList) (P := fun _ => True) ?_ ?_ hrun
    (fun _ _ => trivial)
  · intro c hc
    obtain ⟨-, hfree⟩ := h₀.idle c hc
    refine ⟨h₀.keys c hc, fun ip hip => ?_⟩
    have hcount := h₀.counts c hc ip hip
    rw [balance, owed_of_free hfree, hcount]
    simp [drift]
  · intro tr t hpre hstep _ _ ih c' hc'
    have hsound : t.pre.Sound := sound_of_run h₀.idle hpre
    rcases (step_cases hstep).balance hsound hc' with
      ⟨ipList', nodes, he, hkeys, hzero⟩ | ⟨hns, c, hc, hkeys, hmove⟩
    · refine ⟨?_, fun ip hip => ?_⟩
      · rw [configured_snoc_start he, hkeys]
      · rw [drift_snoc_start he, hzero ip hip]
    · obtain ⟨ihkeys, ihbal⟩ := ih c hc
      refine ⟨?_, fun ip hip => ?_⟩
      · rw [configured_snoc hns, hkeys, ihkeys]
      · have hip' : ip ∈ c.ipMap := by rwa [← Finmap.mem_keys, ← hkeys, Finmap.mem_keys]
        calc balance t.post c' ip = balance t.pre c ip + slip t ip := hmove ip hip'
          _ = drift tr ip + slip t ip := by rw [ihbal ip hip']
          _ = drift (tr ++ [t]) ip := (drift_snoc hns).symm

/-- The ledger with the mutex free: the count itself. -/
theorem count_eq_of_free [DecidableEq B] {ipList : List String} {s₀ s : System B} {tr : Trace B}
    {c : Controller B} (h₀ : s₀.Balanced ipList) (hrun : Run step s₀ tr s)
    (hup : s.ctl = some c) (hfree : c.critical = none) {ip : String} (hip : ip ∈ c.ipMap) :
    IPMap.count c.ipMap ip = s.nodesAt ip + drift tr ip := by
  have hbal := (ledger h₀ hrun c hup).2 ip hip
  rw [balance, owed_of_free hfree] at hbal
  omega

/-- Without deletions and lost answers nothing slips. -/
theorem drift_eq_zero {tr : Trace B} (hdel : ∀ t ∈ tr, t.event.deletes = false)
    (hlost : ∀ t ∈ tr, t.event.loses = false) (ip : String) : drift tr ip = 0 := by
  induction tr using List.reverseRecOn with
  | nil => rfl
  | append_singleton tr t ih =>
      have ih' := ih (fun u hu => hdel u (List.mem_append_left _ hu))
        (fun u hu => hlost u (List.mem_append_left _ hu))
      have hslip : slip t ip = 0 := by
        simp [slip, hdel t (by simp), hlost t (by simp)]
      simp only [drift, List.foldl_append, List.foldl_cons, List.foldl_nil] at ih' ⊢
      split
      · rfl
      · rw [ih', hslip]; rfl

/-- **The count invariant.** Whatever the interleaving, the staleness of the lister, the failures
and the crashes: while the process is up and no call holds the mutex, `ipMap` has exactly the
configured IPs, each with the number of nodes annotated with it on the API server. -/
theorem ipMap_eq_nodesAt [DecidableEq B] {s₀ s : System B} {tr : Trace B} {c : Controller B}
    (hdown : s₀.ctl = none) (hrun : Run step s₀ tr s)
    (hdel : ∀ t ∈ tr, t.event.deletes = false) (hlost : ∀ t ∈ tr, t.event.loses = false)
    (hup : s.ctl = some c) (hfree : c.critical = none) :
    (∀ ip, ip ∈ c.ipMap ↔ ip ∈ configured [] tr) ∧
    ∀ ip ∈ configured [] tr, c.ipMap.lookup ip = some (s.nodesAt ip : Int) := by
  have h₀ : s₀.Balanced [] := System.balanced_of_down hdown []
  have hkeys : ∀ ip, ip ∈ c.ipMap ↔ ip ∈ configured [] tr := by
    intro ip
    rw [← Finmap.mem_keys, (ledger h₀ hrun c hup).1, List.mem_toFinset]
  refine ⟨hkeys, fun ip hip => ?_⟩
  have hmem : ip ∈ c.ipMap := (hkeys ip).mpr hip
  calc c.ipMap.lookup ip = some (IPMap.count c.ipMap ip) := lookup_eq_count hmem
    _ = some (s.nodesAt ip + drift tr ip) := by rw [count_eq_of_free h₀ hrun hup hfree hmem]
    _ = some (s.nodesAt ip : Int) := by rw [drift_eq_zero hdel hlost ip, Int.add_zero]

end

theorem cluster_lookup (names : List String) {n : String} {node : Node Unit}
    (h : (cluster names).server.lookup n = some node) : node.value = bareNode := by
  have key : ∀ (names : List String) (api : Replica String (NodeData Unit)),
      (∀ k o, api.server.lookup k = some o → o.value = bareNode) →
      ∀ k o, (names.foldl (fun api n => api.commit n (some bareNode)) api).server.lookup k
        = some o → o.value = bareNode := by
    intro names
    induction names with
    | nil => intro api h; exact h
    | cons m names ih =>
        intro api h
        refine ih (api.commit m (some bareNode)) (fun k o ho => ?_)
        rw [Replica.commit_server, lookup_set] at ho
        by_cases hk : k = m
        · rw [if_pos hk] at ho
          obtain rfl := Option.some.inj ho
          rfl
        · rw [if_neg hk] at ho
          exact h k o ho
  refine key names Replica.empty (fun k o ho => ?_) n node h
  cases ho

/-- No node of a fresh cluster is annotated, so a process just started on it has counted right. -/
theorem booted_balanced (names ipList : List String) : (booted names ipList).Balanced ipList := by
  constructor
  · intro c hc
    obtain rfl := Option.some.inj hc
    exact ⟨rfl, rfl⟩
  · intro c hc
    obtain rfl := Option.some.inj hc
    exact keys_zeroCounts ipList
  · intro c hc ip hip
    obtain rfl := Option.some.inj hc
    have hnone : (booted names ipList).nodesAt ip = 0 := by
      refine tally_eq_zero (fun n node hn => ?_)
      rw [assigned, cluster_lookup names hn]
      exact fun h => by cases h
    rw [hnone]
    exact count_zeroCounts ipList ip

/-- Two publishes race for one node, the process crashes between the committed update and the
counter, comes back with the IPs in another order, and meets another client's write. -/
def crashEvents : List (Event Unit) :=
  [.start ["10.0.0.1", "10.0.0.2"] [⟨1, bareNode⟩, ⟨2, bareNode⟩],
   .get .assign "n1" "v1", .get .assign "n1" "v2", .lock 0 ["10.0.0.1", "10.0.0.2"],
   .update (.answered ""), .crash,
   .start ["10.0.0.2", "10.0.0.1"] [⟨2, bareNode⟩, ⟨3, bareNode.assign "10.0.0.1"⟩],
   .get .assign "n2" "v1", .get .remove "n1" "v1", .write "n1" (bareNode.assign "10.0.0.1"),
   .lock 0 ["10.0.0.2", "10.0.0.1"], .update (.answered ""), .count,
   .lock 0 [], .update (.answered "conflict")]

theorem ipMap_eq_nodesAt_crashEvents :
    ∃ tr s c, Run step ⟨cluster ["n1", "n2"], none, 0⟩ tr s ∧ s.ctl = some c ∧
      configured [] tr = ["10.0.0.2", "10.0.0.1"] ∧
      ∀ ip ∈ configured [] tr, c.ipMap.lookup ip = some (s.nodesAt ip : Int) := by
  obtain ⟨tr, s, c, hrun, hup, hp⟩ := exists_run ⟨cluster ["n1", "n2"], none, 0⟩ crashEvents
    (fun tr _ c => c.critical.isNone
      && tr.all (fun t => !t.event.deletes && !t.event.loses)
      && decide (configured [] tr = ["10.0.0.2", "10.0.0.1"])) (by decide)
  simp only [Bool.and_eq_true, decide_eq_true_eq, List.all_eq_true, Bool.not_eq_true',
    Option.isNone_iff_eq_none] at hp
  obtain ⟨⟨hfree, hplain⟩, hconf⟩ := hp
  exact ⟨tr, s, c, hrun, hup, hconf,
    (ipMap_eq_nodesAt rfl hrun (fun t ht => (hplain t ht).1) (fun t ht => (hplain t ht).2)
      hup hfree).2⟩

end NfsLbCsi
