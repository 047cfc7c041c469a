import NfsLbCsi.LBController.Agreement
import NfsLbCsi.LBController.Degradation
import NfsLbCsi.NodeServer.Mounts
import NfsLbCsi.NodeServer.MountSource

set_option autoImplicit false

/-! # From the annotation to the mount

The controller service assigns a server to a node and hands it out in the publish context of
`ControllerPublishVolume`; the container orchestrator passes the context on to the node, whose
`NodePublishVolume` mounts from it. The two sides share nothing else. Here the runs of the
controller and of the nodes are put together:

* `mounts_from_assigned`: everything that a node has mounted is mounted from the server that the API
  server has on record for the node, as long as no removal commits for it;
* `servers_share_evenly`: without removals, deletions and lost answers, no server is mounted by more
  nodes than the nodes divided by the servers, rounded up.
-/

namespace NfsLbCsi

open Tally Optimistic Lts Locks Balance

/-- The server of a mount, as `mount.nfs` reads it. -/
def MountEntry.host (e : MountEntry) : Option String := (parseDevice e.source).map Prod.fst

/-- The text is a host name for `mount.nfs`. -/
def PlainHost (ip : String) : Prop := ':' ∉ ip.toList ∧ ip.toList.head? ≠ some '['

section

variable {B P : Type}

/-! ## The node side -/

/-- A node that began with nothing mounted, up to now. -/
structure NodeRun (P : Type) where
  driver : Driver
  loc : String → P
  turns : List (Turn LockingRequest)
  last : NodeState P
  path : Path (NodeNext driver loc) bareState turns last

/-- All requests for a mount point of the node lock one key. -/
def NodeRun.OneKey (R : NodeRun P) : Prop := NfsLbCsi.OneKey R.loc (requests R.turns)

/-- The node has a mount from `ip`. -/
def NodeRun.MountsFrom (R : NodeRun P) (ip : String) : Prop :=
  ∃ x, ∃ e ∈ R.last.2 x, e.host = some ip

/-- The publish context is that of a response of `ControllerPublishVolume` for the node `n`. -/
def HandedOut (tr : Trace B) (n : String) (q : NodePublishVolumeRequest) : Prop :=
  ∃ t ∈ tr, ∃ a r publishContext, t.obs.actor = some a ∧ a.nodeName = n ∧ t.obs.ret = some r ∧
    publishResponse n r = some (.published publishContext) ∧
    ∀ k, q.publishContext.get? k = publishContext.lookup k

/-- All publish contexts come from the controller. -/
def NodeRun.Served (R : NodeRun P) (tr : Trace B) (n : String) : Prop :=
  ∀ q, .nodePublishVolume q ∈ requests R.turns → HandedOut tr n q

theorem HandedOut.answers {tr : Trace B} {n : String} {q : NodePublishVolumeRequest}
    (h : HandedOut tr n q) : ∃ t ∈ tr, ∃ ip, Answers t n ip ∧
      q.publishContext.get? nodeAnnotationKey = some ip := by
  obtain ⟨t, ht, a, r, publishContext, hactor, hn, hret, hresp, hsame⟩ := h
  cases r with
  | assigned ip =>
      cases hresp
      refine ⟨t, ht, ip, ⟨a, hactor, hn, hret⟩, ?_⟩
      rw [hsame, assignedContext]
      exact Finmap.lookup_insert _
  | removed => cases hresp
  | failed err => cases hresp
  | panicked => cases hresp

theorem host_of_asks {d : Driver} {q : NodePublishVolumeRequest} {m : MountSpec} {ip : String}
    (h : Asks d q m) (hip : q.publishContext.get? nodeAnnotationKey = some ip)
    (hplain : PlainHost ip) :
    m.entry.host = some ip := by
  obtain ⟨volCap, σ, ρ, -, hm⟩ := h
  obtain ⟨p, ip', -, -, hip', rfl⟩ := mountSpec_eq_ok_iff.mp hm
  obtain rfl := Option.some.inj (hip'.symm.trans hip)
  show (parseDevice (p.source ρ ip')).map Prod.fst = some ip'
  rw [source_eq, parseDevice_join_iff.mpr hplain]
  rfl

theorem NodeRun.OneKey.askedFor {R : NodeRun P} (hkey : R.OneKey) (x : P) :
    AskedFor R.driver R.loc (requests R.turns) x (R.last.2 x) :=
  (Pool.good_of_path (discipline_serveLocking hkey) (fun _ => Or.inl rfl) R.path
    (fun _ hr => hr)).kept x

/-! ## Both sides -/

/-- Runs of one process from even counts and a synced cache, in which no `RemoveIPFromNode` commits,
no node is deleted and no answer of the API server is lost. -/
structure PlacementRun [DecidableEq B] (ipList : List String) (s₀ : System B) (tr : Trace B)
    (s : System B) : Prop extends AssignRun s₀ tr s where
  balanced : s₀.Balanced ipList
  even : ∀ c, s₀.ctl = some c → IPMap.spread c.ipMap ≤ 1
  synced : s₀.api.watch = []
  no_delete : ∀ t ∈ tr, t.event.deletes = false
  no_loss : ∀ t ∈ tr, t.event.loses = false

section

variable [DecidableEq B] {ipList : List String} {n : String} {s₀ s : System B} {tr : Trace B}

/-- What the node was handed out is what the API server has on record. -/
theorem assignedAt_of_handedOut {q : NodePublishVolumeRequest} (h : AgreementRun ipList n s₀ tr s)
    (hq : HandedOut tr n q) : ∃ ip ∈ ipList, s.assignedAt n = some ip ∧
      q.publishContext.get? nodeAnnotationKey = some ip := by
  obtain ⟨t, ht, ip, hans, hip⟩ := hq.answers
  have hknown := (agreed_of_run h).answers t ht ip hans
  obtain ⟨hassigned, hmem⟩ := Option.filter_eq_some_iff.mp hknown
  exact ⟨ip, of_decide_eq_true hmem, hassigned, hip⟩

theorem NodeRun.entry_host {R : NodeRun P} (h : AgreementRun ipList n s₀ tr s) (hkey : R.OneKey)
    (hR : R.Served tr n) (hplain : ∀ ip ∈ ipList, PlainHost ip) {x : P} {e : MountEntry}
    (he : e ∈ R.last.2 x) :
    R.last.2 x = [e] ∧ ∃ ip ∈ ipList, e.host = some ip ∧ s.assignedAt n = some ip := by
  rcases hkey.askedFor x with hnone | ⟨q, m, hq, -, hasks, hone⟩
  · rw [hnone] at he
    cases he
  · rw [hone, List.mem_singleton] at he
    obtain ⟨ip, hmem, hassigned, hip⟩ := assignedAt_of_handedOut h (hR q hq)
    rw [hone, he]
    exact ⟨rfl, ip, hmem, host_of_asks hasks hip (hplain ip hmem), hassigned⟩

theorem NodeRun.MountsFrom.assigned {R : NodeRun P} {ip : String} (hmounts : R.MountsFrom ip)
    (h : AgreementRun ipList n s₀ tr s) (hkey : R.OneKey) (hR : R.Served tr n)
    (hplain : ∀ ip ∈ ipList, PlainHost ip) : ip ∈ ipList ∧ s.assignedAt n = some ip := by
  obtain ⟨x, e, he, hhost⟩ := hmounts
  obtain ⟨-, ip', hmem, hhost', hassigned⟩ := NodeRun.entry_host h hkey hR hplain he
  obtain rfl := Option.some.inj (hhost'.symm.trans hhost)
  exact ⟨hmem, hassigned⟩

theorem PlacementRun.agreementRun (h : PlacementRun ipList s₀ tr s) (n : String) :
    AgreementRun ipList n s₀ tr s where
  idle := h.idle
  keys := h.balanced.keys
  synced := h.synced
  run := h.run
  same_list := by
    intro t ht l nodes he
    have hstart := h.no_restart t ht
    rw [he] at hstart
    cases hstart
  no_delete := by
    intro t ht he
    have hdel := h.no_delete t ht
    rw [he] at hdel
    cases hdel
  no_remove := fun t ht a hw _ => h.no_removal t ht a hw

/-- The true loads differ by at most one. -/
theorem PlacementRun.nodesAt_le {c : Controller B} (h : PlacementRun ipList s₀ tr s)
    (hc : s.ctl = some c) {i j : String} (hi : i ∈ c.ipMap) (hj : j ∈ c.ipMap) :
    (s.nodesAt i : ℤ) - s.nodesAt j ≤ 1 := by
  obtain ⟨c₀, hc₀⟩ : ∃ c₀, s₀.ctl = some c₀ := by
    cases hdown : s₀.ctl with
    | some c₀ => exact ⟨c₀, rfl⟩
    | none =>
        have hstop := down_of_run h.run h.no_restart hdown
        rw [hc] at hstop
        cases hstop
  have hgap := nodesAt_gap h.idle h.run h.no_restart hc₀ hc hi hj
  have hledger := (ledger h.balanced h.run c hc).2
  rw [hledger i hi, hledger j hj, drift_eq_zero h.no_delete h.no_loss,
    drift_eq_zero h.no_delete h.no_loss, removals_eq_zero h.no_removal] at hgap
  have heven := h.even c₀ hc₀
  omega

end

end

/-! ## Three nodes and their controller -/

/-- Three nodes are assigned two servers; the first two calls overlap. -/
def placingEvents : List (Event Unit) :=
  [.get .assign "n1" "v", .get .assign "n2" "v", .lock 0 ["10.0.0.1", "10.0.0.2"],
    .update (.answered ""), .count, .lock 0 ["10.0.0.2", "10.0.0.1"], .update (.answered ""),
    .count,
    .get .assign "n3" "v", .lock 0 ["10.0.0.1", "10.0.0.2"], .update (.answered ""), .count]

/-- The servers that they get. -/
def placedAt (n : String) : String := if n = "n2" then "10.0.0.2" else "10.0.0.1"

/-- The `AssignIPToNode` of the node has returned. -/
def answersPlaced (n : String) (t : Move Unit) : Bool :=
  t.obs.actor.any (fun a => a.nodeName == n) && decide (t.obs.ret = some (.assigned (placedAt n)))

/-- A request for a volume on that server. -/
def shareRequest (ip volumeId targetPath : String) : NodePublishVolumeRequest :=
  { flagRequest "ro" with
    volumeId := volumeId
    publishContext := (∅ : StringMap).set nodeAnnotationKey ip
    targetPath := targetPath }

theorem handedOut_shareRequest {tr : Trace Unit} {n : String} (h : tr.any (answersPlaced n) = true)
    (volumeId targetPath : String) :
    HandedOut tr n (shareRequest (placedAt n) volumeId targetPath) := by
  obtain ⟨t, ht, hans⟩ := List.any_eq_true.mp h
  rw [answersPlaced, Bool.and_eq_true, Option.any_eq_true, decide_eq_true_eq] at hans
  obtain ⟨⟨a, hactor, hn⟩, hret⟩ := hans
  refine ⟨t, ht, a, _, _, hactor, eq_of_beq hn, hret, rfl, fun k => ?_⟩
  show ((∅ : StringMap).set nodeAnnotationKey (placedAt n)).get? k = _
  rw [StringMap.get?_set, assignedContext]
  split
  · rename_i hk
    rw [hk, Finmap.lookup_insert]
  · rename_i hk
    rw [Finmap.lookup_insert_of_ne _ hk, Finmap.lookup_empty]
    rfl

/-- On the node `n`, two volumes are mounted by calls that overlap; a call that unpublishes the
first one is turned away, and so is one that publishes the second one once more. -/
def mountingTurns (n : String) : List (Turn LockingRequest) :=
  [.start (.nodePublishVolume (shareRequest (placedAt n) "v" "/t")),
    .start (.nodePublishVolume (shareRequest (placedAt n) "w" "/u")), .act 0, .act 1,
    .start (.nodeUnpublishVolume ⟨"v", "/t"⟩), .act 2, .act 0, .act 1, .act 0, .act 1, .act 0,
    .act 1,
    .start (.nodePublishVolume (shareRequest (placedAt n) "w" "/u")), .act 3, .act 0, .act 1]

/-- What they have left. -/
def mountedByTurns (n : String) (s : NodeState String) : Bool :=
  decide (s.1.calls.map Call.outcome = [none, none, some (turnedAway "v"), some (turnedAway "w")])
    && decide (s.2 "/t" = [⟨placedAt n ++ ":/s", "nfs", ["ro"]⟩]) &&
    decide (s.2 "/u" = [⟨placedAt n ++ ":/s", "nfs", ["ro"]⟩])

/-- A node that has made these turns. -/
structure MountedNode (n : String) (R : NodeRun String) : Prop where
  turns : R.turns = mountingTurns n
  loc : R.loc = id
  mounted : mountedByTurns n R.last = true

theorem exists_mountedNode {n : String} (hn : n ∈ ["n1", "n2", "n3"]) : ∃ R, MountedNode n R := by
  have hplay : ∀ n ∈ ["n1", "n2", "n3"],
      (Pool.play calmKernel (serveLocking (nodeDriver 0)) bareState
      (mountingTurns n)).any (mountedByTurns n) = true := by
    intro n hn
    simp only [List.mem_cons, List.not_mem_nil, or_false] at hn
    rcases hn with rfl | rfl | rfl <;> decide
  obtain ⟨s, hpath, hp⟩ := Pool.exists_path calmKernel_spec _ _ _ _ (hplay n hn)
  exact ⟨⟨nodeDriver 0, id, mountingTurns n, s, hpath⟩, rfl, rfl, hp⟩

section

variable {n : String} {R : NodeRun String}

theorem MountedNode.requests_eq (h : MountedNode n R) : requests R.turns =
    [.nodePublishVolume (shareRequest (placedAt n) "v" "/t"),
      .nodePublishVolume (shareRequest (placedAt n) "w" "/u"), .nodeUnpublishVolume ⟨"v", "/t"⟩,
      .nodePublishVolume (shareRequest (placedAt n) "w" "/u")] := by
  rw [h.turns]
  rfl

theorem MountedNode.target_eq (h : MountedNode n R) {r : LockingRequest}
    (hr : r ∈ requests R.turns) : r.target = some ("v", "/t") ∨ r.target = some ("w", "/u") := by
  rw [h.requests_eq] at hr
  simp only [List.mem_cons, List.not_mem_nil, or_false] at hr
  rcases hr with rfl | rfl | rfl | rfl
  exacts [.inl rfl, .inr rfl, .inl rfl, .inr rfl]

theorem MountedNode.oneKey (h : MountedNode n R) : R.OneKey := by
  intro r hr r' hr' t t' ht ht' hsame
  rw [h.loc] at hsame
  rcases h.target_eq hr with hr | hr <;> rcases h.target_eq hr' with hr' | hr' <;>
    obtain rfl := Option.some.inj (ht.symm.trans hr) <;>
    obtain rfl := Option.some.inj (ht'.symm.trans hr')
  · rfl
  · exact absurd hsame (by decide)
  · exact absurd hsame (by decide)
  · rfl

theorem MountedNode.served (h : MountedNode n R) {tr : Trace Unit}
    (hans : tr.any (answersPlaced n) = true) : R.Served tr n := by
  intro q hq
  rw [h.requests_eq] at hq
  simp only [List.mem_cons, List.not_mem_nil, or_false, LockingRequest.nodePublishVolume.injEq,
    reduceCtorEq, false_or] at hq
  rcases hq with rfl | rfl | rfl <;> exact handedOut_shareRequest hans _ _

theorem MountedNode.mountsFrom (h : MountedNode n R)
    (hhost : (⟨placedAt n ++ ":/s", "nfs", ["ro"]⟩ : MountEntry).host = some (placedAt n)) :
    R.MountsFrom (placedAt n) := by
  have hmounted := h.mounted
  simp only [mountedByTurns, Bool.and_eq_true, decide_eq_true_eq] at hmounted
  exact ⟨"/t", _, by rw [hmounted.1.2]; exact List.mem_cons_self, hhost⟩

end

/-- A run of the controller in which the three nodes are assigned their servers. -/
theorem exists_placed : ∃ (tr : Trace Unit) (s : System Unit) (c : Controller Unit),
    PlacementRun ["10.0.0.1", "10.0.0.2"] threeNodes tr s ∧ s.ctl = some c ∧
    s.api.server.keys.card = 3 ∧ ∀ n ∈ ["n1", "n2", "n3"], tr.any (answersPlaced n) = true := by
  obtain ⟨tr, s, c, hrun, hup, hp⟩ :=
    exists_run threeNodes placingEvents
      (fun tr s _ => tr.all (fun t => !t.event.restarts && (writer t).all (fun a => a.op == .assign)
          && !t.event.deletes && !t.event.loses)
        && ["n1", "n2", "n3"].all (fun n => tr.any (answersPlaced n))
        && decide (s.api.server.keys.card = 3)) (by decide)
  simp only [Bool.and_eq_true, decide_eq_true_eq, List.all_eq_true, Bool.not_eq_true'] at hp
  obtain ⟨⟨hplain, hans⟩, hcard⟩ := hp
  have hbalanced := booted_balanced ["n1", "n2", "n3"] ["10.0.0.1", "10.0.0.2"]
  refine ⟨tr, s, c, ?_, hup, hcard, hans⟩
  refine ⟨⟨hbalanced.idle, hrun, fun t ht => (hplain t ht).1.1.1, ?_⟩, hbalanced, ?_, rfl,
    fun t ht => (hplain t ht).1.2, fun t ht => (hplain t ht).2⟩
  · intro t ht a hw
    have hop := (hplain t ht).1.1.2
    rw [hw] at hop
    exact eq_of_beq hop
  · intro c hc
    obtain rfl := Option.some.inj hc
    decide

theorem plainHost_servers : ∀ ip ∈ ["10.0.0.1", "10.0.0.2"], PlainHost ip := by
  unfold PlainHost
  decide

/-! ## Every node, and all nodes together -/

section

variable {B P : Type} [DecidableEq B] {ipList : List String} {n : String} {s₀ s : System B}
  {tr : Trace B}

/-- **Mounts follow the annotation.** Let the lister be synced in the beginning, every process be
started with the same IPs, none of which `mount.nfs` reads as an IPv6 address or a list, and let all
requests for a mount point of the node lock one key. As long as the node is not deleted and no
`RemoveIPFromNode` commits for it, every mount of the node is the only one at its mount point, and
its server is the configured IP that the API server has on record for the node. That holds for any
interleaving on both sides, stale caches, lost answers, crashes and restarts of the controller, and
failed mounts. The node began with nothing mounted, gets its publish contexts from the controller,
and is right about a mount point whenever it gets an answer (`mountKernel`). -/
theorem mounts_from_assigned (R : NodeRun P) (h : AgreementRun ipList n s₀ tr s) (hkey : R.OneKey)
    (hR : R.Served tr n) (hplain : ∀ ip ∈ ipList, PlainHost ip) :
    (∀ x, (R.last.2 x).length ≤ 1) ∧
    ∀ ip, R.MountsFrom ip → ip ∈ ipList ∧ s.assignedAt n = some ip := by
  refine ⟨fun x => ?_, fun ip hmounts => hmounts.assigned h hkey hR hplain⟩
  cases hx : R.last.2 x with
  | nil => exact Nat.zero_le 1
  | cons e es =>
      have he : e ∈ R.last.2 x := by rw [hx]; exact List.mem_cons_self
      rw [← hx, (NodeRun.entry_host h hkey hR hplain he).1]
      exact le_refl 1

end

theorem mounts_from_assigned_mountingTurns :
    ∃ (R : NodeRun String) (tr : Trace Unit) (s : System Unit), R.turns = mountingTurns "n2" ∧
      R.Served tr "n2" ∧ R.MountsFrom "10.0.0.2" ∧ (∀ x, (R.last.2 x).length ≤ 1) ∧
      s.assignedAt "n2" = some "10.0.0.2" := by
  obtain ⟨tr, s, c, hplace, -, -, hans⟩ := exists_placed
  obtain ⟨R, hR⟩ := exists_mountedNode (n := "n2") (by decide)
  have hserved := hR.served (hans "n2" (by decide))
  have hmounts : R.MountsFrom "10.0.0.2" := hR.mountsFrom (by decide)
  obtain ⟨hone, hassigned⟩ :=
    mounts_from_assigned R (hplace.agreementRun "n2") hR.oneKey hserved plainHost_servers
  exact ⟨R, tr, s, hR.turns, hserved, hmounts, hone, (hassigned _ hmounts).2⟩

/-- **Servers share the nodes evenly.** Let a process that runs from the beginning have counted the
annotations, which are spread evenly, with a synced lister; let `mount.nfs` read its IPs as host
names, and all requests for a mount point of a node lock one key. Of `N` nodes in the cluster and
`k` configured servers, at most `N / k` nodes, rounded up, then have a mount from one server, at
every moment and whatever the order in which calls, mounts and unmounts happen, as long as no
removal commits, no node is deleted and no answer is lost. The nodes are as in
`mounts_from_assigned`. -/
theorem servers_share_evenly {B P : Type} [DecidableEq B] {ipList : List String} {s₀ s : System B}
    {tr : Trace B} {c : Controller B} (h : PlacementRun ipList s₀ tr s) (hc : s.ctl = some c)
    (hplain : ∀ ip ∈ ipList, PlainHost ip) (runs : String → NodeRun P) {names : Finset String}
    (hkey : ∀ n ∈ names, (runs n).OneKey)
    (hserved : ∀ n ∈ names, (runs n).Served tr n) {ip : String}
    (hmounts : ∀ n ∈ names, (runs n).MountsFrom ip) :
    names.card ≤ (s.api.server.keys.card + ipList.toFinset.card - 1) / ipList.toFinset.card := by
  rcases names.eq_empty_or_nonempty with rfl | ⟨n₀, hn₀⟩
  · exact Nat.zero_le _
  have hassigned : ∀ n ∈ names, ip ∈ ipList ∧ s.assignedAt n = some ip := fun n hn =>
    (hmounts n hn).assigned (h.agreementRun n) (hkey n hn) (hserved n hn) hplain
  have hkeys : c.ipMap.keys = ipList.toFinset := (agreed_of_run (h.agreementRun n₀)).keys c hc
  have hip : ip ∈ c.ipMap.keys := by
    rw [hkeys, List.mem_toFinset]
    exact (hassigned n₀ hn₀).1
  -- the nodes are among those annotated with the IP
  have hnames : names.card ≤ s.nodesAt ip := card_le_tally (fun n hn => (hassigned n hn).2)
  -- of which there are as many as on any other server, and one more at most
  have hshare : (c.ipMap.keys.card : ℤ) * s.nodesAt ip
      ≤ ∑ j ∈ c.ipMap.keys, (s.nodesAt j : ℤ) + c.ipMap.keys.card - 1 :=
    card_mul_le_sum (f := fun j => (s.nodesAt j : ℤ)) hip
      (fun j hj => h.nodesAt_le hc (Finmap.mem_keys.mp hip) (Finmap.mem_keys.mp hj))
  have hall : ∑ j ∈ c.ipMap.keys, s.nodesAt j ≤ s.api.server.keys.card := sum_tally_le _ _
  have hpos : 0 < c.ipMap.keys.card := Finset.card_pos.mpr ⟨ip, hip⟩
  rw [← hkeys, Nat.le_div_iff_mul_le hpos]
  calc names.card * c.ipMap.keys.card ≤ s.nodesAt ip * c.ipMap.keys.card :=
        Nat.mul_le_mul_right _ hnames
    _ = c.ipMap.keys.card * s.nodesAt ip := Nat.mul_comm _ _
    _ ≤ s.api.server.keys.card + c.ipMap.keys.card - 1 := by
        zify at hall
        zify [hpos]
        omega

/-- Of three nodes, two have mounted from the first of two servers, and a third one cannot. -/
theorem servers_share_evenly_mountingTurns :
    ∃ (runs : String → NodeRun String) (tr : Trace Unit) (s : System Unit) (c : Controller Unit),
      PlacementRun ["10.0.0.1", "10.0.0.2"] threeNodes tr s ∧ s.ctl = some c ∧
      (runs "n1").MountsFrom "10.0.0.1" ∧ (runs "n3").MountsFrom "10.0.0.1" ∧
      (runs "n2").MountsFrom "10.0.0.2" ∧ s.api.server.keys.card = 3 ∧
      ({"n1", "n3"} : Finset String).card ≤ (s.api.server.keys.card + 2 - 1) / 2 := by
  obtain ⟨tr, s, c, hplace, hup, hcard, hans⟩ := exists_placed
  obtain ⟨R₁, h₁⟩ := exists_mountedNode (n := "n1") (by decide)
  obtain ⟨R₂, h₂⟩ := exists_mountedNode (n := "n2") (by decide)
  obtain ⟨R₃, h₃⟩ := exists_mountedNode (n := "n3") (by decide)
  let runs : String → NodeRun String := fun n =>
    if n = "n1" then R₁ else if n = "n2" then R₂ else R₃
  have hruns : ∀ n ∈ ({"n1", "n3"} : Finset String), MountedNode n (runs n) ∧
      n ∈ ["n1", "n2", "n3"] ∧ (runs n).MountsFrom "10.0.0.1" := by
    simp only [Finset.mem_insert, Finset.mem_singleton]
    rintro n (rfl | rfl)
    · exact ⟨h₁, by decide, h₁.mountsFrom (by decide)⟩
    · exact ⟨h₃, by decide, h₃.mountsFrom (by decide)⟩
  refine ⟨runs, tr, s, c, hplace, hup, (hruns "n1" (by decide)).2.2, (hruns "n3" (by decide)).2.2,
    h₂.mountsFrom (by decide), hcard, ?_⟩
  exact servers_share_evenly hplace hup plainHost_servers runs (fun n hn => (hruns n hn).1.oneKey)
    (fun n hn => (hruns n hn).1.served (hans n (hruns n hn).2.1)) (fun n hn => (hruns n hn).2.2)

end NfsLbCsi
