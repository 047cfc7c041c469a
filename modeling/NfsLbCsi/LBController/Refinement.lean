import NfsLbCsi.Basic.Balancer
import NfsLbCsi.LBController.Selection

set_option autoImplicit false

/-! # The controller is a least-loaded balancer

`System.balancer` reads a state of the whole system as a state of the abstract `Balancer`: the
configured IPs are its servers, the annotations on the API server its placement, and its belief is
`ipMap` together with what the call that holds the mutex has written and not yet counted. Every step
of the concurrent system (goroutines that read a stale cache, version conflicts, lost answers,
crashes, other clients) then is a step of the balancer or invisible to it (`Step.balancer_step`),
and every run is a run of the balancer whose actions are read off the run (`refines_balancer`). A
call takes effect at one instant: when its update commits on the API server.
-/

namespace NfsLbCsi

open Tally Optimistic Lts Balance

section

variable {B : Type}

/-! ## The abstraction -/

/-- What a controller believes to be the load of `ip`. -/
def Controller.belief (c : Controller B) (ip : String) : ℤ := IPMap.count c.ipMap ip + owed c ip

/-- The balancer that a state stands for; a process that is down has no servers. -/
def System.balancer (s : System B) : Balancer String String where
  servers := s.ctl.elim ∅ (fun c => c.ipMap.keys)
  placed := Table.relabel assigned s.api.server
  belief := s.ctl.elim (fun _ => 0) Controller.belief

/-- What the update of the call `a` is for the balancer: it takes a node to the IP that is written,
or away from the IP that was there. -/
def CallInfo.action (a : CallInfo) (t : Move B) : Option (Action String String) :=
  match a.op with
  | .assign => (t.post.assignedAt a.nodeName).map (Action.place (!t.event.loses) a.nodeName)
  | .remove => (t.pre.assignedAt a.nodeName).map (Action.release (!t.event.loses) a.nodeName)

/-- The process has died in the step. -/
def stops (t : Move B) : Bool := t.pre.ctl.isSome && t.post.ctl.isNone

/-- What a step is for the balancer. -/
def action (t : Move B) : Option (Action String String) :=
  match t.event with
  | .start ipList _ => some (.configure ipList.toFinset)
  | .delete n => some (.leave n)
  | _ => if stops t then some .stop else (writer t).bind (fun a => a.action t)

theorem lookup_placed (s : System B) (n : String) : s.balancer.placed.lookup n = s.assignedAt n :=
  lookup_relabel assigned s.api.server n

theorem load_balancer (s : System B) (ip : String) : s.balancer.load ip = s.nodesAt ip :=
  tally_relabel assigned s.api.server ip

theorem servers_balancer {s : System B} {c : Controller B} (hc : s.ctl = some c) :
    s.balancer.servers = c.ipMap.keys := by
  simp [System.balancer, hc]

theorem belief_balancer {s : System B} {c : Controller B} (hc : s.ctl = some c) :
    s.balancer.belief = c.belief := by
  simp [System.balancer, hc]

/-- On a configured IP, the error of the balancer is the balance of the controller. -/
theorem error_balancer {s : System B} {c : Controller B} (hc : s.ctl = some c) (ip : String) :
    s.balancer.error ip = balance s c ip := by
  rw [Balancer.error, load_balancer, belief_balancer hc]
  rfl

/-! ## One step -/

/-- A write of one node on the API server is a write of one row of the placement. -/
theorem relabel_commit (api : Replica String (NodeData B)) (n : String) (v : Option (NodeData B)) :
    Table.relabel assigned (api.commit n v).server
      = Table.set (Table.relabel assigned api.server) n (v.bind NodeData.assignedIP) := by
  apply Finmap.ext_lookup
  intro n'
  rw [lookup_relabel, lookup_set, lookup_relabel]
  exact assignedAt_commit api n n' v

/-- A write that leaves the annotation as it is is invisible to the balancer. -/
theorem relabel_commit_same {api : Replica String (NodeData B)} {n : String} {data : NodeData B}
    (h : data.assignedIP = (api.server.lookup n).bind assigned) :
    Table.relabel assigned (api.commit n (some data)).server
      = Table.relabel assigned api.server := by
  rw [relabel_commit]
  apply Finmap.ext_lookup
  intro n'
  rw [lookup_set, Option.bind_some, h]
  split
  · rename_i hn
    rw [lookup_relabel, hn]
  · rfl

theorem belief_of_free {c : Controller B} (h : ∀ ip, owed c ip = 0) :
    c.belief = IPMap.count c.ipMap := by
  funext ip
  rw [Controller.belief, h, Int.add_zero]

theorem owed_updating {c : Controller B} {call : Call B} {ip : String} {nodeCopy : Node B}
    (h : c.critical = some (.updating call ip nodeCopy)) (ip' : String) : owed c ip' = 0 := by
  simp [owed, h]

/-- **The update that commits is one action of the balancer.** The IP was selected on the `ipMap` of
now, and the version check says that the node still is what the call has read. -/
theorem Controller.Sound.balancer_update {s s' : System B} {e : Event B} {o : Obs}
    {c : Controller B} {call : Call B} {ip : String} {nodeCopy : Node B} (hc : c.Sound s.api)
    (hctl : s.ctl = some c) (hcrit : c.critical = some (.updating call ip nodeCopy))
    (happ : s.api.update call.info.nodeName nodeCopy = some s'.api)
    (hservers : s'.balancer.servers = s.balancer.servers)
    (hbelief : ∀ ip', s'.balancer.belief ip' = s.balancer.belief ip' +
      if e.loses then 0 else if ip' = ip then call.info.op.delta else 0) :
    Matches Balancer.Next s.balancer (call.info.action ⟨s, e, o, s'⟩) s'.balancer := by
  obtain ⟨hbasis, hapi⟩ := hc.update_basis hcrit happ
  have hdecided : Decided c.ipMap call ip nodeCopy := hc.holds _ hcrit
  have hfound : s.assignedAt call.info.nodeName = assigned call.node := by
    rw [System.assignedAt, assignedAt, hbasis, Option.bind_some]
  obtain ⟨ips, hsort, hnext⟩ := id hdecided
  have hplaced : s'.balancer.placed
      = Table.set s.balancer.placed call.info.nodeName (call.info.op.written ip) := by
    rw [← afterLock_written hnext, System.balancer, System.balancer, hapi]
    exact relabel_commit s.api call.info.nodeName (some nodeCopy.value)
  unfold CallInfo.action
  cases hop : call.info.op with
  | assign =>
      rw [hop] at hnext hplaced hbelief
      obtain ⟨-, hunknown, -⟩ := assignAfterLock_update hnext
      have hleast : Least s.balancer.servers s.balancer.belief ip := by
        rw [servers_balancer hctl, belief_balancer hctl, belief_of_free (owed_updating hcrit)]
        exact hdecided.least hop
      have hfree : ∀ j, s.balancer.placed.lookup call.info.nodeName = some j →
          j ∉ s.balancer.servers := by
        intro j hj hin
        rw [lookup_placed, hfound] at hj
        rw [servers_balancer hctl, Finmap.mem_keys] at hin
        exact hunknown j hj hin
      have hpost : s'.assignedAt call.info.nodeName = some ip := by
        rw [← lookup_placed, hplaced, lookup_set_self]
        rfl
      have hnew : s'.balancer = { s.balancer with
          placed := Table.set s.balancer.placed call.info.nodeName (some ip),
          belief := if !e.loses then place s.balancer.belief ip else s.balancer.belief } := by
        refine Balancer.ext hservers hplaced (funext fun ip' => ?_)
        rw [hbelief]
        cases e.loses <;> simp [place, Op.delta]
      rw [hpost]
      show Balancer.Next _ (.place (!e.loses) call.info.nodeName ip) s'.balancer
      rw [hnew]
      exact Balancer.Next.place hleast hfree
  | remove =>
      rw [hop] at hnext hplaced hbelief
      obtain ⟨hassigned, hmem, -⟩ := removeAfterLock_update hnext
      have hat : s.balancer.placed.lookup call.info.nodeName = some ip := by
        rw [lookup_placed, hfound, hassigned]
      have hin : ip ∈ s.balancer.servers := by
        rw [servers_balancer hctl, Finmap.mem_keys]
        exact hmem
      have hnew : s'.balancer = { s.balancer with
          placed := Table.set s.balancer.placed call.info.nodeName none,
          belief := if !e.loses then unplace s.balancer.belief ip else s.balancer.belief } := by
        refine Balancer.ext hservers hplaced (funext fun ip' => ?_)
        rw [hbelief]
        cases e.loses
        · simp only [unplace, Op.delta, Bool.not_false, if_true, Bool.false_eq_true, if_false]
          split <;> omega
        · simp
      rw [hfound, hassigned]
      show Balancer.Next _ (.release (!e.loses) call.info.nodeName ip) s'.balancer
      rw [hnew]
      exact Balancer.Next.release hat hin

/-- A start counts the loads afresh: the listing is the one of the server. -/
theorem balancer_start {s : System B} {ipList : List String} {clusterNodes : List (Node B)}
    {ipMap : IPMap} (hne : ipList ≠ [])
    (hlist : (clusterNodes : Multiset (Node B)) = values s.api.server)
    (hmap : resyncIPMap ipList (.ok clusterNodes) = .ok ipMap) :
    Balancer.Next s.balancer (.configure ipList.toFinset)
      (System.balancer { s with api := s.api.relist, ctl := some ⟨ipMap, [], none⟩ }) := by
  obtain ⟨hkeys, hcount⟩ := resyncIPMap_spec hmap
  have hnew : System.balancer { s with api := s.api.relist, ctl := some ⟨ipMap, [], none⟩ }
      = { s.balancer with
            servers := ipList.toFinset,
            belief := fun i => if i ∈ ipList.toFinset then (s.balancer.load i : ℤ) else 0 } := by
    refine Balancer.ext hkeys rfl (funext fun ip => ?_)
    show IPMap.count ipMap ip + 0 = if ip ∈ ipList.toFinset then (s.balancer.load ip : ℤ) else 0
    rw [Int.add_zero, load_balancer, ← hkeys]
    by_cases hip : ip ∈ ipMap
    · rw [if_pos (Finmap.mem_keys.mpr hip), hcount ip hip, countP_listing hlist]
      rfl
    · rw [if_neg (fun hin => hip (Finmap.mem_keys.mp hin)), IPMap.count,
        Finmap.lookup_eq_none.mpr hip, Option.getD_none]
  rw [hnew]
  exact Balancer.Next.configure (List.toFinset_nonempty_iff ipList |>.mpr hne)

/-- A step that writes for no call and leaves the process up, or down, is none of the balancer. -/
theorem action_eq_none {t : Move B} (hstart : t.event.restarts = false)
    (hdel : t.event.deletes = false) (hctl : t.post.ctl.isSome = t.pre.ctl.isSome)
    (hw : writer t = none) : action t = none := by
  have hstop : stops t = false := by
    rw [stops, ← hctl]
    cases t.post.ctl <;> rfl
  unfold action
  split
  · rename_i he; rw [he] at hstart; cases hstart
  · rename_i he; rw [he] at hdel; cases hdel
  · rw [hstop, hw]; rfl

/-- Such a step of a process that is up, when it keeps what the balancer is made of. -/
theorem balancer_keep {s s' : System B} {e : Event B} {o : Obs} {c c' : Controller B}
    (hctl : s.ctl = some c) (hctl' : s'.ctl = some c') (hstart : e.restarts = false)
    (hdel : e.deletes = false) (hw : writer ⟨s, e, o, s'⟩ = none)
    (hkeys : c'.ipMap.keys = c.ipMap.keys) (hbelief : c'.belief = c.belief)
    (hserver : s'.api.server = s.api.server) :
    Matches Balancer.Next s.balancer (action ⟨s, e, o, s'⟩) s'.balancer := by
  rw [action_eq_none hstart hdel (by simp [hctl, hctl']) hw]
  show s'.balancer = s.balancer
  simp [System.balancer, hctl, hctl', hkeys, hbelief, hserver]

/-- A step of the others that leaves the annotations as they are. -/
theorem balancer_others {s s' : System B} {e : Event B} {o : Obs} (hctl : s'.ctl = s.ctl)
    (hstart : e.restarts = false) (hdel : e.deletes = false) (hw : writer ⟨s, e, o, s'⟩ = none)
    (hplaced : Table.relabel assigned s'.api.server = Table.relabel assigned s.api.server) :
    Matches Balancer.Next s.balancer (action ⟨s, e, o, s'⟩) s'.balancer := by
  rw [action_eq_none hstart hdel (by rw [hctl]) hw]
  show s'.balancer = s.balancer
  simp [System.balancer, hctl, hplaced]

theorem action_update {t : Move B} {reply : Reply} (he : t.event = .update reply)
    (hup : t.post.ctl.isNone = false) (hw : writer t = t.obs.actor) :
    action t = t.obs.actor.bind (fun a => a.action t) := by
  simp [action, he, stops, hup, hw]

/-- **Refinement of one step.** -/
theorem Step.balancer_step {s s' : System B} {e : Event B} {o : Obs} (h : Step s e o s')
    (hs : s.Sound) :
    Matches Balancer.Next s.balancer (action ⟨s, e, o, s'⟩) s'.balancer := by
  cases h with
  | @start ipList clusterNodes ipMap hctl hne hlist hmap =>
      exact balancer_start hne hlist hmap
  | @crash c hctl =>
      have hact : action (⟨s, .crash, {}, { s with ctl := none }⟩ : Move B) = some .stop := by
        simp [action, stops, hctl]
      rw [hact]
      exact Balancer.Next.stop
  | @lockPanic c i ips call hctl =>
      have hact : action (⟨s, .lock i ips, { actor := some call.info, ret := some .panicked },
          { s with ctl := none }⟩ : Move B) = some .stop := by
        simp [action, stops, hctl]
      rw [hact]
      exact Balancer.Next.stop
  | getReturn => exact balancer_others rfl rfl rfl (by simp [writer]) rfl
  | getWait hctl => exact balancer_keep hctl rfl rfl rfl (by simp [writer]) rfl rfl rfl
  | lockReturn hctl => exact balancer_keep hctl rfl rfl rfl (by simp [writer]) rfl rfl rfl
  | lockUpdate hctl hfree =>
      refine balancer_keep hctl rfl rfl rfl (by simp [writer]) rfl (funext fun ip => ?_) rfl
      simp [Controller.belief, owed, hfree]
  | updateRefused hctl hcrit =>
      refine balancer_keep hctl rfl rfl rfl (by simp [writer]) rfl (funext fun ip => ?_) rfl
      simp [Controller.belief, owed, hcrit]
  | @updateLost c call ip err nodeCopy api hctl hcrit happ =>
      rw [action_update rfl rfl (writer_of_update happ)]
      refine (hs c hctl).balancer_update hctl hcrit happ ?_ (fun ip' => ?_)
      · simp [System.balancer, hctl]
      · simp [System.balancer, hctl, Event.loses, Controller.belief, owed, hcrit]
  | @updateDone c call ip err nodeCopy api hctl hcrit happ =>
      rw [action_update rfl rfl (writer_of_update happ)]
      refine (hs c hctl).balancer_update hctl hcrit happ ?_ (fun ip' => ?_)
      · simp [System.balancer, hctl]
      · simp [System.balancer, hctl, Event.loses, Controller.belief, owed, hcrit]
  | @count c call ip hctl hcrit =>
      -- what was owed is counted
      obtain ⟨nodeCopy, ips, hsort, hnext⟩ := (hs c hctl).holds _ hcrit
      refine balancer_keep hctl rfl rfl rfl (by simp [writer])
        (keys_add (afterLock_mem hsort hnext) _) (funext fun ip' => ?_) rfl
      simp [Controller.belief, owed, hcrit, count_add]
  | deliver happ =>
      obtain ⟨hserver, hrev, -⟩ := Replica.deliver_eq_some happ
      exact balancer_others rfl rfl rfl (by simp [writer, hrev]) (by rw [hserver])
  | create hnew hdata =>
      refine balancer_others rfl rfl rfl (by simp [writer]) (relabel_commit_same ?_)
      rw [hnew, hdata]
      rfl
  | write hold hdata =>
      refine balancer_others rfl rfl rfl (by simp [writer]) (relabel_commit_same ?_)
      rw [hold, hdata]
      rfl
  | @delete n old hold =>
      have hnew : System.balancer { s with api := s.api.commit n none }
          = { s.balancer with placed := Table.set s.balancer.placed n none } :=
        Balancer.ext rfl (relabel_commit s.api n none) rfl
      show Balancer.Next s.balancer (.leave n) _
      rw [hnew]
      exact Balancer.Next.leave

/-! ## Whole runs -/

theorem balancer_path [DecidableEq B] {s₀ s : System B} {tr : Trace B} (h₀ : s₀.Idle)
    (hrun : Run step s₀ tr s) :
    Path Balancer.Next s₀.balancer (tr.filterMap action) s.balancer :=
  Run.refines System.balancer action
    (fun _ _ hpre hstep => (step_cases hstep).balancer_step (sound_of_run h₀ hpre)) hrun

/-- **The system refines the balancer.** Whatever the interleaving, the staleness of the lister, the
failures, the lost answers, the crashes and the other clients: the run is a run of the abstract
balancer. An `AssignIPToNode` that writes places the node and a `RemoveIPFromNode` that writes
releases it; a node that is deleted leaves; a process that is started configures the servers, and
one that stops takes them away. Nothing else is an action. The loads of the balancer are the numbers
of annotated nodes, and between two calls its beliefs are the counts of `ipMap`. -/
theorem refines_balancer [DecidableEq B] {s₀ s : System B} {tr : Trace B} (h₀ : s₀.Idle)
    (hrun : Run step s₀ tr s) :
    Path Balancer.Next s₀.balancer (tr.filterMap action) s.balancer ∧
      (∀ ip, s.balancer.load ip = s.nodesAt ip) ∧
      ∀ c, s.ctl = some c → s.balancer.servers = c.ipMap.keys ∧
        (c.critical = none → s.balancer.belief = IPMap.count c.ipMap) := by
  refine ⟨balancer_path h₀ hrun, load_balancer s, fun c hc =>
    ⟨servers_balancer hc, fun hfree => ?_⟩⟩
  rw [belief_balancer hc, belief_of_free (owed_of_free hfree)]

/-- Three nodes are assigned; the answer to the third assignment is lost; one IP is removed, the
removed node reads a stale cache and is refused, and another node is deleted with its annotation. -/
def wearEvents : List (Event Unit) :=
  [.get .assign "n1" "v1", .get .assign "n2" "v1", .get .assign "n3" "v1",
   .lock 0 ["10.0.0.1", "10.0.0.2"], .update (.answered ""), .count,
   .lock 0 ["10.0.0.2", "10.0.0.1"], .update (.answered ""), .count,
   .lock 0 ["10.0.0.1", "10.0.0.2"], .update (.lost "timeout"), .deliver "n2",
   .get .remove "n2" "v1", .lock 0 [], .update (.answered ""), .count,
   .get .assign "n2" "v2", .lock 0 ["10.0.0.2", "10.0.0.1"], .delete "n1"]

/-- The cluster of that run, with the process just started. -/
def threeNodes : System Unit := booted ["n1", "n2", "n3"] ["10.0.0.1", "10.0.0.2"]

theorem refines_balancer_wearEvents :
    ∃ tr s, Run step threeNodes tr s ∧
      tr.filterMap action = [.place true "n1" "10.0.0.1", .place true "n2" "10.0.0.2",
        .place false "n3" "10.0.0.1", .release true "n2" "10.0.0.2", .leave "n1"] ∧
      Path Balancer.Next threeNodes.balancer (tr.filterMap action) s.balancer := by
  obtain ⟨tr, s, c, hrun, hup, hp⟩ := exists_run threeNodes wearEvents
    (fun tr _ _ => decide (tr.filterMap action = [.place true "n1" "10.0.0.1",
      .place true "n2" "10.0.0.2", .place false "n3" "10.0.0.1", .release true "n2" "10.0.0.2",
      .leave "n1"])) (by decide)
  exact ⟨tr, s, hrun, of_decide_eq_true hp, (refines_balancer (booted_balanced _ _).idle hrun).1⟩

end

end NfsLbCsi
