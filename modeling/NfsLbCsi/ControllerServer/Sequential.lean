import NfsLbCsi.ControllerServer.Handlers

set_option autoImplicit false

/-! # One RPC after the other

Runs of `ControllerPublishVolume` and `ControllerUnpublishVolume` in which every handler returns
before the next one is called and reads a cache that has caught up; in between the cache catches up
and other clients create nodes and write to them. Each RPC is a run of the LB controller's system
(`Serving.refines`), so the counts are right in between.

`Serving` is the invariant: the annotation of a node is the IP that the last successful RPC
addressed to the node has returned, if that was a publish. So a complete teardown leaves nothing
behind (`teardown_leaves_nothing`).
-/

namespace NfsLbCsi

open Tally Optimistic Lts

/-! ## Runs of RPCs -/

/-- An RPC with the choices of its environment, or an event between two RPCs. -/
inductive RpcEvent (B : Type) where
  | publish (req : ControllerPublishVolumeRequest) (ips : List String) (reply : Reply)
  | unpublish (req : ControllerUnpublishVolumeRequest) (reply : Reply)
  | other (e : Event B)

section

variable {B : Type}

/-- The fate of the update, if the RPC comes to make one. -/
def RpcEvent.reply : RpcEvent B → Option Reply
  | .publish _ _ reply => some reply
  | .unpublish _ reply => some reply
  | .other _ => none

/-- One RPC, or one event in between. -/
def rpcStep [DecidableEq B] (cs : ControllerServer B) :
    RpcEvent B → Option (ControllerServer B × Option Response)
  | .publish req ips reply =>
      if cs.lbController.all (fun lb => decide (SortedByCount lb.ipMap ips)) then
        (controllerPublishVolume cs req ips reply).map (fun p => (p.2, some p.1))
      else none
  | .unpublish req reply =>
      (controllerUnpublishVolume cs req reply).map (fun p => (p.2, some p.1))
  | .other e =>
      if e.environment then
        cs.lbController.bind (fun lb => (step ⟨lb.api, none, 0⟩ e).map (fun p =>
          (⟨some ⟨p.1.api, lb.ipMap⟩, cs.volumeLocks⟩, none)))
      else none

abbrev RpcMove (B : Type) := Transition (ControllerServer B) (RpcEvent B) (Option Response)

abbrev RpcTrace (B : Type) := List (RpcMove B)

/-- The cases of a step. -/
inductive RpcStep [DecidableEq B] (cs : ControllerServer B) :
    RpcEvent B → Option Response → ControllerServer B → Prop where
  | publishRejected {req : ControllerPublishVolumeRequest} {ips : List String} {reply : Reply}
      {code : Code} {msg : String} :
      RpcStep cs (.publish req ips reply) (some (.error code msg)) cs
  | unpublishRejected {req : ControllerUnpublishVolumeRequest} {reply : Reply} {code : Code}
      {msg : String} (hwhy : req.volumeId = "" ∨ req.nodeId = "" ∨
        lockingVolumeID req.nodeId req.volumeId ∈ cs.volumeLocks) :
      RpcStep cs (.unpublish req reply) (some (.error code msg)) cs
  | publish {req : ControllerPublishVolumeRequest} {ips : List String} {reply : Reply}
      {lb lb' : LBController B} {r : Ret} {resp : Response} (hlb : cs.lbController = some lb)
      (hv : req.volumeId ≠ "") (hn : req.nodeId ≠ "") (hsort : SortedByCount lb.ipMap ips)
      (hcall : Op.assign.call lb req.nodeId ips reply = (r, lb'))
      (hresp : publishResponse req.nodeId r = some resp) :
      RpcStep cs (.publish req ips reply) (some resp) ⟨some lb', cs.volumeLocks⟩
  | unpublish {req : ControllerUnpublishVolumeRequest} {reply : Reply} {lb lb' : LBController B}
      {r : Ret} {resp : Response} (hlb : cs.lbController = some lb) (hv : req.volumeId ≠ "")
      (hn : req.nodeId ≠ "") (hcall : Op.remove.call lb req.nodeId [] reply = (r, lb'))
      (hresp : unpublishResponse req.nodeId r = some resp) :
      RpcStep cs (.unpublish req reply) (some resp) ⟨some lb', cs.volumeLocks⟩
  | other {e : Event B} {lb : LBController B} {s' : System B} {o : Obs}
      (hlb : cs.lbController = some lb) (he : e.environment = true)
      (hstep : step ⟨lb.api, none, 0⟩ e = some (s', o)) :
      RpcStep cs (.other e) none ⟨some ⟨s'.api, lb.ipMap⟩, cs.volumeLocks⟩

theorem rpcStep_cases [DecidableEq B] {cs cs' : ControllerServer B} {e : RpcEvent B}
    {o : Option Response} (h : rpcStep cs e = some (cs', o)) : RpcStep cs e o cs' := by
  cases e with
  | publish req ips reply =>
      simp only [rpcStep, Option.ite_none_right_eq_some] at h
      obtain ⟨hsort, hmap⟩ := h
      obtain ⟨⟨resp, cs₁⟩, hpub, heq⟩ := Option.map_eq_some_iff.mp hmap
      obtain ⟨rfl, rfl⟩ := Prod.mk.inj heq
      rcases controllerPublishVolume_cases hpub with
        ⟨⟨code, msg, rfl⟩, rfl⟩ | ⟨hv, hn, lb, r, lb', hlb, hcall, hresp, rfl⟩
      · exact RpcStep.publishRejected
      · rw [hlb, Option.all_some, decide_eq_true_eq] at hsort
        exact RpcStep.publish hlb hv hn hsort hcall hresp
  | unpublish req reply =>
      obtain ⟨⟨resp, cs₁⟩, hunpub, heq⟩ := Option.map_eq_some_iff.mp h
      obtain ⟨rfl, rfl⟩ := Prod.mk.inj heq
      rcases controllerUnpublishVolume_cases hunpub with
        ⟨⟨code, msg, rfl⟩, rfl, hwhy⟩ | ⟨hv, hn, lb, r, lb', hlb, hcall, hresp, rfl⟩
      · exact RpcStep.unpublishRejected hwhy
      · exact RpcStep.unpublish hlb hv hn hcall hresp
  | other e =>
      simp only [rpcStep, Option.ite_none_right_eq_some] at h
      obtain ⟨he, hbind⟩ := h
      obtain ⟨lb, hlb, hmap⟩ := Option.bind_eq_some_iff.mp hbind
      obtain ⟨⟨s', o'⟩, hstep, heq⟩ := Option.map_eq_some_iff.mp hmap
      obtain ⟨rfl, rfl⟩ := Prod.mk.inj heq
      exact RpcStep.other hlb he hstep

/-! ## What the RPCs have answered -/

/-- A successful RPC: its volume and node, and the publish context if it was a publish. -/
structure Success where
  volumeId : String
  nodeId : String
  publishContext : Option (Table String String)

def succeeded (t : RpcMove B) : Option Success :=
  match t.event, t.obs with
  | .publish req _ _, some (.published publishContext) =>
      some ⟨req.volumeId, req.nodeId, some publishContext⟩
  | .unpublish req _, some .unpublished => some ⟨req.volumeId, req.nodeId, none⟩
  | _, _ => none

theorem succeeded_cases {cs cs' : ControllerServer B} {e : RpcEvent B} {o : Option Response}
    {a : Success} (h : succeeded ⟨cs, e, o, cs'⟩ = some a) :
    (∃ req ips reply ctx, e = .publish req ips reply ∧ o = some (.published ctx) ∧
      a = ⟨req.volumeId, req.nodeId, some ctx⟩) ∨
    (∃ req reply, e = .unpublish req reply ∧ o = some .unpublished ∧
      a = ⟨req.volumeId, req.nodeId, none⟩) := by
  unfold succeeded at h
  split at h
  · rename_i req ips reply ctx he ho
    exact Or.inl ⟨req, ips, reply, ctx, he, ho, (Option.some.inj h).symm⟩
  · rename_i req reply he ho
    exact Or.inr ⟨req, reply, he, ho, (Option.some.inj h).symm⟩
  · cases h

/-- The publish context of the last successful RPC among those that `p` selects; `none` if there is
none, or if the last one is an unpublish. -/
def lastContext (p : Success → Bool) (tr : RpcTrace B) : Option (Table String String) :=
  tr.foldl (fun ctx t =>
    match succeeded t with
    | some a => if p a then a.publishContext else ctx
    | none => ctx) none

/-- What the last successful RPC for the volume `v` and the node `n` has returned, if it is a
publish. -/
def publishedContext (v n : String) : RpcTrace B → Option (Table String String) :=
  lastContext (fun a => a.volumeId == v && a.nodeId == n)

/-- What the last successful RPC addressed to the node `n` has returned, if it is a publish. -/
def nodeContext (n : String) : RpcTrace B → Option (Table String String) :=
  lastContext (fun a => a.nodeId == n)

theorem lastContext_snoc_none {p : Success → Bool} {tr : RpcTrace B} {t : RpcMove B}
    (h : ∀ a, succeeded t = some a → p a = false) :
    lastContext p (tr ++ [t]) = lastContext p tr := by
  simp only [lastContext, List.foldl_append, List.foldl_cons, List.foldl_nil]
  cases hs : succeeded t with
  | none => rfl
  | some a => simp [h a hs]

theorem lastContext_snoc_some {p : Success → Bool} {tr : RpcTrace B} {t : RpcMove B} {a : Success}
    (h : succeeded t = some a) (hp : p a = true) :
    lastContext p (tr ++ [t]) = a.publishContext := by
  simp [lastContext, List.foldl_append, h, hp]

theorem lastContext_eq_none {p : Success → Bool} {tr : RpcTrace B}
    (h : ∀ t ∈ tr, ∀ a, succeeded t = some a → p a = false) : lastContext p tr = none := by
  induction tr using List.reverseRecOn with
  | nil => rfl
  | append_singleton tr t ih =>
      rw [lastContext_snoc_none (h t (by simp))]
      exact ih (fun u hu => h u (List.mem_append_left _ hu))

/-- Runs of RPCs from nodes without annotations and counts of 0, with a cache that has caught up
whenever a handler reads it and updates that fail without effect. -/
structure RpcRun [DecidableEq B] (lb₀ : LBController B) (cs₀ : ControllerServer B)
    (tr : RpcTrace B) (cs : ControllerServer B) : Prop where
  init : cs₀ = ⟨some lb₀, ∅⟩
  bare : ∀ n, lb₀.assignedAt n = none
  zero : ∀ ip ∈ lb₀.ipMap, IPMap.count lb₀.ipMap ip = 0
  run : Run rpcStep cs₀ tr cs
  up_to_date : ∀ t ∈ tr, t.event.reply ≠ none → ∀ lb, t.pre.lbController = some lb → lb.api.Synced
  clean : ∀ t ∈ tr, ∀ reply, t.event.reply = some reply → reply.isLost = false

/-! ## The invariant -/

/-- What holds of the server between two RPCs. -/
structure Serving [DecidableEq B] (lb₀ : LBController B) (tr : RpcTrace B)
    (cs : ControllerServer B) (lb : LBController B) : Prop where
  server : cs = ⟨some lb, ∅⟩
  refines : ∃ tr' k, Run step (lb₀.system 0) tr' (lb.system k) ∧ Plain tr'
  keys : lb.ipMap.keys = lb₀.ipMap.keys
  known : ∀ n ip, lb.assignedAt n = some ip → ip ∈ lb.ipMap
  annotated : ∀ n, nodeContext n tr = (lb.assignedAt n).map assignedContext
  named : ∀ v n, publishedContext v n tr ≠ none → v ≠ "" ∧ n ≠ ""

theorem nodeContext_snoc {tr : RpcTrace B} {t : RpcMove B} {a : Success} (h : succeeded t = some a)
    (n : String) : nodeContext n (tr ++ [t])
      = if n = a.nodeId then a.publishContext else nodeContext n tr := by
  by_cases hn : n = a.nodeId
  · rw [if_pos hn]
    exact lastContext_snoc_some h (by simp [hn])
  · rw [if_neg hn]
    refine lastContext_snoc_none (fun b hb => ?_)
    rw [h] at hb
    obtain rfl := Option.some.inj hb
    exact beq_false_of_ne (fun heq => hn heq.symm)

theorem publishedContext_snoc {tr : RpcTrace B} {t : RpcMove B} {a : Success}
    (h : succeeded t = some a) (v n : String) :
    publishedContext v n (tr ++ [t])
      = if v = a.volumeId ∧ n = a.nodeId then a.publishContext else publishedContext v n tr := by
  by_cases hvn : v = a.volumeId ∧ n = a.nodeId
  · rw [if_pos hvn]
    exact lastContext_snoc_some h (by simp [hvn.1, hvn.2])
  · rw [if_neg hvn]
    refine lastContext_snoc_none (fun b hb => ?_)
    rw [h] at hb
    obtain rfl := Option.some.inj hb
    rw [Bool.and_eq_false_iff]
    by_cases hv : v = a.volumeId
    · exact Or.inr (beq_false_of_ne (fun heq => hvn ⟨hv, heq.symm⟩))
    · exact Or.inl (beq_false_of_ne (fun heq => hv heq.symm))

theorem lastContext_snoc_of_none {p : Success → Bool} {tr : RpcTrace B} {t : RpcMove B}
    (h : succeeded t = none) : lastContext p (tr ++ [t]) = lastContext p tr :=
  lastContext_snoc_none (fun a ha => by rw [h] at ha; cases ha)

/-- A step that answers no RPC with success and leaves the annotations and the map alone. -/
theorem Serving.quiet [DecidableEq B] {lb₀ lb lb' : LBController B} {tr : RpcTrace B}
    {cs cs' : ControllerServer B} {e : RpcEvent B} {o : Option Response}
    (h : Serving lb₀ tr cs lb) (hs : succeeded ⟨cs, e, o, cs'⟩ = none)
    (hserver : cs' = ⟨some lb', ∅⟩)
    (hrun : ∃ tr' k, Run step (lb₀.system 0) tr' (lb'.system k) ∧ Plain tr')
    (hmap : lb'.ipMap = lb.ipMap) (hat : ∀ n, lb'.assignedAt n = lb.assignedAt n) :
    Serving lb₀ (tr ++ [⟨cs, e, o, cs'⟩]) cs' lb' where
  server := hserver
  refines := hrun
  keys := by rw [hmap, h.keys]
  known := fun n ip hip => by rw [hmap]; exact h.known n ip (hat n ▸ hip)
  annotated := fun n => by rw [hat n, ← h.annotated n, nodeContext, lastContext_snoc_of_none hs]
  named := fun v n hne => by
    rw [publishedContext, lastContext_snoc_of_none hs] at hne
    exact h.named v n hne

/-- A step that answers an RPC with success: afterwards the annotation of its node is what it
says. -/
theorem Serving.success [DecidableEq B] {lb₀ lb lb' : LBController B} {tr : RpcTrace B}
    {cs cs' : ControllerServer B} {e : RpcEvent B} {o : Option Response} {a : Success}
    (h : Serving lb₀ tr cs lb) (hs : succeeded ⟨cs, e, o, cs'⟩ = some a) (hv : a.volumeId ≠ "")
    (hn : a.nodeId ≠ "") (hserver : cs' = ⟨some lb', ∅⟩)
    (hrun : ∃ tr' k, Run step (lb₀.system 0) tr' (lb'.system k) ∧ Plain tr')
    (hkeys : lb'.ipMap.keys = lb.ipMap.keys)
    (hat : a.publishContext = (lb'.assignedAt a.nodeId).map assignedContext)
    (hknown : ∀ ip, lb'.assignedAt a.nodeId = some ip → ip ∈ lb.ipMap)
    (hother : ∀ n, n ≠ a.nodeId → lb'.assignedAt n = lb.assignedAt n) :
    Serving lb₀ (tr ++ [⟨cs, e, o, cs'⟩]) cs' lb' where
  server := hserver
  refines := hrun
  keys := hkeys.trans h.keys
  known := fun n ip hip => by
    rw [← Finmap.mem_keys, hkeys, Finmap.mem_keys]
    by_cases heq : n = a.nodeId
    · rw [heq] at hip
      exact hknown ip hip
    · rw [hother n heq] at hip
      exact h.known n ip hip
  annotated := fun n => by
    rw [nodeContext_snoc hs]
    by_cases heq : n = a.nodeId
    · rw [if_pos heq, heq, hat]
    · rw [if_neg heq, hother n heq, h.annotated n]
  named := fun v n hne => by
    rw [publishedContext_snoc hs] at hne
    by_cases hvn : v = a.volumeId ∧ n = a.nodeId
    · rw [hvn.1, hvn.2]
      exact ⟨hv, hn⟩
    · rw [if_neg hvn] at hne
      exact h.named v n hne

/-- Appending the run of one more call. -/
theorem refines_call [DecidableEq B] {lb₀ lb lb' : LBController B} {op : Op} {n : String}
    {ips : List String} {reply : Reply} {r : Ret}
    (h : ∃ tr' k, Run step (lb₀.system 0) tr' (lb.system k) ∧ Plain tr')
    (hcall : op.call lb n ips reply = (r, lb')) (hr : r ≠ .panicked)
    (hsort : op = .assign → SortedByCount lb.ipMap ips) (hreply : reply.isLost = false) :
    ∃ tr' k, Run step (lb₀.system 0) tr' (lb'.system k) ∧ Plain tr' := by
  obtain ⟨tr', k, hrun, hplain⟩ := h
  obtain ⟨tr₁, t, hrun₁, hplain₁, -⟩ := call_run hcall hr hsort hreply "" k
  exact ⟨tr' ++ (tr₁ ++ [t]), k + 1, hrun.append hrun₁, hplain.append hplain₁⟩

/-- What the handlers answer tells how the call has ended. -/
theorem publishResponse_some {n : String} {r : Ret} {resp : Response}
    (h : publishResponse n r = some resp) :
    (∃ ip, r = .assigned ip ∧ resp = .published (assignedContext ip)) ∨
    (∃ err msg, r = .failed err ∧ resp = .error .internal msg) := by
  cases r with
  | assigned ip => exact Or.inl ⟨ip, rfl, (Option.some.inj h).symm⟩
  | removed => cases h
  | failed err => exact Or.inr ⟨err, _, rfl, (Option.some.inj h).symm⟩
  | panicked => cases h

theorem unpublishResponse_some {n : String} {r : Ret} {resp : Response}
    (h : unpublishResponse n r = some resp) :
    (r = .removed ∧ resp = .unpublished) ∨
    (∃ err msg, r = .failed err ∧ resp = .error .internal msg) := by
  cases r with
  | assigned ip => cases h
  | removed => exact Or.inl ⟨rfl, (Option.some.inj h).symm⟩
  | failed err => exact Or.inr ⟨err, _, rfl, (Option.some.inj h).symm⟩
  | panicked => cases h

theorem Serving.step [DecidableEq B] {lb₀ lb : LBController B} {tr : RpcTrace B}
    {cs cs' : ControllerServer B} {e : RpcEvent B} {o : Option Response}
    (h : Serving lb₀ tr cs lb) (hstep : RpcStep cs e o cs')
    (hsync : e.reply ≠ none → lb.api.Synced)
    (hclean : ∀ reply, e.reply = some reply → reply.isLost = false) :
    ∃ lb', Serving lb₀ (tr ++ [⟨cs, e, o, cs'⟩]) cs' lb' := by
  have hcs : cs = ⟨some lb, ∅⟩ := h.server
  subst hcs
  cases hstep with
  | publishRejected => exact ⟨lb, h.quiet rfl rfl h.refines rfl (fun _ => rfl)⟩
  | unpublishRejected => exact ⟨lb, h.quiet rfl rfl h.refines rfl (fun _ => rfl)⟩
  | @publish req ips reply lb₁ lb' r resp hlb hv hn hsort hcall hresp =>
      obtain rfl := Option.some.inj hlb
      have hreply : reply.isLost = false := hclean reply rfl
      rcases publishResponse_some hresp with ⟨ip, rfl, rfl⟩ | ⟨err, msg, rfl, rfl⟩
      · -- the cache has caught up, so the IP that is returned is the annotation
        have hrun := refines_call h.refines hcall Ret.noConfusion (fun _ => hsort) hreply
        obtain ⟨hat, hmem⟩ := call_assigned hcall (hsync (by simp [RpcEvent.reply]))
          (fun _ => hsort)
        refine ⟨lb', h.success (a := ⟨req.volumeId, req.nodeId, some (assignedContext ip)⟩) rfl
          hv hn rfl hrun (call_keys hcall (fun _ => hsort)) ?_ ?_
          (fun n hne => call_other hcall hne hreply)⟩
        · rw [hat, Option.map_some]
        · intro ip' hip'
          rw [hat] at hip'
          exact Option.some.inj hip' ▸ hmem
      · obtain rfl := call_failed hcall Ret.noConfusion (fun _ => Ret.noConfusion) hreply
        exact ⟨lb', h.quiet rfl rfl h.refines rfl (fun _ => rfl)⟩
  | @unpublish req reply lb₁ lb' r resp hlb hv hn hcall hresp =>
      obtain rfl := Option.some.inj hlb
      have hreply : reply.isLost = false := hclean reply rfl
      rcases unpublishResponse_some hresp with ⟨rfl, rfl⟩ | ⟨err, msg, rfl, rfl⟩
      · -- every annotation is a configured IP, so it is removed
        have hrun := refines_call h.refines hcall Ret.noConfusion Op.noConfusion hreply
        have hat := call_removed hcall (hsync (by simp [RpcEvent.reply])) (h.known req.nodeId)
        exact ⟨lb', h.success (a := ⟨req.volumeId, req.nodeId, none⟩) rfl hv hn rfl hrun
          (call_keys hcall Op.noConfusion) (by rw [hat, Option.map_none])
          (fun ip hip => by rw [hat] at hip; cases hip) (fun n hne => call_other hcall hne hreply)⟩
      · obtain rfl := call_failed hcall Ret.noConfusion (fun _ => Ret.noConfusion) hreply
        exact ⟨lb', h.quiet rfl rfl h.refines rfl (fun _ => rfl)⟩
  | @other e lb₁ s' o hlb he hstep =>
      obtain rfl := Option.some.inj hlb
      obtain ⟨tr', k, hrun, hplain⟩ := h.refines
      have hrun' := hrun.snoc (environment_step he hstep (some ⟨lb.ipMap, [], none⟩) k)
      have hplain' : Plain (tr' ++ [⟨lb.system k, e, o,
        ⟨s'.api, some ⟨lb.ipMap, [], none⟩, k⟩⟩]) := by
        cases e <;> first | exact hplain.snoc rfl rfl rfl | cases he
      have hat : ∀ n, LBController.assignedAt ⟨s'.api, lb.ipMap⟩ n = lb.assignedAt n :=
        fun n => environment_assignedAt he hstep n
      exact ⟨_, h.quiet rfl rfl ⟨_, k, hrun', hplain'⟩ rfl hat⟩

theorem serving_of_run [DecidableEq B] {lb₀ : LBController B} {cs₀ cs : ControllerServer B}
    {tr : RpcTrace B} (h : RpcRun lb₀ cs₀ tr cs) : ∃ lb, Serving lb₀ tr cs lb := by
  refine Run.traceInvariant (I := fun tr cs => ∃ lb, Serving lb₀ tr cs lb)
    (P := fun t => (t.event.reply ≠ none → ∀ lb, t.pre.lbController = some lb → lb.api.Synced) ∧
      ∀ reply, t.event.reply = some reply → reply.isLost = false) ?_ ?_ h.run
    (fun t ht => ⟨h.up_to_date t ht, h.clean t ht⟩)
  · refine ⟨lb₀, h.init, ⟨[], 0, Run.nil, plain_nil⟩, rfl, ?_, ?_, ?_⟩
    · intro n ip hip
      rw [h.bare n] at hip
      cases hip
    · intro n
      rw [h.bare n]
      rfl
    · intro v n hne
      exact absurd rfl hne
  · rintro tr t _ hstep ⟨hsync, hclean⟩ _ ⟨lb, hserving⟩
    refine hserving.step (rpcStep_cases hstep) (fun hr => hsync hr lb ?_) hclean
    rw [hserving.server]

/-! ## Teardown -/

theorem nodesAt_eq_zero {lb : LBController B} (hbare : ∀ n, lb.assignedAt n = none) (ip : String) :
    tally assigned lb.api.server ip = 0 := by
  refine tally_eq_zero (fun n node hn hassigned => ?_)
  have hat : lb.assignedAt n = some ip := Option.bind_eq_some_iff.mpr ⟨node, hn, hassigned⟩
  rw [hbare n] at hat
  cases hat

theorem system_balanced {lb : LBController B} (hbare : ∀ n, lb.assignedAt n = none)
    (hzero : ∀ ip ∈ lb.ipMap, IPMap.count lb.ipMap ip = 0) :
    (lb.system 0).Balanced lb.ipMap.keys.toList := by
  constructor
  · exact system_idle lb 0
  · intro c hc
    obtain rfl := Option.some.inj hc
    exact (Finset.toList_toFinset _).symm
  · intro c hc ip hip
    obtain rfl := Option.some.inj hc
    have hnone : (lb.system 0).nodesAt ip = 0 := nodesAt_eq_zero hbare ip
    rw [hnone]
    exact hzero ip hip

/-- Between two RPCs every count is the number of nodes that are annotated with the IP: the run of
RPCs is a run of the system without deletions, restarts and lost answers. -/
theorem Serving.lookup [DecidableEq B] {lb₀ lb : LBController B} {tr : RpcTrace B}
    {cs : ControllerServer B} (h : Serving lb₀ tr cs lb) (hbare : ∀ n, lb₀.assignedAt n = none)
    (hzero : ∀ ip ∈ lb₀.ipMap, IPMap.count lb₀.ipMap ip = 0) {ip : String} (hip : ip ∈ lb.ipMap) :
    lb.ipMap.lookup ip = some (tally assigned lb.api.server ip : Int) := by
  obtain ⟨tr', k, hrun, hplain⟩ := h.refines
  have hcount := count_eq_of_free (system_balanced hbare hzero) hrun rfl rfl hip
  have hdrift : drift tr' ip = 0 :=
    drift_eq_zero (fun t ht => (hplain t ht).2.1) (fun t ht => (hplain t ht).2.2) ip
  calc lb.ipMap.lookup ip = some (IPMap.count lb.ipMap ip) := lookup_eq_count hip
    _ = some ((lb.system k).nodesAt ip + drift tr' ip) := congrArg some hcount
    _ = some (tally assigned lb.api.server ip : Int) := by rw [hdrift, Int.add_zero]; rfl

/-- **Teardown leaves nothing.** A node carries the annotation exactly when the last successful RPC
addressed to it was a publish, and the annotation is what that publish has returned. When no node
has a publish for its last successful RPC, no node is annotated and every count is 0. -/
theorem teardown_leaves_nothing [DecidableEq B] {lb₀ : LBController B} {cs₀ cs : ControllerServer B}
    {tr : RpcTrace B} (h : RpcRun lb₀ cs₀ tr cs) :
    ∃ lb, cs.lbController = some lb ∧ lb.ipMap.keys = lb₀.ipMap.keys ∧
      (∀ n, (lb.assignedAt n).isSome ↔ (nodeContext n tr).isSome) ∧
      (∀ n, nodeContext n tr = (lb.assignedAt n).map assignedContext) ∧
      ((∀ n, nodeContext n tr = none) →
        (∀ n, lb.assignedAt n = none) ∧ ∀ ip ∈ lb.ipMap, lb.ipMap.lookup ip = some 0) := by
  obtain ⟨lb, hserving⟩ := serving_of_run h
  have hup : cs.lbController = some lb := by rw [hserving.server]
  have hannotated := hserving.annotated
  refine ⟨lb, hup, hserving.keys, fun n => ?_, hannotated, fun hdown => ?_⟩
  · rw [hannotated n, Option.isSome_map]
  · have hbare : ∀ n, lb.assignedAt n = none := by
      intro n
      have hn := hannotated n
      rw [hdown n] at hn
      exact Option.map_eq_none_iff.mp hn.symm
    refine ⟨hbare, fun ip hip => ?_⟩
    rw [hserving.lookup h.bare h.zero hip, nodesAt_eq_zero hbare ip]
    rfl

end

/-! ## Concrete runs -/

/-- The LB controller just after it has been started on a cluster without annotations. -/
def freshController (names ipList : List String) : LBController Unit :=
  ⟨cluster names, zeroCounts ipList⟩

theorem freshController_bare (names ipList : List String) (n : String) :
    (freshController names ipList).assignedAt n = none := by
  refine Option.bind_eq_none_iff.mpr (fun node hnode => ?_)
  rw [assigned, cluster_lookup names hnode]
  rfl

/-- What `RpcRun` asks of a step. -/
def rpcStepOk (t : RpcMove Unit) : Bool :=
  t.event.reply.all (fun reply => !reply.isLost &&
    t.pre.lbController.all (fun lb => decide (lb.api.cache = lb.api.server)))

/-- A computed run of RPCs that passes the test `p`. -/
theorem exists_rpcRun (names ipList : List String) (es : List (RpcEvent Unit))
    (p : RpcTrace Unit → ControllerServer Unit → LBController Unit → Bool)
    (h : (exec rpcStep ⟨some (freshController names ipList), ∅⟩ es).any (fun r =>
      r.1.all rpcStepOk && r.2.lbController.any (fun lb => p r.1 r.2 lb)) = true) :
    ∃ tr cs lb, RpcRun (freshController names ipList)
      ⟨some (freshController names ipList), ∅⟩ tr cs ∧
      cs.lbController = some lb ∧ p tr cs lb = true := by
  obtain ⟨tr, cs, hrun, hp⟩ := run_of_exec
    (p := fun tr (cs : ControllerServer Unit) =>
      tr.all rpcStepOk && cs.lbController.any (fun lb => p tr cs lb)) h
  rw [Bool.and_eq_true, List.all_eq_true, Option.any_eq_true] at hp
  obtain ⟨hok, lb, hlb, hplb⟩ := hp
  refine ⟨tr, cs, lb, ⟨rfl, freshController_bare names ipList,
    fun ip _ => count_zeroCounts ipList ip, hrun, ?_, ?_⟩, hlb, hplb⟩
  · intro t ht hreply lb' hlb'
    have ht' := hok t ht
    obtain ⟨reply, hr⟩ := Option.ne_none_iff_exists'.mp hreply
    simp only [rpcStepOk, hr, hlb', Option.all_some, Bool.and_eq_true, decide_eq_true_eq] at ht'
    exact ht'.2
  · intro t ht reply hr
    have ht' := hok t ht
    simp only [rpcStepOk, hr, Option.all_some, Bool.and_eq_true, Bool.not_eq_true'] at ht'
    exact ht'.1

/-- Two volumes of one node are published and unpublished again, with RPCs that fail in between. -/
def teardownEvents : List (RpcEvent Unit) :=
  [.publish ⟨"v1", "n1", some {}⟩ ["10.0.0.1", "10.0.0.2"] (.unsent "timeout"),
   .publish ⟨"v1", "n1", some {}⟩ ["10.0.0.1", "10.0.0.2"] (.answered ""), .other (.deliver "n1"),
   .publish ⟨"v2", "n1", some {}⟩ ["10.0.0.2", "10.0.0.1"] (.answered ""),
   .publish ⟨"v1", "n2", some {}⟩ ["10.0.0.2", "10.0.0.1"] (.answered ""),
   .unpublish ⟨"v1", "n1"⟩ (.answered ""), .other (.deliver "n1"),
   .unpublish ⟨"v2", "n1"⟩ (.answered "")]

theorem teardown_leaves_nothing_teardownEvents :
    ∃ tr cs lb, RpcRun (freshController ["n1"] ["10.0.0.1", "10.0.0.2"])
        ⟨some (freshController ["n1"] ["10.0.0.1", "10.0.0.2"]), ∅⟩ tr cs ∧
      cs.lbController = some lb ∧ tr.length = 8 ∧ (∀ n, lb.assignedAt n = none) ∧
      ∀ ip ∈ lb.ipMap, lb.ipMap.lookup ip = some 0 := by
  obtain ⟨tr, cs, lb, hrun, hup, hp⟩ := exists_rpcRun ["n1"] ["10.0.0.1", "10.0.0.2"] teardownEvents
    (fun tr _ _ => decide (tr.length = 8) && decide (nodeContext "n1" tr = none) &&
      tr.all (fun (t : RpcMove Unit) => (succeeded t).all (fun a => a.nodeId == "n1"))) (by decide)
  simp only [Bool.and_eq_true, decide_eq_true_eq, List.all_eq_true] at hp
  obtain ⟨⟨hlength, hn1⟩, hnodes⟩ := hp
  have hdown : ∀ n, nodeContext n tr = none := by
    intro n
    by_cases hn : n = "n1"
    · rw [hn, hn1]
    · refine lastContext_eq_none (fun t ht a ha => ?_)
      have hnode := hnodes t ht
      rw [ha, Option.all_some, beq_iff_eq] at hnode
      exact beq_false_of_ne (fun heq => hn (heq.symm.trans hnode))
  obtain ⟨lb', hup', -, -, -, hleft⟩ := teardown_leaves_nothing hrun
  obtain rfl := Option.some.inj (hup.symm.trans hup')
  exact ⟨tr, cs, lb, hrun, hup, hlength, hleft hdown⟩

end NfsLbCsi
