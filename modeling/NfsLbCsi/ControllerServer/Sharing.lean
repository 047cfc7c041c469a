import NfsLbCsi.ControllerServer.Sequential

set_option autoImplicit false

/-! # Volumes that share a node

The RPCs come per volume and node, the annotation is per node, and `RemoveIPFromNode` does not ask
which volumes the node still has. In a run of RPCs one after the other, a published volume keeps its
server exactly as long as no *other* volume is unpublished from the node (`kept_iff_alone`); the
first volume to go takes the annotation along (`unpublish_takes_sibling`).
-/

namespace NfsLbCsi

open Tally Optimistic Lts

section

variable {B : Type}

/-- Every volume whose last successful RPC was a publish still has its server: the node is annotated
with the IP that was returned, it is counted under that IP, and to publish the volume again returns
the same context and changes nothing. -/
def Kept (tr : RpcTrace B) (cs : ControllerServer B) : Prop :=
  ∀ v n ctx, publishedContext v n tr = some ctx →
    ∃ lb ip, cs.lbController = some lb ∧ ctx = assignedContext ip ∧ lb.assignedAt n = some ip ∧
      lb.ipMap.lookup ip = some (tally assigned lb.api.server ip : Int) ∧
      (lb.api.Synced → ∀ cap ips reply,
        controllerPublishVolume cs ⟨v, n, some cap⟩ ips reply = some (.published ctx, cs))

/-- The next event unpublishes no volume from a node to which another volume is published. -/
def Alone (tr : RpcTrace B) (e : RpcEvent B) : Prop :=
  ∀ req reply, e = .unpublish req reply → req.volumeId ≠ "" →
    ∀ v, v ≠ req.volumeId → publishedContext v req.nodeId tr = none

/-! ## One RPC -/

variable {lb₀ lb : LBController B} {cs₀ cs cs' : ControllerServer B} {tr tr' : RpcTrace B}

/-- To publish to a node that carries a known IP returns that IP and changes nothing. -/
theorem publish_again {v n ip : String} (hv : v ≠ "") (hn : n ≠ "") (hsync : lb.api.Synced)
    (hat : lb.assignedAt n = some ip) (hmem : ip ∈ lb.ipMap) (cap : VolumeCapability)
    (ips : List String) (reply : Reply) :
    controllerPublishVolume ⟨some lb, ∅⟩ ⟨v, n, some cap⟩ ips reply
      = some (.published (assignedContext ip), ⟨some lb, ∅⟩) := by
  have hcall : assignIPToNode lb n v ips reply = (.assigned ip, lb) := call_hit hsync hat hmem
  have hfree : lockingVolumeID n v ∉ (∅ : VolumeLocks) := Finset.notMem_empty _
  simp only [controllerPublishVolume, if_neg hv, if_neg hn, reduceCtorEq, if_false,
    ControllerServer.withLock, VolumeLocks.tryAcquire, if_neg hfree, Option.bind_some, hcall,
    publishResponse, Option.map_some, VolumeLocks.release, Finset.erase_insert hfree]

variable [DecidableEq B]

theorem Serving.context (h : Serving lb₀ tr cs lb) {n : String} {ctx : Table String String}
    (hctx : nodeContext n tr = some ctx) :
    ∃ ip, lb.assignedAt n = some ip ∧ ctx = assignedContext ip ∧ ip ∈ lb.ipMap := by
  rw [h.annotated n] at hctx
  obtain ⟨ip, hat, heq⟩ := Option.map_eq_some_iff.mp hctx
  exact ⟨ip, hat, heq.symm, h.known n ip hat⟩

/-- A successful publish to a node that is published already returns what the node has. -/
theorem Serving.publish_context (h : Serving lb₀ tr cs lb) {req : ControllerPublishVolumeRequest}
    {ips : List String} {reply : Reply} {ctx ctx' : Table String String}
    (hstep : RpcStep cs (.publish req ips reply) (some (.published ctx')) cs')
    (hsync : lb.api.Synced) (hctx : nodeContext req.nodeId tr = some ctx) : ctx' = ctx := by
  obtain ⟨ip, hat, rfl, hmem⟩ := h.context hctx
  have hcs : cs = ⟨some lb, ∅⟩ := h.server
  subst hcs
  cases hstep with
  | publish hlb hv hn hsort hcall hresp =>
      obtain rfl := Option.some.inj hlb
      rw [call_hit hsync hat hmem] at hcall
      obtain ⟨rfl, rfl⟩ := Prod.mk.inj hcall
      exact (Response.published.inj (Option.some.inj hresp)).symm

/-- With a cache that has caught up and a server that answers, an unpublish succeeds. -/
theorem Serving.unpublish_succeeds (h : Serving lb₀ tr cs lb)
    {req : ControllerUnpublishVolumeRequest} {err : String} {o : Option Response}
    (hstep : RpcStep cs (.unpublish req (.answered err)) o cs') (hsync : lb.api.Synced)
    (hv : req.volumeId ≠ "") (hn : req.nodeId ≠ "") : o = some .unpublished := by
  have hcs : cs = ⟨some lb, ∅⟩ := h.server
  subst hcs
  cases hstep with
  | unpublishRejected hwhy =>
      rcases hwhy with hv' | hn' | hlocked
      · exact absurd hv' hv
      · exact absurd hn' hn
      · exact absurd hlocked (Finset.notMem_empty _)
  | unpublish hlb _ _ hcall hresp =>
      obtain rfl := Option.some.inj hlb
      obtain rfl := remove_succeeds hcall hsync
      rw [← Option.some.inj hresp]

/-! ## Whole runs -/

/-- A run of RPCs up to some point is one. -/
theorem RpcRun.of_append (h : RpcRun lb₀ cs₀ (tr ++ tr') cs) (hrun : Run rpcStep cs₀ tr cs') :
    RpcRun lb₀ cs₀ tr cs' where
  init := h.init
  bare := h.bare
  zero := h.zero
  run := hrun
  up_to_date := fun t ht => h.up_to_date t (List.mem_append_left _ ht)
  clean := fun t ht => h.clean t (List.mem_append_left _ ht)

/-- What the volumes of a node have been given is what the node has. -/
def VolumesAgree (tr : RpcTrace B) : Prop :=
  ∀ v n ctx, publishedContext v n tr = some ctx → nodeContext n tr = some ctx

/-- One more event. Only the volume of a successful RPC and its siblings on the node are concerned:
a publish gives the volume what its siblings have, and an unpublish finds no siblings. -/
theorem Serving.volumesAgree {e : RpcEvent B} {o : Option Response} (h : Serving lb₀ tr cs lb)
    (hstep : RpcStep cs e o cs') (hsync : e.reply ≠ none → lb.api.Synced) (halone : Alone tr e)
    (hagree : VolumesAgree tr) : VolumesAgree (tr ++ [⟨cs, e, o, cs'⟩]) := by
  intro v n ctx hctx
  cases hs : succeeded ⟨cs, e, o, cs'⟩ with
  | none =>
      rw [publishedContext, lastContext_snoc_of_none hs] at hctx
      rw [nodeContext, lastContext_snoc_of_none hs]
      exact hagree v n ctx hctx
  | some a =>
      rw [publishedContext_snoc hs] at hctx
      rw [nodeContext_snoc hs]
      by_cases hn : n = a.nodeId
      · rw [if_pos hn]
        by_cases hv : v = a.volumeId
        · rwa [if_pos ⟨hv, hn⟩] at hctx
        · -- a sibling of the volume that the RPC is about
          rw [if_neg (fun hvn => hv hvn.1)] at hctx
          have hnode := hagree v n ctx hctx
          rcases succeeded_cases hs with
            ⟨req, ips, reply, ctx', rfl, rfl, rfl⟩ | ⟨req, reply, rfl, rfl, rfl⟩
          · have hsync' : lb.api.Synced := hsync (by simp [RpcEvent.reply])
            subst hn
            rw [h.publish_context hstep hsync' hnode]
          · have hnamed : req.volumeId ≠ "" := by
              cases hstep with
              | unpublish _ hv' => exact hv'
            subst hn
            have hnone := halone req reply rfl hnamed v hv
            rw [hctx] at hnone
            cases hnone
      · rw [if_neg hn]
        rw [if_neg (fun hvn => hn hvn.2)] at hctx
        exact hagree v n ctx hctx

theorem volumesAgree_of_run (h : RpcRun lb₀ cs₀ tr cs)
    (halone : ∀ tr₁ t tr₂, tr = tr₁ ++ t :: tr₂ → Alone tr₁ t.event) : VolumesAgree tr := by
  -- along the run, from its end: whether an unpublish is alone depends on what came before it
  induction tr using List.reverseRecOn generalizing cs with
  | nil =>
      intro v n ctx hctx
      cases hctx
  | append_singleton tr t ih =>
      obtain ⟨hpre, hstep, -⟩ := h.run.split
      have hrun := h.of_append hpre
      obtain ⟨lb, hserving⟩ := serving_of_run hrun
      have hagree : VolumesAgree tr := ih hrun (fun tr₁ u tr₂ heq =>
        halone tr₁ u (tr₂ ++ [t]) (by rw [heq, List.append_assoc, List.cons_append]))
      refine hserving.volumesAgree (rpcStep_cases hstep) (fun hreply => ?_)
        (halone tr t [] rfl) hagree
      exact h.up_to_date t (by simp) hreply lb (by rw [hserving.server])

theorem Serving.kept (h : Serving lb₀ tr cs lb) (hbare : ∀ n, lb₀.assignedAt n = none)
    (hzero : ∀ ip ∈ lb₀.ipMap, IPMap.count lb₀.ipMap ip = 0) (hagree : VolumesAgree tr) :
    Kept tr cs := by
  intro v n ctx hctx
  obtain ⟨ip, hat, rfl, hmem⟩ := h.context (hagree v n ctx hctx)
  obtain ⟨hv, hn⟩ := h.named v n (by rw [hctx]; exact Option.some_ne_none _)
  have hcs : cs = ⟨some lb, ∅⟩ := h.server
  subst hcs
  exact ⟨lb, ip, rfl, rfl, hat, h.lookup hbare hzero hmem,
    fun hsync cap ips reply => publish_again hv hn hsync hat hmem cap ips reply⟩

/-- The first volume to go takes the annotation of its siblings along. -/
theorem unpublish_takes_sibling {t : RpcMove B} {req : ControllerUnpublishVolumeRequest}
    {reply : Reply} {v : String} (h : RpcRun lb₀ cs₀ (tr ++ [t]) cs)
    (he : t.event = .unpublish req reply) (hreply : ∃ err, reply = .answered err)
    (hv : req.volumeId ≠ "") (hne : v ≠ req.volumeId)
    (hpub : publishedContext v req.nodeId tr ≠ none) : ¬ Kept (tr ++ [t]) cs := by
  obtain ⟨hpre, hstep, -⟩ := h.run.split
  obtain ⟨err, rfl⟩ := hreply
  obtain ⟨lb, hserving⟩ := serving_of_run (h.of_append hpre)
  obtain ⟨ctx, hctx⟩ := Option.ne_none_iff_exists'.mp hpub
  -- the unpublish succeeds
  have hsync : lb.api.Synced := by
    refine h.up_to_date t (by simp) ?_ lb (by rw [hserving.server])
    rw [he]
    exact Option.some_ne_none _
  have hstep' := rpcStep_cases hstep
  rw [he] at hstep'
  have ho := hserving.unpublish_succeeds hstep' hsync hv (hserving.named v req.nodeId hpub).2
  have hs : succeeded t = some ⟨req.volumeId, req.nodeId, none⟩ := by
    simp only [succeeded, he, ho]
  -- so the node has no annotation, and the sibling is still published
  obtain ⟨lb', hserving'⟩ := serving_of_run h
  have hnode : nodeContext req.nodeId (tr ++ [t]) = none := by rw [nodeContext_snoc hs, if_pos rfl]
  have hsibling : publishedContext v req.nodeId (tr ++ [t]) = some ctx := by
    rw [publishedContext_snoc hs, if_neg (fun hvn => hne hvn.1), hctx]
  intro hkept
  obtain ⟨lb₁, ip, hup, -, hat, -⟩ := hkept v req.nodeId ctx hsibling
  have hlb : lb₁ = lb' := by
    rw [hserving'.server] at hup
    exact (Option.some.inj hup).symm
  rw [hserving'.annotated, ← hlb, hat] at hnode
  cases hnode

/-- **A published volume keeps its server exactly as long as it is alone on its node.** In a run of
RPCs one after the other with every update answered, every published volume has its server at every
point of the run if and only if no volume is unpublished from a node while another volume is
published to it. -/
theorem kept_iff_alone (h : RpcRun lb₀ cs₀ tr cs)
    (hanswered : ∀ t ∈ tr, ∀ reply, t.event.reply = some reply → ∃ err, reply = .answered err) :
    (∀ tr₁ tr₂ cs₁, tr = tr₁ ++ tr₂ → Run rpcStep cs₀ tr₁ cs₁ → Kept tr₁ cs₁) ↔
      ∀ tr₁ t tr₂, tr = tr₁ ++ t :: tr₂ → Alone tr₁ t.event := by
  constructor
  · rintro hkept tr₁ t tr₂ rfl req reply he hv v hne
    by_contra hpub
    have hsplit : tr₁ ++ t :: tr₂ = (tr₁ ++ [t]) ++ tr₂ := by simp
    obtain ⟨hpre, hstep, -⟩ := h.run.split
    have hrun : Run rpcStep cs₀ (tr₁ ++ [t]) t.post := hpre.snoc hstep
    have hrun' : RpcRun lb₀ cs₀ (tr₁ ++ [t]) t.post := by
      rw [hsplit] at h
      exact h.of_append hrun
    have hreply := hanswered t (by simp) reply (by rw [he]; rfl)
    exact unpublish_takes_sibling hrun' he hreply hv hne hpub
      (hkept (tr₁ ++ [t]) tr₂ t.post hsplit hrun)
  · rintro halone tr₁ tr₂ cs₁ rfl hrun
    have h₁ := h.of_append hrun
    obtain ⟨lb, hserving⟩ := serving_of_run h₁
    refine hserving.kept h.bare h.zero (volumesAgree_of_run h₁ (fun tr₀ t tr' heq => ?_))
    exact halone tr₀ t (tr' ++ tr₂) (by rw [heq, List.append_assoc, List.cons_append])

end

/-- Two volumes of one node are published, and the first one goes. -/
def sharingEvents : List (RpcEvent Unit) :=
  [.publish ⟨"v1", "n1", some {}⟩ ["10.0.0.1", "10.0.0.2"] (.answered ""), .other (.deliver "n1"),
   .publish ⟨"v2", "n1", some {}⟩ ["10.0.0.2", "10.0.0.1"] (.answered ""),
   .unpublish ⟨"v1", "n1"⟩ (.answered ""), .other (.deliver "n1")]

/-- The second volume is still published, its node has no annotation and no slot, and to publish it
again may return another IP. -/
theorem sibling_loses_server :
    ∃ tr cs lb cs', RpcRun (freshController ["n1"] ["10.0.0.1", "10.0.0.2"])
        ⟨some (freshController ["n1"] ["10.0.0.1", "10.0.0.2"]), ∅⟩ tr cs ∧
      (∀ t ∈ tr, ∀ reply, t.event.reply = some reply → reply = .answered "") ∧
      cs.lbController = some lb ∧ lb.api.Synced ∧
      publishedContext "v2" "n1" tr = some (assignedContext "10.0.0.1") ∧
      lb.assignedAt "n1" = none ∧ lb.ipMap.lookup "10.0.0.1" = some 0 ∧
      rpcStep cs (.publish ⟨"v2", "n1", some {}⟩ ["10.0.0.2", "10.0.0.1"] (.answered ""))
        = some (cs', some (.published (assignedContext "10.0.0.2"))) ∧
      ¬ Kept tr cs := by
  obtain ⟨tr, cs, lb, hrun, hup, hp⟩ := exists_rpcRun ["n1"] ["10.0.0.1", "10.0.0.2"] sharingEvents
    (fun tr cs lb => tr.all (fun (t : RpcMove Unit) =>
      t.event.reply.all (fun r => r == .answered "")) && decide (lb.api.cache = lb.api.server) &&
      decide (publishedContext "v2" "n1" tr = some (assignedContext "10.0.0.1")) &&
      decide (lb.assignedAt "n1" = none) && decide (lb.ipMap.lookup "10.0.0.1" = some 0) &&
      (rpcStep cs (.publish ⟨"v2", "n1", some {}⟩ ["10.0.0.2", "10.0.0.1"] (.answered ""))).any
        (fun r => r.2 == some (.published (assignedContext "10.0.0.2")))) (by decide)
  simp only [Bool.and_eq_true, decide_eq_true_eq, List.all_eq_true, Option.any_eq_true,
    beq_iff_eq] at hp
  obtain ⟨⟨⟨⟨⟨hreplies, hsync⟩, hpub⟩, hat⟩, hzero⟩, ⟨cs', o⟩, hagain, rfl⟩ := hp
  refine ⟨tr, cs, lb, cs', hrun, fun t ht reply hr => ?_, hup, hsync, hpub, hat, hzero, hagain, ?_⟩
  · have ht' := hreplies t ht
    rwa [hr, Option.all_some, beq_iff_eq] at ht'
  · intro hkept
    obtain ⟨lb', ip, hup', -, hat', -⟩ := hkept "v2" "n1" _ hpub
    obtain rfl := Option.some.inj (hup.symm.trans hup')
    rw [hat] at hat'
    cases hat'

/-- One volume goes to two nodes, leaves one of them and comes back. -/
def oneVolumeEvents : List (RpcEvent Unit) :=
  [.publish ⟨"v1", "n1", some {}⟩ ["10.0.0.1", "10.0.0.2"] (.answered ""), .other (.deliver "n1"),
   .publish ⟨"v1", "n2", some {}⟩ ["10.0.0.2", "10.0.0.1"] (.answered ""), .other (.deliver "n2"),
   .unpublish ⟨"v1", "n1"⟩ (.answered ""), .other (.deliver "n1"),
   .publish ⟨"v1", "n1", some {}⟩ ["10.0.0.1", "10.0.0.2"] (.answered "")]

theorem kept_iff_alone_oneVolumeEvents :
    ∃ tr cs, RpcRun (freshController ["n1", "n2"] ["10.0.0.1", "10.0.0.2"])
        ⟨some (freshController ["n1", "n2"] ["10.0.0.1", "10.0.0.2"]), ∅⟩ tr cs ∧
      publishedContext "v1" "n1" tr = some (assignedContext "10.0.0.1") ∧
      publishedContext "v1" "n2" tr = some (assignedContext "10.0.0.2") ∧ Kept tr cs := by
  obtain ⟨tr, cs, lb, hrun, -, hp⟩ := exists_rpcRun ["n1", "n2"] ["10.0.0.1", "10.0.0.2"]
    oneVolumeEvents
    (fun tr _ _ => tr.all (fun (t : RpcMove Unit) => t.event.reply.all (fun r => r == .answered ""))
      && tr.all (fun (t : RpcMove Unit) => (succeeded t).all (fun a => a.volumeId == "v1")) &&
      tr.all (fun (t : RpcMove Unit) =>
        match t.event with
        | .unpublish req _ => req.volumeId == "v1"
        | _ => true) &&
      decide (publishedContext "v1" "n1" tr = some (assignedContext "10.0.0.1")) &&
      decide (publishedContext "v1" "n2" tr = some (assignedContext "10.0.0.2"))) (by decide)
  simp only [Bool.and_eq_true, decide_eq_true_eq, List.all_eq_true] at hp
  obtain ⟨⟨⟨⟨hreplies, hvolumes⟩, hunpublished⟩, hn1⟩, hn2⟩ := hp
  have hanswered : ∀ t ∈ tr, ∀ reply, t.event.reply = some reply →
    ∃ err, reply = .answered err := by
    intro t ht reply hr
    have ht' := hreplies t ht
    rw [hr, Option.all_some, beq_iff_eq] at ht'
    exact ⟨"", ht'⟩
  have halone : ∀ tr₁ t tr₂, tr = tr₁ ++ t :: tr₂ → Alone tr₁ t.event := by
    intro tr₁ t tr₂ heq req reply he hv v hne
    have hreq := hunpublished t (by rw [heq]; simp)
    rw [he] at hreq
    refine lastContext_eq_none (fun u hu a ha => ?_)
    have hvol := hvolumes u (by rw [heq]; exact List.mem_append_left _ hu)
    rw [ha, Option.all_some, beq_iff_eq] at hvol
    rw [beq_iff_eq] at hreq
    rw [Bool.and_eq_false_iff]
    exact Or.inl (beq_false_of_ne (fun h => hne (by rw [← h, hvol, hreq])))
  exact ⟨tr, cs, hrun, hn1, hn2,
    (kept_iff_alone hrun hanswered).mpr halone tr [] cs (by simp) hrun.run⟩

end NfsLbCsi
