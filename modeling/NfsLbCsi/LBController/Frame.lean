import NfsLbCsi.LBController.Drift

set_option autoImplicit false

/-! # What a call changes

`AssignIPToNode` and `RemoveIPFromNode` send back a whole node object, made from a copy that the
cache gave out some time ago, while other clients go on writing to the node. Nevertheless a call
changes nothing but one annotation and one count, and a call that fails changes nothing at all
(`call_frame`): the version check lets an update through only if the copy is the object on the API
server, and the mutex keeps everybody else away from `ipMap`.

A call is followed through a run by its ticket. `Untouched a tr`: no step of `a` has written to the
API server. `WroteOnce a tr`: exactly one has, and replaced one object by one that differs in the
annotation only.
-/

namespace NfsLbCsi

open Tally Optimistic Lts

section

variable {B : Type}

/-- The steps of the call `a` leave the API server and its cache as they are. -/
def Untouched (a : CallInfo) (tr : Trace B) : Prop :=
  ∀ t ∈ tr, t.obs.actor = some a → t.post.api = t.pre.api

/-- The step replaces the object of the node `n` by one that differs from it at most in the assigned
IP, and changes no other node. -/
def AnnotationOnly (t : Move B) (n : String) : Prop :=
  ∃ old new : Node B, t.pre.api.server.lookup n = some old ∧
    t.post.api.server = t.pre.api.server.insert n new ∧ new.value.body = old.value.body ∧
    ∀ key, key ≠ nodeAnnotationKey → new.value.annotationAt key = old.value.annotationAt key

/-- Exactly one step of the call `a` writes to the API server. -/
def WroteOnce (a : CallInfo) (tr : Trace B) : Prop :=
  ∃ tr₁ t tr₂, tr = tr₁ ++ t :: tr₂ ∧ t.obs.actor = some a ∧ AnnotationOnly t a.nodeName ∧
    Untouched a (tr₁ ++ tr₂)

/-- The critical section of the call `a` found the map `m`. -/
def Entered (a : CallInfo) (tr : Trace B) (m : IPMap) : Prop :=
  ∃ t ∈ tr, t.event.locks = true ∧ t.obs.actor = some a ∧ ∃ c, t.pre.ctl = some c ∧ c.ipMap = m

/-! ## Growing the trace -/

theorem Untouched.snoc {a : CallInfo} {tr : Trace B} {t : Move B} (h : Untouched a tr)
    (ht : t.obs.actor = some a → t.post.api = t.pre.api) : Untouched a (tr ++ [t]) := by
  intro u hu
  rcases List.mem_append.mp hu with hu | hu
  · exact h u hu
  · obtain rfl := List.mem_singleton.mp hu
    exact ht

theorem WroteOnce.snoc {a : CallInfo} {tr : Trace B} {t : Move B} (h : WroteOnce a tr)
    (ht : t.obs.actor = some a → t.post.api = t.pre.api) : WroteOnce a (tr ++ [t]) := by
  obtain ⟨tr₁, u, tr₂, rfl, hactor, honly, hrest⟩ := h
  refine ⟨tr₁, u, tr₂ ++ [t], by simp, hactor, honly, ?_⟩
  rw [← List.append_assoc]
  exact hrest.snoc ht

theorem Entered.snoc {a : CallInfo} {tr : Trace B} {m : IPMap} (h : Entered a tr m) (t : Move B) :
    Entered a (tr ++ [t]) m := by
  obtain ⟨u, hu, hrest⟩ := h
  exact ⟨u, List.mem_append_left _ hu, hrest⟩

theorem entered_snoc {a : CallInfo} {tr : Trace B} {t : Move B} {c : Controller B}
    (hlock : t.event.locks = true) (hactor : t.obs.actor = some a) (hctl : t.pre.ctl = some c) :
    Entered a (tr ++ [t]) c.ipMap :=
  ⟨t, by simp, hlock, hactor, c, hctl, rfl⟩

/-! ## The update -/

/-- A decision to write touches only the annotation of the copy. -/
theorem afterLock_frame {op : Op} {m : IPMap} {node nodeCopy : Node B} {ips : List String}
    {ip : String} (h : op.afterLock m node ips = .update ip nodeCopy) :
    nodeCopy.value.body = node.value.body ∧ ∀ key, key ≠ nodeAnnotationKey →
      nodeCopy.value.annotationAt key = node.value.annotationAt key := by
  cases op with
  | assign =>
      obtain ⟨-, -, rfl⟩ := assignAfterLock_update h
      exact ⟨rfl, fun key hkey => annotationAt_assign_of_ne _ _ hkey⟩
  | remove =>
      obtain ⟨-, -, rfl⟩ := removeAfterLock_update h
      exact ⟨rfl, fun key hkey => annotationAt_unassign_of_ne _ hkey⟩

/-- **The update that commits** replaces the object now on the server, whatever the others have
written in the meantime. -/
theorem Controller.Sound.annotationOnly {s s' : System B} {e : Event B} {o : Obs}
    {c : Controller B} {call : Call B} {ip : String} {nodeCopy : Node B} (hc : c.Sound s.api)
    (hcrit : c.critical = some (.updating call ip nodeCopy))
    (happ : s.api.update call.info.nodeName nodeCopy = some s'.api) :
    AnnotationOnly ⟨s, e, o, s'⟩ call.info.nodeName := by
  obtain ⟨hbasis, hapi⟩ := hc.update_basis hcrit happ
  obtain ⟨ips, -, hnext⟩ := hc.holds _ hcrit
  obtain ⟨hbody, hkeys⟩ := afterLock_frame hnext
  refine ⟨call.node, ⟨s.api.revision + 1, nodeCopy.value⟩, hbasis, ?_, hbody, hkeys⟩
  rw [hapi]
  rfl

/-! ## The calls in flight -/

/-- What is known of the calls in flight after the steps `tr`. -/
structure Framed (tr : Trace B) (c : Controller B) : Prop where
  waiting : ∀ call ∈ c.waiting, Untouched call.info tr
  updating : ∀ call ip nodeCopy, c.critical = some (.updating call ip nodeCopy) →
    Untouched call.info tr ∧ Entered call.info tr c.ipMap
  counting : ∀ call ip, c.critical = some (.counting call ip) →
    WroteOnce call.info tr ∧ Entered call.info tr c.ipMap

/-- A step that writes nothing and keeps the map and the call that holds the mutex. -/
theorem Framed.of_le {tr : Trace B} {t : Move B} {c c' : Controller B} (h : Framed tr c)
    (hquiet : ∀ a, t.obs.actor = some a → t.post.api = t.pre.api)
    (hwait : ∀ call ∈ c'.waiting, call ∈ c.waiting ∨ Untouched call.info tr)
    (hcrit : ∀ cr, c'.critical = some cr → c.critical = some cr ∧ c'.ipMap = c.ipMap) :
    Framed (tr ++ [t]) c' where
  waiting := fun call hcall => by
    rcases hwait call hcall with hold | hnew
    · exact (h.waiting call hold).snoc (hquiet _)
    · exact hnew.snoc (hquiet _)
  updating := fun call ip nodeCopy hcr => by
    obtain ⟨hold, hmap⟩ := hcrit _ hcr
    obtain ⟨hun, hent⟩ := h.updating call ip nodeCopy hold
    rw [hmap]
    exact ⟨hun.snoc (hquiet _), hent.snoc t⟩
  counting := fun call ip hcr => by
    obtain ⟨hold, hmap⟩ := hcrit _ hcr
    obtain ⟨hw, hent⟩ := h.counting call ip hold
    rw [hmap]
    exact ⟨hw.snoc (hquiet _), hent.snoc t⟩

/-- A call that has just taken its ticket has done nothing yet. -/
theorem untouched_of_ticket {tr : Trace B} {a : CallInfo} {k : Nat} (hk : a.ticket = k)
    (hold : ∀ t ∈ tr, ∀ a, t.obs.actor = some a → a.ticket < k) : Untouched a tr := by
  intro t ht hactor
  have := hold t ht a hactor
  omega

theorem Step.framed {s s' : System B} {e : Event B} {o : Obs} {tr : Trace B} (h : Step s e o s')
    (hs : s.Sound) (hloss : e.loses = false)
    (hold : ∀ t ∈ tr, ∀ a, t.obs.actor = some a → a.ticket < s.tickets)
    (hne : ∀ c cr, s.ctl = some c → c.critical = some cr → ∀ call ∈ c.waiting,
      call.info ≠ cr.call.info)
    (ih : ∀ c, s.ctl = some c → Framed tr c) :
    ∀ c', s'.ctl = some c' → Framed (tr ++ [⟨s, e, o, s'⟩]) c' := by
  intro c' hc'
  cases h with
  | start => obtain rfl := Option.some.inj hc'; exact ⟨by simp, by simp, by simp⟩
  | crash => cases hc'
  | lockPanic => cases hc'
  | updateLost => cases hloss
  | getReturn =>
      exact (ih c' hc').of_le (fun _ _ => rfl) (fun _ h => Or.inl h) (fun _ h => ⟨h, rfl⟩)
  | @getWait c op n v node hctl hget =>
      obtain rfl := Option.some.inj hc'
      refine (ih c hctl).of_le (fun _ _ => rfl) (fun call hcall => ?_) (fun _ h => ⟨h, rfl⟩)
      rcases List.mem_append.mp hcall with hcall | hcall
      · exact Or.inl hcall
      · -- the new call has a ticket that no earlier step shows
        rw [List.mem_singleton.mp hcall]
        exact Or.inr (untouched_of_ticket rfl hold)
  | @lockReturn c i ips call r hctl =>
      obtain rfl := Option.some.inj hc'
      exact (ih c hctl).of_le (fun _ _ => rfl)
        (fun _ hcall => Or.inl (List.mem_of_mem_eraseIdx hcall)) (fun _ h => ⟨h, rfl⟩)
  | @lockUpdate c i ips call ip nodeCopy hctl hfree hcall =>
      obtain rfl := Option.some.inj hc'
      -- the mutex is taken in this step, so the map on entry is the one of now
      have hun : Untouched call.info tr := (ih c hctl).waiting call (List.mem_of_getElem? hcall)
      refine ⟨fun call' hcall' => ?_, fun call' ip' copy' hcr => ?_, fun call' ip' hcr => ?_⟩
      · exact ((ih c hctl).waiting call' (List.mem_of_mem_eraseIdx hcall')).snoc (fun _ => rfl)
      · obtain ⟨rfl, rfl, rfl⟩ := Critical.updating.inj (Option.some.inj hcr)
        exact ⟨hun.snoc (fun _ => rfl), entered_snoc (c := c) rfl rfl hctl⟩
      · cases Option.some.inj hcr
  | @updateRefused c reply call ip err nodeCopy hctl hcrit =>
      obtain rfl := Option.some.inj hc'
      exact (ih c hctl).of_le (fun _ _ => rfl) (fun _ h => Or.inl h) (fun _ h => by cases h)
  | @updateDone c call ip err nodeCopy api hctl hcrit happ =>
      obtain rfl := Option.some.inj hc'
      obtain ⟨hun, hent⟩ := (ih c hctl).updating call ip nodeCopy hcrit
      refine ⟨fun call' hcall' => ?_, fun call' ip' copy' hcr => ?_, fun call' ip' hcr => ?_⟩
      · -- the write is not that of a waiting call
        refine ((ih c hctl).waiting call' hcall').snoc (fun hactor => ?_)
        exact absurd (Option.some.inj hactor).symm (hne c _ hctl hcrit call' hcall')
      · cases Option.some.inj hcr
      · obtain ⟨rfl, rfl⟩ := Critical.counting.inj (Option.some.inj hcr)
        refine ⟨⟨tr, _, [], rfl, rfl, ?_, by simpa using hun⟩, hent.snoc _⟩
        exact (hs c hctl).annotationOnly hcrit happ
  | @count c call ip hctl hcrit =>
      obtain rfl := Option.some.inj hc'
      exact (ih c hctl).of_le (fun _ _ => rfl) (fun _ h => Or.inl h) (fun _ h => by cases h)
  | deliver =>
      exact (ih c' hc').of_le (fun _ h => by cases h) (fun _ h => Or.inl h) (fun _ h => ⟨h, rfl⟩)
  | create =>
      exact (ih c' hc').of_le (fun _ h => by cases h) (fun _ h => Or.inl h) (fun _ h => ⟨h, rfl⟩)
  | write =>
      exact (ih c' hc').of_le (fun _ h => by cases h) (fun _ h => Or.inl h) (fun _ h => ⟨h, rfl⟩)
  | delete =>
      exact (ih c' hc').of_le (fun _ h => by cases h) (fun _ h => Or.inl h) (fun _ h => ⟨h, rfl⟩)

theorem framed_of_run [DecidableEq B] {s₀ s : System B} {tr : Trace B} (h₀ : s₀.Idle)
    (hrun : Run step s₀ tr s) (hloss : ∀ t ∈ tr, t.event.loses = false) :
    ∀ c, s.ctl = some c → Framed tr c := by
  refine Run.traceInvariant (I := fun tr s => ∀ c, s.ctl = some c → Framed tr c)
    (P := fun t => t.event.loses = false) ?_ ?_ hrun hloss
  · intro c hc
    obtain ⟨hw, hcr⟩ := h₀ c hc
    exact ⟨by simp [hw], by simp [hcr], by simp [hcr]⟩
  · intro tr t hpre hstep ht _ ih
    exact (step_cases hstep).framed (sound_of_run h₀ hpre) ht (actor_ticket_lt h₀ hpre)
      (fun c cr hc hcr call hcall => waiting_ne_critical h₀ hpre hc hcr hcall) ih

/-! ## The return -/

/-- The step in which a call returns. -/
theorem Step.return_frame {s s' : System B} {e : Event B} {o : Obs} {tr : Trace B} {a : CallInfo}
    {r : Ret} (h : Step s e o s') (hs : s.Sound) (hloss : e.loses = false)
    (hold : ∀ t ∈ tr, ∀ a, t.obs.actor = some a → a.ticket < s.tickets)
    (hframed : ∀ c, s.ctl = some c → Framed tr c) (hactor : o.actor = some a)
    (hret : o.ret = some r) (hr : r ≠ .panicked) :
    (e.gets = true ∧ Untouched a (tr ++ [⟨s, e, o, s'⟩]) ∧ s'.ctl = s.ctl) ∨
    ∃ m c, Entered a (tr ++ [⟨s, e, o, s'⟩]) m ∧ s'.ctl = some c ∧
      ((Untouched a (tr ++ [⟨s, e, o, s'⟩]) ∧ c.ipMap = m) ∨
        (r.ok = true ∧ WroteOnce a (tr ++ [⟨s, e, o, s'⟩]) ∧
          ∃ ip ∈ m, c.ipMap = IPMap.add m ip a.op.delta)) := by
  cases h with
  | getReturn hctl hget =>
      obtain rfl := Option.some.inj hactor
      exact Or.inl ⟨rfl, (untouched_of_ticket rfl hold).snoc (fun _ => rfl), rfl⟩
  | @lockReturn c i ips call r' hctl hfree hcall hsort hnext hr' =>
      obtain rfl := Option.some.inj hactor
      have hun := (hframed c hctl).waiting call (List.mem_of_getElem? hcall)
      exact Or.inr ⟨c.ipMap, _, entered_snoc rfl rfl hctl, rfl,
        Or.inl ⟨hun.snoc (fun _ => rfl), rfl⟩⟩
  | @updateRefused c reply call ip err nodeCopy hctl hcrit =>
      obtain rfl := Option.some.inj hactor
      obtain ⟨hun, hent⟩ := (hframed c hctl).updating call ip nodeCopy hcrit
      exact Or.inr ⟨c.ipMap, _, hent.snoc _, rfl, Or.inl ⟨hun.snoc (fun _ => rfl), rfl⟩⟩
  | updateLost => cases hloss
  | @count c call ip hctl hcrit =>
      obtain rfl := Option.some.inj hactor
      obtain rfl := Option.some.inj hret
      obtain ⟨hw, hent⟩ := (hframed c hctl).counting call ip hcrit
      obtain ⟨nodeCopy, ips, hsort, hnext⟩ := (hs c hctl).holds _ hcrit
      refine Or.inr ⟨c.ipMap, _, hent.snoc _, rfl, Or.inr ⟨?_, hw.snoc (fun _ => rfl), ip,
        afterLock_mem hsort hnext, rfl⟩⟩
      cases call.info.op <;> rfl
  | lockPanic => exact absurd (Option.some.inj hret).symm hr
  | _ => cases hret

/-- **What a call has changed when it returns.** Nothing, if it returns before the mutex is taken.
Under the mutex, a call that fails has changed nothing; a call that succeeds has changed nothing, or
has replaced the object of its node by one that differs in the annotation only, and has changed one
count by one. -/
theorem call_frame [DecidableEq B] {s₀ s : System B} {tr : Trace B} {t : Move B} {a : CallInfo}
    {r : Ret} (h₀ : s₀.Idle) (hrun : Run step s₀ (tr ++ [t]) s)
    (hloss : ∀ u ∈ tr ++ [t], u.event.loses = false) (hactor : t.obs.actor = some a)
    (hret : t.obs.ret = some r) (hr : r ≠ .panicked) :
    (t.event.gets = true ∧ Untouched a (tr ++ [t]) ∧ s.ctl = t.pre.ctl) ∨
    ∃ m c, Entered a (tr ++ [t]) m ∧ s.ctl = some c ∧
      ((Untouched a (tr ++ [t]) ∧ c.ipMap = m) ∨
        (r.ok = true ∧ WroteOnce a (tr ++ [t]) ∧
          ∃ ip ∈ m, c.ipMap = IPMap.add m ip a.op.delta)) := by
  obtain ⟨hpre, hstep, rfl⟩ := hrun.snoc_inv
  have hframed := framed_of_run h₀ hpre (fun u hu => hloss u (List.mem_append_left _ hu))
  exact (step_cases hstep).return_frame (sound_of_run h₀ hpre) (hloss t (by simp))
    (actor_ticket_lt h₀ hpre) hframed hactor hret hr

end

/-- A publish reads the node, another client changes a label of it, and the update is refused; the
retry succeeds on the new object. -/
def labelEvents : List (Event String) :=
  [.get .assign "n1" "v1", .write "n1" ⟨none, "zone=b"⟩, .lock 0 ["10.0.0.1"],
   .update (.answered "conflict"), .deliver "n1",
   .get .assign "n1" "v1", .lock 0 ["10.0.0.1"], .update (.answered ""), .count]

/-- One node with a label, and a process just started. -/
def labelled : System String :=
  ⟨(Replica.empty.commit "n1" (some ⟨none, "zone=a"⟩)).relist,
   some ⟨zeroCounts ["10.0.0.1"], [], none⟩, 0⟩

theorem call_frame_labelEvents :
    ∃ tr t s m c, Run step labelled (tr ++ [t]) s ∧
      t.obs = { actor := some ⟨1, .assign, "n1", "v1"⟩, ret := some (.assigned "10.0.0.1") } ∧
      (s.api.server.lookup "n1").map (fun node => node.value.body) = some "zone=b" ∧
      Entered ⟨1, .assign, "n1", "v1"⟩ (tr ++ [t]) m ∧ s.ctl = some c ∧
      ((Untouched ⟨1, .assign, "n1", "v1"⟩ (tr ++ [t]) ∧ c.ipMap = m) ∨
        (WroteOnce ⟨1, .assign, "n1", "v1"⟩ (tr ++ [t]) ∧
          ∃ ip ∈ m, c.ipMap = IPMap.add m ip 1)) := by
  obtain ⟨tr, s, c, hrun, hup, hp⟩ := exists_run labelled labelEvents
    (fun tr s _ => tr.all (fun t => !t.event.loses)
      && tr.getLast?.any (fun (t : Move String) => !t.event.gets
        && decide (t.obs = { actor := some ⟨1, .assign, "n1", "v1"⟩
                             ret := some (.assigned "10.0.0.1") }))
      && decide ((s.api.server.lookup "n1").map (fun node => node.value.body) = some "zone=b"))
    (by decide)
  simp only [Bool.and_eq_true, decide_eq_true_eq, List.all_eq_true, Bool.not_eq_true',
    Option.any_eq_true] at hp
  obtain ⟨⟨hplain, t, hlast, hget, hobs⟩, hbody⟩ := hp
  have htr : tr.dropLast ++ [t] = tr := List.dropLast_append_getLast? t hlast
  rw [← htr] at hrun hplain
  have hidle : labelled.Idle := by
    intro c hc
    obtain rfl := Option.some.inj hc
    exact ⟨rfl, rfl⟩
  have hframe := call_frame (a := ⟨1, .assign, "n1", "v1"⟩) (r := .assigned "10.0.0.1") hidle hrun
    hplain (by rw [hobs]) (by rw [hobs]) Ret.noConfusion
  rcases hframe with ⟨hget', -⟩ | ⟨m, c', hent, hc', hcases⟩
  · rw [hget] at hget'
    cases hget'
  · refine ⟨tr.dropLast, t, s, m, c', hrun, hobs, hbody, hent, hc', ?_⟩
    exact hcases.imp_right (fun h => h.2)

end NfsLbCsi
