import NfsLbCsi.LBController.System

set_option autoImplicit false

/-! # What the calls in flight know

Two facts hold in every state that a run reaches, whatever the interleaving (`sound_of_run`):

* every node object that a call carries was stored by the API server at some time, so that a
  version check against it means something (`Replica.update_basis`);
* the decision of the call that holds the mutex was taken on the `ipMap` of now, since nobody else
  changes the map while the mutex is held.

They need no assumption on the cache, on the faults or on the other clients.
-/

namespace NfsLbCsi

open Tally Optimistic Lts

section

variable {B : Type}

/-- The decision to write `nodeCopy` for `ip`, taken on the map `m`. -/
def Decided (m : IPMap) (call : Call B) (ip : String) (nodeCopy : Node B) : Prop :=
  ∃ ips, (call.info.op = .assign → SortedByCount m ips) ∧
    call.info.op.afterLock m call.node ips = .update ip nodeCopy

/-- The call that holds the mutex acts on a decision taken on the map `m`. -/
def Critical.Holds (m : IPMap) : Critical B → Prop
  | .updating call ip nodeCopy => Decided m call ip nodeCopy
  | .counting call ip => ∃ nodeCopy, Decided m call ip nodeCopy

/-- The object of a call comes from the API server. -/
def Call.Stored (api : Replica String (NodeData B)) (call : Call B) : Prop :=
  (call.info.nodeName, call.node) ∈ api.history

/-- The invariant of a controller that is up. -/
structure Controller.Sound (api : Replica String (NodeData B)) (c : Controller B) : Prop where
  waiting_stored : ∀ call ∈ c.waiting, call.Stored api
  critical_stored : ∀ cr, c.critical = some cr → cr.call.Stored api
  holds : ∀ cr, c.critical = some cr → cr.Holds c.ipMap

def System.Sound (s : System B) : Prop := ∀ c, s.ctl = some c → c.Sound s.api

/-! ## Preservation -/

/-- The history never shrinks. -/
theorem Step.history_mono {s s' : System B} {e : Event B} {o : Obs} (h : Step s e o s')
    {p : String × Node B} (hp : p ∈ s.api.history) : p ∈ s'.api.history := by
  cases h with
  | updateLost _ _ happ =>
      obtain ⟨_, -, -, rfl⟩ := Replica.update_eq_some happ
      exact Replica.mem_history_commit hp
  | updateDone _ _ happ =>
      obtain ⟨_, -, -, rfl⟩ := Replica.update_eq_some happ
      exact Replica.mem_history_commit hp
  | deliver happ => rw [(Replica.deliver_eq_some happ).2.2.1]; exact hp
  | create => exact Replica.mem_history_commit hp
  | write => exact Replica.mem_history_commit hp
  | delete => exact Replica.mem_history_commit hp
  | _ => exact hp

/-- Soundness of a controller whose calls are among those of a sound one. -/
theorem Controller.Sound.of_le {api api' : Replica String (NodeData B)} {c c' : Controller B}
    (hc : c.Sound api) (hapi : ∀ p ∈ api.history, p ∈ api'.history)
    (hwait : ∀ call ∈ c'.waiting, call ∈ c.waiting)
    (hcrit : ∀ cr, c'.critical = some cr → c.critical = some cr ∧ c'.ipMap = c.ipMap) :
    c'.Sound api' where
  waiting_stored := fun call h => hapi _ (hc.waiting_stored call (hwait call h))
  critical_stored := fun cr h => hapi _ (hc.critical_stored cr (hcrit cr h).1)
  holds := fun cr h => by
    rw [(hcrit cr h).2]
    exact hc.holds cr (hcrit cr h).1

theorem Step.sound {s s' : System B} {e : Event B} {o : Obs} (h : Step s e o s')
    (hs : s.Sound) : s'.Sound := by
  have hmono : ∀ p ∈ s.api.history, p ∈ s'.api.history := fun p hp => h.history_mono hp
  cases h with
  | start =>
      intro c hc
      obtain rfl := Option.some.inj hc
      exact ⟨by simp, by simp, by simp⟩
  | crash => intro c hc; cases hc
  | lockPanic => intro c hc; cases hc
  | getReturn hctl => intro c hc; exact hs c hc
  | @getWait c op n v node hctl hget =>
      intro c' hc'
      obtain rfl := Option.some.inj hc'
      have hc := hs c hctl
      -- the object comes from the cache, which holds objects of the server
      have hnew : Call.Stored s.api ⟨⟨s.tickets, op, n, v⟩, node⟩ :=
        s.api.cache_mem n node (beforeLock_ok hget)
      refine ⟨fun call hcall => ?_, hc.critical_stored, hc.holds⟩
      rcases List.mem_append.mp hcall with hcall | hcall
      · exact hc.waiting_stored call hcall
      · rw [List.mem_singleton.mp hcall]; exact hnew
  | lockReturn hctl hfree =>
      intro c' hc'
      obtain rfl := Option.some.inj hc'
      refine (hs _ hctl).of_le hmono (fun call hcall => List.mem_of_mem_eraseIdx hcall) ?_
      intro cr hcr
      exact ⟨hcr, rfl⟩
  | lockUpdate hctl hfree hcall hsort hnext =>
      intro c' hc'
      obtain rfl := Option.some.inj hc'
      have hc := hs _ hctl
      refine ⟨fun call h => hc.waiting_stored call (List.mem_of_mem_eraseIdx h), ?_, ?_⟩
      · intro cr hcr
        obtain rfl := Option.some.inj hcr
        exact hc.waiting_stored _ (List.mem_of_getElem? hcall)
      · intro cr hcr
        obtain rfl := Option.some.inj hcr
        -- decided on the map of now
        exact ⟨_, hsort, hnext⟩
  | updateRefused hctl hcrit =>
      intro c' hc'
      obtain rfl := Option.some.inj hc'
      exact (hs _ hctl).of_le hmono (fun _ h => h) (fun cr hcr => by cases hcr)
  | updateLost hctl hcrit =>
      intro c' hc'
      obtain rfl := Option.some.inj hc'
      exact (hs _ hctl).of_le hmono (fun _ h => h) (fun cr hcr => by cases hcr)
  | @updateDone c call ip err nodeCopy api hctl hcrit happ =>
      intro c' hc'
      obtain rfl := Option.some.inj hc'
      have hc := hs _ hctl
      refine ⟨fun call h => hmono _ (hc.waiting_stored call h), ?_, ?_⟩
      · intro cr hcr
        obtain rfl := Option.some.inj hcr
        have hstored : call.Stored s.api := hc.critical_stored _ hcrit
        exact hmono _ hstored
      · intro cr hcr
        obtain rfl := Option.some.inj hcr
        exact ⟨nodeCopy, hc.holds _ hcrit⟩
  | count hctl hcrit =>
      intro c' hc'
      obtain rfl := Option.some.inj hc'
      exact (hs _ hctl).of_le hmono (fun _ h => h) (fun cr hcr => by cases hcr)
  | deliver => intro c hc; exact (hs c hc).of_le hmono (fun _ h => h) (fun _ h => ⟨h, rfl⟩)
  | create => intro c hc; exact (hs c hc).of_le hmono (fun _ h => h) (fun _ h => ⟨h, rfl⟩)
  | write => intro c hc; exact (hs c hc).of_le hmono (fun _ h => h) (fun _ h => ⟨h, rfl⟩)
  | delete => intro c hc; exact (hs c hc).of_le hmono (fun _ h => h) (fun _ h => ⟨h, rfl⟩)

/-- The states a run may begin in: no call is in flight. -/
def System.Idle (s : System B) : Prop :=
  ∀ c, s.ctl = some c → c.waiting = [] ∧ c.critical = none

theorem System.Idle.sound {s : System B} (h : s.Idle) : s.Sound := by
  intro c hc
  obtain ⟨hw, hcr⟩ := h c hc
  exact ⟨by simp [hw], by simp [hcr], by simp [hcr]⟩

theorem sound_of_run [DecidableEq B] {s₀ s : System B}
    {tr : Trace B} (h₀ : s₀.Idle)
    (hrun : Run step s₀ tr s) : s.Sound :=
  Run.invariant (P := fun _ => True) h₀.sound
    (fun _ ht _ hpre => (step_cases ht).sound hpre) hrun (fun _ _ => trivial)

/-! ## The map -/

/-- Only a start and the last piece of a call change the map, and both leave the mutex free. -/
theorem Step.ipMap_cases {s s' : System B} {e : Event B} {o : Obs} (h : Step s e o s')
    {c' : Controller B} (hc' : s'.ctl = some c') :
    (∃ ipList nodes, e = .start ipList nodes ∧ c'.critical = none) ∨
    ∃ c, s.ctl = some c ∧ (c'.ipMap = c.ipMap ∨ ∃ call ip, e = .count ∧
      c.critical = some (.counting call ip) ∧ c'.critical = none ∧
      c'.ipMap = IPMap.add c.ipMap ip call.info.op.delta) := by
  cases h with
  | start => obtain rfl := Option.some.inj hc'; exact Or.inl ⟨_, _, rfl, rfl⟩
  | crash => cases hc'
  | lockPanic => cases hc'
  | getWait hctl => obtain rfl := Option.some.inj hc'; exact Or.inr ⟨_, hctl, Or.inl rfl⟩
  | lockReturn hctl => obtain rfl := Option.some.inj hc'; exact Or.inr ⟨_, hctl, Or.inl rfl⟩
  | lockUpdate hctl => obtain rfl := Option.some.inj hc'; exact Or.inr ⟨_, hctl, Or.inl rfl⟩
  | updateRefused hctl => obtain rfl := Option.some.inj hc'; exact Or.inr ⟨_, hctl, Or.inl rfl⟩
  | updateLost hctl => obtain rfl := Option.some.inj hc'; exact Or.inr ⟨_, hctl, Or.inl rfl⟩
  | updateDone hctl => obtain rfl := Option.some.inj hc'; exact Or.inr ⟨_, hctl, Or.inl rfl⟩
  | count hctl hcrit =>
      obtain rfl := Option.some.inj hc'
      exact Or.inr ⟨_, hctl, Or.inr ⟨_, _, rfl, hcrit, rfl, rfl⟩⟩
  | getReturn => exact Or.inr ⟨c', hc', Or.inl rfl⟩
  | deliver => exact Or.inr ⟨c', hc', Or.inl rfl⟩
  | create => exact Or.inr ⟨c', hc', Or.inl rfl⟩
  | write => exact Or.inr ⟨c', hc', Or.inl rfl⟩
  | delete => exact Or.inr ⟨c', hc', Or.inl rfl⟩

/-- A call panics only if the map has no keys. -/
theorem Step.panicked_keys {s s' : System B} {e : Event B} {o : Obs} (h : Step s e o s')
    (hret : o.ret = some .panicked) : ∃ c, s.ctl = some c ∧ c.ipMap.keys = ∅ := by
  cases h with
  | @getReturn c op n v r hctl hget =>
      rcases beforeLock_cases op s.api.cache n with ⟨-, err, hget'⟩ | ⟨-, -,
        hget'⟩ | ⟨node, -, hget'⟩
      · rw [hget'] at hget
        cases hget
        cases hret
      · rw [hget'] at hget
        cases hget
        cases hret
      · rw [hget'] at hget
        cases hget
  | @lockPanic c i ips call hctl hfree hcall hsort hnext =>
      -- the sorted keys are all keys, and there are none
      obtain ⟨hop, rfl⟩ := afterLock_ret_panicked hnext
      exact ⟨c, hctl, Finset.val_eq_zero.mp (hsort hop).1.symm⟩
  | lockReturn hctl hfree hcall hsort hnext hr => exact absurd (Option.some.inj hret) hr
  | @updateRefused c reply call =>
      cases hop : call.info.op <;> simp [hop, Op.updateFailed] at hret
  | @updateLost c call =>
      cases hop : call.info.op <;> simp [hop, Op.updateFailed] at hret
  | @count c call =>
      cases hop : call.info.op <;> simp [hop, Op.done] at hret
  | _ => cases hret

/-! ## The calls in flight -/

theorem mem_calls {c : Controller B} {call : Call B} :
    call ∈ c.calls ↔ (∃ cr, c.critical = some cr ∧ cr.call = call) ∨ call ∈ c.waiting := by
  rw [Controller.calls, List.mem_append, Option.mem_toList, Option.map_eq_some_iff]

/-- A call in flight after a step was in flight before it, or has just read the lister. -/
theorem Step.mem_calls {s s' : System B} {e : Event B} {o : Obs} (h : Step s e o s')
    (hs : s.Sound) {c' : Controller B} (hc' : s'.ctl = some c') {call : Call B}
    (hcall : call ∈ c'.calls) :
    ∃ c, s.ctl = some c ∧ c'.ipMap.keys = c.ipMap.keys ∧ (call ∈ c.calls ∨
      (e = .get call.info.op call.info.nodeName call.info.volumeID ∧ o.actor = some call.info ∧
        call.info.ticket = s.tickets ∧ s.api.cache.lookup call.info.nodeName = some call.node ∧
        s'.api = s.api)) := by
  rw [NfsLbCsi.mem_calls] at hcall
  cases h with
  | start =>
      obtain rfl := Option.some.inj hc'
      rcases hcall with ⟨cr, hcr, -⟩ | hw
      · cases hcr
      · cases hw
  | crash => cases hc'
  | lockPanic => cases hc'
  | @getWait c op n v node hctl hget =>
      obtain rfl := Option.some.inj hc'
      refine ⟨c, hctl, rfl, ?_⟩
      rcases hcall with hcr | hw
      · exact Or.inl (NfsLbCsi.mem_calls.mpr (Or.inl hcr))
      · rcases List.mem_append.mp hw with hw | hw
        · exact Or.inl (NfsLbCsi.mem_calls.mpr (Or.inr hw))
        · obtain rfl := List.mem_singleton.mp hw
          exact Or.inr ⟨rfl, rfl, rfl, beforeLock_ok hget, rfl⟩
  | @lockReturn c i ips call₀ r hctl hfree =>
      obtain rfl := Option.some.inj hc'
      refine ⟨c, hctl, rfl, Or.inl (NfsLbCsi.mem_calls.mpr ?_)⟩
      exact hcall.imp_right List.mem_of_mem_eraseIdx
  | @lockUpdate c i ips call₀ ip nodeCopy hctl hfree hwait =>
      -- the call that now holds the mutex was waiting
      obtain rfl := Option.some.inj hc'
      refine ⟨c, hctl, rfl, Or.inl (NfsLbCsi.mem_calls.mpr (Or.inr ?_))⟩
      rcases hcall with ⟨cr, hcr, hcrcall⟩ | hw
      · obtain rfl := Option.some.inj hcr
        obtain rfl : call₀ = call := hcrcall
        exact List.mem_of_getElem? hwait
      · exact List.mem_of_mem_eraseIdx hw
  | @updateRefused c reply call₀ ip err nodeCopy hctl =>
      obtain rfl := Option.some.inj hc'
      refine ⟨c, hctl, rfl, Or.inl (NfsLbCsi.mem_calls.mpr (Or.inr ?_))⟩
      rcases hcall with ⟨cr, hcr, -⟩ | hw
      · cases hcr
      · exact hw
  | @updateLost c call₀ ip err nodeCopy api hctl =>
      obtain rfl := Option.some.inj hc'
      refine ⟨c, hctl, rfl, Or.inl (NfsLbCsi.mem_calls.mpr (Or.inr ?_))⟩
      rcases hcall with ⟨cr, hcr, -⟩ | hw
      · cases hcr
      · exact hw
  | @updateDone c call₀ ip err nodeCopy api hctl hcrit =>
      obtain rfl := Option.some.inj hc'
      refine ⟨c, hctl, rfl, Or.inl (NfsLbCsi.mem_calls.mpr ?_)⟩
      rcases hcall with ⟨cr, hcr, hcrcall⟩ | hw
      · obtain rfl := Option.some.inj hcr
        exact Or.inl ⟨_, hcrit, hcrcall⟩
      · exact Or.inr hw
  | @count c call₀ ip hctl hcrit =>
      -- the counted IP was a key already
      obtain rfl := Option.some.inj hc'
      obtain ⟨nodeCopy, ips, hsort, hnext⟩ := (hs c hctl).holds _ hcrit
      refine ⟨c, hctl, keys_add (afterLock_mem hsort hnext) _,
        Or.inl (NfsLbCsi.mem_calls.mpr (Or.inr ?_))⟩
      rcases hcall with ⟨cr, hcr, -⟩ | hw
      · cases hcr
      · exact hw
  | getReturn => exact ⟨c', hc', rfl, Or.inl (NfsLbCsi.mem_calls.mpr hcall)⟩
  | deliver => exact ⟨c', hc', rfl, Or.inl (NfsLbCsi.mem_calls.mpr hcall)⟩
  | create => exact ⟨c', hc', rfl, Or.inl (NfsLbCsi.mem_calls.mpr hcall)⟩
  | write => exact ⟨c', hc', rfl, Or.inl (NfsLbCsi.mem_calls.mpr hcall)⟩
  | delete => exact ⟨c', hc', rfl, Or.inl (NfsLbCsi.mem_calls.mpr hcall)⟩

theorem System.Idle.calls {s : System B} (h : s.Idle) {c : Controller B} (hc : s.ctl = some c) :
    c.calls = [] := by
  obtain ⟨hw, hcr⟩ := h c hc
  simp [Controller.calls, hw, hcr]

/-- A beginning call takes the next ticket; the other steps take none. -/
theorem Step.tickets_eq {s s' : System B} {e : Event B} {o : Obs} (h : Step s e o s') :
    s'.tickets = s.tickets + if e.gets then 1 else 0 := by
  cases h <;> rfl

theorem Step.gets_ticket {s s' : System B} {e : Event B} {o : Obs} (h : Step s e o s')
    (hg : e.gets = true) {a : CallInfo} (ha : o.actor = some a) : a.ticket = s.tickets := by
  cases h with
  | getReturn => obtain rfl := Option.some.inj ha; rfl
  | getWait => obtain rfl := Option.some.inj ha; rfl
  | _ => cases hg

/-- The tickets of the calls in flight have been given out. -/
theorem ticket_lt [DecidableEq B] {s₀ s : System B} {tr : Trace B} (h₀ : s₀.Idle)
    (hrun : Run step s₀ tr s) :
    ∀ c, s.ctl = some c → ∀ call ∈ c.calls, call.info.ticket < s.tickets := by
  refine Run.traceInvariant
    (I := fun _ s => ∀ c, s.ctl = some c → ∀ call ∈ c.calls, call.info.ticket < s.tickets)
    (P := fun _ => True) ?_ ?_ hrun (fun _ _ => trivial)
  · intro c hc call hcall
    rw [h₀.calls hc] at hcall
    cases hcall
  · intro tr t hpre hstep _ _ ih c' hc' call hcall
    have hstep := step_cases hstep
    have htickets := hstep.tickets_eq
    obtain ⟨c, hc, -, hold | ⟨he, -, hticket, -⟩⟩ :=
      hstep.mem_calls (sound_of_run h₀ hpre) hc' hcall
    · have := ih c hc call hold
      omega
    · rw [he, Event.gets, if_pos rfl] at htickets
      omega

/-- A step of a call is its first, or the call is in flight. -/
theorem Step.actor_cases {s s' : System B} {e : Event B} {o : Obs} (h : Step s e o s')
    {a : CallInfo} (ha : o.actor = some a) :
    (e.gets = true ∧ a.ticket = s.tickets) ∨
    ∃ c call, s.ctl = some c ∧ call ∈ c.calls ∧ call.info = a := by
  have hwaiting : ∀ {c : Controller B} {i : Nat} {call : Call B}, c.waiting[i]? = some call →
      call ∈ c.calls := fun hcall => NfsLbCsi.mem_calls.mpr (Or.inr (List.mem_of_getElem? hcall))
  have hcritical : ∀ {c : Controller B} {cr : Critical B}, c.critical = some cr →
      cr.call ∈ c.calls := fun hcr => NfsLbCsi.mem_calls.mpr (Or.inl ⟨_, hcr, rfl⟩)
  cases h with
  | getReturn => obtain rfl := Option.some.inj ha; exact Or.inl ⟨rfl, rfl⟩
  | getWait => obtain rfl := Option.some.inj ha; exact Or.inl ⟨rfl, rfl⟩
  | lockPanic hctl _ hcall => exact Or.inr ⟨_, _, hctl, hwaiting hcall, Option.some.inj ha⟩
  | lockReturn hctl _ hcall => exact Or.inr ⟨_, _, hctl, hwaiting hcall, Option.some.inj ha⟩
  | lockUpdate hctl _ hcall => exact Or.inr ⟨_, _, hctl, hwaiting hcall, Option.some.inj ha⟩
  | updateRefused hctl hcrit => exact Or.inr ⟨_, _, hctl, hcritical hcrit, Option.some.inj ha⟩
  | updateLost hctl hcrit => exact Or.inr ⟨_, _, hctl, hcritical hcrit, Option.some.inj ha⟩
  | updateDone hctl hcrit => exact Or.inr ⟨_, _, hctl, hcritical hcrit, Option.some.inj ha⟩
  | count hctl hcrit => exact Or.inr ⟨_, _, hctl, hcritical hcrit, Option.some.inj ha⟩
  | _ => cases ha

/-- No call that has acted holds a ticket that is still to be given out. -/
theorem actor_ticket_lt [DecidableEq B] {s₀ s : System B} {tr : Trace B} (h₀ : s₀.Idle)
    (hrun : Run step s₀ tr s) : ∀ t ∈ tr, ∀ a, t.obs.actor = some a → a.ticket < s.tickets := by
  refine Run.traceInvariant
    (I := fun tr s => ∀ t ∈ tr, ∀ a, t.obs.actor = some a → a.ticket < s.tickets)
    (P := fun _ => True) (by simp) ?_ hrun (fun _ _ => trivial)
  intro tr t hpre hstep _ _ ih u hu a ha
  have hstep := step_cases hstep
  have htickets := hstep.tickets_eq
  rcases List.mem_append.mp hu with hu | hu
  · have := ih u hu a ha
    omega
  · obtain rfl := List.mem_singleton.mp hu
    rcases hstep.actor_cases ha with ⟨hg, hticket⟩ | ⟨c, call, hc, hcall, rfl⟩
    · rw [hg, if_pos rfl] at htickets
      omega
    · have := ticket_lt h₀ hpre c hc call hcall
      omega

/-- The tickets of the calls in flight, the one that holds the mutex first. -/
def Controller.tickets (c : Controller B) : List Nat := c.calls.map (fun call => call.info.ticket)

theorem Step.tickets_nodup {s s' : System B} {e : Event B} {o : Obs} (h : Step s e o s')
    (hlt : ∀ c, s.ctl = some c → ∀ call ∈ c.calls, call.info.ticket < s.tickets)
    (hnodup : ∀ c, s.ctl = some c → c.tickets.Nodup) :
    ∀ c', s'.ctl = some c' → c'.tickets.Nodup := by
  -- most steps only drop calls
  have hdrop : ∀ {c c' : Controller B}, s.ctl = some c → c'.calls.Sublist c.calls →
      c'.tickets.Nodup := fun hc hsub => (hnodup _ hc).sublist (hsub.map _)
  intro c' hc'
  cases h with
  | start => obtain rfl := Option.some.inj hc'; exact List.nodup_nil
  | crash => cases hc'
  | lockPanic => cases hc'
  | @getWait c op n v node hctl hget =>
      obtain rfl := Option.some.inj hc'
      rw [Controller.tickets, Controller.calls, ← List.append_assoc, List.map_append]
      -- the ticket of the new call is larger than those in flight
      refine List.Nodup.append (hnodup c hctl) (List.nodup_singleton _) ?_
      intro k hk hk'
      obtain ⟨call, hcall, rfl⟩ := List.mem_map.mp hk
      have hnew : call.info.ticket = s.tickets := List.mem_singleton.mp hk'
      have hold := hlt c hctl call hcall
      omega
  | @lockReturn c i ips call r hctl =>
      obtain rfl := Option.some.inj hc'
      exact hdrop hctl (List.Sublist.append_left (List.eraseIdx_sublist _ _) _)
  | @lockUpdate c i ips call ip nodeCopy hctl hfree hcall =>
      obtain rfl := Option.some.inj hc'
      obtain ⟨hi, hget⟩ := List.getElem?_eq_some_iff.mp hcall
      -- the call moves from its place in the queue to the front
      have hperm : (call :: c.waiting.eraseIdx i).Perm c.waiting := by
        rw [← hget]
        exact List.getElem_cons_eraseIdx_perm hi
      have hcalls : c.calls = c.waiting := by simp [Controller.calls, hfree]
      have hold := hnodup c hctl
      rw [Controller.tickets, hcalls] at hold
      exact ((hperm.map _).nodup_iff).mpr hold
  | updateRefused hctl =>
      obtain rfl := Option.some.inj hc'
      exact hdrop hctl (List.sublist_append_right _ _)
  | updateLost hctl =>
      obtain rfl := Option.some.inj hc'
      exact hdrop hctl (List.sublist_append_right _ _)
  | updateDone hctl hcrit =>
      obtain rfl := Option.some.inj hc'
      have hold := hnodup _ hctl
      rw [Controller.tickets, Controller.calls, hcrit] at hold
      exact hold
  | count hctl =>
      obtain rfl := Option.some.inj hc'
      exact hdrop hctl (List.sublist_append_right _ _)
  | getReturn => exact hnodup c' hc'
  | deliver => exact hnodup c' hc'
  | create => exact hnodup c' hc'
  | write => exact hnodup c' hc'
  | delete => exact hnodup c' hc'

theorem tickets_nodup_of_run [DecidableEq B] {s₀ s : System B} {tr : Trace B} (h₀ : s₀.Idle)
    (hrun : Run step s₀ tr s) : ∀ c, s.ctl = some c → c.tickets.Nodup := by
  refine Run.traceInvariant (I := fun _ s => ∀ c, s.ctl = some c → c.tickets.Nodup)
    (P := fun _ => True) ?_ ?_ hrun (fun _ _ => trivial)
  · intro c hc
    rw [Controller.tickets, h₀.calls hc]
    exact List.nodup_nil
  · intro tr t hpre hstep _ _ ih
    exact (step_cases hstep).tickets_nodup (ticket_lt h₀ hpre) ih

/-- A waiting call is not the call that holds the mutex. -/
theorem waiting_ne_critical [DecidableEq B] {s₀ s : System B} {tr : Trace B} (h₀ : s₀.Idle)
    (hrun : Run step s₀ tr s) {c : Controller B} (hc : s.ctl = some c) {cr : Critical B}
    (hcr : c.critical = some cr) {call : Call B} (hcall : call ∈ c.waiting) :
    call.info ≠ cr.call.info := by
  intro heq
  have hnodup := tickets_nodup_of_run h₀ hrun c hc
  rw [Controller.tickets, Controller.calls, hcr] at hnodup
  simp only [Option.map_some, Option.toList_some, List.cons_append, List.nil_append,
    List.map_cons, List.nodup_cons] at hnodup
  exact hnodup.1 (List.mem_map.mpr ⟨call, hcall, by rw [heq]⟩)

/-! ## The write that commits -/

/-- **A committed update replaces the object that the call has read**, and only the annotation
differs between the two. -/
theorem Controller.Sound.update_basis {api api' : Replica String (NodeData B)} {c : Controller B}
    {call : Call B} {ip : String} {nodeCopy : Node B} (hc : c.Sound api)
    (hcrit : c.critical = some (.updating call ip nodeCopy))
    (happ : api.update call.info.nodeName nodeCopy = some api') :
    api.server.lookup call.info.nodeName = some call.node ∧
      api' = api.commit call.info.nodeName (some nodeCopy.value) := by
  obtain ⟨ips, -, hnext⟩ := hc.holds _ hcrit
  exact Replica.update_basis (hc.critical_stored _ hcrit) (afterLock_version hnext) happ

/-- A step in which an update commits belongs to the call that acts in it. -/
theorem writer_of_update {t : Move B} {n : String} {nodeCopy : Node B}
    (h : t.pre.api.update n nodeCopy = some t.post.api) : writer t = t.obs.actor := by
  obtain ⟨_, -, -, happ⟩ := Replica.update_eq_some h
  have hrev : t.post.api.revision = t.pre.api.revision + 1 := by rw [happ]; rfl
  rw [writer, if_neg (by omega)]

/-- Who commits: the call that holds the mutex, about to update. -/
theorem Step.writer_eq_some {s s' : System B} {e : Event B} {o : Obs} {a : CallInfo}
    (h : Step s e o s') (hw : writer ⟨s, e, o, s'⟩ = some a) :
    ∃ c call ip nodeCopy, s.ctl = some c ∧ c.critical = some (.updating call ip nodeCopy) ∧
      call.info = a ∧ s.api.update a.nodeName nodeCopy = some s'.api ∧
      ((e.loses = true ∧ s'.ctl = some { c with critical := none }) ∨
        (e.loses = false ∧ s'.ctl = some { c with critical := some (.counting call ip) })) := by
  cases h with
  | @updateLost c call ip err nodeCopy api hctl hcrit happ =>
      rw [writer_of_update happ] at hw
      obtain rfl := Option.some.inj hw
      exact ⟨c, call, ip, nodeCopy, hctl, hcrit, rfl, happ, Or.inl ⟨rfl, rfl⟩⟩
  | @updateDone c call ip err nodeCopy api hctl hcrit happ =>
      rw [writer_of_update happ] at hw
      obtain rfl := Option.some.inj hw
      exact ⟨c, call, ip, nodeCopy, hctl, hcrit, rfl, happ, Or.inr ⟨rfl, rfl⟩⟩
  | deliver happ => simp [writer, (Replica.deliver_eq_some happ).2.1] at hw
  | _ => simp [writer] at hw

/-! ## Annotations on the API server -/

theorem assignedAt_commit (api : Replica String (NodeData B)) (n n' : String)
    (v : Option (NodeData B)) :
    assignedAt (api.commit n v).server n'
      = if n' = n then v.bind NodeData.assignedIP else assignedAt api.server n' := by
  rw [assignedAt, Replica.commit_server, lookup_set]
  by_cases hn : n' = n
  · rw [if_pos hn, if_pos hn]
    cases v <;> rfl
  · rw [if_neg hn, if_neg hn, assignedAt]

/-- **Who changes the annotation of a node**: the deletion of the node, and the update of a call
for it, which replaces the object that the call has read. -/
theorem Step.assignedAt_cases {s s' : System B} {e : Event B} {o : Obs} (h : Step s e o s')
    (hs : s.Sound) (n : String) :
    (s'.assignedAt n = s.assignedAt n ∧ ∀ a, writer ⟨s, e, o, s'⟩ = some a → a.nodeName ≠ n) ∨
    (e = .delete n ∧ s'.assignedAt n = none) ∨
    ∃ c call ip nodeCopy, s.ctl = some c ∧ c.critical = some (.updating call ip nodeCopy) ∧
      call.info.nodeName = n ∧ writer ⟨s, e, o, s'⟩ = some call.info ∧
      s.assignedAt n = assigned call.node ∧ s'.assignedAt n = call.info.op.written ip := by
  -- the update of a call: of another node, or of this one
  have hcommit : ∀ {c : Controller B} {call : Call B} {ip : String} {nodeCopy : Node B},
      s.ctl = some c → c.critical = some (.updating call ip nodeCopy) →
      s.api.update call.info.nodeName nodeCopy = some s'.api → o.actor = some call.info →
      (s'.assignedAt n = s.assignedAt n ∧ ∀ a, writer ⟨s, e, o, s'⟩ = some a → a.nodeName ≠ n) ∨
      (call.info.nodeName = n ∧ writer ⟨s, e, o, s'⟩ = some call.info ∧
        s.assignedAt n = assigned call.node ∧ s'.assignedAt n = call.info.op.written ip) := by
    intro c call ip nodeCopy hctl hcrit happ hactor
    have hwriter : writer ⟨s, e, o, s'⟩ = some call.info := (writer_of_update happ).trans hactor
    obtain ⟨hbasis, hapi⟩ := (hs c hctl).update_basis hcrit happ
    obtain ⟨ips, -, hnext⟩ := (hs c hctl).holds _ hcrit
    rw [System.assignedAt, hapi, assignedAt_commit]
    by_cases hn : n = call.info.nodeName
    · refine Or.inr ⟨hn.symm, hwriter, ?_, ?_⟩
      · rw [System.assignedAt, assignedAt, hn, hbasis, Option.bind_some]
      · rw [if_pos hn, Option.bind_some, afterLock_written hnext]
    · refine Or.inl ⟨if_neg hn, fun a ha => ?_⟩
      rw [hwriter] at ha
      exact Option.some.inj ha ▸ fun heq => hn heq.symm
  cases h with
  | @updateLost c call ip err nodeCopy api hctl hcrit happ =>
      rcases hcommit hctl hcrit happ rfl with hother | hown
      · exact Or.inl hother
      · exact Or.inr (Or.inr ⟨c, call, ip, nodeCopy, hctl, hcrit, hown⟩)
  | @updateDone c call ip err nodeCopy api hctl hcrit happ =>
      rcases hcommit hctl hcrit happ rfl with hother | hown
      · exact Or.inl hother
      · exact Or.inr (Or.inr ⟨c, call, ip, nodeCopy, hctl, hcrit, hown⟩)
  | deliver happ =>
      obtain ⟨hserver, hrev, -⟩ := Replica.deliver_eq_some happ
      refine Or.inl ⟨?_, fun a ha => ?_⟩
      · rw [System.assignedAt, System.assignedAt, hserver]
      · simp [writer, hrev] at ha
  | @create m data hnew hdata =>
      refine Or.inl ⟨?_, fun a ha => by simp [writer] at ha⟩
      rw [System.assignedAt, assignedAt_commit]
      by_cases hn : n = m
      · rw [if_pos hn, Option.bind_some, hdata, System.assignedAt, assignedAt, hn, hnew]
        rfl
      · exact if_neg hn
  | @write m data old hold hdata =>
      refine Or.inl ⟨?_, fun a ha => by simp [writer] at ha⟩
      rw [System.assignedAt, assignedAt_commit]
      by_cases hn : n = m
      · rw [if_pos hn, Option.bind_some, hdata, System.assignedAt, assignedAt, hn, hold]
        rfl
      · exact if_neg hn
  | @delete m old hold =>
      by_cases hn : n = m
      · refine Or.inr (Or.inl ⟨by rw [hn], ?_⟩)
        rw [System.assignedAt, assignedAt_commit, if_pos hn]
        rfl
      · refine Or.inl ⟨?_, fun a ha => by simp [writer] at ha⟩
        rw [System.assignedAt, assignedAt_commit]
        exact if_neg hn
  | _ => exact Or.inl ⟨rfl, fun a ha => by simp [writer] at ha⟩

/-- What a step adds to the copies in play is the object now on the API server. -/
theorem Step.inPlay {s s' : System B} {e : Event B} {o : Obs} (h : Step s e o s') {n : String}
    {node : Node B} (hplay : s'.api.InPlay n node) :
    s.api.InPlay n node ∨ s'.api.server.lookup n = some node := by
  have hcommit : ∀ (m : String) (v : Option (NodeData B)), (s.api.commit m v).InPlay n node →
      s.api.InPlay n node ∨ (s.api.commit m v).server.lookup n = some node := by
    intro m v hp
    rcases hp.of_commit with hold | ⟨rfl, hstamp⟩
    · exact Or.inl hold
    · rw [Replica.commit_server, lookup_set_self]
      exact Or.inr hstamp
  cases h with
  | start => exact Or.inr hplay.of_relist
  | updateLost _ _ happ =>
      obtain ⟨_, -, -, rfl⟩ := Replica.update_eq_some happ
      exact hcommit _ _ hplay
  | updateDone _ _ happ =>
      obtain ⟨_, -, -, rfl⟩ := Replica.update_eq_some happ
      exact hcommit _ _ hplay
  | deliver happ => exact Or.inl ((Replica.deliver_eq_some happ).2.2.2 n node hplay)
  | create => exact hcommit _ _ hplay
  | write => exact hcommit _ _ hplay
  | delete => exact hcommit _ _ hplay
  | _ => exact Or.inl hplay

/-- What the annotation is while the call that wrote it has not yet counted: what the call wrote,
unless the node has been deleted in the meantime. -/
theorem Step.counting_written {s s' : System B} {e : Event B} {o : Obs} (h : Step s e o s')
    (hs : s.Sound) {c' : Controller B} {call : Call B} {ip : String} (hc' : s'.ctl = some c')
    (hcrit' : c'.critical = some (.counting call ip)) :
    (s'.assignedAt call.info.nodeName = call.info.op.written ip ∧
      writer ⟨s, e, o, s'⟩ = some call.info ∧
      ∃ c nodeCopy, s.ctl = some c ∧ c.critical = some (.updating call ip nodeCopy)) ∨
    ∃ c, s.ctl = some c ∧ c.critical = some (.counting call ip) ∧
      (s'.assignedAt call.info.nodeName = s.assignedAt call.info.nodeName ∨
        (e = .delete call.info.nodeName ∧ s'.assignedAt call.info.nodeName = none)) := by
  have hat := h.assignedAt_cases hs call.info.nodeName
  -- nobody else can update while this call holds the mutex
  have hkeep : ∀ c, s.ctl = some c → c.critical = some (.counting call ip) →
      ∃ c, s.ctl = some c ∧ c.critical = some (.counting call ip) ∧
        (s'.assignedAt call.info.nodeName = s.assignedAt call.info.nodeName ∨
          (e = .delete call.info.nodeName ∧ s'.assignedAt call.info.nodeName = none)) := by
    intro c hc hcrit
    refine ⟨c, hc, hcrit, ?_⟩
    rcases hat with ⟨hsame, -⟩ | hdel | ⟨c₁, _, _, _, hc₁, hcrit₁, -⟩
    · exact Or.inl hsame
    · exact Or.inr hdel
    · rw [hc] at hc₁
      obtain rfl := Option.some.inj hc₁
      rw [hcrit] at hcrit₁
      cases hcrit₁
  cases h with
  | start => obtain rfl := Option.some.inj hc'; cases hcrit'
  | crash => cases hc'
  | lockPanic => cases hc'
  | getReturn => exact Or.inr (hkeep c' hc' hcrit')
  | getWait hctl => obtain rfl := Option.some.inj hc'; exact Or.inr (hkeep _ hctl hcrit')
  | lockReturn hctl => obtain rfl := Option.some.inj hc'; exact Or.inr (hkeep _ hctl hcrit')
  | lockUpdate => obtain rfl := Option.some.inj hc'; cases hcrit'
  | updateRefused => obtain rfl := Option.some.inj hc'; cases hcrit'
  | updateLost => obtain rfl := Option.some.inj hc'; cases hcrit'
  | @updateDone c call₀ ip₀ err nodeCopy api hctl hcrit happ =>
      obtain rfl := Option.some.inj hc'
      obtain ⟨rfl, rfl⟩ := Critical.counting.inj (Option.some.inj hcrit')
      obtain ⟨-, rfl⟩ := (hs c hctl).update_basis hcrit happ
      obtain ⟨ips, -, hnext⟩ := (hs c hctl).holds _ hcrit
      refine Or.inl ⟨?_, writer_of_update happ, c, nodeCopy, hctl, hcrit⟩
      rw [System.assignedAt, assignedAt_commit, if_pos rfl, Option.bind_some,
        afterLock_written hnext]
  | count => obtain rfl := Option.some.inj hc'; cases hcrit'
  | deliver => exact Or.inr (hkeep c' hc' hcrit')
  | create => exact Or.inr (hkeep c' hc' hcrit')
  | write => exact Or.inr (hkeep c' hc' hcrit')
  | delete => exact Or.inr (hkeep c' hc' hcrit')

end

end NfsLbCsi
