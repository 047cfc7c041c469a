import NfsLbCsi.Driver.Setup
import NfsLbCsi.LBController.Call
import NfsLbCsi.LBController.Staleness

set_option autoImplicit false

/-! # The addresses that are handed out

`handle` compares `--ip-addresses` with the empty string and splits it at commas; `resyncIPMap`
makes every piece a key of the map, and the keys are what `AssignIPToNode` hands out. So in every
run of a driver the addresses are entries of the flag, and every entry can be handed out: that of a
blank line or a trailing comma too.
-/

namespace NfsLbCsi

open Tally Optimistic Lts GoString

/-! ## The keys of the map -/

section

variable {B : Type}

/-- Whenever the controller process starts, it starts as the LB controller of the driver. -/
def Serves (d : Driver) (tr : Trace B) : Prop :=
  ∀ t ∈ tr, ∀ ipList nodes, t.event = .start ipList nodes → d.lbController = some ipList

theorem Step.start_keys {s s' : System B} {ipList : List String} {nodes : List (Node B)} {o : Obs}
    (h : Step s (.start ipList nodes) o s') {c' : Controller B} (hc' : s'.ctl = some c') :
    c'.ipMap.keys = ipList.toFinset := by
  cases h with
  | start hctl hne hlist hmap =>
      obtain rfl := Option.some.inj hc'
      exact (resyncIPMap_spec hmap).1

/-- The step of a call keeps the keys. -/
theorem Step.keys_eq {s s' : System B} {e : Event B} {o : Obs} (h : Step s e o s') (hs : s.Sound)
    {c' : Controller B} (hc' : s'.ctl = some c') :
    (∃ ipList nodes, e = .start ipList nodes ∧ c'.ipMap.keys = ipList.toFinset) ∨
    ∃ c, s.ctl = some c ∧ c'.ipMap.keys = c.ipMap.keys := by
  rcases h.ipMap_cases hc' with ⟨ipList, nodes, rfl, -⟩ | ⟨c, hc,
    hsame | ⟨call, ip, -, hcrit, -, hadd⟩⟩
  · exact Or.inl ⟨ipList, nodes, rfl, h.start_keys hc'⟩
  · exact Or.inr ⟨c, hc, by rw [hsame]⟩
  · obtain ⟨nodeCopy, ips, hsort, hnext⟩ := (hs c hc).holds _ hcrit
    refine Or.inr ⟨c, hc, ?_⟩
    rw [hadd]
    exact keys_add (afterLock_mem hsort hnext) _

/-- **The keys of the map** are the IPs of the driver, in every state of every run from a cluster on
which no controller runs yet. -/
theorem keys_of_run [DecidableEq B] {d : Driver} {ips : List String}
    (hd : d.lbController = some ips)
    {s₀ s : System B} {tr : Trace B} (h₀ : s₀.ctl = none) (hrun : Run step s₀ tr s)
    (hserves : Serves d tr) {c : Controller B} (hc : s.ctl = some c) :
    c.ipMap.keys = ips.toFinset := by
  have hidle : s₀.Idle := fun c hc => by rw [h₀] at hc; cases hc
  refine Run.traceInvariant
    (I := fun _ s => ∀ c, s.ctl = some c → c.ipMap.keys = ips.toFinset)
    (P := fun t : Move B => ∀ (ipList : List String) (nodes : List (Node B)),
      t.event = .start ipList nodes → d.lbController = some ipList)
    ?_ ?_ hrun hserves c hc
  · intro c hc
    rw [h₀] at hc
    cases hc
  · intro tr t hpre hstep hstart _ ih c' hc'
    rcases (step_cases hstep).keys_eq (sound_of_run hidle hpre) hc' with
      ⟨ipList, nodes, he, hkeys⟩ | ⟨c, hc, hkeys⟩
    · have hlist : ips = ipList := by
        have := hstart ipList nodes he
        rw [hd] at this
        exact Option.some.inj this
      rw [hkeys, hlist]
    · rw [hkeys]
      exact ih c hc

/-- An address that a call returns is a key of the map. -/
theorem Step.assigned_mem {s s' : System B} {e : Event B} {o : Obs} (h : Step s e o s')
    (hs : s.Sound)
    {a : CallInfo} {ip : String} (ha : o.actor = some a) (hret : o.ret = some (.assigned ip)) :
    ∃ c, s.ctl = some c ∧ ip ∈ c.ipMap := by
  rcases h.assigned_cases ha hret with
    ⟨i, ips, c, call, -, hc, -, -, -, -, -, hmem, -⟩ | ⟨c, call, hc, hcrit, -⟩
  · exact ⟨c, hc, hmem⟩
  · obtain ⟨nodeCopy, ips, hsort, hnext⟩ := (hs c hc).holds _ hcrit
    exact ⟨c, hc, afterLock_mem hsort hnext⟩

/-- What a call of the driver's LB controller can return: in some run, from some cluster on which no
controller runs yet, a call with these arguments returns `r`. -/
def LBReturns (d : Driver) (op : Op) (nodeName volumeID : String) (r : Ret) : Prop :=
  ∃ (B : Type) (_ : DecidableEq B) (s₀ s : System B) (tr : Trace B) (t : Move B) (ticket : Nat),
    s₀.ctl = none ∧ Run step s₀ tr s ∧ Serves d tr ∧ t ∈ tr ∧
      t.obs = { actor := some ⟨ticket, op, nodeName, volumeID⟩, ret := some r }

/-- The state before a return: the controller is up, and the keys of its map are the driver's
IPs. -/
theorem LBReturns.exists_step {d : Driver} {ips : List String} (hd : d.lbController = some ips)
    {op : Op} {n v : String} {r : Ret} (h : LBReturns d op n v r) :
    ∃ (B : Type) (s s' : System B) (e : Event B) (a : CallInfo), s.Sound ∧
      Step s e { actor := some a, ret := some r } s' ∧
      ∀ c, s.ctl = some c → c.ipMap.keys = ips.toFinset := by
  obtain ⟨B, _, s₀, s, tr, t, ticket, h₀, hrun, hserves, ht, hobs⟩ := h
  have hidle : s₀.Idle := fun c hc => by rw [h₀] at hc; cases hc
  obtain ⟨tr₁, tr₂, rfl, hrun₁, hstep, -⟩ := hrun.reached ht
  have hstep := step_cases hstep
  rw [hobs] at hstep
  refine ⟨B, t.pre, t.post, t.event, _, sound_of_run hidle hrun₁, hstep, fun c hc => ?_⟩
  exact keys_of_run hd h₀ hrun₁ (fun u hu => hserves u (List.mem_append_left _ hu)) hc

/-- **Every address handed out** is one of the driver's. -/
theorem LBReturns.mem {d : Driver} {ips : List String} (hd : d.lbController = some ips) {op : Op}
    {n v ip : String} (h : LBReturns d op n v (.assigned ip)) : ip ∈ ips := by
  obtain ⟨B, s, s', e, a, hs, hstep, hkeys⟩ := h.exists_step hd
  obtain ⟨c, hc, hmem⟩ := hstep.assigned_mem hs rfl rfl
  rw [← List.mem_toFinset, ← hkeys c hc]
  exact Finmap.mem_keys.mpr hmem

end

/-! ## Every entry can be handed out -/

/-- With all counts 0, `sort.Slice` may put any IP first. -/
theorem exists_sorted_zeroCounts {ips : List String} {ip : String} (h : ip ∈ ips) :
    ∃ rest, SortedByCount (zeroCounts ips) (ip :: rest) := by
  refine ⟨ips.dedup.erase ip, ?_, ?_⟩
  · have hperm : ips.dedup.Perm (ip :: ips.dedup.erase ip) :=
      List.perm_cons_erase (List.mem_dedup.mpr h)
    rw [keys_zeroCounts, List.toFinset_val]
    exact Multiset.coe_eq_coe.mpr hperm.symm
  · refine List.pairwise_of_forall (fun a b => ?_)
    rw [count_zeroCounts, count_zeroCounts]
    exact lt_irrefl 0

/-- The LB controller just after its start on a cluster without annotations. -/
def startedController (names ips : List String) : LBController Unit :=
  ⟨(cluster names).relist, zeroCounts ips⟩

section

variable {d : Driver} {ips : List String}

/-- The first call after a start on a cluster whose nodes are counted for no IP. -/
theorem lbReturns_of_call (hd : d.lbController = some ips) (hne : ips ≠ []) {names : List String}
    {nodes : List (Node Unit)} (hlist : (nodes : Multiset (Node Unit))
      = values (cluster names).server)
    (hbare : nodes.foldl countNode (zeroCounts ips) = zeroCounts ips) {op : Op} {n : String}
    {sorted : List String} {reply : Reply} {r : Ret} {lb' : LBController Unit}
    (hcall : op.call (startedController names ips) n sorted reply = (r, lb')) (hr : r ≠ .panicked)
    (hsort : op = .assign → SortedByCount (zeroCounts ips) sorted) (hreply : reply.isLost = false)
    (v : String) : LBReturns d op n v r := by
  have hmap : resyncIPMap ips (.ok nodes) = .ok (zeroCounts ips) := congrArg Except.ok hbare
  have hstart : step ⟨cluster names, none, 0⟩ (.start ips nodes) =
      some ((startedController names ips).system 0, {}) := by
    simp only [step, System.start, hmap]
    exact if_pos ⟨rfl, hne, hlist⟩
  obtain ⟨tr, t, hrun, hplain, hobs⟩ := call_run hcall hr hsort hreply v 0
  refine ⟨Unit, inferInstance, _, _, _, t, 0, rfl, (Run.single hstart).append hrun,
    ?_, by simp, hobs⟩
  intro u hu ipList nodes he
  rcases List.mem_append.mp hu with hu | hu
  · obtain rfl := List.mem_singleton.mp hu
    cases he
    exact hd
  · have hrestart := (hplain u hu).1
    rw [he] at hrestart
    cases hrestart

/-- **Every entry** of the driver's list can be handed out: to the only node of a cluster. -/
theorem lbReturns_assigned (hd : d.lbController = some ips) {ip : String} (hip : ip ∈ ips) :
    LBReturns d .assign "n" "v" (.assigned ip) := by
  obtain ⟨rest, hsort⟩ := exists_sorted_zeroCounts hip
  have hlist : (([⟨1, bareNode⟩] : List (Node Unit)) : Multiset (Node Unit)) =
      values (cluster ["n"]).server := by decide
  have hcall : Op.assign.call (startedController ["n"] ips) "n" (ip :: rest) (.answered "") =
      (.assigned ip, _) := rfl
  exact lbReturns_of_call hd (List.ne_nil_of_mem hip) hlist rfl hcall Ret.noConfusion
    (fun _ => hsort) rfl "v"

end

/-! ## Usable addresses -/

/-- An entry of the flag that is an address as far as its text can tell. -/
def Usable (ipAddresses ip : String) : Prop :=
  ip ≠ "" ∧ ',' ∉ ip.toList ∧ trimSpace ip = ip ∧ ip ∈ split ',' ipAddresses

/-- **Only usable addresses are handed out**, whatever the cluster and the run, exactly when no
entry of the flag is empty or has white space around it. -/
theorem hands_out_usable_iff {linux : Bool} {f : Flags} {d : Driver} (h : handle linux f = some d)
    (hctl : f.runControllerServer = true) :
    (∀ n v ip, LBReturns d .assign n v (.assigned ip) → Usable f.ipAddresses ip) ↔
      ∀ ip ∈ split ',' f.ipAddresses, ip ≠ "" ∧ trimSpace ip = ip := by
  have hd : d.lbController = some (split ',' f.ipAddresses) := (handle_eq_some h hctl).2.1
  constructor
  · intro husable ip hip
    obtain ⟨hne, -, htrim, -⟩ := husable "n" "v" ip (lbReturns_assigned hd hip)
    exact ⟨hne, htrim⟩
  · intro hentries n v ip hret
    have hip : ip ∈ split ',' f.ipAddresses := hret.mem hd
    obtain ⟨hne, htrim⟩ := hentries ip hip
    exact ⟨hne, not_mem_of_mem_split hip, htrim, hip⟩

/-- The flags of a controller without a node server. -/
def controllerFlags (ipAddresses : String) : Flags :=
  { ipAddresses := ipAddresses, runControllerServer := true }

theorem hands_out_usable_iff_two :
    ∃ d, handle true (controllerFlags "10.0.0.1,10.0.0.2") = some d ∧
      ∀ n v ip, LBReturns d .assign n v (.assigned ip) → Usable "10.0.0.1,10.0.0.2" ip :=
  ⟨_, rfl, (hands_out_usable_iff (f := controllerFlags "10.0.0.1,10.0.0.2") rfl rfl).mpr
    (by decide)⟩

/-- A list with a blank line between its two addresses: a node can be assigned the empty address. -/
theorem blank_line_hands_out_empty :
    ∃ d, handle true (controllerFlags "10.0.0.1,,10.0.0.2") = some d ∧
      LBReturns d .assign "n" "v" (.assigned "") ∧ ¬Usable "10.0.0.1,,10.0.0.2" "" := by
  have hhandle : handle true (controllerFlags "10.0.0.1,,10.0.0.2") = some _ := rfl
  have hempty : "" ∈ split ',' "10.0.0.1,,10.0.0.2" := by decide
  refine ⟨_, hhandle, lbReturns_assigned (handle_eq_some hhandle rfl).2.1 hempty, ?_⟩
  exact fun husable => husable.1 rfl

end NfsLbCsi
