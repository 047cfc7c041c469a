import NfsLbCsi.Basic.Replica

set_option autoImplicit false

/-! # The functions of `pkg/lbcontroller/lbcontroller.go`

A node object is a `Versioned` entry of the API server: its name is the key it is stored under,
its `resourceVersion` is the version, and its value holds the annotations and, as one opaque
`body`, the labels, spec and status that the controller copies and never reads. The clientset and
the node lister are the server and the cache of a `Replica`.

`AssignIPToNode` and `RemoveIPFromNode` read the lister before they take the mutex, decide under
the mutex whether to write, and touch the counter after the write has been acknowledged. Each is
cut at these three places (`assignBeforeLock`, `assignAfterLock` and so on), because other
goroutines, other clients and a crash can come in between; `assignIPToNode` and
`removeIPFromNode` put the pieces back together for a call that runs undisturbed.

What Go leaves open is an argument here: the order in which a map is ranged over, the order
`sort.Slice` gives to ties, and the fate of a request to the API server (`Reply`).
-/

namespace NfsLbCsi

open Tally Optimistic

/-- `NodeAnnotation`. -/
def nodeAnnotationKey : String := "nfs.lb.csi.storage.gke.io/assigned-ip"

/-! ## Nodes -/

/-- A node object without its name and version. A `nil` annotation map is `none`. -/
structure NodeData (B : Type) where
  annotations : Option (Table String String)
  body : B
  deriving DecidableEq

/-- A node object as the API server stores it under its name. -/
abbrev Node (B : Type) := Versioned (NodeData B)

/-- `node.Annotations[key]`; reading a `nil` map finds nothing. -/
def NodeData.annotationAt {B : Type} (d : NodeData B) (key : String) : Option String :=
  d.annotations.bind (fun m => m.lookup key)

/-- The IP that the node is annotated with. -/
def NodeData.assignedIP {B : Type} (d : NodeData B) : Option String :=
  d.annotationAt nodeAnnotationKey

/-- The IP that a node object is annotated with. -/
def assigned {B : Type} (node : Node B) : Option String := node.value.assignedIP

/-- The annotation of the node `name` in a table of nodes, if there is such a node. -/
def assignedAt {B : Type} (nodes : Table String (Node B)) (name : String) : Option String :=
  (nodes.lookup name).bind assigned

/-- The deep copy with `nodeCopy.Annotations[NodeAnnotation] = ip`, in a new map when the node had
none. -/
def NodeData.assign {B : Type} (d : NodeData B) (ip : String) : NodeData B :=
  { d with annotations := some ((d.annotations.getD ∅).insert nodeAnnotationKey ip) }

/-- The deep copy after `delete(nodeCopy.Annotations, NodeAnnotation)`. -/
def NodeData.unassign {B : Type} (d : NodeData B) : NodeData B :=
  { d with annotations := d.annotations.map (fun m => m.erase nodeAnnotationKey) }

section

variable {B : Type}

@[simp] theorem assignedIP_assign (d : NodeData B) (ip : String) :
    (d.assign ip).assignedIP = some ip := by
  simp [NodeData.assign, NodeData.assignedIP, NodeData.annotationAt]

@[simp] theorem assignedIP_unassign (d : NodeData B) : d.unassign.assignedIP = none := by
  cases h : d.annotations <;>
    simp [NodeData.unassign, NodeData.assignedIP, NodeData.annotationAt, h]

/-- Assigning an IP leaves every other annotation as it was. -/
theorem annotationAt_assign_of_ne (d : NodeData B) (ip : String) {key : String}
    (h : key ≠ nodeAnnotationKey) : (d.assign ip).annotationAt key = d.annotationAt key := by
  cases ha : d.annotations with
  | none => simp [NodeData.assign, NodeData.annotationAt, ha, Finmap.lookup_insert_of_ne _ h]
  | some m => simp [NodeData.assign, NodeData.annotationAt, ha, Finmap.lookup_insert_of_ne _ h]

/-- Removing the IP leaves every other annotation as it was. -/
theorem annotationAt_unassign_of_ne (d : NodeData B) {key : String} (h : key ≠ nodeAnnotationKey) :
    d.unassign.annotationAt key = d.annotationAt key := by
  cases ha : d.annotations with
  | none => simp [NodeData.unassign, NodeData.annotationAt, ha]
  | some m => simp [NodeData.unassign, NodeData.annotationAt, ha, Finmap.lookup_erase_ne h]

end

/-! ## The in-memory map -/

/-- `map[string]int`: the number of nodes per server IP. -/
abbrev IPMap := Table String Int

/-- `ipMap[ip]`, with Go's zero value for a missing key. -/
def IPMap.count (m : IPMap) (ip : String) : Int := (m.lookup ip).getD 0

/-- `ipMap[ip] += d`. -/
def IPMap.add (m : IPMap) (ip : String) (d : Int) : IPMap := m.insert ip (IPMap.count m ip + d)

theorem lookup_eq_count {m : IPMap} {ip : String} (h : ip ∈ m) :
    m.lookup ip = some (IPMap.count m ip) := by
  obtain ⟨n, hn⟩ := Finmap.mem_iff.mp h
  rw [IPMap.count, hn, Option.getD_some]

theorem count_add (m : IPMap) (ip ip' : String) (d : Int) :
    IPMap.count (IPMap.add m ip d) ip' = IPMap.count m ip' + if ip' = ip then d else 0 := by
  by_cases h : ip' = ip
  · subst h
    rw [if_pos rfl, IPMap.count, IPMap.add, Finmap.lookup_insert, Option.getD_some]
  · rw [if_neg h, IPMap.count, IPMap.add, Finmap.lookup_insert_of_ne _ h, IPMap.count]
    omega

theorem keys_add {m : IPMap} {ip : String} (h : ip ∈ m) (d : Int) :
    (IPMap.add m ip d).keys = m.keys :=
  keys_insert_of_mem _ h

/-! ### `resyncIPMap` -/

/-- The map after the loop over `ipList` of `resyncIPMap`. -/
def zeroCounts (ipList : List String) : IPMap := ipList.foldl (fun m ip => m.insert ip 0) ∅

/-- One round of the loop over the nodes of `resyncIPMap`. -/
def countNode {B : Type} (m : IPMap) (node : Node B) : IPMap :=
  match assigned node with
  -- an annotation with an IP that is not configured is only logged
  | some ip => if ip ∈ m then IPMap.add m ip 1 else m
  | none => m

/-- `resyncIPMap` on the nodes the lister returns, in the order it returns them. -/
def resyncIPMap {B : Type} (ipList : List String)
    (clusterNodes : Except String (List (Node B))) : Except String IPMap :=
  match clusterNodes with
  | .error err => .error ("failed to get cluster nodes: " ++ err)
  | .ok nodes => .ok (nodes.foldl countNode (zeroCounts ipList))

theorem foldl_insert_zero (ipList : List String) (m : IPMap) (ip : String) :
    (ipList.foldl (fun m ip => Finmap.insert ip 0 m) m).lookup ip
      = if ip ∈ ipList then some 0 else m.lookup ip := by
  induction ipList generalizing m with
  | nil => simp
  | cons a l ih =>
      rw [List.foldl_cons, ih]
      by_cases hl : ip ∈ l
      · rw [if_pos hl, if_pos (List.mem_cons_of_mem _ hl)]
      · rw [if_neg hl]
        by_cases ha : ip = a
        · subst ha
          rw [Finmap.lookup_insert, if_pos List.mem_cons_self]
        · rw [Finmap.lookup_insert_of_ne _ ha,
            if_neg (fun h => (List.mem_cons.mp h).elim ha hl)]

/-- The first loop: exactly the listed IPs are keys, all with count 0. -/
theorem lookup_zeroCounts (ipList : List String) (ip : String) :
    (zeroCounts ipList).lookup ip = if ip ∈ ipList then some 0 else none := by
  rw [zeroCounts, foldl_insert_zero, Finmap.lookup_empty]

theorem keys_zeroCounts (ipList : List String) : (zeroCounts ipList).keys = ipList.toFinset := by
  ext ip
  rw [Finmap.mem_keys, ← Finmap.lookup_isSome, lookup_zeroCounts, List.mem_toFinset]
  by_cases hip : ip ∈ ipList <;> simp [hip]

theorem count_zeroCounts (ipList : List String) (ip : String) :
    IPMap.count (zeroCounts ipList) ip = 0 := by
  rw [IPMap.count, lookup_zeroCounts]
  by_cases hip : ip ∈ ipList <;> simp [hip]

theorem keys_countNode {B : Type} (m : IPMap) (node : Node B) :
    (countNode m node).keys = m.keys := by
  unfold countNode
  split
  · split
    · rename_i hmem; exact keys_add hmem 1
    · rfl
  · rfl

theorem count_countNode {B : Type} (m : IPMap) (node : Node B) {ip : String} (h : ip ∈ m) :
    IPMap.count (countNode m node) ip
      = IPMap.count m ip + if assigned node = some ip then 1 else 0 := by
  unfold countNode
  cases ha : assigned node with
  | none => simp
  | some a =>
      by_cases hmem : a ∈ m
      · simp only [if_pos hmem, count_add, Option.some.injEq, eq_comm]
      · have hne : a ≠ ip := fun e => hmem (e ▸ h)
        simp [hmem, hne]

/-- The second loop keeps the keys and adds to each count the nodes annotated with its IP. -/
theorem foldl_countNode {B : Type} (nodes : List (Node B)) (m : IPMap) :
    (nodes.foldl countNode m).keys = m.keys ∧
    ∀ ip ∈ m, IPMap.count (nodes.foldl countNode m) ip
      = IPMap.count m ip + nodes.countP (fun node => assigned node = some ip) := by
  induction nodes generalizing m with
  | nil => simp
  | cons node nodes ih =>
      have hkeys := keys_countNode m node
      obtain ⟨ihk, ihc⟩ := ih (countNode m node)
      refine ⟨ihk.trans hkeys, fun ip hip => ?_⟩
      have hip' : ip ∈ countNode m node := by
        rw [← Finmap.mem_keys, hkeys, Finmap.mem_keys]; exact hip
      rw [List.foldl_cons, ihc ip hip', count_countNode m node hip, List.countP_cons]
      by_cases ha : assigned node = some ip
      · simp only [ha, decide_true, if_true]; omega
      · simp [ha]

/-- **What `resyncIPMap` computes**: the configured IPs, each with the number of listed nodes that
are annotated with it. -/
theorem resyncIPMap_spec {B : Type} {ipList : List String} {nodes : List (Node B)} {m : IPMap}
    (h : resyncIPMap ipList (.ok nodes) = .ok m) :
    m.keys = ipList.toFinset ∧
    ∀ ip ∈ m, IPMap.count m ip = nodes.countP (fun node => assigned node = some ip) := by
  have hm : nodes.foldl countNode (zeroCounts ipList) = m := Except.ok.inj h
  obtain ⟨hkeys, hcount⟩ := foldl_countNode nodes (zeroCounts ipList)
  rw [hm] at hkeys hcount
  refine ⟨hkeys.trans (keys_zeroCounts ipList), fun ip hip => ?_⟩
  have hip₀ : ip ∈ zeroCounts ipList := by rwa [← Finmap.mem_keys, ← hkeys, Finmap.mem_keys]
  rw [hcount ip hip₀, count_zeroCounts, Int.zero_add]

/-! ### `sort.Slice` -/

/-- The slice `ips` as `sort.Slice` may leave it: the keys of the map, in some order in which no
later key has a smaller count. Ties come in any order. -/
def SortedByCount (m : IPMap) (ips : List String) : Prop :=
  (ips : Multiset String) = m.keys.val ∧
    ips.Pairwise (fun a b => ¬ IPMap.count m b < IPMap.count m a)

instance (m : IPMap) (ips : List String) : Decidable (SortedByCount m ips) :=
  inferInstanceAs (Decidable (_ ∧ _))

/-- The first key of the sorted slice has the least count. -/
theorem SortedByCount.head_le {m : IPMap} {ip : String} {ips : List String}
    (h : SortedByCount m (ip :: ips)) :
    ip ∈ m ∧ ∀ ip' ∈ m, IPMap.count m ip ≤ IPMap.count m ip' := by
  obtain ⟨hkeys, hsorted⟩ := h
  have hmem : ∀ a, a ∈ ip :: ips ↔ a ∈ m := by
    intro a
    rw [← Finmap.mem_keys, ← Finset.mem_val, ← hkeys, Multiset.mem_coe]
  refine ⟨(hmem ip).mp List.mem_cons_self, fun ip' hip' => ?_⟩
  rcases List.mem_cons.mp ((hmem ip').mpr hip') with rfl | htail
  · exact le_refl _
  · exact not_lt.mp ((List.pairwise_cons.mp hsorted).1 ip' htail)

/-! ## The two calls, in pieces -/

/-- What a call returns: `(ip, nil)` of `AssignIPToNode`, `nil` of `RemoveIPFromNode`, an error
with its text, or a run-time panic. -/
inductive Ret where
  | assigned (ip : String)
  | removed
  | failed (err : String)
  | panicked
  deriving DecidableEq

/-- An error of the lister; `notFound` is what `errors.IsNotFound` answers. -/
structure GetError where
  notFound : Bool
  err : String

/-- `nodeLister.Get`. -/
def listerGet {B : Type} (cache : Table String (Node B)) (nodeName : String) :
    Except GetError (Node B) :=
  match cache.lookup nodeName with
  | some node => .ok node
  | none => .error ⟨true, "node " ++ nodeName.quote ++ " not found"⟩

/-- What a call does with the mutex in its hands: return, or send `nodeCopy` to the API server. -/
inductive Next (B : Type) where
  | ret (r : Ret)
  | update (ip : String) (nodeCopy : Node B)

/-- `AssignIPToNode` up to `c.mutex.Lock()`. -/
def assignBeforeLock {B : Type} : Except GetError (Node B) → Except Ret (Node B)
  | .error e => .error (.failed e.err)
  | .ok node => .ok node

/-- The assignment of the least used IP; `ips` is the slice after `sort.Slice`. -/
def assignSelect {B : Type} (node : Node B) : List String → Next B
  -- `ips[0]` of an empty slice
  | [] => .ret .panicked
  | selectedIP :: _ => .update selectedIP ⟨node.version, node.value.assign selectedIP⟩

/-- `AssignIPToNode` from `c.mutex.Lock()` to the update of the node. -/
def assignAfterLock {B : Type} (ipMap : IPMap) (node : Node B) (ips : List String) : Next B :=
  match assigned node with
  -- an IP that is no longer configured is replaced
  | some ip => if ip ∈ ipMap then .ret (.assigned ip) else assignSelect node ips
  | none => assignSelect node ips

/-- `RemoveIPFromNode` up to `c.mutex.Lock()`. -/
def removeBeforeLock {B : Type} : Except GetError (Node B) → Except Ret (Node B)
  -- a node that is gone has nothing to remove
  | .error e => if e.notFound then .error .removed else .error (.failed e.err)
  | .ok node =>
      match assigned node with
      | none => .error .removed
      | some _ => .ok node

/-- `RemoveIPFromNode` from `c.mutex.Lock()` to the update of the node. The first case is not
reached: `removeBeforeLock` has returned for such a node. -/
def removeAfterLock {B : Type} (ipMap : IPMap) (node : Node B) : Next B :=
  match assigned node with
  | none => .ret .removed
  | some ip =>
      if ip ∈ ipMap then .update ip ⟨node.version, node.value.unassign⟩ else .ret .removed

/-- The two calls. -/
inductive Op where
  | assign
  | remove
  deriving DecidableEq

def Op.beforeLock {B : Type} : Op → Except GetError (Node B) → Except Ret (Node B)
  | .assign => assignBeforeLock
  | .remove => removeBeforeLock

def Op.afterLock {B : Type} : Op → IPMap → Node B → List String → Next B
  | .assign, ipMap, node, ips => assignAfterLock ipMap node ips
  | .remove, ipMap, node, _ => removeAfterLock ipMap node

/-- The change of `ipMap[ip]` after an acknowledged update: `++` or `--`. -/
def Op.delta : Op → Int
  | .assign => 1
  | .remove => -1

/-- The annotation that the node has after an update for `ip` has committed. -/
def Op.written : Op → String → Option String
  | .assign, ip => some ip
  | .remove, _ => none

/-! ### What the pieces can do -/

section

variable {B : Type} {m : IPMap} {node nodeCopy : Node B} {ips : List String} {ip : String}

/-- What the lister `Get` leads to: an error of `AssignIPToNode`, a `RemoveIPFromNode` that has
nothing to do, or the cached object and on to the mutex. -/
theorem beforeLock_cases (op : Op) (cache : Table String (Node B)) (n : String) :
    (op = .assign ∧ ∃ err, op.beforeLock (listerGet cache n) = .error (.failed err)) ∨
    (op = .remove ∧ assignedAt cache n = none ∧
      op.beforeLock (listerGet cache n) = .error .removed) ∨
    (∃ node, cache.lookup n = some node ∧ op.beforeLock (listerGet cache n) = .ok node) := by
  unfold listerGet assignedAt
  cases hn : cache.lookup n with
  | none =>
      cases op with
      | assign => exact Or.inl ⟨rfl, _, rfl⟩
      | remove => exact Or.inr (Or.inl ⟨rfl, rfl, rfl⟩)
  | some node =>
      cases op with
      | assign => exact Or.inr (Or.inr ⟨node, rfl, rfl⟩)
      | remove =>
          rw [Option.bind_some]
          cases ha : assigned node with
          | none => exact Or.inr (Or.inl ⟨rfl, rfl, by simp [Op.beforeLock, removeBeforeLock, ha]⟩)
          | some ip =>
              exact Or.inr (Or.inr ⟨node, rfl, by simp [Op.beforeLock, removeBeforeLock, ha]⟩)

/-- A call that reaches the mutex has read its object from the cache. -/
theorem beforeLock_ok {op : Op} {cache : Table String (Node B)} {n : String} {node : Node B}
    (h : op.beforeLock (listerGet cache n) = .ok node) : cache.lookup n = some node := by
  rcases beforeLock_cases op cache n with ⟨-, err, hget⟩ | ⟨-, -, hget⟩ | ⟨node', hn, hget⟩
  · rw [hget] at h
    cases h
  · rw [hget] at h
    cases h
  · rw [hget] at h
    rw [hn, Except.ok.inj h]

/-- No call returns an IP before it has the mutex. -/
theorem beforeLock_error {op : Op} {cache : Table String (Node B)} {n : String} {r : Ret}
    (h : op.beforeLock (listerGet cache n) = .error r) (ip : String) : r ≠ .assigned ip := by
  rcases beforeLock_cases op cache n with ⟨-, err, hget⟩ | ⟨-, -, hget⟩ | ⟨node, -, hget⟩
  · rw [hget] at h
    rw [← Except.error.inj h]
    exact Ret.noConfusion
  · rw [hget] at h
    rw [← Except.error.inj h]
    exact Ret.noConfusion
  · rw [hget] at h
    cases h

/-- `RemoveIPFromNode` returns before it has the mutex only if the cache has no annotation, and then
it returns `nil`. -/
theorem removeBeforeLock_error {cache : Table String (Node B)} {n : String} {r : Ret}
    (h : Op.remove.beforeLock (listerGet cache n) = .error r) :
    r = .removed ∧ assignedAt cache n = none := by
  rcases beforeLock_cases .remove cache n with ⟨hop, -⟩ | ⟨-, hnone, hget⟩ | ⟨node, -, hget⟩
  · cases hop
  · rw [hget] at h
    exact ⟨(Except.error.inj h).symm, hnone⟩
  · rw [hget] at h
    cases h

theorem assignSelect_update (h : assignSelect node ips = .update ip nodeCopy) :
    (∃ rest, ips = ip :: rest) ∧ nodeCopy = ⟨node.version, node.value.assign ip⟩ := by
  cases ips with
  | nil => cases h
  | cons a rest =>
      simp only [assignSelect, Next.update.injEq] at h
      obtain ⟨rfl, rfl⟩ := h
      exact ⟨⟨rest, rfl⟩, rfl⟩

/-- `AssignIPToNode` writes only over a node without an annotation or with an unknown IP. -/
theorem assignAfterLock_update (h : assignAfterLock m node ips = .update ip nodeCopy) :
    (∃ rest, ips = ip :: rest) ∧ (∀ a, assigned node = some a → a ∉ m) ∧
      nodeCopy = ⟨node.version, node.value.assign ip⟩ := by
  unfold assignAfterLock at h
  split at h
  · rename_i a ha
    split at h
    · cases h
    · rename_i hmem
      obtain ⟨hips, hcopy⟩ := assignSelect_update h
      refine ⟨hips, fun b hb => ?_, hcopy⟩
      rw [ha] at hb
      exact Option.some.inj hb ▸ hmem
  · rename_i ha
    obtain ⟨hips, hcopy⟩ := assignSelect_update h
    refine ⟨hips, fun b hb => ?_, hcopy⟩
    rw [ha] at hb
    cases hb

/-- `RemoveIPFromNode` writes only over a node annotated with a known IP. -/
theorem removeAfterLock_update (h : removeAfterLock m node = .update ip nodeCopy) :
    assigned node = some ip ∧ ip ∈ m ∧ nodeCopy = ⟨node.version, node.value.unassign⟩ := by
  unfold removeAfterLock at h
  split at h
  · cases h
  · rename_i a ha
    split at h
    · rename_i hmem
      simp only [Next.update.injEq] at h
      obtain ⟨rfl, rfl⟩ := h
      exact ⟨ha, hmem, rfl⟩
    · cases h

theorem afterLock_version {op : Op} (h : op.afterLock m node ips = .update ip nodeCopy) :
    nodeCopy.version = node.version := by
  cases op with
  | assign => rw [(assignAfterLock_update h).2.2]
  | remove => rw [(removeAfterLock_update h).2.2]

theorem afterLock_written {op : Op} (h : op.afterLock m node ips = .update ip nodeCopy) :
    nodeCopy.value.assignedIP = op.written ip := by
  cases op with
  | assign => rw [(assignAfterLock_update h).2.2]; exact assignedIP_assign _ ip
  | remove => rw [(removeAfterLock_update h).2.2]; exact assignedIP_unassign _

theorem afterLock_mem {op : Op} (hs : op = .assign → SortedByCount m ips)
    (h : op.afterLock m node ips = .update ip nodeCopy) : ip ∈ m := by
  cases op with
  | assign =>
      obtain ⟨⟨rest, rfl⟩, -⟩ := assignAfterLock_update h
      exact (hs rfl).head_le.1
  | remove => exact (removeAfterLock_update h).2.1

/-- **The write and the counter agree.** Replacing `node` by the copy changes the number of nodes
annotated with a configured IP by exactly what the call adds to that IP's count. -/
theorem afterLock_hit {op : Op} (h : op.afterLock m node ips = .update ip nodeCopy)
    (v : Nat) {ip' : String} (hip' : ip' ∈ m) :
    (hit assigned (some (⟨v, nodeCopy.value⟩ : Node B)) ip' : Int)
      = hit assigned (some node) ip' + if ip' = ip then op.delta else 0 := by
  cases op with
  | assign =>
      obtain ⟨-, hunknown, rfl⟩ := assignAfterLock_update h
      have hold : hit assigned (some node) ip' = 0 :=
        if_neg (fun ha => hunknown ip' ha hip')
      rw [hold]
      by_cases hip : ip' = ip
      · simp [hit, assigned, hip, Op.delta]
      · simp [hit, assigned, hip, Ne.symm hip]
  | remove =>
      obtain ⟨hassigned, -, rfl⟩ := removeAfterLock_update h
      by_cases hip : ip' = ip
      · subst hip
        simp [hit, hassigned, Op.delta]
        simp [assigned]
      · have hne : assigned node ≠ some ip' := by
          rw [hassigned]; exact fun e => hip (Option.some.inj e).symm
        simp [hit, hne, hip]
        simp [assigned]

/-- Only `AssignIPToNode` returns an IP from under the mutex, and it is the annotation of the
copy it has read. -/
theorem afterLock_ret_assigned {op : Op} (h : op.afterLock m node ips = .ret (.assigned ip)) :
    op = .assign ∧ assigned node = some ip ∧ ip ∈ m := by
  cases op with
  | assign =>
      simp only [Op.afterLock, assignAfterLock] at h
      split at h
      · rename_i a ha
        split at h
        · rename_i hmem
          simp only [Next.ret.injEq, Ret.assigned.injEq] at h
          subst h
          exact ⟨rfl, ha, hmem⟩
        · cases ips <;> simp [assignSelect] at h
      · cases ips <;> simp [assignSelect] at h
  | remove =>
      simp only [Op.afterLock, removeAfterLock] at h
      split at h
      · cases h
      · split at h <;> cases h

/-- `RemoveIPFromNode` returns `nil` from under the mutex only for a node without a known IP. -/
theorem removeAfterLock_ret {r : Ret} (h : removeAfterLock m node = .ret r) :
    r = .removed ∧ ∀ a, assigned node = some a → a ∉ m := by
  unfold removeAfterLock at h
  split at h
  · rename_i ha
    exact ⟨(Next.ret.inj h).symm, fun a hb => by rw [ha] at hb; cases hb⟩
  · rename_i a ha
    split at h
    · cases h
    · rename_i hmem
      refine ⟨(Next.ret.inj h).symm, fun b hb => ?_⟩
      rw [ha] at hb
      exact Option.some.inj hb ▸ hmem

/-- An assignment panics only on an empty slice. -/
theorem afterLock_ret_panicked {op : Op}
    (h : op.afterLock m node ips = .ret .panicked) : op = .assign ∧ ips = [] := by
  have hselect : assignSelect node ips = .ret .panicked → ips = [] := by
    intro hs
    cases ips with
    | nil => rfl
    | cons ip ips => cases hs
  cases op with
  | assign =>
      simp only [Op.afterLock, assignAfterLock] at h
      split at h
      · split at h
        · cases h
        · exact ⟨rfl, hselect h⟩
      · exact ⟨rfl, hselect h⟩
  | remove => exact absurd (removeAfterLock_ret h).1 Ret.noConfusion

end

/-! ### After the update -/

/-- The error return after a failed update. -/
def Op.updateFailed : Op → String → String → String → Ret
  | .assign, ip, nodeName, err =>
      .failed ("failed to assign IP " ++ ip.quote ++ " to node " ++ nodeName.quote ++ ": " ++ err)
  | .remove, _, _, err => .failed err

/-- The return after the counter has been changed. -/
def Op.done : Op → String → Ret
  | .assign, ip => .assigned ip
  | .remove, _ => .removed

theorem updateFailed_ne_assigned (op : Op) (ip n err ip' : String) :
    op.updateFailed ip n err ≠ .assigned ip' := by
  cases op <;> exact Ret.noConfusion

theorem updateFailed_ne_removed (op : Op) (ip n err : String) :
    op.updateFailed ip n err ≠ .removed := by
  cases op <;> exact Ret.noConfusion

/-! ## Requests to the API server -/

/-- The fate of a request: it fails on the way without effect, the server handles it and the answer
arrives, or the server handles it and the caller sees an error all the same (a timeout, a cancelled
context). `err` is the text the caller sees when it sees an error. -/
inductive Reply where
  | unsent (err : String)
  | answered (err : String)
  | lost (err : String)
  deriving DecidableEq

def Reply.isLost : Reply → Bool
  | .lost _ => true
  | _ => false

/-- `clientset.CoreV1().Nodes().Update`: the replica after the request, and the error returned. -/
def nodesUpdate {B : Type} (api : Replica String (NodeData B)) (nodeName : String)
    (nodeCopy : Node B) : Reply → Replica String (NodeData B) × Option String
  | .unsent err => (api, some err)
  | .answered err =>
      match api.update nodeName nodeCopy with
      | some api' => (api', none)
      | none => (api, some err)
  | .lost err => ((api.update nodeName nodeCopy).getD api, some err)

/-! ## Undisturbed calls -/

/-- The controller and what it talks to: clientset and lister (`api`), and `ipMap`. -/
structure LBController (B : Type) where
  api : Replica String (NodeData B)
  ipMap : IPMap

/-- A call from its lister `Get` to its return, with nothing happening in between. -/
def Op.call {B : Type} (op : Op) (c : LBController B) (nodeName : String) (ips : List String)
    (reply : Reply) : Ret × LBController B :=
  match op.beforeLock (listerGet c.api.cache nodeName) with
  | .error r => (r, c)
  | .ok node =>
      match op.afterLock c.ipMap node ips with
      | .ret r => (r, c)
      | .update ip nodeCopy =>
          match nodesUpdate c.api nodeName nodeCopy reply with
          | (api, some err) => (op.updateFailed ip nodeName err, { c with api := api })
          | (api, none) => (op.done ip, ⟨api, IPMap.add c.ipMap ip op.delta⟩)

/-- `AssignIPToNode`; the volume is only logged. -/
def assignIPToNode {B : Type} (c : LBController B) (nodeName _volumeID : String)
    (ips : List String) (reply : Reply) : Ret × LBController B :=
  Op.assign.call c nodeName ips reply

/-- `RemoveIPFromNode`; the volume is only logged. -/
def removeIPFromNode {B : Type} (c : LBController B) (nodeName _volumeID : String)
    (reply : Reply) : Ret × LBController B :=
  Op.remove.call c nodeName [] reply

end NfsLbCsi
