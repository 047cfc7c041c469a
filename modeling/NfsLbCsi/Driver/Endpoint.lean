import NfsLbCsi.Driver.Effects
import NfsLbCsi.Driver.Setup

set_option autoImplicit false

/-! # The endpoint

`ParseEndpoint` of `pkg/nfs/utils.go` and what `serve` of `pkg/nfs/server.go` makes of its result
before the gRPC server starts. `ParseEndpoint` compares the scheme in lower case and hands it on as
it is written; `serve` compares it with `"unix"` and gives it to `net.Listen`, which knows its
networks in lower case only. So a plugin listens on `unix://` and `tcp://` endpoints that are
written in lower case, and ends with a fatal error on all others (`listens_iff`), those that
`ParseEndpoint` accepts included.
-/

namespace NfsLbCsi

open GoString

/-! ## `ParseEndpoint` -/

/-- The text before the first `sep` and the text after it. -/
def cut (sep : List Char) : List Char → Option (List Char × List Char)
  | [] => if sep = [] then some ([], []) else none
  | c :: cs =>
      if sep <+: c :: cs then some ([], (c :: cs).drop sep.length)
      else (cut sep cs).map (fun r => (c :: r.1, r.2))

/-- `strings.SplitN(s, sep, 2)`. -/
def splitN2 (s sep : String) : List String :=
  match cut sep.toList s.toList with
  | some (a, b) => [String.ofList a, String.ofList b]
  | none => [s]

/-- `strings.HasPrefix`. -/
def hasPrefix (s t : String) : Bool := decide (t.toList <+: s.toList)

def parseEndpoint (ep : String) : Outcome String (String × String) :=
  let invalid := .throw ("Invalid endpoint: " ++ ep)
  if hasPrefix (toLower ep) "unix://" || hasPrefix (toLower ep) "tcp://" then
    match splitN2 ep "://" with
    | [proto, addr] => if addr ≠ "" then .ret (proto, addr) else invalid
    -- `s[1]` of a slice that is too short
    | _ => .panic
  else invalid

/-- The schemes, in lower case. -/
def schemes : List String := ["unix", "tcp"]

section

variable {ep proto addr : String}

theorem eq_of_lowerChar_eq {c d : Char} (hc : c.val.toNat < 65) (h : lowerChar d = c) : d = c := by
  unfold lowerChar at h
  split at h
  · subst h
    exact absurd hc (by decide)
  · split at h
    · subst h
      exact absurd hc (by decide)
    · exact eq_of_toLower_eq hc h

/-- The separator is the same in lower case. -/
theorem eq_separator {l : List Char} (h : l.map lowerChar = "://".toList) : l = "://".toList := by
  have hsep : "://".toList = [':', '/', '/'] := rfl
  rw [hsep] at h ⊢
  obtain ⟨a, l₁, rfl, ha, h⟩ := List.map_eq_cons_iff.mp h
  obtain ⟨b, l₂, rfl, hb, h⟩ := List.map_eq_cons_iff.mp h
  obtain ⟨c, l₃, rfl, hc, h⟩ := List.map_eq_cons_iff.mp h
  obtain rfl := List.map_eq_nil_iff.mp h
  rw [eq_of_lowerChar_eq (by decide) ha, eq_of_lowerChar_eq (by decide) hb,
    eq_of_lowerChar_eq (by decide) hc]

/-- What the test of `ParseEndpoint` says about the endpoint as it is written. -/
theorem hasPrefix_toLower_iff (ep scheme : String) :
    hasPrefix (toLower ep) (scheme ++ "://") = true ↔
      ∃ proto addr, ep = proto ++ "://" ++ addr ∧ toLower proto = scheme := by
  rw [hasPrefix, decide_eq_true_eq, toLower, String.toList_ofList, String.toList_append]
  constructor
  · rintro ⟨t, ht⟩
    obtain ⟨l, addr, hep, hl, -⟩ := List.map_eq_append_iff.mp ht.symm
    obtain ⟨proto, sep, rfl, hproto, hsep⟩ := List.map_eq_append_iff.mp hl
    refine ⟨String.ofList proto, String.ofList addr, ?_, ?_⟩
    · rw [String.ext_iff, hep, eq_separator hsep]
      simp
    · rw [toLower, String.toList_ofList, hproto, String.ofList_toList]
  · rintro ⟨proto, addr, rfl, rfl⟩
    refine ⟨addr.toList.map lowerChar, ?_⟩
    have hsep : "://".toList.map lowerChar = "://".toList := by decide
    rw [toLower, String.toList_ofList, String.toList_append, String.toList_append, List.map_append,
      List.map_append, hsep]

/-- A scheme has no colon in it. -/
theorem colon_not_mem (h : toLower proto ∈ schemes) : ':' ∉ proto.toList := by
  intro hmem
  have hlower : ':' ∈ (toLower proto).toList := by
    rw [toLower, String.toList_ofList]
    exact List.mem_map.mpr ⟨':', hmem, by decide⟩
  simp only [schemes, List.mem_cons, List.not_mem_nil, or_false] at h
  rcases h with h | h
  · rw [h] at hlower
    exact absurd hlower (by decide)
  · rw [h] at hlower
    exact absurd hlower (by decide)

/-- The first separator is the one behind a text without colons. -/
theorem cut_append {a b : List Char} (ha : ':' ∉ a) :
    cut "://".toList (a ++ ("://".toList ++ b)) = some (a, b) := by
  have hsep : "://".toList = [':', '/', '/'] := rfl
  rw [hsep]
  induction a with
  | nil => simp [cut]
  | cons c a ih =>
      rw [List.mem_cons, not_or] at ha
      have hnot : ¬[':', '/', '/'] <+: c :: (a ++ ([':', '/', '/'] ++ b)) := by
        rintro ⟨t, ht⟩
        exact ha.1 (List.cons.inj ht).1
      rw [List.cons_append, cut, if_neg hnot, ih ha.2]
      rfl

theorem splitN2_append (h : ':' ∉ proto.toList) :
    splitN2 (proto ++ "://" ++ addr) "://" = [proto, addr] := by
  have hlist : (proto ++ "://" ++ addr).toList = proto.toList ++ ("://".toList ++ addr.toList) := by
    simp
  rw [splitN2, hlist, cut_append h]
  simp

theorem scheme_test_iff (ep : String) :
    (hasPrefix (toLower ep) "unix://" || hasPrefix (toLower ep) "tcp://") = true ↔
      ∃ proto addr, ep = proto ++ "://" ++ addr ∧ toLower proto ∈ schemes := by
  have hunix := hasPrefix_toLower_iff ep "unix"
  have htcp := hasPrefix_toLower_iff ep "tcp"
  rw [Bool.or_eq_true]
  constructor
  · rintro (h | h)
    · obtain ⟨proto, addr, hep, hproto⟩ := hunix.mp h
      exact ⟨proto, addr, hep, by simp [schemes, hproto]⟩
    · obtain ⟨proto, addr, hep, hproto⟩ := htcp.mp h
      exact ⟨proto, addr, hep, by simp [schemes, hproto]⟩
  · rintro ⟨proto, addr, hep, hproto⟩
    simp only [schemes, List.mem_cons, List.not_mem_nil, or_false] at hproto
    exact hproto.imp (fun h => hunix.mpr ⟨proto, addr, hep, h⟩)
      (fun h => htcp.mpr ⟨proto, addr, hep, h⟩)

/-- An endpoint with a scheme is taken apart at the separator behind it, and the index is in
range. -/
theorem parseEndpoint_scheme (h : toLower proto ∈ schemes) :
    parseEndpoint (proto ++ "://" ++ addr) =
      if addr ≠ "" then .ret (proto, addr)
      else .throw ("Invalid endpoint: " ++ (proto ++ "://" ++ addr)) := by
  have htest := (scheme_test_iff (proto ++ "://" ++ addr)).mpr ⟨proto, addr, rfl, h⟩
  simp only [parseEndpoint, htest, if_true, splitN2_append (colon_not_mem h)]

/-- **What `ParseEndpoint` accepts**: a scheme in whatever case, a separator and a text that is not
empty; it returns the two as they are written. -/
theorem parseEndpoint_eq_ret_iff : parseEndpoint ep = .ret (proto, addr) ↔
    ep = proto ++ "://" ++ addr ∧ toLower proto ∈ schemes ∧ addr ≠ "" := by
  constructor
  · intro h
    by_cases hscheme : ∃ proto addr, ep = proto ++ "://" ++ addr ∧ toLower proto ∈ schemes
    · obtain ⟨proto', addr', rfl, hproto⟩ := hscheme
      rw [parseEndpoint_scheme hproto] at h
      split at h
      · rename_i haddr
        obtain ⟨rfl, rfl⟩ := Prod.mk.inj (Outcome.ret.inj h)
        exact ⟨rfl, hproto, haddr⟩
      · cases h
    · rw [← scheme_test_iff, Bool.not_eq_true] at hscheme
      simp only [parseEndpoint, hscheme] at h
      cases h
  · rintro ⟨rfl, hproto, haddr⟩
    rw [parseEndpoint_scheme hproto, if_pos haddr]

theorem parseEndpoint_ne_panic (ep : String) : parseEndpoint ep ≠ .panic := by
  by_cases hscheme : ∃ proto addr, ep = proto ++ "://" ++ addr ∧ toLower proto ∈ schemes
  · obtain ⟨proto, addr, rfl, hproto⟩ := hscheme
    rw [parseEndpoint_scheme hproto]
    split
    · exact Outcome.ret_ne_panic
    · exact Outcome.throw_ne_panic
  · rw [← scheme_test_iff, Bool.not_eq_true] at hscheme
    simp only [parseEndpoint, hscheme]
    exact Outcome.throw_ne_panic

end

/-! ## Listening -/

/-- What the host answers: `os.Remove` of a path and `net.Listen` with a network and an address,
each with its error if it fails. -/
structure Listening where
  remove : String → Option OSError
  listen : String → String → Option String

/-- `net.Listen`, or a fatal error. -/
def listenOn (host : Listening) (proto addr : String) : Outcome String (String × String) :=
  match host.listen proto addr with
  | none => .ret (proto, addr)
  | some err => .throw ("Failed to listen: " ++ err)

/-- `serve` up to its listener: the network and the address it listens on, or the message of
`klog.Fatal`. -/
def serveEndpoint (host : Listening) (endpoint : String) : Outcome String (String × String) :=
  match parseEndpoint endpoint with
  | .throw err => .throw err
  | .panic => .panic
  | .ret (proto, addr) =>
      if proto = "unix" then
        match host.remove ("/" ++ addr) with
        | some err =>
            if err.notExist then listenOn host proto ("/" ++ addr)
            else .throw ("Failed to remove " ++ "/" ++ addr ++ ", error: " ++ err.text)
        | none => listenOn host proto ("/" ++ addr)
      else listenOn host proto addr

/-- The socket file of an earlier process is gone. -/
def Listening.Cleared (host : Listening) (path : String) : Prop :=
  ∀ err, host.remove path = some err → err.notExist = true

section

variable {host : Listening} {ep path proto addr : String}

theorem listenOn_eq_ret_iff {proto' addr' : String} :
    listenOn host proto' addr' = .ret (proto, addr) ↔
    host.listen proto' addr' = none ∧ proto = proto' ∧ addr = addr' := by
  unfold listenOn
  cases host.listen proto' addr' with
  | none => simp [eq_comm]
  | some err => simp

/-- A unix socket: the file is removed first. -/
theorem serveEndpoint_unix (h : parseEndpoint ep = .ret ("unix", path)) :
    serveEndpoint host ep = .ret (proto, addr) ↔
      host.Cleared ("/" ++ path) ∧ host.listen "unix" ("/" ++ path) = none ∧ proto = "unix" ∧
        addr = "/" ++ path := by
  unfold serveEndpoint Listening.Cleared
  rw [h]
  simp only [if_true]
  cases host.remove ("/" ++ path) with
  | none => simp [listenOn_eq_ret_iff]
  | some err =>
      by_cases hgone : err.notExist = true
      · simp [hgone, listenOn_eq_ret_iff]
      · simp [hgone]

theorem serveEndpoint_other {proto' addr' : String} (h : parseEndpoint ep = .ret (proto', addr'))
    (hne : proto' ≠ "unix") :
    serveEndpoint host ep = .ret (proto, addr) ↔
      host.listen proto' addr' = none ∧ proto = proto' ∧ addr = addr' := by
  unfold serveEndpoint
  rw [h]
  simp only [if_neg hne]
  exact listenOn_eq_ret_iff

theorem serveEndpoint_ne_panic (host : Listening) (ep : String) :
    serveEndpoint host ep ≠ .panic := by
  have hlisten : ∀ proto addr, listenOn host proto addr ≠ .panic := by
    intro proto addr
    unfold listenOn
    split
    · exact Outcome.ret_ne_panic
    · exact Outcome.throw_ne_panic
  unfold serveEndpoint
  split
  · exact Outcome.throw_ne_panic
  · rename_i hpanic
    exact absurd hpanic (parseEndpoint_ne_panic ep)
  · split
    · split
      · split
        · exact hlisten _ _
        · exact Outcome.throw_ne_panic
      · exact hlisten _ _
    · exact hlisten _ _

end

/-- The networks that `net.Listen` knows. -/
def networks : List String := ["tcp", "tcp4", "tcp6", "unix", "unixpacket"]

/-- A network whose name in lower case is a scheme is that scheme. -/
theorem eq_of_mem_networks {proto : String} (hnet : proto ∈ networks)
    (h : toLower proto ∈ schemes) : proto = "unix" ∨ proto = "tcp" := by
  simp only [networks, List.mem_cons, List.not_mem_nil, or_false] at hnet
  rcases hnet with rfl | rfl | rfl | rfl | rfl
  · exact Or.inr rfl
  · exact absurd h (by decide)
  · exact absurd h (by decide)
  · exact Or.inl rfl
  · exact absurd h (by decide)

/-- **Which endpoints a plugin listens on.** On a host whose `net.Listen` knows Go's networks and no
others, the plugin listens exactly on `unix://` with a path, at that path from the root once a file
that was there is removed, and on `tcp://` with an address, when `net.Listen` succeeds; the scheme
must be in lower case. Every other endpoint ends the process with a fatal error, and none makes it
panic. -/
theorem listens_iff {host : Listening}
    (hnet : ∀ proto addr, host.listen proto addr = none → proto ∈ networks) (ep : String) :
    (∀ proto addr, serveEndpoint host ep = .ret (proto, addr) ↔
      (∃ path, ep = "unix://" ++ path ∧ path ≠ "" ∧ proto = "unix" ∧ addr = "/" ++ path ∧
        host.Cleared addr ∧ host.listen "unix" addr = none) ∨
      (ep = "tcp://" ++ addr ∧ addr ≠ "" ∧ proto = "tcp" ∧ host.listen "tcp" addr = none)) ∧
    ((∀ proto addr, serveEndpoint host ep ≠ .ret (proto, addr)) →
      ∃ message, serveEndpoint host ep = .throw message) := by
  have hparse : ∀ scheme addr : String, toLower scheme ∈ schemes → addr ≠ "" →
      parseEndpoint (scheme ++ "://" ++ addr) = .ret (scheme, addr) :=
    fun _ _ hscheme haddr => parseEndpoint_eq_ret_iff.mpr ⟨rfl, hscheme, haddr⟩
  refine ⟨fun proto addr => ⟨fun h => ?_, ?_⟩, fun h => ?_⟩
  · cases hep : parseEndpoint ep with
    | throw err => simp [serveEndpoint, hep] at h
    | panic => simp [serveEndpoint, hep] at h
    | ret r =>
        obtain ⟨proto', addr'⟩ := r
        obtain ⟨hform, hscheme, hne⟩ := parseEndpoint_eq_ret_iff.mp hep
        by_cases hunix : proto' = "unix"
        · subst hunix
          obtain ⟨hcleared, hlisten, rfl, rfl⟩ := (serveEndpoint_unix hep).mp h
          exact Or.inl ⟨addr', hform, hne, rfl, rfl, hcleared, hlisten⟩
        · obtain ⟨hlisten, rfl, rfl⟩ := (serveEndpoint_other hep hunix).mp h
          obtain rfl := (eq_of_mem_networks (hnet _ _ hlisten) hscheme).resolve_left hunix
          exact Or.inr ⟨hform, hne, rfl, hlisten⟩
  · rintro (⟨path, rfl, hne, rfl, rfl, hcleared, hlisten⟩ | ⟨rfl, hne, rfl, hlisten⟩)
    · have hep := hparse "unix" path (by decide) hne
      exact (serveEndpoint_unix hep).mpr ⟨hcleared, hlisten, rfl, rfl⟩
    · have hep := hparse "tcp" addr (by decide) hne
      exact (serveEndpoint_other hep (by decide)).mpr ⟨hlisten, rfl, rfl⟩
  · cases hserve : serveEndpoint host ep with
    | ret r => exact absurd hserve (h r.1 r.2)
    | throw message => exact ⟨message, rfl⟩
    | panic => exact absurd hserve (serveEndpoint_ne_panic host ep)

/-- A host that listens on every network that Go knows, and has no file to remove. -/
def goHost : Listening where
  remove := fun _ => some { text := "no such file or directory", notExist := true }
  listen := fun proto _ =>
    if proto ∈ networks then none else some ("listen " ++ proto ++ ": unknown network")

/-- `ParseEndpoint` accepts `UNIX://tmp/csi.sock`, and the plugin does not listen on it. -/
theorem listens_iff_upperCase :
    parseEndpoint "UNIX://tmp/csi.sock" = .ret ("UNIX", "tmp/csi.sock") ∧
      serveEndpoint goHost "unix://tmp/csi.sock" = .ret ("unix", "/tmp/csi.sock") ∧
      ∃ message, serveEndpoint goHost "UNIX://tmp/csi.sock" = .throw message := by
  have hnet : ∀ proto addr, goHost.listen proto addr = none → proto ∈ networks := by
    intro proto addr h
    by_contra hnot
    simp [goHost, hnot] at h
  have hcleared : goHost.Cleared "/tmp/csi.sock" := by
    intro err herr
    obtain rfl := Option.some.inj herr
    rfl
  refine ⟨by decide, ((listens_iff hnet _).1 _ _).mpr (Or.inl ⟨"tmp/csi.sock", ?_⟩), ?_⟩
  · exact ⟨by decide, by decide, rfl, by decide, hcleared, by decide⟩
  · refine (listens_iff hnet _).2 (fun proto addr h => ?_)
    rcases ((listens_iff hnet _).1 proto addr).mp h with ⟨path, hep, -⟩ | ⟨hep, -⟩
    · have hhead := congrArg (fun s : String => s.toList.head?) hep
      simp at hhead
    · have hhead := congrArg (fun s : String => s.toList.head?) hep
      simp at hhead

end NfsLbCsi
