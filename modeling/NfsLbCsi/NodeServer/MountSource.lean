import NfsLbCsi.NodeServer.Context
import NfsLbCsi.NodeServer.Retries

set_option autoImplicit false

/-! # The source of a mount

`NodePublishVolume` joins the assigned IP, the share and the subdirectory to one string, which
`mount.nfs` takes apart again (`parseDevice`). The two agree exactly as long as the IP has no colon
and does not begin with a bracket (`source_parses_iff`): an IPv6 address is joined without brackets.
-/

namespace NfsLbCsi

open GoString Template

/-! ## The device grammar -/

/-- Host and path of an NFS device: the host goes up to the first colon, or from an opening bracket
to the closing one. -/
def parseDevice (device : String) : Option (String × String) :=
  match device.toList with
  | '[' :: cs =>
      match cs.dropWhile (· ≠ ']') with
      | ']' :: ':' :: path => some (String.ofList (cs.takeWhile (· ≠ ']')), String.ofList path)
      | _ => none
  | cs =>
      match cs.dropWhile (· ≠ ':') with
      | ':' :: path => some (String.ofList (cs.takeWhile (· ≠ ':')), String.ofList path)
      | _ => none

section

variable {host path : String}

theorem takeWhile_ne_append {c : Char} {l r : List Char} (h : c ∉ l) :
    (l ++ c :: r).takeWhile (· ≠ c) = l ∧ (l ++ c :: r).dropWhile (· ≠ c) = c :: r := by
  have hall : ∀ x ∈ l, decide (x ≠ c) = true := by
    intro x hx
    have hne : x ≠ c := fun heq => h (heq ▸ hx)
    simpa using hne
  rw [List.takeWhile_append_of_pos hall, List.dropWhile_append_of_pos hall]
  simp

theorem toList_device (host path : String) :
    (host ++ ":" ++ path).toList = host.toList ++ ':' :: path.toList := by
  simp

/-- A device begins with a bracket only when its host does. -/
theorem head?_of_bracket {cs : List Char} (h : host.toList ++ ':' :: path.toList = '[' :: cs) :
    host.toList.head? = some '[' := by
  cases hhost : host.toList with
  | nil => simp [hhost] at h
  | cons c l =>
      rw [hhost] at h
      rw [(List.cons.inj h).1]
      rfl

/-- Joining with a colon is undone by the grammar for hosts without colons and leading brackets
only. -/
theorem parseDevice_join_iff : parseDevice (host ++ ":" ++ path) = some (host, path) ↔
    ':' ∉ host.toList ∧ host.toList.head? ≠ some '[' := by
  unfold parseDevice
  rw [toList_device]
  split
  · -- the device begins with a bracket, so the host does
    rename_i cs hcs
    refine iff_of_false (fun h => ?_) (fun h => h.2 (head?_of_bracket hcs))
    split at h
    · -- two brackets more than there are
      rename_i path' hrest
      obtain ⟨hhost, hpath⟩ := Prod.mk.inj (Option.some.inj h)
      have hcs' : cs = host.toList ++ ']' :: ':' :: path.toList := by
        rw [← hhost, ← hpath, String.toList_ofList, String.toList_ofList, ← hrest,
          List.takeWhile_append_dropWhile]
      have hlength := congrArg List.length hcs
      simp only [hcs', List.length_append, List.length_cons] at hlength
      omega
    · cases h
  · -- without a bracket the host ends at the first colon
    rename_i hbracket
    constructor
    · intro h
      split at h
      · obtain ⟨hhost, -⟩ := Prod.mk.inj (Option.some.inj h)
        constructor
        · intro hcolon
          rw [← hhost, String.toList_ofList] at hcolon
          simpa using List.mem_takeWhile_imp hcolon
        · intro hhead
          obtain ⟨l, hl⟩ := List.head?_eq_some_iff.mp hhead
          exact hbracket (l ++ ':' :: path.toList) (by rw [hl]; rfl)
      · cases h
    · rintro ⟨hcolon, -⟩
      obtain ⟨htake, hdrop⟩ := takeWhile_ne_append (r := path.toList) hcolon
      simp only [htake, hdrop, String.ofList_toList]

/-! ## Joining -/

/-- Slashes are taken off the share only: they end at the colon at the latest. -/
theorem trimRight_device (host share : String) :
    trimRight '/' (host ++ ":" ++ share) = host ++ ":" ++ trimRight '/' share := by
  have hstop : (':' :: host.toList.reverse).dropWhile (· == '/') = ':' :: host.toList.reverse :=
    dropWhile_beq_of_head? (by simp)
  refine String.toList_inj.mp ?_
  rw [toList_device, trimRight, trimRight, String.toList_ofList, String.toList_ofList,
    toList_device, List.rdropWhile, List.rdropWhile, List.reverse_append, List.reverse_cons,
    List.append_assoc, List.singleton_append, List.dropWhile_append, hstop]
  split
  · rename_i hempty
    simp [List.isEmpty_iff.mp hempty]
  · simp

end

/-- The subdirectory that a publish mounts. -/
def PublishParams.resolvedSubDir (p : PublishParams) (ρ : MapOrder) : String :=
  replaceWithMap p.subDir (ρ.range p.subDirReplaceMap)

/-- The path on the server: the share, and below it the subdirectory when there is one. -/
def PublishParams.exportPath (p : PublishParams) (ρ : MapOrder) : String :=
  if p.subDir = "" then p.baseDir else trimRight '/' p.baseDir ++ "/" ++ p.resolvedSubDir ρ

theorem source_eq (p : PublishParams) (ρ : MapOrder) (ip : String) :
    p.source ρ ip = ip ++ ":" ++ p.exportPath ρ := by
  unfold PublishParams.source PublishParams.exportPath PublishParams.resolvedSubDir
  split
  · rfl
  · show trimRight '/' (ip ++ ":" ++ p.baseDir) ++ "/" ++ _ = _
    rw [trimRight_device]
    simp only [String.append_assoc]

/-- **The source of a mount** is taken apart to the assigned IP and the path on the server exactly
when the IP has no colon and does not begin with a bracket. The server entries of the volume context
play no part. -/
theorem source_parses_iff (d : Driver) (σ ρ : MapOrder) (volCap : VolumeCapability)
    (req : NodePublishVolumeRequest) (p : PublishParams) (m : MountSpec) (ip : String)
    (hp : publishParams d σ volCap req = .ok p)
    (hip : req.publishContext.get? nodeAnnotationKey = some ip)
    (hm : mountSpec d σ ρ volCap req = .ok m) :
    parseDevice m.source = some (ip, p.exportPath ρ) ↔
      ':' ∉ ip.toList ∧ ip.toList.head? ≠ some '[' := by
  obtain ⟨p', ip', hp', -, hip', rfl⟩ := mountSpec_eq_ok_iff.mp hm
  obtain rfl : p' = p := Except.ok.inj (hp'.symm.trans hp)
  obtain rfl : ip' = ip := Option.some.inj (hip'.symm.trans hip)
  show parseDevice (p'.source ρ ip') = _ ↔ _
  rw [source_eq]
  exact parseDevice_join_iff

/-- A request for the directory `a` of the share `/s/`, with another server in its volume
context. -/
def sourceRequest (ip : String) : NodePublishVolumeRequest where
  volumeId := "v"
  publishContext := (∅ : StringMap).set nodeAnnotationKey ip
  targetPath := "/t"
  volumeCapability := some ⟨some (.mount [])⟩
  readonly := false
  volumeContext := (((∅ : StringMap).set "server" "nfs").set "share" "/s/").set "subDir" "a"

theorem source_parses_ipv4 : ∃ p m,
    publishParams (nodeDriver 0) .asWritten ⟨some (.mount [])⟩ (sourceRequest "10.0.0.1") = .ok p ∧
    mountSpec (nodeDriver 0) .asWritten .asWritten ⟨some (.mount [])⟩ (sourceRequest "10.0.0.1") =
      .ok m ∧
    parseDevice m.source = some ("10.0.0.1", p.exportPath .asWritten) ∧
    p.exportPath .asWritten = "/s/a" :=
  ⟨_, _, rfl, rfl, (source_parses_iff (nodeDriver 0) .asWritten .asWritten ⟨some (.mount [])⟩
    (sourceRequest "10.0.0.1") _ _ "10.0.0.1" rfl rfl rfl).mpr ⟨by decide, by decide⟩, by decide⟩

/-- An IPv6 address is cut at its first colon. -/
theorem ipv6_source_is_cut : ∃ m,
    mountSpec (nodeDriver 0) .asWritten .asWritten ⟨some (.mount [])⟩ (sourceRequest "fd00::1") =
      .ok m ∧
    m.source = "fd00::1:/s/a" ∧ parseDevice m.source = some ("fd00", ":1:/s/a") :=
  ⟨_, rfl, by decide, by decide⟩

end NfsLbCsi
