import NfsLbCsi.NodeServer.Functions
import NfsLbCsi.Volumes.Orders

set_option autoImplicit false

/-! # What `NodePublishVolume` reads from a volume context

The loop over the volume context, field by field: the last value of `share` and `subDir` counts, the
values of `mountOptions` are all kept, in the order of the loop, and a `mountPermissions` value that
is no octal number ends it. Whether it ends with an error does not depend on the order
(`publishParams_isOk_iff`).
-/

namespace NfsLbCsi

open GoString Template

section

variable {d : Driver} {σ ρ : MapOrder} {volCap : VolumeCapability} {req : NodePublishVolumeRequest}
  {p q : PublishParams} {e : String × String} {es : List (String × String)}

/-! ## One entry -/

/-- An entry that is accepted, field by field. -/
theorem PublishParams.read_fields (h : p.read e = .ok q) :
    q.baseDir = (if paramKey e.1 = some .share then e.2 else p.baseDir) ∧
    q.subDir = (if paramKey e.1 = some .subDir then e.2 else p.subDir) ∧
    q.mountOptions =
      p.mountOptions ++ (if paramKey e.1 = some .mountOptions then [e.2] else []).filter (· ≠ "") ∧
    q.subDirReplaceMap = readReplacement p.subDirReplaceMap e := by
  unfold PublishParams.read at h
  unfold readReplacement
  cases hkey : paramKey e.1 with
  | none =>
      rw [hkey] at h
      cases h
      simp
  | some key =>
      rw [hkey] at h
      cases key with
      | mountOptions =>
          cases h
          by_cases hempty : e.2 = "" <;> simp [hempty]
      | mountPermissions =>
          -- the value is dropped, read or refused
          simp only at h
          split at h
          · cases h
            simp
          · split at h
            · cases h
              simp
            · cases h
      | _ =>
          cases h
          simp

/-- The permissions have to be an octal number. -/
def AcceptableEntry (e : String × String) : Prop :=
  paramKey e.1 = some .mountPermissions → e.2 ≠ "" → parseUint 8 32 e.2 ≠ none

theorem PublishParams.read_isOk_iff (p : PublishParams) (e : String × String) :
    (∃ q, p.read e = .ok q) ↔ AcceptableEntry e := by
  unfold PublishParams.read AcceptableEntry
  cases paramKey e.1 with
  | none => simp
  | some key =>
      cases key with
      | mountPermissions =>
          by_cases hempty : e.2 = ""
          · simp [hempty]
          · cases parseUint 8 32 e.2 <;> simp [hempty]
      | _ => simp

/-! ## The loop -/

theorem foldlM_read_isOk_iff (p : PublishParams) (es : List (String × String)) :
    (∃ q, es.foldlM PublishParams.read p = .ok q) ↔ ∀ e ∈ es, AcceptableEntry e := by
  induction es generalizing p with
  | nil => exact ⟨fun _ e he => absurd he List.not_mem_nil, fun _ => ⟨p, rfl⟩⟩
  | cons e es ih =>
      rw [List.forall_mem_cons, ← PublishParams.read_isOk_iff p e, List.foldlM_cons]
      cases hread : p.read e with
      | error err => exact iff_of_false (fun ⟨q, hq⟩ => nomatch hq) (fun ⟨⟨q, hq⟩, _⟩ => nomatch hq)
      | ok r =>
          have hok : ∃ q, (Except.ok r : Except RpcError PublishParams) = .ok q := ⟨r, rfl⟩
          rw [and_iff_right hok]
          exact ih r

/-- What the loop starts from. -/
def initialParams (d : Driver) (volCap : VolumeCapability) (req : NodePublishVolumeRequest) :
    PublishParams :=
  { mountOptions := volCap.mountFlags ++ if req.readonly then ["ro"] else []
    mountPermissions := d.mountPermissions }

/-- The order of the loop does not decide whether it succeeds. -/
theorem publishParams_isOk_iff : (∃ p, publishParams d σ volCap req = .ok p) ↔
    ∀ e ∈ req.volumeContext.entries, AcceptableEntry e := by
  refine (foldlM_read_isOk_iff (initialParams d volCap req) (σ.range req.volumeContext)).trans ?_
  simp only [MapOrder.mem_range]

theorem publishParams_baseDir (h : publishParams d σ volCap req = .ok p) :
    p.baseDir = (valuesOf paramKey .share (σ.range req.volumeContext)).getLast?.elim "" id :=
  foldlM_last PublishParams.baseDir (fun _ _ _ hread => (PublishParams.read_fields hread).1) h

theorem publishParams_subDir (h : publishParams d σ volCap req = .ok p) :
    p.subDir = (valuesOf paramKey .subDir (σ.range req.volumeContext)).getLast?.elim "" id :=
  foldlM_last PublishParams.subDir (fun _ _ _ hread => (PublishParams.read_fields hread).2.1) h

/-- The options of a volume context, in the order of the loop. -/
def contextOptions (es : List (String × String)) : List String :=
  (valuesOf paramKey .mountOptions es).filter (· ≠ "")

theorem contextOptions_append (es fs : List (String × String)) :
    contextOptions (es ++ fs) = contextOptions es ++ contextOptions fs := by
  rw [contextOptions, valuesOf_append, List.filter_append]
  rfl

theorem contextOptions_singleton (e : String × String) : contextOptions [e] =
    (if paramKey e.1 = some .mountOptions then [e.2] else []).filter (· ≠ "") := by
  rw [contextOptions, valuesOf_cons]
  rfl

theorem publishParams_mountOptions (h : publishParams d σ volCap req = .ok p) :
    p.mountOptions = volCap.mountFlags ++ (if req.readonly then ["ro"] else []) ++
      contextOptions (σ.range req.volumeContext) := by
  have hfold : ∀ (es : List (String × String)) (l : List String),
      es.foldl (fun l e => l ++ contextOptions [e]) l = l ++ contextOptions es := by
    intro es
    induction es with
    | nil => exact fun l => (List.append_nil l).symm
    | cons e es ih =>
        intro l
        rw [List.foldl_cons, ih, List.append_assoc, ← contextOptions_append]
        rfl
  rw [foldlM_field PublishParams.mountOptions (g := fun l e => l ++ contextOptions [e]) ?_ h]
  · exact hfold _ _
  · intro p e q hread
    rw [(PublishParams.read_fields hread).2.2.1, contextOptions_singleton]

theorem publishParams_replacements (h : publishParams d σ volCap req = .ok p) :
    ReplacementsOf p.subDirReplaceMap (σ.range req.volumeContext) := by
  have hmap : p.subDirReplaceMap = (σ.range req.volumeContext).foldl readReplacement ∅ :=
    foldlM_field PublishParams.subDirReplaceMap
      (fun _ _ _ hread => (PublishParams.read_fields hread).2.2.2) h
  exact hmap ▸ replacementsOf_foldl _

/-! ## Up to the mount -/

theorem mountSpec_eq_ok_iff {m : MountSpec} : mountSpec d σ ρ volCap req = .ok m ↔
    ∃ p ip, publishParams d σ volCap req = .ok p ∧ p.baseDir ≠ "" ∧
      req.publishContext.get? nodeAnnotationKey = some ip ∧
      m = ⟨p.source ρ ip, p.mountOptions, p.mountPermissions⟩ := by
  unfold mountSpec
  cases publishParams d σ volCap req with
  | error err => simp
  | ok p =>
      by_cases hbase : p.baseDir = ""
      · simp [hbase]
      · cases req.publishContext.get? nodeAnnotationKey with
        | none => simp [hbase]
        | some ip =>
            simp only [if_neg hbase]
            constructor
            · rintro ⟨⟩
              exact ⟨p, ip, rfl, hbase, rfl, rfl⟩
            · rintro ⟨_, _, ⟨⟩, -, ⟨⟩, rfl⟩
              rfl

end

end NfsLbCsi
