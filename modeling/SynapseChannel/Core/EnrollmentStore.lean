import SynapseChannel.Core.OneLiveKey
import SynapseChannel.Lib.JsonIndent
import SynapseChannel.Lib.JsonSame

/-!
# Core — EnrollmentStore

The file of the enrolled keys as text: what `write_enrolled_keys` puts
there, and what `load_enrolled_keys` makes of it, with its size limit.
-/

namespace SynapseChannel.Identity

open Py Outcome

variable [Builtins]

/-! ## The file -/

def maxEnrollmentStoreBytes : Nat := 1024 * 1024

/-- The text `write_enrolled_keys` replaces the file with. -/
def enrollmentText (enrolled : Keys) : String := dumpsIndent 2 (storeDocument enrolled) ++ "\n"

/-- `load_enrolled_keys` on the text of an owner-only file; an absent file holds no keys. -/
def loadEnrolledFile : Option String → Except String Keys
  | none => .ok Dict.empty
  | some text =>
    if maxEnrollmentStoreBytes < text.utf8ByteSize then
      .error "identity enrolment store exceeds the 1048576-byte secret-file limit"
    else
      match loads text with
      | none => .error "identity enrolment store is not JSON"
      | some document => parseIdentityTrustDocument document

/-- A new store would load the same keys from the file they are written to. -/
def Reloads (enrolled : Keys) : Prop :=
  ∃ loaded, loadEnrolledFile (some (enrollmentText enrolled)) = .ok loaded ∧
    Dict.Same loaded enrolled

/-! ## What a document gives -/

section Documents

variable {key : EventSignatureKey} {keys loaded : Keys}

theorem stringSet_spec {value : Json} {keyId field : String} {texts : Finset String}
    (h : stringSet value keyId field = .ok texts) : ∀ text ∈ texts, strip text = text ∧ text ≠ "" := by
  intro text htext
  unfold stringSet at h
  split at h
  · cases h
    cases htext
  · cases h
    obtain ⟨hitem, hne⟩ := List.mem_filter.mp (List.mem_toFinset.mp htext)
    obtain ⟨item, -, rfl⟩ := List.mem_map.mp hitem
    exact ⟨strip_strip _, by simpa using hne⟩
  · cases h

theorem optionalExpiry_spec {value : Json} {keyId : String} {expiresAt : Option Float}
    (h : optionalExpiry value keyId = .ok expiresAt) : ∀ x, expiresAt = some x → x.isFinite := by
  rintro x rfl
  unfold optionalExpiry at h
  dsimp only at h
  split at h
  · cases h
  · split_ifs at h with hfinite
    · cases h
      exact hfinite
  · split_ifs at h with hfinite
    cases h
    exact hfinite
  · cases h

theorem parseKey_stored {entry : Json} {index : Nat} (h : parseKey entry index = .ok key) :
    key.Stored := by
  unfold parseKey at h
  split at h
  · dsimp only at h
    split_ifs at h with hid
    split at h
    · cases h
    · rename_i publicKey _
      split_ifs at h with hlength
      obtain ⟨senders, hsenders, h⟩ := bind_ok h
      split_ifs at h with hnamed
      split at h
      · obtain ⟨projects, hprojects, h⟩ := bind_ok h
        obtain ⟨expiresAt, hexpires, h⟩ := bind_ok h
        cases h
        exact ⟨strip_strip _, hid, not_not.mp hlength, hnamed, stringSet_spec hsenders,
          stringSet_spec hprojects, optionalExpiry_spec hexpires⟩
      · cases h
  · cases h

theorem parseEntries_storable {items : List (Json × Nat)} (hkeys : Storable keys)
    (h : items.foldlM parseEntry keys = .ok loaded) : Storable loaded := by
  induction items generalizing keys with
  | nil =>
    cases h
    exact hkeys
  | cons item rest ih =>
    rw [List.foldlM_cons] at h
    obtain ⟨next, hnext, h⟩ := bind_ok h
    refine ih ?_ h
    unfold parseEntry at hnext
    obtain ⟨key, hkey, hnext⟩ := bind_ok hnext
    split at hnext
    · cases hnext
    · cases hnext
      intro keyId other hother
      rw [Dict.get?_set] at hother
      split_ifs at hother with hid
      · cases hother
        exact ⟨hid, parseKey_stored hkey⟩
      · exact hkeys keyId other hother

omit [Builtins] in
theorem storable_empty : Storable Dict.empty := by
  intro keyId key hkey
  cases hkey

theorem loadEnrolledKeys_storable {file : Option Json} (h : loadEnrolledKeys file = .ok loaded) :
    Storable loaded := by
  unfold loadEnrolledKeys at h
  split at h
  · cases h
    exact storable_empty
  · unfold parseIdentityTrustDocument at h
    split at h
    · split at h
      · exact parseEntries_storable storable_empty h
      · cases h
    · cases h

end Documents

/-! ## The text gives the document back -/

section Texts

variable {enrolled : Keys}

theorem parseKey_congr {data data' : Members} (h : ∀ name, data.get? name = data'.get? name)
    (index : Nat) : parseKey (.obj data) index = parseKey (.obj data') index := by
  have hgetD : ∀ name default, Members.getD data name default = Members.getD data' name default := by
    intro name default
    unfold Members.getD
    rw [h]
  have hget : ∀ name, Members.get data name = Members.get data' name := fun name => hgetD name _
  simp only [parseKey, hgetD, hget]

section

omit [Builtins]

theorem nodup_entryMembers (key : EventSignatureKey) :
    ((entryMembers key).map Prod.fst).Nodup := by
  unfold entryMembers
  cases key.expiresAt <;> by_cases hprojects : key.projects = ∅ <;> simp [hprojects]

theorem keySorted_texts (texts : Finset String) :
    (sortedTexts texts).map keySorted = sortedTexts texts := by
  unfold sortedTexts
  rw [List.map_map]
  rfl

theorem keySorted_members (key : EventSignatureKey) :
    (entryMembers key).map (fun m => (m.1, keySorted m.2)) = entryMembers key := by
  have htexts : ∀ texts, keySorted (.arr (sortedTexts texts)) = .arr (sortedTexts texts) := by
    intro texts
    rw [keySorted_arr, keySorted_texts]
  have hatom : (∀ s, keySorted (.str s) = .str s) ∧ (∀ b, keySorted (.bool b) = .bool b) ∧
      ∀ x, keySorted (.float x) = .float x := by
    refine ⟨fun s => ?_, fun b => ?_, fun x => ?_⟩ <;> simp [keySorted]
  unfold entryMembers
  cases key.expiresAt <;> by_cases hprojects : key.projects = ∅ <;>
    simp [hprojects, htexts, hatom.1, hatom.2.1, hatom.2.2]

end

theorem parseKey_keySorted (key : EventSignatureKey) (index : Nat) :
    parseKey (keySorted (entryOf key)) index = parseKey (entryOf key) index := by
  unfold entryOf
  rw [keySorted_obj, map_sortedBy (fun a b : String => decide (a < b)) (fun m => (m.1, keySorted m.2))
    Prod.fst Prod.fst (entryMembers key) (fun _ _ => rfl), keySorted_members]
  refine parseKey_congr (fun name => ?_) index
  have hperm := sortedBy_perm (fun a b : String => decide (a < b)) Prod.fst (entryMembers key)
  exact Members.get?_of_perm ((hperm.map Prod.fst).nodup_iff.mpr (nodup_entryMembers key)) hperm name

theorem parseEntries_keySorted (entries : List EventSignatureKey) (keys : Keys) (index : Nat) :
    ((entries.map fun key => keySorted (entryOf key)).zipIdx index).foldlM parseEntry keys =
      ((entries.map entryOf).zipIdx index).foldlM parseEntry keys := by
  induction entries generalizing keys index with
  | nil => rfl
  | cons key rest ih =>
    have hentry : parseEntry keys (keySorted (entryOf key), index) =
        parseEntry keys (entryOf key, index) := by
      unfold parseEntry
      rw [parseKey_keySorted]
    simp only [List.map_cons, List.zipIdx_cons, List.foldlM_cons, hentry, ih]

theorem parse_keySorted (enrolled : Keys) :
    parseIdentityTrustDocument (keySorted (storeDocument enrolled)) =
      parseIdentityTrustDocument (storeDocument enrolled) := by
  have hsorted : keySorted (storeDocument enrolled) =
      .obj [("keys", .arr ((sortedKeys enrolled).map fun key => keySorted (entryOf key)))] := by
    unfold storeDocument
    rw [keySorted_obj, sortedBy_eq_self _ (List.pairwise_singleton _ _)]
    simp [keySorted_arr, Function.comp_def]
  rw [hsorted]
  exact parseEntries_keySorted (sortedKeys enrolled) Dict.empty 0

omit [Builtins] in
theorem readable_storeDocument (enrolled : Keys) : Py.Readable (storeDocument enrolled) := by
  have htexts : ∀ texts : Finset String, Py.Readable (.arr (sortedTexts texts)) := by
    refine fun texts => .arr fun v hv => ?_
    obtain ⟨s, -, rfl⟩ := List.mem_map.mp hv
    exact .str s
  have hentry : ∀ key, Py.Readable (entryOf key) := by
    refine fun key => .obj (nodup_entryMembers key) fun m hm => ?_
    unfold entryMembers at hm
    rcases List.mem_append.mp hm with hm | hm
    · rcases List.mem_append.mp hm with hm | hm
      · simp only [List.mem_cons, List.not_mem_nil, or_false] at hm
        rcases hm with rfl | rfl | rfl | rfl
        · exact .str _
        · exact .str _
        · exact htexts _
        · exact .bool _
      · split at hm
        · cases hm
        · rw [List.mem_singleton.mp hm]
          exact htexts _
    · obtain ⟨x, -, rfl⟩ := Option.map_eq_some_iff.mp (Option.mem_toList.mp hm)
      exact .float x
  refine .obj (List.nodup_singleton "keys") fun m hm => ?_
  rw [List.mem_singleton.mp hm]
  refine .arr fun v hv => ?_
  obtain ⟨key, -, rfl⟩ := List.mem_map.mp hv
  exact hentry key

/-- The store is reloaded exactly when its text is within the limit. -/
theorem reloads_iff (hfloats : FloatsRead) (h : Storable enrolled) :
    Reloads enrolled ↔ (enrollmentText enrolled).utf8ByteSize ≤ maxEnrollmentStoreBytes := by
  have hloads : loads (enrollmentText enrolled) = some (keySorted (storeDocument enrolled)) :=
    loads_dumpsIndent hfloats 2 (readable_storeDocument enrolled)
      (show Gap ['\n'] from fun c hc => by rw [List.mem_singleton.mp hc]; rfl)
  unfold Reloads loadEnrolledFile
  dsimp only
  split
  · rename_i hlarge
    refine iff_of_false ?_ (Nat.not_le.mpr hlarge)
    rintro ⟨loaded, hload, -⟩
    cases hload
  · rename_i hsmall
    refine iff_of_true ?_ (Nat.not_lt.mp hsmall)
    obtain ⟨loaded, hload, hsame⟩ := load_storeDocument h
    refine ⟨loaded, ?_, hsame⟩
    rw [hloads]
    dsimp only
    rw [parse_keySorted]
    exact hload

end Texts

/-! ## Every key set of a run is one that a file keeps -/

section Runs

variable {hub : Hub} {a : Arrival} {enrolled : Keys}

omit [Builtins] in
theorem Storable.revoke {keyId : String} {updated : Keys} (h : Storable enrolled)
    (hrevoke : revoking enrolled keyId = .ok updated) : Storable updated := by
  obtain ⟨key, hkey, rfl⟩ := revoking_ok hrevoke
  intro otherId other hother
  rw [Dict.get?_set] at hother
  split_ifs at hother with hid
  · cases hother
    obtain ⟨hown, hstored⟩ := h keyId key hkey
    exact ⟨hown.trans hid, stored_revoked hstored⟩
  · exact h otherId other hother

omit [Builtins] in
theorem Storable.enrol {keyId : String} {key : EventSignatureKey} (h : Storable enrolled)
    (hown : key.keyId = keyId) (hkey : key.Stored) : Storable (enrolled.set keyId key) := by
  intro otherId other hother
  rw [Dict.get?_set] at hother
  split_ifs at hother with hid
  · cases hother
    exact ⟨hown.trans hid, hkey⟩
  · exact h otherId other hother

/-- An approved change leaves the keys as they were, or takes the updated ones. -/
theorem apply_keys (hub : Hub) (a : Arrival) (authority : Authority) (provenance : Provenance)
    (updated : Keys) (evict : Bool) (detail : String) :
    (hub.apply a authority provenance updated evict detail).1.enrolledIdentityKeys =
        hub.enrolledIdentityKeys ∨
      (hub.apply a authority provenance updated evict detail).1.enrolledIdentityKeys = updated := by
  have hrow : ∀ {hub after : Hub} {writable : Bool} {row : AuditRow} {seq : Nat},
      hub.recordIdentityEnrollment writable row = some (after, seq) →
        after.enrolledIdentityKeys = hub.enrolledIdentityKeys :=
    fun h => (Hub.recordIdentityEnrollment_same h).2.enrolled
  unfold Hub.apply
  dsimp only
  split
  · exact .inl rfl
  next noted _ hfirst =>
    have hnoted := hrow hfirst
    split
    · exact .inl hnoted
    · split
      · exact .inl hnoted
      next hsecond => exact .inl ((hrow hsecond).trans hnoted)
    · split
      · exact .inl hnoted
      next replaced hreplace =>
        have htaken : replaced.enrolledIdentityKeys = updated := by
          unfold Hub.replaceEnrolledIdentityKeys at hreplace
          split at hreplace
          · cases hreplace
          · obtain ⟨bundle, -, hreplace⟩ := bind_ok hreplace
            cases hreplace
            rfl
        split
        · exact .inr htaken
        next hsecond => exact .inr ((hrow hsecond).trans htaken)

theorem enroll_storable (h : Storable hub.enrolledIdentityKeys) :
    Storable (hub.enroll a).1.enrolledIdentityKeys := by
  have hsame := Hub.authority_same hub a (enrollmentRequest a).name
  unfold Hub.enroll
  dsimp only
  generalize hub.authority a (enrollmentRequest a).name = observed at hsame ⊢
  obtain ⟨authority, seen⟩ := observed
  dsimp only at hsame ⊢
  have hseen : Storable seen.enrolledIdentityKeys := hsame.enrolled ▸ h
  split
  · exact hseen
  next denial hdenial =>
    split
    · rw [(Hub.refuse_spec seen a authority _ denial).1.enrolled]
      exact hseen
    next hnone =>
      obtain rfl := not_not.mp hnone
      split
      · exact hseen
      next kept hkept =>
        have hkeptStorable : Storable kept := by
          split at hkept
          · exact hseen.revoke hkept
          · cases hkept
            exact hseen
        unfold enrollmentDenial at hdenial
        split_ifs at hdenial with hauthority
        · exact absurd (Except.ok.inj hdenial) hauthority
        have hupdated : Storable (kept.set (enrollmentRequest a).keyId (enrollmentRequest a).key) :=
          hkeptStorable.enrol rfl (stored_key hdenial)
        rcases apply_keys seen a authority _ _ _ _ with hkeys | hkeys
        · rw [hkeys]
          exact hseen
        · rw [hkeys]
          exact hupdated

theorem revoke_storable (h : Storable hub.enrolledIdentityKeys) :
    Storable (hub.revoke a).1.enrolledIdentityKeys := by
  have hsame := Hub.authority_same hub a (strip (text a.data "name"))
  unfold Hub.revoke
  dsimp only
  generalize hub.authority a (strip (text a.data "name")) = observed at hsame ⊢
  obtain ⟨authority, seen⟩ := observed
  dsimp only at hsame ⊢
  have hseen : Storable seen.enrolledIdentityKeys := hsame.enrolled ▸ h
  split_ifs
  · rw [(Hub.refuse_spec seen a authority _ authority.denial).1.enrolled]
    exact hseen
  · rw [(Hub.refuse_spec seen a authority _ (revocationDenial _ _ _ _ _)).1.enrolled]
    exact hseen
  · split
    · exact hseen
    next updated hupdated =>
      rcases apply_keys seen a authority _ _ _ _ with hkeys | hkeys
      · rw [hkeys]
        exact hseen
      · rw [hkeys]
        exact hseen.revoke hupdated

theorem boot_storable {config : Config} {file : Option Json} (h : Hub.boot config file = .ok hub) :
    Storable hub.enrolledIdentityKeys := by
  unfold Hub.boot at h
  dsimp only at h
  split at h
  · cases h
  · split at h
    all_goals
      obtain ⟨enrolled, henrolled, h⟩ := bind_ok h
      have hstored : Storable enrolled := by
        first
          | exact loadEnrolledKeys_storable henrolled
          | (cases henrolled
             exact storable_empty)
      split at h
      all_goals
        obtain ⟨trust, -, h⟩ := bind_ok h
        cases h
        exact hstored

theorem step_storable (h : Storable hub.enrolledIdentityKeys) (op : Hub.Op) :
    Storable (Hub.step hub op).enrolledIdentityKeys := by
  cases op with
  | enroll a => exact enroll_storable h
  | revoke a => exact revoke_storable h
  | restart =>
    unfold Hub.step Hub.handle
    dsimp only
    split
    next started hboot =>
      show Storable started.enrolledIdentityKeys
      exact boot_storable hboot
    · exact h

/-- The keys of every state a governed run reaches are keys that a file keeps. -/
theorem run_storable {config : Config} {file : Option Json} (hboot : Hub.boot config file = .ok hub)
    (ops : List Hub.Op) : Storable (Trace.run Hub.step hub ops).enrolledIdentityKeys :=
  @Trace.invariant _ _ Hub.step (fun hub => Storable hub.enrolledIdentityKeys)
    (fun _ op h => step_storable h op) _ (boot_storable hboot) ops

end Runs

end SynapseChannel.Identity
