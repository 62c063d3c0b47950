import SynapseChannel.Core.IdentityEnrollments

/-!
# Core — OneLiveKey

What enrolment keeps over every run: at most one live key a name, none for
a name the operator's bundle covers, revocation for good, and the same keys
in memory as in the file.
-/

namespace SynapseChannel.Identity

open Py Outcome

/-! ## Keys -/

/-- No name has two live keys at `t`. -/
def OneLive (enrolled : Keys) (t : Float) : Prop :=
  ∀ name idA a idB b, enrolled.get? idA = some a → enrolled.get? idB = some b →
    name ∈ a.senders → name ∈ b.senders → a.live t = true → b.live t = true → idA = idB

/-- Enrolled keys the file keeps, apart from the operator's bundle. -/
structure Sound (static enrolled : Keys) : Prop where
  storable : Storable enrolled
  apart : ∀ keyId key, enrolled.get? keyId = some key → static.get? keyId = none
  uncovered : ∀ keyId key, enrolled.get? keyId = some key →
    ∀ name ∈ key.senders, name ∉ staticSenders static

theorem Sound.mergeable {static enrolled : Keys} (h : Sound static enrolled) :
    Mergeable static enrolled :=
  ⟨h.apart, fun keyId key hkey _ => h.uncovered keyId key hkey⟩

theorem Sound.of_same {static enrolled loaded : Keys} (h : Sound static enrolled)
    (hsame : Dict.Same loaded enrolled) : Sound static loaded := by
  constructor
  · intro keyId key hkey
    exact h.storable keyId key (hsame keyId ▸ hkey)
  · intro keyId key hkey
    exact h.apart keyId key (hsame keyId ▸ hkey)
  · intro keyId key hkey
    exact h.uncovered keyId key (hsame keyId ▸ hkey)

theorem Sound.empty (static : Keys) : Sound static Dict.empty := by
  constructor
  · intro keyId key hkey
    cases hkey
  · intro keyId key hkey
    cases hkey
  · intro keyId key hkey
    cases hkey

theorem OneLive.of_same {enrolled loaded : Keys} {t : Float} (h : OneLive enrolled t)
    (hsame : Dict.Same loaded enrolled) : OneLive loaded t := by
  intro name idA a idB b ha hb
  exact h name idA a idB b (hsame idA ▸ ha) (hsame idB ▸ hb)

theorem live_iff {key : EventSignatureKey} {t : Float} :
    key.live t = true ↔ key.revoked = false ∧ ∀ x, key.expiresAt = some x → t < x := by
  unfold EventSignatureKey.live
  cases key.expiresAt <;> simp

theorem live_of_le {key : EventSignatureKey} {t u : Float} (hle : t ≤ u)
    (h : key.live u = true) : key.live t = true := by
  obtain ⟨hrevoked, hexp⟩ := live_iff.mp h
  exact live_iff.mpr ⟨hrevoked, fun x hx => Ieee.lt_of_le_of_lt hle (hexp x hx)⟩

theorem OneLive.later {enrolled : Keys} {t u : Float} (hle : t ≤ u) (h : OneLive enrolled t) :
    OneLive enrolled u := by
  intro name idA a idB b ha hb hna hnb hla hlb
  exact h name idA a idB b ha hb hna hnb (live_of_le hle hla) (live_of_le hle hlb)

theorem liveEnrolledKey_some {enrolled : Keys} {name : String} {now : Float}
    {key : EventSignatureKey} (h : liveEnrolledKey enrolled name now = some key) :
    (∃ keyId, enrolled.get? keyId = some key) ∧ name ∈ key.senders ∧ key.live now = true := by
  have hmem := List.mem_of_find?_eq_some h
  have hkey := List.find?_some h
  simp only [Bool.and_eq_true, decide_eq_true_eq] at hkey
  exact ⟨(Dict.mem_values_iff _ _).mp hmem, hkey⟩

theorem liveEnrolledKey_none {enrolled : Keys} {name : String} {now : Float}
    (h : liveEnrolledKey enrolled name now = none) {keyId : String} {key : EventSignatureKey}
    (hkey : enrolled.get? keyId = some key) (hname : name ∈ key.senders) :
    key.live now = false := by
  have hnone := List.find?_eq_none.mp h key ((Dict.mem_values_iff _ _).mpr ⟨keyId, hkey⟩)
  simpa [hname] using hnone

/-! ## Revoking a key -/

section Revoke

variable {static enrolled : Keys} {keyId : String} {key : EventSignatureKey}

theorem revoking_ok {kept : Keys} (h : revoking enrolled keyId = .ok kept) :
    ∃ key, enrolled.get? keyId = some key ∧ kept = enrolled.set keyId { key with revoked := true } := by
  unfold revoking at h
  cases hkey : enrolled.get? keyId with
  | none =>
    rw [hkey] at h
    cases h
  | some key =>
    rw [hkey] at h
    cases h
    exact ⟨key, rfl, rfl⟩

theorem stored_revoked (h : key.Stored) : ({ key with revoked := true } : EventSignatureKey).Stored :=
  ⟨h.keyId, h.keyId_ne, h.publicKey, h.named, h.senders, h.projects, h.expiresAt⟩

theorem Sound.revoke (h : Sound static enrolled) (hkey : enrolled.get? keyId = some key) :
    Sound static (enrolled.set keyId { key with revoked := true }) := by
  constructor
  · intro otherId other hother
    rw [Dict.get?_set] at hother
    split_ifs at hother with hid
    · cases hother
      obtain ⟨hown, hstored⟩ := h.storable keyId key hkey
      exact ⟨hown.trans hid, stored_revoked hstored⟩
    · exact h.storable otherId other hother
  · intro otherId other hother
    rw [Dict.get?_set] at hother
    split_ifs at hother with hid
    · exact hid ▸ h.apart keyId key hkey
    · exact h.apart otherId other hother
  · intro otherId other hother
    rw [Dict.get?_set] at hother
    split_ifs at hother with hid
    · cases hother
      exact h.uncovered keyId key hkey
    · exact h.uncovered otherId other hother

theorem live_of_revoke {t : Float} {otherId : String} {other : EventSignatureKey}
    (hother : (enrolled.set keyId { key with revoked := true }).get? otherId = some other)
    (hlive : other.live t = true) : otherId ≠ keyId ∧ enrolled.get? otherId = some other := by
  rw [Dict.get?_set] at hother
  split_ifs at hother with hid
  · cases hother
    cases (live_iff.mp hlive).1
  · exact ⟨fun heq => hid heq.symm, hother⟩

theorem OneLive.revoke {t : Float} (h : OneLive enrolled t) :
    OneLive (enrolled.set keyId { key with revoked := true }) t := by
  intro name idA a idB b ha hb hna hnb hla hlb
  exact h name idA a idB b (live_of_revoke ha hla).2 (live_of_revoke hb hlb).2 hna hnb hla hlb

theorem revoked_kept_revoke (hkey : enrolled.get? keyId = some key) {otherId : String}
    {other : EventSignatureKey} (hother : enrolled.get? otherId = some other)
    (hrevoked : other.revoked = true) :
    (enrolled.set keyId { key with revoked := true }).get? otherId = some other := by
  rw [Dict.get?_set]
  split_ifs with hid
  · subst hid
    cases hkey.symm.trans hother
    rw [← hrevoked]
  · exact hother

end Revoke

/-! ## Enrolling a key -/

section Enrol

variable {static kept : Keys} {keyId : String} {key : EventSignatureKey}

theorem Sound.enrol (h : Sound static kept) (hown : key.keyId = keyId) (hstored : key.Stored)
    (hstatic : static.get? keyId = none) (hcovered : ∀ name ∈ key.senders,
      name ∉ staticSenders static) : Sound static (kept.set keyId key) := by
  constructor
  · intro otherId other hother
    rw [Dict.get?_set] at hother
    split_ifs at hother with hid
    · cases hother
      exact ⟨hown.trans hid, hstored⟩
    · exact h.storable otherId other hother
  · intro otherId other hother
    rw [Dict.get?_set] at hother
    split_ifs at hother with hid
    · exact hid ▸ hstatic
    · exact h.apart otherId other hother
  · intro otherId other hother
    rw [Dict.get?_set] at hother
    split_ifs at hother with hid
    · cases hother
      exact hcovered
    · exact h.uncovered otherId other hother

theorem OneLive.enrol {t : Float} (h : OneLive kept t) (hfree : ∀ name ∈ key.senders,
    ∀ otherId other, kept.get? otherId = some other → name ∈ other.senders →
      other.live t = false) : OneLive (kept.set keyId key) t := by
  intro name idA a idB b ha hb hna hnb hla hlb
  rw [Dict.get?_set] at ha hb
  split_ifs at ha hb with hidA hidB hidB
  · exact hidA.symm.trans hidB
  · cases ha
    rw [hfree name hna idB b hb hnb] at hlb
    cases hlb
  · cases hb
    rw [hfree name hnb idA a ha hna] at hla
    cases hla
  · exact h name idA a idB b ha hb hna hnb hla hlb

end Enrol

/-! ## An approved request -/

section Requests

variable [Builtins] {static enrolled : Keys} {request : EnrollmentRequest} {now : Float}

section

omit [Builtins]

/-- A gate that denies nothing did not hold. -/
theorem ok_of_gate {c : Prop} [Decidable c] {denial : String} {rest : Except String String}
    (hdenial : denial ≠ "") (h : (if c then pure denial else rest) = .ok "") :
    ¬ c ∧ rest = .ok "" := by
  by_cases hc : c
  · rw [if_pos hc] at h
    exact absurd (Except.ok.inj h) hdenial
  · rw [if_neg hc] at h
    exact ⟨hc, h⟩

theorem request_of_denial (h : requestDenial request static enrolled now = .ok "") :
    qualified request.name = true ∧ keyIdMatches request.keyId = true ∧
      (∃ raw, request.publicKey = some raw) ∧ expiryOk request.expiresAt now = .ok true ∧
      static.get? request.keyId = none ∧ enrolled.get? request.keyId = none ∧
      request.name ∉ staticSenders static ∧
      ((request.expectedKeyId = "" ∧ liveEnrolledKey enrolled request.name now = none) ∨
        ∃ current, liveEnrolledKey enrolled request.name now = some current ∧
          request.expectedKeyId = current.keyId) := by
  unfold requestDenial at h
  obtain ⟨hname, h⟩ := ok_of_gate (by simp) h
  obtain ⟨hid, h⟩ := ok_of_gate (by simp) h
  obtain ⟨hpublic, h⟩ := ok_of_gate (by simp) h
  obtain ⟨-, h⟩ := ok_of_gate (by simp) h
  obtain ⟨-, h⟩ := ok_of_gate (by simp) h
  obtain ⟨future, hfuture, h⟩ := bind_ok h
  obtain ⟨hexp, h⟩ := ok_of_gate (by simp) h
  obtain ⟨hused, h⟩ := ok_of_gate (by simp) h
  obtain ⟨hcovered, h⟩ := ok_of_gate (by simp) h
  obtain ⟨-, h⟩ := ok_of_gate (by simp) h
  simp only [Bool.not_eq_true', Bool.not_eq_false] at hname hid hexp
  simp only [Bool.or_eq_true, not_or, Bool.not_eq_true, Option.isSome_eq_false_iff,
    Option.isNone_iff_eq_none] at hused
  rw [hexp] at hfuture
  refine ⟨hname, hid, ?_, hfuture, hused.1, hused.2, hcovered, ?_⟩
  · exact Option.ne_none_iff_exists'.mp fun hnone => hpublic (by rw [hnone]; rfl)
  · cases hlive : liveEnrolledKey enrolled request.name now with
    | none =>
      rw [hlive] at h
      obtain ⟨hexpected, -⟩ := ok_of_gate (by simp) h
      exact .inl ⟨not_not.mp hexpected, rfl⟩
    | some current =>
      rw [hlive] at h
      obtain ⟨hexpected, -⟩ := ok_of_gate (by simp) h
      exact .inr ⟨current, rfl, not_not.mp hexpected⟩

theorem expiresAt_finite {keyNow : Float} (h : expiryOk request.expiresAt keyNow = .ok true) :
    ∀ x, request.key.expiresAt = some x → x.isFinite := by
  intro x hx
  unfold EnrollmentRequest.key at hx
  unfold expiryOk at h
  cases hexp : request.expiresAt with
  | int n =>
    rw [hexp] at h hx
    cases hx
    by_cases hfinite : (Float.ofInt n).isFinite
    · exact hfinite
    · simp only [if_neg hfinite] at h
      cases h
  | float y =>
    rw [hexp] at h hx
    cases hx
    have hok := Except.ok.inj h
    rw [Bool.and_eq_true] at hok
    exact hok.1
  | null =>
    rw [hexp] at hx
    cases hx
  | bool _ =>
    rw [hexp] at hx
    cases hx
  | str _ =>
    rw [hexp] at hx
    cases hx
  | arr _ =>
    rw [hexp] at hx
    cases hx
  | obj _ =>
    rw [hexp] at hx
    cases hx

theorem length_decodePublicKey {value : Json} {raw : Framing.Bytes}
    (h : decodePublicKey value = some raw) : raw.length = rawPublicKeyBytes := by
  cases value with
  | str text =>
    obtain ⟨-, hlength⟩ := Option.filter_eq_some_iff.mp h
    simpa using hlength
  | _ => cases h

theorem ne_empty_of_qualified {name : String} (h : qualified name = true) : name ≠ "" := by
  rintro rfl
  cases h

theorem ne_empty_of_keyIdMatches {keyId : String} (h : keyIdMatches keyId = true) :
    keyId ≠ "" := by
  rintro rfl
  cases h

end

/-- The key of an approved request goes through the file as it is. -/
theorem stored_key {a : Arrival}
    (h : requestDenial (enrollmentRequest a) static enrolled now = .ok "") :
    (enrollmentRequest a).key.Stored := by
  obtain ⟨hname, hid, ⟨raw, hraw⟩, hexp, -⟩ := request_of_denial h
  constructor
  · exact strip_strip _
  · exact ne_empty_of_keyIdMatches hid
  · show ((enrollmentRequest a).publicKey.getD []).length = rawPublicKeyBytes
    rw [hraw]
    exact length_decodePublicKey hraw
  · exact Finset.singleton_ne_empty _
  · intro name hmem
    cases Finset.mem_singleton.mp hmem
    exact ⟨strip_strip _, ne_empty_of_qualified hname⟩
  · intro project hmem
    cases hmem
  · exact expiresAt_finite hexp

/-- The keys an approved request leaves: sound, with one live key a name,
and every revoked key as it was. -/
theorem approved {a : Arrival} {kept : Keys} (hsound : Sound static enrolled)
    (hone : OneLive enrolled now)
    (hdenial : requestDenial (enrollmentRequest a) static enrolled now = .ok "")
    (hkept : (if (enrollmentRequest a).expectedKeyId ≠ "" then
      revoking enrolled (enrollmentRequest a).expectedKeyId else .ok enrolled) = .ok kept) :
    Sound static (kept.set (enrollmentRequest a).keyId (enrollmentRequest a).key) ∧
      OneLive (kept.set (enrollmentRequest a).keyId (enrollmentRequest a).key) now ∧
      ∀ keyId key, enrolled.get? keyId = some key → key.revoked = true →
        (kept.set (enrollmentRequest a).keyId (enrollmentRequest a).key).get? keyId = some key := by
  obtain ⟨-, -, -, -, hstatic, hfresh, hcovered, hcurrent⟩ := request_of_denial hdenial
  have hstored := stored_key hdenial
  set request := enrollmentRequest a with hrequest
  have hnames : ∀ name ∈ request.key.senders, name = request.name :=
    fun name hmem => Finset.mem_singleton.mp hmem
  -- what is kept is sound, leaves the name free and the revoked keys alone
  have hleft : Sound static kept ∧ OneLive kept now ∧
      (∀ keyId key, kept.get? keyId = some key → request.name ∈ key.senders →
        key.live now = false) ∧
      ∀ keyId key, enrolled.get? keyId = some key → key.revoked = true →
        kept.get? keyId = some key := by
    rcases hcurrent with ⟨hexpected, hnone⟩ | ⟨current, hlive, hexpected⟩
    · rw [if_neg (not_not_intro hexpected)] at hkept
      cases hkept
      exact ⟨hsound, hone, fun keyId key hkey hname => liveEnrolledKey_none hnone hkey hname,
        fun keyId key hkey _ => hkey⟩
    · obtain ⟨⟨currentId, hget⟩, hmem, hcurrentLive⟩ := liveEnrolledKey_some hlive
      obtain ⟨hown, hcurrentStored⟩ := hsound.storable currentId current hget
      have hid : request.expectedKeyId = currentId := hexpected.trans hown
      have hne : request.expectedKeyId ≠ "" := hexpected ▸ hcurrentStored.keyId_ne
      rw [if_pos hne, hid] at hkept
      obtain ⟨old, hold, hkept⟩ := revoking_ok hkept
      subst hkept
      refine ⟨hsound.revoke hold, hone.revoke, ?_, ?_⟩
      · intro keyId key hkey hname
        by_contra hkeyLive
        rw [Bool.not_eq_false] at hkeyLive
        obtain ⟨hother, hkey⟩ := live_of_revoke hkey hkeyLive
        exact hother (hone request.name keyId key currentId current hkey hget hname hmem hkeyLive
          hcurrentLive)
      · intro keyId key hkey hrevoked
        exact revoked_kept_revoke hold hkey hrevoked
  obtain ⟨hkeptSound, hkeptOne, hfree, hrevoked⟩ := hleft
  refine ⟨hkeptSound.enrol rfl hstored hstatic ?_, hkeptOne.enrol ?_, ?_⟩
  · intro name hmem
    rwa [hnames name hmem]
  · intro name hmem keyId key hkey hname
    rw [hnames name hmem] at hname
    exact hfree keyId key hkey hname
  · intro keyId key hkey hkeyRevoked
    have hne : request.keyId ≠ keyId := by
      rintro rfl
      rw [hfresh] at hkey
      cases hkey
    rw [Dict.get?_set_ne _ _ hne]
    exact hrevoked keyId key hkey hkeyRevoked

end Requests

/-! ## One request -/

/-- The two hubs hold the same keys, in the file and in memory. -/
structure SameKeys (hub after : Hub) : Prop where
  config : after.config = hub.config
  file : after.file = hub.file
  enrolled : after.enrolledIdentityKeys = hub.enrolledIdentityKeys
  bundle : after.identityTrustBundle = hub.identityTrustBundle
  gate : after.gateBundle = hub.gateBundle

theorem SameKeys.refl (hub : Hub) : SameKeys hub hub := ⟨rfl, rfl, rfl, rfl, rfl⟩

theorem SameKeys.trans {hub mid after : Hub} (h : SameKeys hub mid) (h' : SameKeys mid after) :
    SameKeys hub after :=
  ⟨h'.config.trans h.config, h'.file.trans h.file, h'.enrolled.trans h.enrolled,
    h'.bundle.trans h.bundle, h'.gate.trans h.gate⟩

/-- The hub holds `updated` in the file and in memory. -/
structure Holds [Builtins] (hub after : Hub) (static updated : Keys) : Prop where
  config : after.config = hub.config
  file : after.file = some (storeDocument updated)
  enrolled : after.enrolledIdentityKeys = updated
  gate : after.gateBundle = after.identityTrustBundle
  bundle : ∃ bundle, after.identityTrustBundle = some bundle ∧
    ∀ keyId, bundle.get? keyId = (updated.get? keyId).or (static.get? keyId)

/-- The request failed or was refused. -/
def refused : Except String Reply → Bool
  | .ok reply => !reply.applied
  | .error _ => true

namespace Hub

variable {hub : Hub} {a : Arrival}

theorem recordIdentityEnrollment_same {writable : Bool} {row : AuditRow} {after : Hub} {seq : Nat}
    (h : hub.recordIdentityEnrollment writable row = some (after, seq)) :
    writable = true ∧ SameKeys hub after := by
  unfold recordIdentityEnrollment at h
  cases writable with
  | false => cases h
  | true =>
    cases h
    exact ⟨rfl, rfl, rfl, rfl, rfl, rfl⟩

theorem refuse_spec (hub : Hub) (a : Arrival) (authority : Authority) (provenance : Provenance)
    (denial : String) : SameKeys hub (hub.refuse a authority provenance denial).1 ∧
      refused (hub.refuse a authority provenance denial).2 = true := by
  unfold refuse
  split_ifs
  · dsimp only
    cases hrow : hub.recordIdentityEnrollment a.firstRow { provenance with
      status := "denied", applied := false, detail := some denial } with
    | none => exact ⟨SameKeys.refl hub, rfl⟩
    | some recorded =>
      obtain ⟨after, seq⟩ := recorded
      exact ⟨(recordIdentityEnrollment_same hrow).2, rfl⟩
  · exact ⟨SameKeys.refl hub, rfl⟩

variable [Builtins] {static updated : Keys}

/-- What a request that changed the keys leaves. -/
structure Changed (hub after : Hub) (static updated : Keys) : Prop
    extends Holds hub after static updated where
  staticTrust : hub.config.staticTrust = some static
  enrollmentPath : hub.config.enrollmentPath = true
  sound : Sound static updated
  revoked : ∀ keyId key, hub.enrolledIdentityKeys.get? keyId = some key → key.revoked = true →
    updated.get? keyId = some key

section

omit [Builtins]

theorem authority_same (hub : Hub) (a : Arrival) (name : String) :
    SameKeys hub (hub.authority a name).2 := ⟨rfl, rfl, rfl, rfl, rfl⟩

end

end Hub

/-! ## Runs -/

variable [Builtins]

/-- The file, the memory and the bundles of a hub agree. -/
structure Agrees (hub : Hub) : Prop where
  bootable : hub.config.enrollmentPath = true →
    hub.config.staticTrust.isSome = true ∧ hub.config.journal = true
  loads : ∃ loaded, loadEnrolledKeys hub.file = .ok loaded ∧
    Dict.Same loaded hub.enrolledIdentityKeys
  unused : hub.config.enrollmentPath = false →
    Dict.Same Dict.empty hub.enrolledIdentityKeys
  gate : hub.gateBundle = hub.identityTrustBundle
  bundle : ∀ static, hub.config.staticTrust = some static →
    ∃ bundle, hub.identityTrustBundle = some bundle ∧ ∀ keyId, bundle.get? keyId =
      (hub.enrolledIdentityKeys.get? keyId).or (static.get? keyId)
  sound : ∀ static, hub.config.staticTrust = some static → Sound static hub.enrolledIdentityKeys

theorem Agrees.of_same {hub after : Hub} (h : Agrees hub) (hsame : SameKeys hub after) :
    Agrees after := by
  constructor
  · rw [hsame.config]
    exact h.bootable
  · rw [hsame.file, hsame.enrolled]
    exact h.loads
  · rw [hsame.config, hsame.enrolled]
    exact h.unused
  · rw [hsame.gate, hsame.bundle]
    exact h.gate
  · rw [hsame.config, hsame.bundle, hsame.enrolled]
    exact h.bundle
  · rw [hsame.config, hsame.enrolled]
    exact h.sound

namespace Hub

/-- The clock reading an operation takes. -/
def Op.reading : Op → Option Float
  | .enroll a => some a.now
  | _ => none

/-- No audit row is lost behind a saved file. -/
def Op.Recorded : Op → Prop
  | .enroll a => a.write = .saved → a.secondRow = true
  | .revoke a => a.write = .saved → a.secondRow = true
  | .restart => True

variable {hub : Hub} {op : Op}

/-- What one operation keeps, and what it leaves when it is refused. -/
structure Kept (hub : Hub) (op : Op) : Prop where
  agrees : Agrees (step hub op)
  config : (step hub op).config = hub.config
  oneLive : ∀ t, (∀ r, op.reading = some r → r ≤ t) → OneLive hub.enrolledIdentityKeys t →
    OneLive (step hub op).enrolledIdentityKeys t
  revoked : ∀ keyId key, hub.enrolledIdentityKeys.get? keyId = some key → key.revoked = true →
    (step hub op).enrolledIdentityKeys.get? keyId = some key
  untouched : refused (handle hub op).2 = true → op.Recorded →
    (step hub op).file = hub.file ∧
      Dict.Same (step hub op).enrolledIdentityKeys hub.enrolledIdentityKeys

theorem Kept.of_same (hagrees : Agrees hub) (hsame : SameKeys hub (step hub op)) :
    Kept hub op := by
  constructor
  · exact hagrees.of_same hsame
  · exact hsame.config
  · intro t _ hone
    rwa [hsame.enrolled]
  · intro keyId key hkey _
    rwa [hsame.enrolled]
  · intro _ _
    rw [hsame.enrolled]
    exact ⟨hsame.file, Dict.Same.refl _⟩

end Hub

end SynapseChannel.Identity
