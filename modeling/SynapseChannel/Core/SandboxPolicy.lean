import SynapseChannel.Core.Acl
import SynapseChannel.Lib.Json
import SynapseChannel.Lib.Outcome
import SynapseChannel.Lib.PathWalk

/-!
# Core — SandboxPolicy

The deny-by-default capability manifest of a sandboxed tool: its parser,
the direct check of a request against it, and what the check contains.
Grants cover paths by their text; a path that climbs by its dots is
resolved only later.
-/

namespace SynapseChannel.Sandbox

open Py Outcome

/-- Why a request was refused, or that it was not. -/
inductive DecisionReason where
  | authorised
  | digestMismatch
  | filesystemNotGranted
  | writeNotGranted
  | networkNotGranted
  | memoryExceedsGrant
  | fuelExceedsGrant
  | wallclockExceedsGrant
deriving DecidableEq

/-- A preopened directory: the guest path a tool may reach, read or write. -/
structure FilesystemGrant where
  hostPath : String
  guestPath : String
  write : Bool := false
deriving DecidableEq

def FilesystemGrant.perms (grant : FilesystemGrant) : String :=
  if grant.write then "read_write" else "read"

structure NetworkGrant where
  host : String
  port : Int
deriving DecidableEq

structure ResourceGrant where
  memoryBytes : Int
  fuel : Int
  wallClockMs : Int
deriving DecidableEq

def defaultResourceGrant : ResourceGrant where
  memoryBytes := 64 * 1024 * 1024
  fuel := 100000000
  wallClockMs := 5000

/-- The capabilities granted to one tool. -/
structure CapabilityManifest where
  toolId : String
  contentDigest : String
  filesystem : List FilesystemGrant := []
  network : List NetworkGrant := []
  resources : ResourceGrant := defaultResourceGrant
  namespace_ : String := ""
deriving DecidableEq

/-- What a single run asks to use; a filesystem access is a guest path and whether to write. -/
structure SandboxRequest where
  toolId : String
  contentDigest : String
  filesystem : List (String × Bool) := []
  network : List (String × Int) := []
  memoryBytes : Int := 0
  fuel : Int := 0
  wallClockMs : Int := 0

structure SandboxDecision where
  allowed : Bool
  toolId : String
  reason : DecisionReason
  granted : Option CapabilityManifest := none

/-! ## The check of a request -/

/-- `root.rstrip("/")`. -/
def trimmed (root : String) : List Char := dropBack (· = '/') root.toList

/-- The path is the root or its text goes on from it with a slash. -/
def under (path root : String) : Bool :=
  path.toList == trimmed root || (trimmed root ++ ['/']).isPrefixOf path.toList

/-- Why one filesystem access is refused; `none` when it is covered. -/
def filesystemReason (guestPath : String) (write : Bool) (grants : List FilesystemGrant) :
    Option DecisionReason :=
  let covering := grants.filter fun grant => under guestPath grant.guestPath
  if covering.isEmpty then some .filesystemNotGranted
  else if write && !covering.any FilesystemGrant.write then some .writeNotGranted
  else none

/-- The decision on whether the manifest permits the request. -/
def authorise (manifest : CapabilityManifest) (request : SandboxRequest) : SandboxDecision :=
  let refused (reason : DecisionReason) : SandboxDecision :=
    { allowed := false, toolId := manifest.toolId, reason }
  if request.contentDigest ≠ manifest.contentDigest then refused .digestMismatch
  else
    match request.filesystem.findSome? fun access =>
      filesystemReason access.1 access.2 manifest.filesystem with
    | some reason => refused reason
    | none =>
      if request.network.any fun endpoint =>
          !manifest.network.any fun grant => grant.host = endpoint.1 && grant.port = endpoint.2 then
        refused .networkNotGranted
      else if request.memoryBytes > manifest.resources.memoryBytes then refused .memoryExceedsGrant
      else if request.fuel > manifest.resources.fuel then refused .fuelExceedsGrant
      else if request.wallClockMs > manifest.resources.wallClockMs then
        refused .wallclockExceedsGrant
      else { allowed := true, toolId := manifest.toolId, reason := .authorised, granted := manifest }

/-! ## The manifest of a mapping -/

section Parsing

variable [Builtins]

/-- A stripped non-empty string field. -/
def requireStr (data : Members) (key : String) : Except String String :=
  let value := strip (data.getD key (.str "")).toStr
  if value = "" then .error s!"manifest needs a non-empty '{key}'" else .ok value

def asList (data : Members) (key : String) : Except String (List Json) :=
  match data.getD key (.arr []) with
  | .arr items => .ok items
  | _ => .error s!"manifest '{key}' must be a list"

def filesystemFromDict : Json → Except String FilesystemGrant
  | .obj raw => do
    let hostPath ← requireStr raw "host_path"
    let guestPath ← requireStr raw "guest_path"
    return { hostPath, guestPath, write := (Members.getD raw "write" (.bool false)).truthy }
  | _ => .error "each filesystem grant must be a mapping"

def networkFromDict : Json → Except String NetworkGrant
  | .obj raw =>
    match Members.get raw "port" with
    | .int port => do
      let host ← requireStr raw "host"
      return { host, port }
    | _ => .error "network grant 'port' must be an integer"
  | _ => .error "each network grant must be a mapping"

def positiveInt (raw : Members) (key : String) (fallback : Int) : Except String Int :=
  match raw.getD key (.int fallback) with
  | .int value =>
    if value ≤ 0 then .error s!"resource '{key}' must be a positive integer" else .ok value
  | _ => .error s!"resource '{key}' must be a positive integer"

def resourcesFromDict : Json → Except String ResourceGrant
  | .null => .ok defaultResourceGrant
  | .obj raw => do
    let memoryBytes ← positiveInt raw "memory_bytes" defaultResourceGrant.memoryBytes
    let fuel ← positiveInt raw "fuel" defaultResourceGrant.fuel
    let wallClockMs ← positiveInt raw "wall_clock_ms" defaultResourceGrant.wallClockMs
    return { memoryBytes, fuel, wallClockMs }
  | _ => .error "manifest 'resources' must be a mapping"

/-- The manifest an untrusted mapping describes. -/
def manifestFromDict : Json → Except String CapabilityManifest
  | .obj raw => do
    let contentDigest ← requireStr raw "content_digest"
    if startsWith contentDigest "sha256:" = false then
      .error "manifest 'content_digest' must be a 'sha256:' digest"
    else do
      let toolId ← requireStr raw "tool_id"
      let filesystem ← (← asList raw "filesystem").mapM filesystemFromDict
      let network ← (← asList raw "network").mapM networkFromDict
      let resources ← resourcesFromDict (Members.get raw "resources")
      return { toolId, contentDigest, filesystem, network, resources
               namespace_ := strip (Members.getD raw "namespace" (.str "")).toStr }
  | _ => .error "manifest must be a mapping"

end Parsing

/-! ## Allowed requests -/

variable {manifest : CapabilityManifest} {request : SandboxRequest} {path : String} {write : Bool}

/-- Some grant covers the path, and a writable one when it is to be written. -/
def Covered (manifest : CapabilityManifest) (path : String) (write : Bool) : Prop :=
  ∃ grant ∈ manifest.filesystem, under path grant.guestPath = true ∧
    (write = true → grant.write = true)

/-- The endpoint is one of the granted ones. -/
def Listed (manifest : CapabilityManifest) (host : String) (port : Int) : Prop :=
  ∃ grant ∈ manifest.network, grant.host = host ∧ grant.port = port

/-- The resources asked for are within the grant. -/
structure Fits (manifest : CapabilityManifest) (request : SandboxRequest) : Prop where
  memory : request.memoryBytes ≤ manifest.resources.memoryBytes
  fuel : request.fuel ≤ manifest.resources.fuel
  wallClock : request.wallClockMs ≤ manifest.resources.wallClockMs

theorem filesystemReason_eq_none :
    filesystemReason path write manifest.filesystem = none ↔ Covered manifest path write := by
  unfold filesystemReason Covered
  constructor
  · intro h
    dsimp only at h
    split at h
    · cases h
    · next hcovering =>
      split at h
      · cases h
      · next hwrite =>
        cases write with
        | false =>
          simp only [List.isEmpty_iff, List.filter_eq_nil_iff, not_forall, not_not] at hcovering
          obtain ⟨grant, hgrant, hunder⟩ := hcovering
          exact ⟨grant, hgrant, by simpa using hunder, by simp⟩
        | true =>
          obtain ⟨grant, hgrant, hunder, hw⟩ : ∃ grant ∈ manifest.filesystem,
              under path grant.guestPath = true ∧ grant.write = true := by
            simpa [and_assoc] using hwrite
          exact ⟨grant, hgrant, hunder, fun _ => hw⟩
  · rintro ⟨grant, hgrant, hunder, hw⟩
    have hmem : grant ∈ manifest.filesystem.filter fun grant => under path grant.guestPath :=
      List.mem_filter.mpr ⟨hgrant, hunder⟩
    dsimp only
    rw [if_neg (by simpa using List.ne_nil_of_mem hmem), if_neg]
    cases write with
    | false => simp
    | true =>
      have hany := List.any_eq_true.mpr ⟨grant, hmem, hw rfl⟩
      simp [hany]

theorem listed_iff {host : String} {port : Int} :
    (manifest.network.any fun grant => grant.host = host && grant.port = port) = true ↔
      Listed manifest host port := by
  simp [Listed]

theorem authorise_allowed :
    (authorise manifest request).allowed = true ↔
      request.contentDigest = manifest.contentDigest ∧
      (∀ access ∈ request.filesystem, Covered manifest access.1 access.2) ∧
      (∀ endpoint ∈ request.network, Listed manifest endpoint.1 endpoint.2) ∧
      Fits manifest request := by
  have hfilesystem : (request.filesystem.findSome? fun access =>
      filesystemReason access.1 access.2 manifest.filesystem) = none ↔
        ∀ access ∈ request.filesystem, Covered manifest access.1 access.2 := by
    rw [List.findSome?_eq_none_iff]
    exact forall₂_congr fun access _ => filesystemReason_eq_none
  have hnetwork : (request.network.any fun endpoint => !manifest.network.any fun grant =>
      grant.host = endpoint.1 && grant.port = endpoint.2) = false ↔
        ∀ endpoint ∈ request.network, Listed manifest endpoint.1 endpoint.2 := by
    rw [List.any_eq_false]
    refine forall₂_congr fun endpoint _ => ?_
    rw [Bool.not_eq_true', Bool.not_eq_false, listed_iff]
  rw [← hfilesystem, ← hnetwork]
  unfold authorise
  dsimp only
  constructor
  · intro h
    split at h
    · cases h
    next hdigest =>
    split at h
    · cases h
    next hnone =>
    split at h
    · cases h
    next hlisted =>
    split at h
    · cases h
    next hmemory =>
    split at h
    · cases h
    next hfuel =>
    split at h
    · cases h
    next hclock =>
    exact ⟨not_not.mp hdigest, hnone, by simpa using hlisted,
      ⟨by omega, by omega, by omega⟩⟩
  · rintro ⟨hdigest, hnone, hlisted, hfits⟩
    rw [if_neg (not_not_intro hdigest), hnone]
    dsimp only
    rw [if_neg (by simp [hlisted]), if_neg (Int.not_lt.mpr hfits.memory),
      if_neg (Int.not_lt.mpr hfits.fuel), if_neg (Int.not_lt.mpr hfits.wallClock)]

/-! ## Where covered paths lead -/

/-- The moves of what a path's text adds to the root's. -/
def remainder (path root : String) : List (Move String) :=
  pathMoves (path.toList.drop (trimmed root).length)

theorem under_iff {root : String} :
    under path root = true ↔
      path.toList = trimmed root ∨ ∃ rest, path.toList = trimmed root ++ '/' :: rest := by
  unfold under
  rw [Bool.or_eq_true, beq_iff_eq, List.isPrefixOf_iff_prefix]
  refine or_congr_right ⟨fun ⟨rest, h⟩ => ⟨rest, ?_⟩, fun ⟨rest, h⟩ => ⟨rest, ?_⟩⟩
  · rw [← h, List.append_assoc, List.singleton_append]
  · rw [h, List.append_assoc, List.singleton_append]

theorem toList_eq_trimmed (root : String) :
    ∃ n, root.toList = trimmed root ++ List.replicate n '/' := by
  refine ⟨(root.toList.reverse.takeWhile (· = '/')).length, ?_⟩
  have hslashes : root.toList.reverse.takeWhile (· = '/') =
      List.replicate (root.toList.reverse.takeWhile (· = '/')).length '/' := by
    refine List.eq_replicate_of_mem fun c hc => ?_
    simpa using List.all_eq_true.mp List.all_takeWhile c hc
  have hparts := List.takeWhile_append_dropWhile (p := (· = '/')) (l := root.toList.reverse)
  have hreverse := congrArg List.reverse hparts
  rw [List.reverse_append, List.reverse_reverse, hslashes, List.reverse_replicate] at hreverse
  exact hreverse.symm

/-- A path under a root leads where its remainder leads from the root, unless the root is all of
the guest's files. -/
theorem resolvePath_under {root : String} (hroot : root ≠ "") (h : under path root = true)
    (cwd : List String) :
    resolvePath cwd root.toList = [] ∨
      resolvePath cwd path.toList = walk (resolvePath cwd root.toList) (remainder path root) := by
  obtain ⟨n, hn⟩ := toList_eq_trimmed root
  unfold remainder resolvePath
  cases htrimmed : trimmed root with
  | nil =>
    left
    rw [htrimmed, List.nil_append] at hn
    cases n with
    | zero => exact absurd (String.toList_eq_nil_iff.mp hn) hroot
    | succ n =>
      have hmoves := pathMoves_slashes [] (n + 1)
      rw [List.nil_append, pathMoves_nil] at hmoves
      rw [hn, hmoves, walk_append, walk_stay]
      rfl
  | cons c rest =>
    right
    have hhead : path.toList.head? = root.toList.head? := by
      rcases under_iff.mp h with hpath | ⟨tail, hpath⟩ <;> rw [hpath, hn, htrimmed] <;> rfl
    have hroot : pathMoves root.toList = pathMoves (c :: rest) ++ List.replicate n .stay := by
      rw [hn, htrimmed, pathMoves_slashes]
    rw [hhead, hroot, walk_append, walk_stay]
    rcases under_iff.mp h with hpath | ⟨tail, hpath⟩
    · rw [hpath, htrimmed, List.drop_length, pathMoves_nil]
      rfl
    · have hslash : pathMoves ('/' :: tail) = .stay :: pathMoves tail := by
        have hsplit := pathMoves_append [] tail
        rwa [pathMoves_nil] at hsplit
      rw [hpath, htrimmed, pathMoves_append, List.drop_left, hslash, walk_append]
      rfl

/-- Every path the request names lies, once resolved, in a granted directory, and in a writable
one when it is to be written. -/
def Contained (cwd : List String) (manifest : CapabilityManifest) (request : SandboxRequest) :
    Prop :=
  ∀ access ∈ request.filesystem, ∃ grant ∈ manifest.filesystem,
    resolvePath cwd grant.guestPath.toList <+: resolvePath cwd access.1.toList ∧
      (access.2 = true → grant.write = true)

/-- No named path climbs, by its dots, out of a grant that covers it. -/
def Climbless (manifest : CapabilityManifest) (request : SandboxRequest) : Prop :=
  ∀ access ∈ request.filesystem, ∀ grant ∈ manifest.filesystem,
    under access.1 grant.guestPath = true → stays 0 (remainder access.1 grant.guestPath) = true

/-- The manifest grants nothing, or all of the guest's files; and nothing to write, or all of
them to write. -/
def AllOrNone (cwd : List String) (manifest : CapabilityManifest) : Prop :=
  (manifest.filesystem = [] ∨
    ∃ grant ∈ manifest.filesystem, resolvePath cwd grant.guestPath.toList = []) ∧
  ((∀ grant ∈ manifest.filesystem, grant.write = false) ∨
    ∃ grant ∈ manifest.filesystem, grant.write = true ∧
      resolvePath cwd grant.guestPath.toList = [])

/-! ## Manifests a mapping describes -/

/-- What every parsed manifest has: named guest paths and resources to spare. -/
structure Parsed (manifest : CapabilityManifest) : Prop where
  guestPath : ∀ grant ∈ manifest.filesystem, grant.guestPath ≠ ""
  memory : 0 < manifest.resources.memoryBytes
  fuel : 0 < manifest.resources.fuel
  wallClock : 0 < manifest.resources.wallClockMs

section Parsed

variable [Builtins]

theorem requireStr_ne_empty {data : Members} {key value : String}
    (h : requireStr data key = .ok value) : value ≠ "" := by
  unfold requireStr at h
  dsimp only at h
  split at h
  · cases h
  · next hne =>
    cases h
    exact hne

theorem filesystemFromDict_guestPath {raw : Json} {grant : FilesystemGrant}
    (h : filesystemFromDict raw = .ok grant) : grant.guestPath ≠ "" := by
  unfold filesystemFromDict at h
  split at h
  · obtain ⟨hostPath, -, h⟩ := bind_ok h
    obtain ⟨guestPath, hguest, h⟩ := bind_ok h
    cases h
    exact requireStr_ne_empty hguest
  · cases h

section

omit [Builtins]

theorem positiveInt_pos {raw : Members} {key : String} {fallback value : Int}
    (h : positiveInt raw key fallback = .ok value) : 0 < value := by
  unfold positiveInt at h
  split at h
  · split at h
    · cases h
    · cases h
      omega
  · cases h

theorem resourcesFromDict_pos {raw : Json} {grant : ResourceGrant}
    (h : resourcesFromDict raw = .ok grant) :
    0 < grant.memoryBytes ∧ 0 < grant.fuel ∧ 0 < grant.wallClockMs := by
  unfold resourcesFromDict at h
  split at h
  · cases h
    decide
  · obtain ⟨memoryBytes, hmemory, h⟩ := bind_ok h
    obtain ⟨fuel, hfuel, h⟩ := bind_ok h
    obtain ⟨wallClockMs, hclock, h⟩ := bind_ok h
    cases h
    exact ⟨positiveInt_pos hmemory, positiveInt_pos hfuel, positiveInt_pos hclock⟩
  · cases h

end

theorem manifestFromDict_parsed {raw : Json} (h : manifestFromDict raw = .ok manifest) :
    Parsed manifest := by
  unfold manifestFromDict at h
  split at h
  · obtain ⟨contentDigest, -, h⟩ := bind_ok h
    split at h
    · cases h
    · obtain ⟨toolId, -, h⟩ := bind_ok h
      obtain ⟨entries, -, h⟩ := bind_ok h
      obtain ⟨filesystem, hfilesystem, h⟩ := bind_ok h
      obtain ⟨endpoints, -, h⟩ := bind_ok h
      obtain ⟨network, -, h⟩ := bind_ok h
      obtain ⟨resources, hresources, h⟩ := bind_ok h
      cases h
      obtain ⟨hmemory, hfuel, hclock⟩ := resourcesFromDict_pos hresources
      refine ⟨fun grant hgrant => ?_, hmemory, hfuel, hclock⟩
      obtain ⟨entry, -, hentry⟩ := exists_of_mapM hfilesystem hgrant
      exact filesystemFromDict_guestPath hentry
  · cases h

end Parsed

/-! ## Containment -/

theorem Parsed.contained_of_climbless (h : Parsed manifest)
    (hallowed : (authorise manifest request).allowed = true) (hclimb : Climbless manifest request)
    (cwd : List String) : Contained cwd manifest request := by
  obtain ⟨-, hcovered, -⟩ := authorise_allowed.mp hallowed
  intro access haccess
  obtain ⟨grant, hgrant, hunder, hwrite⟩ := hcovered access haccess
  refine ⟨grant, hgrant, ?_, hwrite⟩
  rcases resolvePath_under (h.guestPath grant hgrant) hunder cwd with hroot | hwalk
  · rw [hroot]
    exact List.nil_prefix
  · have hstays := hclimb access haccess grant hgrant hunder
    have hkeeps := @walk_of_stays _ (resolvePath cwd grant.guestPath.toList) [] _ hstays
    rw [List.append_nil] at hkeeps
    rw [hwalk, hkeeps]
    exact List.prefix_append _ _

/-- Under every root there is a path that leads to the top of the guest's files. -/
theorem exists_climb (cwd : List String) (root : String) :
    ∃ path, under path root = true ∧ resolvePath cwd path.toList = [] := by
  let start := if (trimmed root ++ ['/']).head? = some '/' then [] else cwd
  let n := (walk start (pathMoves (trimmed root))).length
  refine ⟨String.ofList (trimmed root ++ (List.replicate (n + 1) ['/', '.', '.']).flatten), ?_, ?_⟩
  · rw [under_iff, String.toList_ofList]
    exact .inr ⟨'.' :: '.' :: (List.replicate n ['/', '.', '.']).flatten, rfl⟩
  · have hhead : (trimmed root ++ (List.replicate (n + 1) ['/', '.', '.']).flatten).head? =
        (trimmed root ++ ['/']).head? := by
      cases trimmed root <;> rfl
    rw [String.toList_ofList, resolvePath, hhead, pathMoves_ups, walk_append]
    exact walk_ups (Nat.le_succ n)

theorem Parsed.allows_access (h : Parsed manifest) {grant : FilesystemGrant}
    (hgrant : grant ∈ manifest.filesystem) (hunder : under path grant.guestPath = true)
    (hwrite : write = true → grant.write = true) :
    (authorise manifest { toolId := manifest.toolId, contentDigest := manifest.contentDigest
                          filesystem := [(path, write)] }).allowed = true := by
  rw [authorise_allowed]
  refine ⟨rfl, ?_, by simp, ⟨Int.le_of_lt h.memory, Int.le_of_lt h.fuel, Int.le_of_lt h.wallClock⟩⟩
  intro access haccess
  rw [List.mem_singleton.mp haccess]
  exact ⟨grant, hgrant, hunder, hwrite⟩

/-- Every allowed request is contained exactly when the grants are all or nothing. -/
theorem Parsed.contains_iff (h : Parsed manifest) (cwd : List String) :
    (∀ request, (authorise manifest request).allowed = true → Contained cwd manifest request) ↔
      AllOrNone cwd manifest := by
  constructor
  · intro hall
    -- a climb under a grant is allowed, so the place it ends at has to be granted
    have hclimbs : ∀ write, ∀ grant ∈ manifest.filesystem, (write = true → grant.write = true) →
        ∃ other ∈ manifest.filesystem, resolvePath cwd other.guestPath.toList = [] ∧
          (write = true → other.write = true) := by
      intro write grant hgrant hwrite
      obtain ⟨path, hunder, htop⟩ := exists_climb cwd grant.guestPath
      obtain ⟨other, hother, hprefix, hw⟩ :=
        hall _ (h.allows_access hgrant hunder hwrite) (path, write) (by simp)
      rw [htop, List.prefix_nil] at hprefix
      exact ⟨other, hother, hprefix, hw⟩
    constructor
    · by_cases hnone : manifest.filesystem = []
      · exact .inl hnone
      · obtain ⟨grant, rest, hfilesystem⟩ := List.exists_cons_of_ne_nil hnone
        obtain ⟨other, hother, htop, -⟩ :=
          hclimbs false grant (hfilesystem ▸ List.mem_cons_self) (by simp)
        exact .inr ⟨other, hother, htop⟩
    · by_cases hread : ∀ grant ∈ manifest.filesystem, grant.write = false
      · exact .inl hread
      · simp only [not_forall, Bool.not_eq_false] at hread
        obtain ⟨grant, hgrant, hwrite⟩ := hread
        obtain ⟨other, hother, htop, hw⟩ := hclimbs true grant hgrant fun _ => hwrite
        exact .inr ⟨other, hother, hw rfl, htop⟩
  · rintro ⟨hread, hwrite⟩ request hallowed access haccess
    obtain ⟨-, hcovered, -⟩ := authorise_allowed.mp hallowed
    obtain ⟨grant, hgrant, -, hw⟩ := hcovered access haccess
    cases haccessWrite : access.2 with
    | false =>
      rcases hread with hnone | ⟨top, htop, hresolved⟩
      · rw [hnone] at hgrant
        cases hgrant
      · exact ⟨top, htop, by rw [hresolved]; exact List.nil_prefix, by simp⟩
    | true =>
      rcases hwrite with hnone | ⟨top, htop, htopWrite, hresolved⟩
      · exact absurd (hw haccessWrite) (by simp [hnone grant hgrant])
      · exact ⟨top, htop, by rw [hresolved]; exact List.nil_prefix, fun _ => htopWrite⟩

/-- The check of an accepted manifest contains what it allows exactly when the grants are all or
nothing; whatever they are, it contains the requests whose paths do not climb. -/
theorem sandbox_contained_iff [Builtins] (cwd : List String) {raw : Json}
    (h : manifestFromDict raw = .ok manifest) :
    ((∀ request, (authorise manifest request).allowed = true → Contained cwd manifest request) ↔
        AllOrNone cwd manifest) ∧
      ∀ request, (authorise manifest request).allowed = true → Climbless manifest request →
        Contained cwd manifest request :=
  ⟨(manifestFromDict_parsed h).contains_iff cwd, fun _ hallowed hclimb =>
    (manifestFromDict_parsed h).contained_of_climbless hallowed hclimb cwd⟩

/-- A mapping that grants one directory to read, and its manifest. -/
def dataMapping : Json :=
  .obj [("tool_id", .str "t"), ("content_digest", .str "sha256:00"),
    ("filesystem", .arr [.obj [("host_path", .str "/srv"), ("guest_path", .str "/data")]])]

def dataManifest : CapabilityManifest where
  toolId := "t"
  contentDigest := "sha256:00"
  filesystem := [{ hostPath := "/srv", guestPath := "/data" }]

/-- A path that leaves the one granted directory is allowed. -/
theorem climb_allowed :
    letI : Builtins := Builtins.ascii
    ∃ manifest request, manifestFromDict dataMapping = .ok manifest ∧
      (authorise manifest request).allowed = true ∧ ¬ Contained [] manifest request := by
  let _ : Builtins := Builtins.ascii
  refine ⟨dataManifest, { toolId := "t", contentDigest := "sha256:00"
                          filesystem := [("/data/../etc/passwd", false)] },
    by decide +kernel, by decide +kernel, fun hcontains => ?_⟩
  obtain ⟨grant, hgrant, hprefix, -⟩ := hcontains ("/data/../etc/passwd", false) (by simp)
  have hplaces : resolvePath [] "/data".toList = ["data"] ∧
      resolvePath [] "/data/../etc/passwd".toList = ["etc", "passwd"] := by decide +kernel
  rw [List.mem_singleton.mp hgrant, hplaces.1, hplaces.2] at hprefix
  exact absurd hprefix (by decide)

theorem data_contained_iff :
    letI : Builtins := Builtins.ascii
    manifestFromDict dataMapping = .ok dataManifest ∧
      ((∀ request, (authorise dataManifest request).allowed = true →
          Contained [] dataManifest request) ↔ AllOrNone [] dataManifest) ∧
      ∀ request, (authorise dataManifest request).allowed = true →
        Climbless dataManifest request → Contained [] dataManifest request := by
  let _ : Builtins := Builtins.ascii
  have h : manifestFromDict dataMapping = .ok dataManifest := by decide +kernel
  exact ⟨h, sandbox_contained_iff [] h⟩

end SynapseChannel.Sandbox
