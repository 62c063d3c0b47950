import SynapseChannel.Lib.JsonText
import SynapseChannel.Lib.MerkleTree
import SynapseChannel.Lib.Outcome
import SynapseChannel.Core.Persistence

/-!
# Core — Merkle

A Merkle commitment over the event log: the streaming root, inclusion
proofs, and their verification. Peaks are held newest first.
-/

namespace SynapseChannel

open Py MerkleTree
open Framing (Bytes utf8)

/-- Domain separation of a leaf hash. -/
def leafPrefix : UInt8 := 0

/-- Domain separation of an interior-node hash. -/
def nodePrefix : UInt8 := 1

/-- A commitment over the log up to a sequence point. -/
structure MerkleRoot where
  root : String
  treeSize : Nat
  firstSeq : Int
  lastSeq : Int
  throughSeq : Int

/-- An audit path proving one event is in the committed log. -/
structure InclusionProof where
  seq : Int
  index : Int
  treeSize : Int
  leaf : String
  path : List String
  root : String

/-- The state of a streaming commitment. -/
structure RunningRoot where
  peaks : List (Nat × Bytes) := []
  size : Nat := 0
  firstSeq : Int := 0
  lastSeq : Int := 0

variable [Builtins]

/-! ## Hashes -/

def canonicalEventBytes (event : StoredEvent) : Bytes :=
  utf8 (dumps (.obj [("seq", .int event.seq), ("ts", .float event.ts), ("kind", .str event.kind),
    ("payload", .obj event.payload)]))

def leafHash (event : StoredEvent) : Bytes := sha256 (leafPrefix :: canonicalEventBytes event)

/-- What an interior node hashes. -/
def nodeMessage (pair : Bytes × Bytes) : Bytes := nodePrefix :: pair.1 ++ pair.2

def nodeHash (left right : Bytes) : Bytes := sha256 (nodeMessage (left, right))

def merkleTreeHash (leaves : List Bytes) : Bytes := treeHash nodeHash (sha256 []) leaves

/-! ## The streaming root -/

namespace RunningRoot

/-- Fold one event into the running commitment. -/
def add (running : RunningRoot) (event : StoredEvent) : RunningRoot × Except String Unit :=
  if running.size ≠ 0 ∧ event.seq ≤ running.lastSeq then
    let seq := event.seq
    let last := running.lastSeq
    (running, .error
      s!"events must stream in ascending sequence order: got seq {seq} after {last}")
  else
    ({ peaks := push nodeHash 1 (leafHash event) running.peaks
       size := running.size + 1
       firstSeq := if running.size = 0 then event.seq else running.firstSeq
       lastSeq := event.seq }, .ok ())

/-- Fold events until one is rejected. -/
def addAll (running : RunningRoot) (events : List StoredEvent) : Except String RunningRoot :=
  events.foldlM (fun running event => (running.add event).2.map fun _ => (running.add event).1)
    running

/-- The current root; of no events, the hash of the empty string. -/
def rootHex (running : RunningRoot) : String :=
  hex (foldPeaks nodeHash (sha256 []) running.peaks)

/-- The commitment over everything folded in so far. -/
def commit (running : RunningRoot) (throughSeq : Option Int) : MerkleRoot where
  root := running.rootHex
  treeSize := running.size
  firstSeq := running.firstSeq
  lastSeq := running.lastSeq
  throughSeq := throughSeq.getD 0

end RunningRoot

omit [Builtins] in
/-- The events at or before `throughSeq`, ordered by sequence. -/
def selectedEvents (events : List StoredEvent) (throughSeq : Option Int) : List StoredEvent :=
  let ordered := sortedBy (fun a b => decide (a < b)) StoredEvent.seq events
  match throughSeq with
  | none => ordered
  | some ceiling => ordered.filter fun event => event.seq ≤ ceiling

/-- Commit the event log to a Merkle root. -/
def buildRoot (events : List StoredEvent) (throughSeq : Option Int) : Except String MerkleRoot :=
  (RunningRoot.addAll {} (selectedEvents events throughSeq)).map fun running =>
    running.commit throughSeq

/-! ## Inclusion proofs -/

/-- Build an inclusion proof for the event at `seq`; `none` when no
committed event has that sequence. -/
def buildProof (events : List StoredEvent) (seq : Int) (throughSeq : Option Int) :
    Option InclusionProof :=
  let selected := selectedEvents events throughSeq
  match selected.findIdx? fun event => event.seq = seq with
  | none => none
  | some index =>
    let leaves := selected.map leafHash
    some {
      seq := seq
      index := index
      treeSize := leaves.length
      leaf := hex (leaves.getD index [])
      path := (auditPath nodeHash (sha256 []) index leaves).map hex
      root := hex (merkleTreeHash leaves) }

/-- Whether an inclusion proof reconstructs its own root. -/
def verifyInclusion (proof : InclusionProof) : Except String Bool :=
  if proof.index < 0 ∨ proof.index ≥ proof.treeSize then .ok false
  else if proof.path.length ≠ auditPathLength proof.index.toNat proof.treeSize.toNat then .ok false
  else
    match fromHex proof.leaf, proof.path.mapM fromHex with
    | some leaf, some path =>
      match rootFromPath nodeHash proof.index.toNat proof.treeSize.toNat leaf path with
      | some computed => compareDigest (hex computed) proof.root
      | none => .error "list index out of range"
    | _, _ => .ok false

/-! ## The streaming root is the recursive one -/

/-- What holds of the accumulator once the events of a log are folded in. -/
structure RunningRoot.Folds (running : RunningRoot) (events : List StoredEvent)
    (blocks : List (List Bytes)) : Prop where
  accumulates : Accumulates nodeHash (sha256 []) (events.map leafHash) running.peaks blocks
  size : running.size = events.length
  last : ∀ event, events.getLast? = some event → running.lastSeq = event.seq

theorem RunningRoot.Folds.add {running : RunningRoot} {events : List StoredEvent}
    {blocks : List (List Bytes)} (h : RunningRoot.Folds running events blocks) {event : StoredEvent}
    (hlater : ∀ e ∈ events, e.seq < event.seq) :
    ∃ running' blocks', running.add event = (running', .ok ()) ∧
      RunningRoot.Folds running' (events ++ [event]) blocks' := by
  have haccept : ¬ (running.size ≠ 0 ∧ event.seq ≤ running.lastSeq) := by
    intro hreject
    obtain ⟨hsize, hle⟩ := hreject
    rw [h.size] at hsize
    cases hlast : events.getLast? with
    | none =>
      rw [List.getLast?_eq_none_iff.mp hlast] at hsize
      exact hsize rfl
    | some last =>
      have hlt := hlater last (List.mem_of_getLast? hlast)
      rw [h.last last hlast] at hle
      omega
  obtain ⟨blocks', hblocks'⟩ := h.accumulates.push nodeHash (sha256 []) (leafHash event)
  unfold RunningRoot.add
  rw [if_neg haccept]
  refine ⟨_, blocks', rfl, ⟨?_, ?_, ?_⟩⟩
  · rw [List.map_append]
    exact hblocks'
  · show running.size + 1 = _
    rw [h.size, List.length_append]
    rfl
  · intro last hlast
    rw [List.getLast?_concat] at hlast
    cases hlast
    rfl

/-- An ascending log is folded in as a whole. -/
theorem addAll_folds (events : List StoredEvent)
    (hasc : events.Pairwise fun a b => a.seq < b.seq) :
    ∃ running blocks, RunningRoot.addAll {} events = .ok running ∧
      RunningRoot.Folds running events blocks := by
  induction events using List.reverseRecOn with
  | nil =>
    refine ⟨{}, [], rfl, ⟨Accumulates.nil nodeHash (sha256 []), rfl, ?_⟩⟩
    intro event h
    cases h
  | append_singleton events event ih =>
    have hsplit := List.pairwise_append.mp hasc
    obtain ⟨running, blocks, hfold, hcommitted⟩ := ih hsplit.1
    obtain ⟨running', blocks', hadd, hnext⟩ :=
      @RunningRoot.Folds.add _ _ _ _ hcommitted event fun e he => hsplit.2.2 e he event (by simp)
    refine ⟨running', blocks', ?_, hnext⟩
    unfold RunningRoot.addAll at hfold ⊢
    rw [List.foldlM_append, hfold]
    refine Outcome.bind_of_ok rfl ?_
    rw [List.foldlM_cons, hadd]
    rfl

/-- An event that is not later than the last one changes nothing. -/
theorem RunningRoot.Folds.rejects {running : RunningRoot} {events : List StoredEvent}
    {blocks : List (List Bytes)} (h : RunningRoot.Folds running events blocks) {event last : StoredEvent}
    (hlast : events.getLast? = some last) (hle : event.seq ≤ last.seq) :
    ∃ reason, running.add event = (running, .error reason) := by
  have hsize : running.size ≠ 0 := by
    rw [h.size]
    intro hzero
    rw [List.length_eq_zero_iff.mp hzero] at hlast
    cases hlast
  unfold RunningRoot.add
  rw [if_pos ⟨hsize, by rw [h.last last hlast]; exact hle⟩]
  exact ⟨_, rfl⟩

/-- After any prefix of an ascending stream the peaks are the hashes of
perfect subtrees whose sizes are the binary digits of the prefix length,
the root is the recursive hash of its leaves, and an event not later than
the last one is rejected with the accumulator unchanged. -/
theorem running_root_commitment {stream : List StoredEvent}
    (hasc : stream.Pairwise fun a b => a.seq < b.seq) {pre : List StoredEvent}
    (hpre : pre <+: stream) :
    ∃ running, RunningRoot.addAll {} pre = .ok running ∧ running.size = pre.length ∧
      (∃ blocks : List (List Bytes), blocks.flatten = pre.map leafHash ∧
        blocks.map List.length = (pre.length.bitIndices.map (2 ^ ·)).reverse ∧
        running.peaks.reverse = blocks.map fun b =>
          (b.length, perfectHash nodeHash (sha256 []) (Nat.log2 b.length) b)) ∧
      running.rootHex = hex (merkleTreeHash (pre.map leafHash)) ∧
      ∀ event last, pre.getLast? = some last → event.seq ≤ last.seq →
        ∃ reason, running.add event = (running, .error reason) := by
  obtain ⟨running, blocks, hfold, hcommitted⟩ := addAll_folds pre (hasc.sublist hpre.sublist)
  have hacc := hcommitted.accumulates
  refine ⟨running, hfold, hcommitted.size, ⟨blocks.reverse, ?_, ?_, ?_⟩, ?_, ?_⟩
  · exact hacc.leaves_eq.symm
  · have hsizes := hacc.sizes
    rw [hacc.peaks_eq, List.map_map, List.length_map] at hsizes
    rw [List.map_reverse, ← hsizes]
    rfl
  · rw [hacc.peaks_eq, List.map_reverse]
    congr 1
    apply List.map_congr_left
    intro block hblock
    obtain ⟨k, hk⟩ := hacc.grown.power block hblock
    rw [peak, treeHash_perfect nodeHash (sha256 []) hk, hk, Nat.log2_two_pow]
  · exact congrArg hex hacc.root
  · intro event last hlast hle
    exact hcommitted.rejects hlast hle

omit [Builtins] in
theorem running_root_commitment_three :
    letI := Builtins.checksum
    ∃ running, RunningRoot.addAll {} [⟨1, 0, "claim", []⟩, ⟨4, 0, "chat", []⟩, ⟨5, 0, "chat", []⟩]
        = .ok running ∧ running.peaks.map Prod.fst = [1, 2] := by
  let _ : Builtins := Builtins.checksum
  have hasc : List.Pairwise (fun a b : StoredEvent => a.seq < b.seq)
      [⟨1, 0, "claim", []⟩, ⟨4, 0, "chat", []⟩, ⟨5, 0, "chat", []⟩] := by simp
  obtain ⟨running, hfold, -, ⟨blocks, -, hsizes, hpeaks⟩, -, -⟩ :=
    running_root_commitment hasc (List.prefix_refl _)
  refine ⟨running, hfold, ?_⟩
  rw [← List.reverse_reverse running.peaks, hpeaks, List.map_reverse, List.map_map]
  show (blocks.map List.length).reverse = _
  rw [hsizes, List.reverse_reverse]
  decide

/-! ## What is hashed for a tree -/

/-- The messages hashed for the root of `leaves`, which are leaf hashes of `contents`. -/
def hashedMessages (contents leaves : List Bytes) : List Bytes :=
  [] :: (contents.map (leafPrefix :: ·) ++ (treeNodes nodeHash (sha256 []) leaves).map nodeMessage)

/-- Without a collision the hashes of two trees meet only where what is hashed is the same. -/
theorem apart_of_collisionFree (hsha : Sha256Spelled)
    {contents contents' leaves leaves' : List Bytes}
    (hleaf : ∀ x ∈ leaves, ∃ content ∈ contents, x = sha256 (leafPrefix :: content))
    (hleaf' : ∀ y ∈ leaves', ∃ content ∈ contents', y = sha256 (leafPrefix :: content))
    (h : ∀ m ∈ hashedMessages contents leaves, ∀ m' ∈ hashedMessages contents' leaves',
      sha256 m = sha256 m' → m = m') :
    Apart nodeHash (sha256 []) leaves leaves' := by
  have hcontent : ∀ {cs ls : List Bytes}, ∀ content ∈ cs,
      leafPrefix :: content ∈ hashedMessages cs ls := by
    intro cs ls content hmem
    exact List.mem_cons_of_mem _ (List.mem_append_left _ (List.mem_map_of_mem hmem))
  have hnode : ∀ {cs ls : List Bytes}, ∀ p ∈ treeNodes nodeHash (sha256 []) ls,
      nodeMessage p ∈ hashedMessages cs ls := by
    intro cs ls p hp
    exact List.mem_cons_of_mem _ (List.mem_append_right _ (List.mem_map_of_mem hp))
  have hlength : ∀ {cs ls : List Bytes},
      (∀ x ∈ ls, ∃ content ∈ cs, x = sha256 (leafPrefix :: content)) →
      ∀ p ∈ treeNodes nodeHash (sha256 []) ls, p.1.length = 32 := by
    intro cs ls hls p hp
    refine (@good_treeNodes _ nodeHash (sha256 []) (fun digest : Bytes => digest.length = 32)
      (fun a b => hsha.length _) _ ?_ p hp).1
    intro x hx
    obtain ⟨content, -, rfl⟩ := hls x hx
    exact hsha.length _
  have hempty : ∀ {cs ls : List Bytes}, [] ∈ hashedMessages cs ls := List.mem_cons_self
  refine ⟨?_, ?_, ?_, ?_, ?_, ?_, ?_⟩
  · intro p hp q hq hsame
    have hmessage := h _ (hnode p hp) _ (hnode q hq) hsame
    have hjoin : p.1 ++ p.2 = q.1 ++ q.2 := by simpa [nodeMessage] using hmessage
    obtain ⟨hfst, hsnd⟩ := List.append_inj hjoin
      ((hlength hleaf p hp).trans (hlength hleaf' q hq).symm)
    exact Prod.ext hfst hsnd
  · intro x hx q hq hsame
    obtain ⟨content, hmem, rfl⟩ := hleaf x hx
    exact absurd (List.cons.inj (h _ (hcontent _ hmem) _ (hnode q hq) hsame)).1 (by decide)
  · intro p hp y hy hsame
    obtain ⟨content, hmem, rfl⟩ := hleaf' y hy
    exact absurd (List.cons.inj (h _ (hnode p hp) _ (hcontent _ hmem) hsame)).1 (by decide)
  · intro y hy hsame
    obtain ⟨content, hmem, rfl⟩ := hleaf' y hy
    exact absurd (h _ hempty _ (hcontent _ hmem) hsame) (List.cons_ne_nil _ _).symm
  · intro x hx hsame
    obtain ⟨content, hmem, rfl⟩ := hleaf x hx
    exact absurd (h _ (hcontent _ hmem) _ hempty hsame) (List.cons_ne_nil _ _)
  · intro q hq hsame
    exact absurd (h _ hempty _ (hnode q hq) hsame) (List.cons_ne_nil _ _).symm
  · intro p hp hsame
    exact absurd (h _ (hnode p hp) _ hempty hsame) (List.cons_ne_nil _ _)

/-! ## Inclusion proofs pin the leaf -/

/-- The pairs hashed while a proof is verified. -/
def proofNodes (proof : InclusionProof) : List (Bytes × Bytes) :=
  match fromHex proof.leaf, proof.path.mapM fromHex with
  | some leaf, some path =>
    pathNodes nodeHash proof.index.toNat proof.treeSize.toNat leaf path
  | _, _ => []

/-- SHA-256 has no collision between the interior nodes hashed for the
tree and those hashed for the proof. -/
def NodesCollisionFree (leaves : List Bytes) (proof : InclusionProof) : Prop :=
  ∀ p ∈ proofNodes proof, ∀ q ∈ treeNodes nodeHash (sha256 []) leaves,
    nodeHash p.1 p.2 = nodeHash q.1 q.2 → nodeMessage p = nodeMessage q

/-- The leaf of a proof is the leaf hash of the event at its index. -/
def ProvesLeaf (selected : List StoredEvent) (proof : InclusionProof) : Prop :=
  ∃ event, selected[proof.index.toNat]? = some event ∧
    fromHex proof.leaf = some (leafHash event)

omit [Builtins] in
theorem mapM_fromHex_hex (nodes : List Bytes) : (nodes.map hex).mapM fromHex = some nodes := by
  induction nodes with
  | nil => rfl
  | cons node rest ih =>
    rw [List.map_cons, List.mapM_cons, fromHex_hex, ih]
    rfl

omit [Builtins] in
theorem selectedEvents_ascending {events : List StoredEvent}
    (hseq : (events.map StoredEvent.seq).Nodup) (throughSeq : Option Int) :
    (selectedEvents events throughSeq).Pairwise fun a b => a.seq < b.seq := by
  have hordered : (sortedBy (fun a b : Int => decide (a < b)) StoredEvent.seq events).Pairwise
      fun a b => a.seq < b.seq := by
    have hle := pairwise_sortedBy (fun a b : Int => decide (a < b)) (P := fun _ => True)
      (by simp; omega) (by simp; omega) StoredEvent.seq (fun e (_ : e ∈ events) => trivial)
    have hne : (sortedBy (fun a b : Int => decide (a < b)) StoredEvent.seq events).Pairwise
        fun a b => a.seq ≠ b.seq := by
      rw [← List.pairwise_map (R := (· ≠ ·))]
      exact ((sortedBy_perm _ _ events).map StoredEvent.seq).nodup_iff.mpr hseq
    refine (hle.and hne).imp ?_
    intro a b h
    have h1 := of_decide_eq_false h.1
    have h2 := h.2
    omega
  unfold selectedEvents
  cases throughSeq with
  | none => exact hordered
  | some ceiling => exact hordered.filter _

theorem buildRoot_ok {events : List StoredEvent} (hseq : (events.map StoredEvent.seq).Nodup)
    (throughSeq : Option Int) :
    ∃ root, buildRoot events throughSeq = .ok root ∧
      root.root = hex (merkleTreeHash ((selectedEvents events throughSeq).map leafHash)) ∧
      root.treeSize = (selectedEvents events throughSeq).length := by
  obtain ⟨running, blocks, hfold, hcommitted⟩ :=
    addAll_folds _ (selectedEvents_ascending hseq throughSeq)
  refine ⟨running.commit throughSeq, ?_, ?_, hcommitted.size⟩
  · rw [buildRoot, hfold]
    rfl
  · exact congrArg hex hcommitted.accumulates.root

theorem buildProof_verifies {events : List StoredEvent} {throughSeq : Option Int}
    {event : StoredEvent} (hmem : event ∈ selectedEvents events throughSeq) :
    ∃ proof, buildProof events event.seq throughSeq = some proof ∧
      proof.root = hex (merkleTreeHash ((selectedEvents events throughSeq).map leafHash)) ∧
      verifyInclusion proof = .ok true := by
  unfold buildProof
  dsimp only
  generalize selectedEvents events throughSeq = selected at hmem
  cases hfind : selected.findIdx? fun e => e.seq = event.seq with
  | none =>
    rw [List.findIdx?_eq_none_iff] at hfind
    have hno := hfind event hmem
    simp at hno
  | some index =>
    obtain ⟨hindex, -⟩ := List.findIdx?_eq_some_iff_getElem.mp hfind
    refine ⟨_, rfl, rfl, ?_⟩
    generalize hleaves : selected.map leafHash = leaves
    have hlen : index < leaves.length := by
      rw [← hleaves, List.length_map]
      exact hindex
    have hleaf : leaves[index]? = some (leaves.getD index []) := by
      rw [List.getD_eq_getElem?_getD, List.getElem?_eq_getElem hlen]
      rfl
    have hroot := rootFromPath_auditPath nodeHash (sha256 []) hleaf
    have hbounds : ¬ ((index : Int) < 0 ∨ (index : Int) ≥ leaves.length) := by omega
    unfold verifyInclusion
    dsimp only
    rw [if_neg hbounds, List.length_map, auditPath_length, Int.toNat_natCast, Int.toNat_natCast,
      if_neg (by simp), fromHex_hex, mapM_fromHex_hex]
    dsimp only
    rw [hroot]
    show compareDigest _ (hex (merkleTreeHash leaves)) = _
    unfold compareDigest merkleTreeHash
    rw [if_pos ⟨isAscii_hex _, isAscii_hex _⟩, BEq.rfl]

/-- What a proof that is accepted holds. -/
theorem verifyInclusion_accepted {proof : InclusionProof} (h : verifyInclusion proof = .ok true) :
    ∃ leaf path computed, fromHex proof.leaf = some leaf ∧ proof.path.mapM fromHex = some path ∧
      0 ≤ proof.index ∧ proof.index < proof.treeSize ∧
      rootFromPath nodeHash proof.index.toNat proof.treeSize.toNat leaf path = some computed ∧
      proof.root = hex computed := by
  unfold verifyInclusion at h
  split at h
  · cases h
  rename_i hbounds
  split at h
  · cases h
  split at h
  · rename_i leaf path hleaf hpath
    split at h
    · rename_i computed hcomputed
      have hsame := compareDigest_ok h
      exact ⟨leaf, path, computed, hleaf, hpath, by omega, by omega, hcomputed,
        (eq_of_beq hsame.symm).symm⟩
    · cases h
  · cases h

/-- Without collisions, a combined pair of hashes is told apart from any
other pair one of whose parts is a hash. -/
theorem NodesCollisionFree.separates {leaves : List Bytes} {proof : InclusionProof}
    (h : NodesCollisionFree leaves proof) :
    Separates nodeHash (fun digest => digest.length = 32) (proofNodes proof)
      (treeNodes nodeHash (sha256 []) leaves) := by
  intro p hp q hq hgood hleft hright hsame
  have hmessage := h p hp q hq hsame
  have hjoin : p.1 ++ p.2 = q.1 ++ q.2 := by
    simpa [nodeMessage] using hmessage
  have hlen : p.1.length + p.2.length = 64 := by
    have := congrArg List.length hjoin
    simp only [List.length_append] at this
    omega
  obtain ⟨hfst, hsnd⟩ := List.append_inj hjoin (by omega)
  exact Prod.ext hfst hsnd

/-- A built proof verifies against the committed root. An accepted proof
whose root and size are those of a committed log holds the leaf hash of
the event at its index exactly when its leaf decodes to 32 bytes, and as
text exactly when it is the hex form of 32 bytes: the verifier does not
check the width of the hashes it joins. -/
theorem inclusion_proofs (hsha : Sha256Spelled) {events : List StoredEvent}
    (hseq : (events.map StoredEvent.seq).Nodup) (throughSeq : Option Int) :
    ∃ root, buildRoot events throughSeq = .ok root ∧
      (∀ event ∈ selectedEvents events throughSeq, ∃ proof,
        buildProof events event.seq throughSeq = some proof ∧ proof.root = root.root ∧
          verifyInclusion proof = .ok true) ∧
      ∀ proof, NodesCollisionFree ((selectedEvents events throughSeq).map leafHash) proof →
        verifyInclusion proof = .ok true → proof.root = root.root →
        proof.treeSize = root.treeSize →
        (ProvesLeaf (selectedEvents events throughSeq) proof ↔
          ∃ digest, fromHex proof.leaf = some digest ∧ digest.length = 32) ∧
        ((∃ event, (selectedEvents events throughSeq)[proof.index.toNat]? = some event ∧
            proof.leaf = hex (leafHash event)) ↔
          ∃ digest : Bytes, digest.length = 32 ∧ proof.leaf = hex digest) := by
  obtain ⟨root, hbuilt, hroot, hsize⟩ := buildRoot_ok hseq throughSeq
  refine ⟨root, hbuilt, ?_, ?_⟩
  · intro event hmem
    obtain ⟨proof, hproof, hsame, hverified⟩ := buildProof_verifies hmem
    exact ⟨proof, hproof, hsame.trans hroot.symm, hverified⟩
  intro proof hfree haccepted hsameRoot hsameSize
  obtain ⟨leaf, path, computed, hleaf, hpath, hlow, hhigh, hcomputed, hhex⟩ :=
    verifyInclusion_accepted haccepted
  have htree : computed = merkleTreeHash ((selectedEvents events throughSeq).map leafHash) := by
    apply hex_inj
    rw [← hhex, hsameRoot, hroot]
  have hsizeNat : proof.treeSize.toNat =
      ((selectedEvents events throughSeq).map leafHash).length := by
    rw [hsameSize, hsize, List.length_map, Int.toNat_natCast]
  have hpins : leaf.length = 32 → ∃ event,
      (selectedEvents events throughSeq)[proof.index.toNat]? = some event ∧
        leaf = leafHash event := by
    intro hwidth
    have hseparates := hfree.separates
    rw [proofNodes, hleaf, hpath] at hseparates
    dsimp only at hseparates
    rw [hsizeNat] at hseparates hcomputed
    have hfound := rootFromPath_sound nodeHash (sha256 [])
      (fun a b => hsha.length (nodeMessage (a, b)))
      (by
        intro digest hdigest
        obtain ⟨event, -, rfl⟩ := List.mem_map.mp hdigest
        exact hsha.length _)
      (by omega) hwidth hseparates (hcomputed.trans (congrArg some htree))
    rw [List.getElem?_map, Option.map_eq_some_iff] at hfound
    obtain ⟨event, hevent, hsame⟩ := hfound
    exact ⟨event, hevent, hsame.symm⟩
  constructor
  · constructor
    · intro hproves
      obtain ⟨event, -, hdecoded⟩ := hproves
      exact ⟨leafHash event, hdecoded, hsha.length _⟩
    · intro hwidth
      obtain ⟨digest, hdigest, hlen⟩ := hwidth
      rw [hleaf] at hdigest
      cases hdigest
      obtain ⟨event, hevent, hsame⟩ := hpins hlen
      exact ⟨event, hevent, hsame ▸ hleaf⟩
  · constructor
    · intro hproves
      obtain ⟨event, -, htext⟩ := hproves
      exact ⟨leafHash event, hsha.length _, htext⟩
    · intro hwidth
      obtain ⟨digest, hlen, htext⟩ := hwidth
      rw [htext, fromHex_hex] at hleaf
      cases hleaf
      obtain ⟨event, hevent, hsame⟩ := hpins hlen
      exact ⟨event, hevent, hsame ▸ htext⟩

/-! ## A log of two events -/

omit [Builtins] in
theorem split_two : largestPowerOfTwoBelow 2 = 1 := rfl

theorem treeNodes_two (a b : Bytes) : treeNodes nodeHash (sha256 []) [a, b] = [(a, b)] := by
  have hsplit : largestPowerOfTwoBelow [a, b].length = 1 := split_two
  rw [treeNodes, if_neg (by simp), hsplit]
  show (treeHash nodeHash (sha256 []) [a], treeHash nodeHash (sha256 []) [b]) ::
    (treeNodes nodeHash (sha256 []) [a] ++ treeNodes nodeHash (sha256 []) [b]) = _
  rw [treeHash_singleton, treeHash_singleton, treeNodes, treeNodes, if_pos (by simp),
    if_pos (by simp)]
  rfl

theorem rootFromPath_two (leaf sibling : Bytes) :
    rootFromPath nodeHash 0 2 leaf [sibling] = some (nodeHash leaf sibling) := by
  rw [rootFromPath, if_neg (by simp), split_two]
  show Option.map _ (rootFromPath nodeHash 0 1 leaf []) = _
  rw [rootFromPath, if_pos (by simp)]
  rfl

theorem pathNodes_two (leaf sibling : Bytes) :
    pathNodes nodeHash 0 2 leaf [sibling] = [(leaf, sibling)] := by
  rw [pathNodes, if_neg (by simp), split_two]
  show (Option.map _ (rootFromPath nodeHash 0 1 leaf [])).toList ++
    pathNodes nodeHash 0 1 leaf [] = _
  rw [rootFromPath, pathNodes, if_pos (by simp), if_pos (by simp)]
  rfl

/-- A proof at index 0 of two leaves whose leaf and sibling join to the two
leaf hashes is accepted, and hashes no message the tree does not. -/
theorem joined_accepted {a b leaf sibling : Bytes} (hjoin : leaf ++ sibling = a ++ b)
    (seq : Int) :
    let proof : InclusionProof :=
      { seq := seq
        index := 0
        treeSize := 2
        leaf := hex leaf
        path := [hex sibling]
        root := hex (merkleTreeHash [a, b]) }
    verifyInclusion proof = .ok true ∧ NodesCollisionFree [a, b] proof := by
  intro proof
  have hmessage : nodeMessage (leaf, sibling) = nodeMessage (a, b) := by
    simp [nodeMessage, hjoin]
  have hpath : [hex sibling].mapM fromHex = some [sibling] := mapM_fromHex_hex [sibling]
  constructor
  · have hroot : merkleTreeHash [a, b] = nodeHash leaf sibling := by
      have htwo : merkleTreeHash [a, b] = nodeHash a b := by
        have hsplit : largestPowerOfTwoBelow [a, b].length = 1 := split_two
        rw [merkleTreeHash, treeHash_split nodeHash (sha256 []) (by simp), hsplit]
        show nodeHash (treeHash nodeHash (sha256 []) [a]) (treeHash nodeHash (sha256 []) [b]) = _
        rw [treeHash_singleton, treeHash_singleton]
      rw [htwo, nodeHash, nodeHash, hmessage]
    have hlength : auditPathLength 0 2 = 1 := by decide +kernel
    unfold verifyInclusion
    dsimp only [proof]
    rw [if_neg (by decide), hpath, fromHex_hex]
    show (if [hex sibling].length ≠ auditPathLength 0 2 then _ else _) = _
    rw [hlength, if_neg (by simp)]
    show (match rootFromPath nodeHash 0 2 leaf [sibling] with
      | some computed => compareDigest (hex computed) (hex (merkleTreeHash [a, b]))
      | none => .error "list index out of range") = _
    rw [rootFromPath_two, hroot]
    show compareDigest _ _ = _
    unfold compareDigest
    rw [if_pos ⟨isAscii_hex _, isAscii_hex _⟩, BEq.rfl]
  · intro p hp q hq _
    have hnodes : proofNodes proof = [(leaf, sibling)] := by
      unfold proofNodes
      dsimp only [proof]
      rw [fromHex_hex, hpath]
      exact pathNodes_two leaf sibling
    rw [hnodes, List.mem_singleton] at hp
    rw [treeNodes_two, List.mem_singleton] at hq
    rw [hp, hq, hmessage]

def twoEvents : List StoredEvent := [⟨1, 0, "claim", []⟩, ⟨2, 0, "chat", []⟩]

omit [Builtins] in
theorem inclusion_proofs_two :
    letI := Builtins.checksum
    ∃ proof, verifyInclusion proof = .ok true ∧
      ProvesLeaf (selectedEvents twoEvents none) proof := by
  let _ : Builtins := Builtins.checksum
  have hseq : (twoEvents.map StoredEvent.seq).Nodup := by decide
  obtain ⟨root, hbuilt, -, hsound⟩ := inclusion_proofs sha256Spelled_checksum hseq none
  obtain ⟨built, hbuilt', hroot, hsize⟩ := buildRoot_ok hseq none
  have hsame : root = built := Except.ok.inj (hbuilt.symm.trans hbuilt')
  subst hsame
  have haccepted := joined_accepted (a := leafHash ⟨1, 0, "claim", []⟩)
    (b := leafHash ⟨2, 0, "chat", []⟩) rfl 1
  refine ⟨_, haccepted.1, (hsound _ haccepted.2 haccepted.1 hroot.symm ?_).1.mpr ?_⟩
  · rw [hsize]
    rfl
  · exact ⟨_, fromHex_hex _, sha256Spelled_checksum.length _⟩

omit [Builtins] in
/-- An empty leaf whose one sibling is both leaf hashes. -/
theorem forged_leaf_accepted :
    letI := Builtins.checksum
    ∃ root proof, buildRoot twoEvents none = .ok root ∧ Sha256Spelled ∧
      NodesCollisionFree ((selectedEvents twoEvents none).map leafHash) proof ∧
      verifyInclusion proof = .ok true ∧ proof.root = root.root ∧
      proof.treeSize = root.treeSize ∧ proof.leaf = "" ∧
      ¬ ProvesLeaf (selectedEvents twoEvents none) proof := by
  let _ : Builtins := Builtins.checksum
  have hseq : (twoEvents.map StoredEvent.seq).Nodup := by decide
  obtain ⟨root, hbuilt, hroot, hsize⟩ := buildRoot_ok hseq none
  have haccepted := joined_accepted (a := leafHash ⟨1, 0, "claim", []⟩)
    (b := leafHash ⟨2, 0, "chat", []⟩) (List.nil_append _) 1
  refine ⟨root, _, hbuilt, sha256Spelled_checksum, haccepted.2, haccepted.1, hroot.symm, ?_, rfl, ?_⟩
  · rw [hsize]
    rfl
  · intro hproves
    obtain ⟨event, -, hdecoded⟩ := hproves
    have hempty := Option.some.inj ((fromHex_hex []).symm.trans hdecoded)
    have hlen := congrArg List.length hempty
    rw [leafHash, sha256Spelled_checksum.length] at hlen
    cases hlen

end SynapseChannel
