import SynapseChannel.Core.Streaming
import SynapseChannel.Lib.Outcome

/-!
# Core — StreamReassembly

What a consumer makes of a stream whose frames are lost, repeated, reordered
and mixed with foreign ones. Producer and consumer count alike, so every frame
is accepted exactly when it is the next one, and the text is that of a prefix.
-/

namespace SynapseChannel

open Py

namespace Streaming

/-! ## The wire form is undone -/

theorem FrameType.ofText_text (frameType : FrameType) :
    FrameType.ofText frameType.text = some frameType := by
  cases frameType <;> decide

theorem parse_encode [Builtins] {frame : StreamFrame} (hclean : strip frame.streamId = frame.streamId)
    (hid : frame.streamId ≠ "") : parseStreamFrame (encodeStreamFrame frame) = some frame := by
  have hkind : (Members.getD (encodeStreamFrame frame) "kind" (.str "")).toStr = streamFrameKind :=
    rfl
  have hstream : (Members.getD (encodeStreamFrame frame) "stream_id" (.str "")).toStr =
      frame.streamId := rfl
  have htype : (Members.getD (encodeStreamFrame frame) "frame_type" (.str "")).toStr =
      frame.frameType.text := rfl
  have htext : (Members.getD (encodeStreamFrame frame) "text" (.str "")).toStr = frame.text := rfl
  have hseq : parseSeq (encodeStreamFrame frame) = some (frame.seq : Int) := rfl
  unfold parseStreamFrame
  rw [hkind, hstream, htype, htext, hseq, hclean, FrameType.ofText_text]
  simp [hid]

/-! ## One frame -/

/-- The chunk bodies among some frames. -/
def chunkTexts (frames : List StreamFrame) : List String :=
  frames.filterMap fun frame => if frame.frameType = .chunk then some frame.text else none

theorem chunkTexts_append (frames more : List StreamFrame) :
    chunkTexts (frames ++ more) = chunkTexts frames ++ chunkTexts more := List.filterMap_append

/-- What an accepted frame was, and what it did. -/
structure Taken (consumer : StreamConsumer) (frame : StreamFrame) (next : StreamConsumer) : Prop where
  stream : frame.streamId = consumer.streamId
  running : consumer.closed = false
  seq : frame.seq = consumer.expectedSeq
  same : next.streamId = consumer.streamId
  expected : next.expectedSeq = consumer.expectedSeq + 1
  parts : next.parts = consumer.parts ++ chunkTexts [frame]
  closed : next.closed = true ↔ frame.frameType = .done ∨ frame.frameType = .abort

/-- By its type, a frame is refused without a trace or taken. -/
theorem acceptBody_cases (consumer : StreamConsumer) (frame : StreamFrame)
    (hrunning : consumer.closed = false) :
    (∃ fault, consumer.acceptBody frame = (consumer, .error fault)) ∨
      ∃ next, consumer.acceptBody frame = (next, .ok frame.frameType) ∧
        next.streamId = consumer.streamId ∧ next.expectedSeq = consumer.expectedSeq ∧
        next.parts = consumer.parts ++ chunkTexts [frame] ∧
        (next.closed = true ↔ frame.frameType = .done ∨ frame.frameType = .abort) := by
  unfold StreamConsumer.acceptBody chunkTexts
  cases htype : frame.frameType with
  | «open» =>
      unfold StreamConsumer.acceptOpen
      dsimp only
      split
      · exact .inl ⟨_, rfl⟩
      · exact .inr ⟨_, rfl, rfl, rfl, by simp [htype], by simp [hrunning]⟩
  | chunk =>
      unfold StreamConsumer.acceptChunk
      dsimp only
      split
      · exact .inl ⟨_, rfl⟩
      · split
        · exact .inl ⟨_, rfl⟩
        · split
          · exact .inl ⟨_, rfl⟩
          · exact .inr ⟨_, rfl, rfl, rfl, by simp [htype], by simp [hrunning]⟩
  | done =>
      unfold StreamConsumer.acceptTerminal
      dsimp only
      split
      · exact .inl ⟨_, rfl⟩
      · rw [htype, if_neg (by simp)]
        exact .inr ⟨_, rfl, rfl, rfl, by simp [htype], by simp⟩
  | abort =>
      unfold StreamConsumer.acceptTerminal
      dsimp only
      split
      · exact .inl ⟨_, rfl⟩
      · rw [htype]
        exact .inr ⟨_, rfl, rfl, rfl, by simp [htype], by simp⟩

/-- A frame is refused without a trace, or it is the next one and taken. -/
theorem accept_cases (consumer : StreamConsumer) (frame : StreamFrame) :
    (∃ fault, consumer.accept frame = (consumer, .error fault)) ∨
      ∃ next, consumer.accept frame = (next, .ok frame.frameType) ∧ Taken consumer frame next := by
  unfold StreamConsumer.accept
  split
  · exact .inl ⟨_, rfl⟩
  · rename_i hstream
    split
    · exact .inl ⟨_, rfl⟩
    · rename_i hclosed
      have hrunning : consumer.closed = false := Bool.not_eq_true _ |>.mp hclosed
      split
      · exact .inl ⟨_, rfl⟩
      · rename_i hseq
        rcases acceptBody_cases consumer frame hrunning with
          ⟨fault, hbody⟩ | ⟨next, hbody, hsame, hexpected, hparts, hnext⟩
        · rw [hbody]
          exact .inl ⟨fault, rfl⟩
        · rw [hbody]
          exact .inr ⟨_, rfl, not_not.mp hstream, hrunning, not_not.mp hseq, hsame,
            congrArg (· + 1) hexpected, hparts, hnext⟩

/-- A refused frame leaves the consumer as it was. -/
theorem accept_refused {consumer : StreamConsumer} {frame : StreamFrame} {fault : StreamError}
    (h : (consumer.accept frame).2 = .error fault) : (consumer.accept frame).1 = consumer := by
  rcases accept_cases consumer frame with ⟨other, heq⟩ | ⟨next, heq, -⟩
  · rw [heq]
  · rw [heq] at h
    cases h

theorem accept_taken {consumer : StreamConsumer} {frame : StreamFrame} {frameType : FrameType}
    (h : (consumer.accept frame).2 = .ok frameType) :
    frameType = frame.frameType ∧ Taken consumer frame (consumer.accept frame).1 := by
  rcases accept_cases consumer frame with ⟨fault, heq⟩ | ⟨next, heq, htaken⟩
  · rw [heq] at h
    cases h
  · rw [heq] at h ⊢
    cases h
    exact ⟨rfl, htaken⟩

/-! ## Frames in order -/

/-- The consumer after frames that it takes one after the other. -/
def replay : StreamConsumer → List StreamFrame → Option StreamConsumer
  | consumer, [] => some consumer
  | consumer, frame :: rest =>
    match (consumer.accept frame).2 with
    | .ok _ => replay (consumer.accept frame).1 rest
    | .error _ => none

theorem replay_accepted {consumer : StreamConsumer} {frame : StreamFrame} {frameType : FrameType}
    (h : (consumer.accept frame).2 = .ok frameType) (rest : List StreamFrame) :
    replay consumer (frame :: rest) = replay (consumer.accept frame).1 rest := by
  rw [replay, h]

theorem replay_cons {consumer last : StreamConsumer} {frame : StreamFrame}
    {rest : List StreamFrame} (h : replay consumer (frame :: rest) = some last) :
    (consumer.accept frame).2 = .ok frame.frameType ∧
      Taken consumer frame (consumer.accept frame).1 ∧
      replay (consumer.accept frame).1 rest = some last := by
  unfold replay at h
  split at h
  · rename_i accepted haccepted
    obtain ⟨rfl, htaken⟩ := accept_taken haccepted
    exact ⟨haccepted, htaken, h⟩
  · cases h

theorem replay_append {consumer next : StreamConsumer} {frames more : List StreamFrame}
    (h : replay consumer frames = some next) :
    replay consumer (frames ++ more) = replay next more := by
  induction frames generalizing consumer with
  | nil =>
      cases h
      rfl
  | cons frame rest ih =>
      obtain ⟨haccepted, -, hrest⟩ := replay_cons h
      rw [List.cons_append, replay_accepted haccepted]
      exact ih hrest

theorem replay_concat {consumer next : StreamConsumer} {frames : List StreamFrame}
    {frame : StreamFrame} {frameType : FrameType} (h : replay consumer frames = some next)
    (haccepted : (next.accept frame).2 = .ok frameType) :
    replay consumer (frames ++ [frame]) = some (next.accept frame).1 := by
  rw [replay_append h, replay_accepted haccepted]
  rfl

/-- What a consumer has become of frames it took in order. -/
theorem replay_spec {consumer last : StreamConsumer} {frames : List StreamFrame}
    (h : replay consumer frames = some last) :
    last.streamId = consumer.streamId ∧
      last.expectedSeq = consumer.expectedSeq + frames.length ∧
      last.parts = consumer.parts ++ chunkTexts frames := by
  induction frames generalizing consumer with
  | nil =>
      cases h
      exact ⟨rfl, rfl, by simp [chunkTexts]⟩
  | cons frame rest ih =>
      obtain ⟨-, htaken, hrest⟩ := replay_cons h
      obtain ⟨hsame, hexpected, hparts⟩ := ih hrest
      refine ⟨hsame.trans htaken.same, ?_, ?_⟩
      · rw [hexpected, htaken.expected, List.length_cons]
        omega
      · have hsplit : chunkTexts (frame :: rest) = chunkTexts [frame] ++ chunkTexts rest :=
          chunkTexts_append [frame] rest
        rw [hparts, htaken.parts, hsplit, List.append_assoc]

/-- Nothing is taken behind a terminal frame. -/
theorem replay_terminal {consumer last : StreamConsumer} {before after : List StreamFrame}
    {frame : StreamFrame} (h : replay consumer (before ++ frame :: after) = some last)
    (hterminal : frame.frameType = .done ∨ frame.frameType = .abort) : after = [] := by
  induction before generalizing consumer with
  | nil =>
      obtain ⟨-, htaken, hrest⟩ := replay_cons h
      cases after with
      | nil => rfl
      | cons next after =>
          obtain ⟨-, hnext, -⟩ := replay_cons hrest
          have hclosed := htaken.closed.mpr hterminal
          rw [hnext.running] at hclosed
          cases hclosed
  | cons first before ih =>
      obtain ⟨-, -, hrest⟩ := replay_cons h
      exact ih hrest

/-! ## Producer and consumer count alike -/

/-- A consumer with the bounds of a producer that took all its frames. -/
structure Mirrors (producer : StreamProducer) (consumer : StreamConsumer) : Prop where
  stream : consumer.streamId = producer.streamId
  bounds : consumer.bounds = producer.bounds
  seq : consumer.expectedSeq = producer.seq
  opened : consumer.opened = producer.opened
  closed : consumer.closed = producer.closed
  chunks : consumer.chunks = producer.chunks
  totalBytes : consumer.totalBytes = producer.totalBytes
  order : producer.closed = true → producer.opened = true

/-- Why a call emits a frame: which frame, and what it does to the producer. -/
inductive Emits (producer : StreamProducer) : ProducerCall → StreamFrame → StreamProducer → Prop
  | open (h : producer.opened = false) :
    Emits producer .open ⟨producer.streamId, producer.seq, .open, ""⟩
      { producer with opened := true, seq := producer.seq + 1 }
  | chunk {text : String} (hopened : producer.opened = true) (hclosed : producer.closed = false)
      (hsize : text.utf8ByteSize ≤ producer.bounds.maxChunkBytes)
      (hcount : producer.chunks < producer.bounds.maxChunks)
      (htotal : producer.totalBytes + text.utf8ByteSize ≤ producer.bounds.maxTotalBytes) :
    Emits producer (.chunk text) ⟨producer.streamId, producer.seq, .chunk, text⟩
      { producer with
        chunks := producer.chunks + 1
        totalBytes := producer.totalBytes + text.utf8ByteSize
        seq := producer.seq + 1 }
  | terminal {call : ProducerCall} {frameType : FrameType} {text : String}
      (hterminal : frameType = .done ∨ frameType = .abort)
      (hopened : producer.opened = true) (hclosed : producer.closed = false) :
    Emits producer call ⟨producer.streamId, producer.seq, frameType, text⟩
      { producer with closed := true, seq := producer.seq + 1 }

theorem emits_close {producer : StreamProducer} {call : ProducerCall} {frameType : FrameType}
    {text : String} (hterminal : frameType = .done ∨ frameType = .abort) :
    (∃ fault, producer.close frameType text = (producer, .error fault)) ∨
      ∃ frame next, producer.close frameType text = (next, .ok frame) ∧
        Emits producer call frame next := by
  unfold StreamProducer.close
  split
  · exact .inl ⟨_, rfl⟩
  · rename_i hopened
    split
    · exact .inl ⟨_, rfl⟩
    · rename_i hclosed
      exact .inr ⟨_, _, rfl, .terminal hterminal (by simpa using hopened) (by simpa using hclosed)⟩

/-- A call is refused without a trace or emits a frame. -/
theorem call_cases (producer : StreamProducer) (call : ProducerCall) :
    (∃ fault, producer.call call = (producer, .error fault)) ∨
      ∃ frame next, producer.call call = (next, .ok frame) ∧ Emits producer call frame next := by
  cases call with
  | «open» =>
      unfold StreamProducer.call StreamProducer.open
      dsimp only
      split
      · exact .inl ⟨_, rfl⟩
      · rename_i hopened
        exact .inr ⟨_, _, rfl, .open (by simpa using hopened)⟩
  | chunk text =>
      unfold StreamProducer.call StreamProducer.chunk
      dsimp only
      split
      · exact .inl ⟨_, rfl⟩
      · rename_i hrunning
        split
        · exact .inl ⟨_, rfl⟩
        · rename_i hsize
          split
          · exact .inl ⟨_, rfl⟩
          · rename_i hcount
            split
            · exact .inl ⟨_, rfl⟩
            · rename_i htotal
              have hstate : producer.opened = true ∧ producer.closed = false := by
                simpa using hrunning
              exact .inr ⟨_, _, rfl, .chunk hstate.1 hstate.2 (by omega) (by omega) (by omega)⟩
  | done => exact emits_close (.inl rfl)
  | abort reason => exact emits_close (.inr rfl)

/-- The mirroring consumer takes the frame that a producer emits. -/
theorem Mirrors.emits {producer next : StreamProducer} {consumer : StreamConsumer}
    {call : ProducerCall} {frame : StreamFrame} (h : Mirrors producer consumer)
    (hemits : Emits producer call frame next) :
    frame.streamId = producer.streamId ∧ frame.seq = producer.seq ∧
      next.streamId = producer.streamId ∧ next.seq = producer.seq + 1 ∧
      (consumer.accept frame).2 = .ok frame.frameType ∧
      Mirrors next (consumer.accept frame).1 := by
  have hrunning : producer.closed = false := by
    cases hemits with
    | «open» hopened =>
        cases hclosed : producer.closed with
        | false => rfl
        | true =>
            rw [h.order hclosed] at hopened
            cases hopened
    | chunk _ hclosed _ _ _ => exact hclosed
    | terminal _ _ hclosed => exact hclosed
  have hclosed : ¬ consumer.closed = true := by
    rw [h.closed, hrunning]
    exact Bool.false_ne_true
  have haccept : ∀ {body accepted : FrameType} {text : String} {after : StreamConsumer},
      consumer.acceptBody ⟨producer.streamId, producer.seq, body, text⟩ = (after, .ok accepted) →
        consumer.accept ⟨producer.streamId, producer.seq, body, text⟩ =
          ({ after with expectedSeq := after.expectedSeq + 1 }, .ok accepted) := by
    intro body accepted text after hbody
    unfold StreamConsumer.accept
    rw [if_neg (not_not.mpr h.stream.symm), if_neg hclosed, if_neg (not_not.mpr h.seq.symm), hbody]
  cases hemits with
  | «open» hopened =>
      have hbody : consumer.acceptBody ⟨producer.streamId, producer.seq, .open, ""⟩ =
          ({ consumer with opened := true }, .ok .open) := by
        show consumer.acceptOpen = _
        unfold StreamConsumer.acceptOpen
        rw [if_neg (by rw [h.opened, hopened]; exact Bool.false_ne_true)]
      rw [haccept hbody]
      exact ⟨rfl, rfl, rfl, rfl, rfl, h.stream, h.bounds, congrArg (· + 1) h.seq, rfl, h.closed,
        h.chunks, h.totalBytes, fun _ => rfl⟩
  | @chunk text hopened _ hsize hcount htotal =>
      have hbody : consumer.acceptBody ⟨producer.streamId, producer.seq, .chunk, text⟩ =
          ({ consumer with
              chunks := consumer.chunks + 1
              totalBytes := consumer.totalBytes + text.utf8ByteSize
              parts := consumer.parts ++ [text] }, .ok .chunk) := by
        show consumer.acceptChunk text = _
        unfold StreamConsumer.acceptChunk
        dsimp only
        rw [h.bounds, h.chunks, h.totalBytes, h.opened, hopened, if_neg (by simp),
          if_neg (by simpa using ⟨hsize, hcount⟩), if_neg (by omega)]
      rw [haccept hbody]
      exact ⟨rfl, rfl, rfl, rfl, rfl, h.stream, h.bounds, congrArg (· + 1) h.seq, h.opened,
        h.closed, congrArg (· + 1) h.chunks, congrArg (· + text.utf8ByteSize) h.totalBytes,
        h.order⟩
  | @terminal _ frameType text hterminal hopened _ =>
      have hopen : ¬ (!consumer.opened) = true := by
        rw [h.opened, hopened]
        exact Bool.false_ne_true
      have hbody : ∃ after, consumer.acceptBody ⟨producer.streamId, producer.seq, frameType, text⟩ =
          (after, .ok frameType) ∧ after.closed = true ∧ after.opened = consumer.opened ∧
          after.streamId = consumer.streamId ∧ after.bounds = consumer.bounds ∧
          after.expectedSeq = consumer.expectedSeq ∧ after.chunks = consumer.chunks ∧
          after.totalBytes = consumer.totalBytes := by
        rcases hterminal with rfl | rfl
        · refine ⟨{ consumer with closed := true }, ?_, rfl, rfl, rfl, rfl, rfl, rfl, rfl⟩
          show consumer.acceptTerminal _ = _
          unfold StreamConsumer.acceptTerminal
          rw [if_neg hopen]
          rfl
        · refine ⟨{ consumer with closed := true, aborted := true, abortReason := text }, ?_, rfl,
            rfl, rfl, rfl, rfl, rfl, rfl⟩
          show consumer.acceptTerminal _ = _
          unfold StreamConsumer.acceptTerminal
          rw [if_neg hopen]
          rfl
      obtain ⟨after, hbody, hafter, hopenAfter, hid, hbounds, hseq, hchunks, htotal⟩ := hbody
      rw [haccept hbody]
      exact ⟨rfl, rfl, rfl, rfl, rfl, hid.trans h.stream, hbounds.trans h.bounds,
        congrArg (· + 1) (hseq.trans h.seq), hopenAfter.trans h.opened, hafter,
        hchunks.trans h.chunks, htotal.trans h.totalBytes, fun _ => hopened⟩

/-! ## What a producer emits -/

theorem produced_cons_ok {producer next : StreamProducer} {call : ProducerCall} {frame : StreamFrame}
    (h : producer.call call = (next, .ok frame)) (rest : List ProducerCall) :
    produced producer (call :: rest) = frame :: produced next rest := by
  rw [produced, h]

theorem produced_cons_error {producer next : StreamProducer} {call : ProducerCall}
    {fault : StreamError} (h : producer.call call = (next, .error fault))
    (rest : List ProducerCall) : produced producer (call :: rest) = produced next rest := by
  rw [produced, h]

/-- The frames of a producer are numbered from its counter on, and a consumer
that mirrors it takes them all. -/
theorem produced_spec {producer : StreamProducer} {consumer : StreamConsumer}
    (h : Mirrors producer consumer) (calls : List ProducerCall) :
    (∃ last, replay consumer (produced producer calls) = some last) ∧
      ∀ place frame, (produced producer calls)[place]? = some frame →
        frame.streamId = producer.streamId ∧ frame.seq = producer.seq + place := by
  induction calls generalizing producer consumer with
  | nil =>
      refine ⟨⟨consumer, rfl⟩, fun place frame hframe => ?_⟩
      cases hframe
  | cons call rest ih =>
      rcases call_cases producer call with ⟨fault, hcall⟩ | ⟨first, next, hcall, hemits⟩
      · rw [produced_cons_error hcall]
        exact ih h
      · obtain ⟨hstream, hseq, hsame, hnext, haccepted, hmirrors⟩ := h.emits hemits
        obtain ⟨⟨last, hlast⟩, hplaces⟩ := ih hmirrors
        rw [produced_cons_ok hcall]
        refine ⟨⟨last, (replay_accepted haccepted _).trans hlast⟩, fun place frame hframe => ?_⟩
        cases place with
        | zero =>
            cases hframe
            exact ⟨hstream, hseq⟩
        | succ place =>
            obtain ⟨hid, hnumber⟩ := hplaces place frame hframe
            exact ⟨hid.trans hsame, by rw [hnumber, hnext]; omega⟩

/-! ## Deliveries -/

/-- A payload that reaches the consumer of a stream: a frame of it, or something
that is none. -/
def Delivered [Builtins] (streamId : String) (frames : List StreamFrame) (payload : Members) :
    Prop :=
  (∃ frame ∈ frames, payload = encodeStreamFrame frame) ∨
    ∀ frame, parseStreamFrame payload = some frame → frame.streamId ≠ streamId

/-- Frames of one stream, each with its place for a number. -/
structure Numbered (streamId : String) (frames : List StreamFrame) : Prop where
  clean : strip streamId = streamId
  nonempty : streamId ≠ ""
  stream : ∀ frame ∈ frames, frame.streamId = streamId
  seq : ∀ (place : Nat) (frame : StreamFrame), frames[place]? = some frame → frame.seq = place

theorem Numbered.parse [Builtins] {streamId : String} {frames : List StreamFrame}
    (h : Numbered streamId frames) {frame : StreamFrame} (hframe : frame ∈ frames) :
    parseStreamFrame (encodeStreamFrame frame) = some frame := by
  have hid := h.stream frame hframe
  exact parse_encode (by rw [hid]; exact h.clean) (by rw [hid]; exact h.nonempty)

/-- The consumer has taken a prefix of the frames, one after the other. -/
def Progressed (fresh : StreamConsumer) (frames : List StreamFrame) (consumer : StreamConsumer) :
    Prop :=
  ∃ pre post, frames = pre ++ post ∧ replay fresh pre = some consumer

/-- A delivered payload changes nothing, or it is the next frame and is taken. -/
theorem receive_cases [Builtins] {streamId : String} {frames : List StreamFrame}
    (hframes : Numbered streamId frames) {fresh consumer : StreamConsumer}
    (hstream : fresh.streamId = streamId) (hseq : fresh.expectedSeq = 0)
    {pre post : List StreamFrame} (hsplit : frames = pre ++ post)
    (hpre : replay fresh pre = some consumer) {payload : Members}
    (hpayload : Delivered streamId frames payload) :
    ((consumer.receive payload).1 = consumer ∧
      ∀ frameType, (consumer.receive payload).2 ≠ some (.ok frameType)) ∨
    ∃ frame rest, post = frame :: rest ∧
      consumer.receive payload = ((consumer.accept frame).1, some (.ok frame.frameType)) ∧
      replay fresh (pre ++ [frame]) = some (consumer.accept frame).1 := by
  obtain ⟨hsame, hexpected, -⟩ := replay_spec hpre
  rw [hseq, Nat.zero_add] at hexpected
  unfold StreamConsumer.receive
  rcases hpayload with ⟨frame, hframe, rfl⟩ | hforeign
  · rw [hframes.parse hframe]
    dsimp only
    rcases accept_cases consumer frame with ⟨fault, heq⟩ | ⟨next, heq, htaken⟩
    · refine .inl ⟨by rw [heq], fun frameType hok => ?_⟩
      rw [heq] at hok
      cases hok
    · refine .inr ?_
      obtain ⟨place, hplace⟩ := List.mem_iff_getElem?.mp hframe
      have hnumber : place = pre.length :=
        (hframes.seq place frame hplace).symm.trans (htaken.seq.trans hexpected)
      rw [hsplit, hnumber, List.getElem?_append_right (Nat.le_refl _), Nat.sub_self] at hplace
      cases post with
      | nil => cases hplace
      | cons first rest =>
          cases hplace
          have haccepted : (consumer.accept frame).2 = .ok frame.frameType := by rw [heq]
          exact ⟨frame, rest, rfl, by rw [haccepted], replay_concat hpre haccepted⟩
  · left
    cases hparse : parseStreamFrame payload with
    | none =>
        refine ⟨rfl, fun frameType hok => ?_⟩
        cases hok
    | some frame =>
        have hother : frame.streamId ≠ consumer.streamId := by
          rw [hsame, hstream]
          exact hforeign frame hparse
        have heq : consumer.accept frame =
            (consumer, .error (.otherStream frame.streamId consumer.streamId)) := by
          unfold StreamConsumer.accept
          rw [if_pos hother]
        dsimp only
        rw [heq]
        refine ⟨rfl, fun frameType hok => ?_⟩
        cases hok

theorem progressed_receiveAll [Builtins] {streamId : String} {frames : List StreamFrame}
    (hframes : Numbered streamId frames) {fresh consumer : StreamConsumer}
    (hstream : fresh.streamId = streamId) (hseq : fresh.expectedSeq = 0)
    (h : Progressed fresh frames consumer) {deliveries : List Members}
    (hdeliveries : ∀ payload ∈ deliveries, Delivered streamId frames payload) :
    Progressed fresh frames (consumer.receiveAll deliveries) := by
  induction deliveries generalizing consumer with
  | nil => exact h
  | cons payload rest ih =>
      obtain ⟨hpayload, hrest⟩ := List.forall_mem_cons.mp hdeliveries
      obtain ⟨pre, post, hsplit, hpre⟩ := h
      refine ih ?_ hrest
      show Progressed fresh frames (consumer.receive payload).1
      rcases receive_cases hframes hstream hseq hsplit hpre hpayload with
        ⟨hsame, -⟩ | ⟨frame, later, rfl, hreceived, hnext⟩
      · rw [hsame]
        exact ⟨pre, post, hsplit, hpre⟩
      · rw [hreceived]
        exact ⟨pre ++ [frame], later, by rw [hsplit]; simp, hnext⟩

/-- Every frame delivered in order is accepted. -/
theorem receive_in_order [Builtins] {frames : List StreamFrame}
    (hparse : ∀ frame ∈ frames, parseStreamFrame (encodeStreamFrame frame) = some frame)
    {consumer last : StreamConsumer} (h : replay consumer frames = some last) :
    consumer.receiveAll (frames.map encodeStreamFrame) = last ∧
      ∀ pre frame post, frames = pre ++ frame :: post →
        ((consumer.receiveAll (pre.map encodeStreamFrame)).receive (encodeStreamFrame frame)).2 =
          some (.ok frame.frameType) := by
  induction frames generalizing consumer with
  | nil =>
      cases h
      refine ⟨rfl, fun pre frame post hsplit => ?_⟩
      cases pre <;> cases hsplit
  | cons first rest ih =>
      obtain ⟨hfirst, hrest⟩ := List.forall_mem_cons.mp hparse
      obtain ⟨haccepted, -, hreplay⟩ := replay_cons h
      have hreceived : consumer.receive (encodeStreamFrame first) =
          ((consumer.accept first).1, some (.ok first.frameType)) := by
        unfold StreamConsumer.receive
        rw [hfirst]
        dsimp only
        rw [haccepted]
      obtain ⟨hlast, hplaces⟩ := ih hrest hreplay
      refine ⟨?_, fun pre frame post hsplit => ?_⟩
      · show StreamConsumer.receiveAll (consumer.receive (encodeStreamFrame first)).1 _ = last
        rw [hreceived]
        exact hlast
      · cases pre with
        | nil =>
            obtain ⟨rfl, -⟩ := List.cons.inj hsplit
            show (consumer.receive (encodeStreamFrame first)).2 = _
            rw [hreceived]
        | cons head pre =>
            obtain ⟨rfl, htail⟩ := List.cons.inj hsplit
            show ((StreamConsumer.receiveAll (consumer.receive (encodeStreamFrame first)).1
              (pre.map encodeStreamFrame)).receive (encodeStreamFrame frame)).2 = _
            rw [hreceived]
            exact hplaces pre frame post htail

/-! ## Reassembly -/

theorem numbered_produced {streamId : String} {bounds : StreamBounds} {producer : StreamProducer}
    (hnew : StreamProducer.new streamId bounds = .ok producer) (calls : List ProducerCall) :
    Numbered (strip streamId) (produced producer calls) ∧
      ∃ last, replay (StreamConsumer.new streamId bounds) (produced producer calls) = some last := by
  unfold StreamProducer.new at hnew
  split at hnew
  · cases hnew
  · rename_i hempty
    cases hnew
    have hmirrors : Mirrors { streamId := strip streamId, bounds } (StreamConsumer.new streamId bounds) :=
      ⟨rfl, rfl, rfl, rfl, rfl, rfl, rfl, fun h => by cases h⟩
    obtain ⟨hreplay, hplaces⟩ := produced_spec hmirrors calls
    refine ⟨⟨strip_strip streamId, hempty, fun frame hframe => ?_, fun place frame hframe => ?_⟩,
      hreplay⟩
    · obtain ⟨place, hplace⟩ := List.mem_iff_getElem?.mp hframe
      exact (hplaces place frame hplace).1
    · rw [(hplaces place frame hframe).2, Nat.zero_add]

/-- However the frames of a producer arrive, the consumer has the text of a
prefix of the chunks, all of them once it takes a `done` frame; a refused frame
changes nothing; with the producer's bounds all frames delivered in order are
accepted; and parsing undoes encoding. -/
theorem reassembly_prefix [Builtins] {streamId : String} {bounds : StreamBounds}
    {producer : StreamProducer} (hnew : StreamProducer.new streamId bounds = .ok producer)
    (calls : List ProducerCall) (consumerBounds : StreamBounds) :
    let frames := produced producer calls
    let fresh := StreamConsumer.new streamId consumerBounds
    (∀ deliveries, (∀ payload ∈ deliveries, Delivered (strip streamId) frames payload) →
      (∃ taken, taken <+: chunkTexts frames ∧
        (fresh.receiveAll deliveries).text = String.join taken) ∧
      ∀ payload, Delivered (strip streamId) frames payload →
        ((fresh.receiveAll deliveries).receive payload).2 = some (.ok .done) →
        ((fresh.receiveAll deliveries).receive payload).1.text =
          String.join (chunkTexts frames)) ∧
    (∀ (consumer : StreamConsumer) frame fault, (consumer.accept frame).2 = .error fault →
      (consumer.accept frame).1 = consumer) ∧
    (consumerBounds = bounds →
      (∀ pre frame post, frames = pre ++ frame :: post →
        ((fresh.receiveAll (pre.map encodeStreamFrame)).receive (encodeStreamFrame frame)).2 =
          some (.ok frame.frameType)) ∧
      (fresh.receiveAll (frames.map encodeStreamFrame)).text = String.join (chunkTexts frames)) ∧
    (∀ frame ∈ frames, parseStreamFrame (encodeStreamFrame frame) = some frame) := by
  intro frames fresh
  obtain ⟨hframes, last, hlast⟩ := numbered_produced hnew calls
  refine ⟨?_, fun consumer frame fault => accept_refused, ?_, fun frame => hframes.parse⟩
  · intro deliveries hdeliveries
    have hstart : Progressed fresh frames fresh := ⟨[], frames, rfl, rfl⟩
    obtain ⟨pre, post, hsplit, hpre⟩ :=
      progressed_receiveAll hframes rfl rfl hstart hdeliveries
    obtain ⟨-, -, hparts⟩ := replay_spec hpre
    refine ⟨⟨chunkTexts pre, ?_, ?_⟩, fun payload hpayload hdone => ?_⟩
    · rw [show frames = pre ++ post from hsplit, chunkTexts_append]
      exact List.prefix_append _ _
    · unfold StreamConsumer.text
      rw [hparts]
      rfl
    · rcases receive_cases hframes rfl rfl hsplit hpre hpayload with
        ⟨-, hrefused⟩ | ⟨frame, rest, rfl, hreceived, hnext⟩
      · exact absurd hdone (hrefused _)
      · rw [hreceived] at hdone ⊢
        have htype : frame.frameType = .done := Except.ok.inj (Option.some.inj hdone)
        have hrest : rest = [] := by
          rw [hsplit] at hlast
          exact replay_terminal hlast (.inl htype)
        obtain ⟨-, -, hall⟩ := replay_spec hnext
        unfold StreamConsumer.text
        dsimp only
        rw [hall, show frames = pre ++ frame :: rest from hsplit, hrest]
        rfl
  · intro hbounds
    have hfresh : fresh = StreamConsumer.new streamId bounds := by
      rw [← hbounds]
    obtain ⟨hreceived, hplaces⟩ := receive_in_order (fun frame => hframes.parse) hlast
    rw [hfresh]
    refine ⟨hplaces, ?_⟩
    obtain ⟨-, -, hparts⟩ := replay_spec hlast
    unfold StreamConsumer.text
    rw [show frames = produced producer calls from rfl, hreceived, hparts]
    rfl

/-- Two chunks, the second one delivered first and once more in its turn. -/
theorem reassembly_prefix_reordered :
    letI : Builtins := Builtins.ascii
    ∃ bounds producer, StreamProducer.new " s " bounds = .ok producer ∧
      let frames := produced producer [.open, .chunk "a", .chunk "b", .done]
      let fresh := StreamConsumer.new " s " bounds
      chunkTexts frames = ["a", "b"] ∧
      (∀ deliveries, (∀ payload ∈ deliveries, Delivered (strip " s ") frames payload) →
        ∃ taken, taken <+: chunkTexts frames ∧
          (fresh.receiveAll deliveries).text = String.join taken) ∧
      (fresh.receiveAll (frames.map encodeStreamFrame)).text = "ab" := by
  let _ : Builtins := Builtins.ascii
  let bounds : StreamBounds := ⟨2, 1, 2, by decide⟩
  have hstrip : strip " s " = "s" := by decide +kernel
  have hnew : StreamProducer.new " s " bounds =
      .ok { streamId := strip " s ", bounds := bounds } := by
    unfold StreamProducer.new
    rw [if_neg (by rw [hstrip]; decide)]
  have htexts : chunkTexts (produced { streamId := strip " s ", bounds := bounds }
      [.open, .chunk "a", .chunk "b", .done]) = ["a", "b"] := by decide +kernel
  obtain ⟨hdelivered, -, horder, -⟩ :=
    reassembly_prefix hnew [.open, .chunk "a", .chunk "b", .done] bounds
  refine ⟨bounds, _, hnew, htexts, fun deliveries hdeliveries =>
    (hdelivered deliveries hdeliveries).1, ?_⟩
  rw [(horder rfl).2, htexts]
  rfl

end Streaming

end SynapseChannel
