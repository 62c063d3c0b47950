import SynapseChannel.Lib.Json

/-!
# Core — Streaming

Bounded streaming replies: a producer that numbers an opening frame, body
chunks and a terminal frame, and a consumer that takes them in order. The two
keep the same counters, so that a consumer has always taken a prefix of what
was produced, however the frames arrive.
-/

namespace SynapseChannel

open Py

namespace Streaming

def streamFrameKind : String := "stream"

inductive FrameType
  | «open»
  | chunk
  | done
  | abort
deriving DecidableEq

def FrameType.text : FrameType → String
  | .open => "open"
  | .chunk => "chunk"
  | .done => "done"
  | .abort => "abort"

def FrameType.ofText (text : String) : Option FrameType :=
  if text = "open" then some .open
  else if text = "chunk" then some .chunk
  else if text = "done" then some .done
  else if text = "abort" then some .abort
  else none

inductive StreamError
  | emptyStreamId
  | alreadyOpened
  | notOpen
  | chunkTooLarge (size maxChunkBytes : Nat)
  | tooManyChunks (maxChunks : Nat)
  | totalExceeded (maxTotalBytes : Nat)
  | alreadyClosed
  | otherStream (streamId expected : String)
  | outOfOrder (seq expected : Nat)
  | openedTwice
  | chunkBeforeOpen
  | chunkExceedsBounds
  | terminalBeforeOpen
deriving DecidableEq

/-- Count and byte ceilings. -/
structure StreamBounds where
  maxChunks : Nat
  maxChunkBytes : Nat
  maxTotalBytes : Nat
  positive : 0 < min (min maxChunks maxChunkBytes) maxTotalBytes

/-- One frame of a stream. -/
structure StreamFrame where
  streamId : String
  seq : Nat
  frameType : FrameType
  text : String
deriving DecidableEq

/-! ## The wire form -/

/-- The message payload of a stream frame. -/
def encodeStreamFrame (frame : StreamFrame) : Members :=
  [("kind", .str streamFrameKind), ("stream_id", .str frame.streamId),
    ("stream_seq", .int frame.seq), ("seq", .int frame.seq),
    ("frame_type", .str frame.frameType.text), ("text", .str frame.text)]

/-- The sequence number of a payload; the stream's own takes precedence. -/
def parseSeq [Builtins] (payload : Members) : Option Int :=
  match Members.get? payload "stream_seq" with
  | some (.int n) => some n
  | some _ => none
  | none =>
    match Members.get payload "seq" with
    | .null => none
    | legacy => legacy.toInt?

/-- Parse a message payload into a stream frame. -/
def parseStreamFrame [Builtins] (payload : Members) : Option StreamFrame :=
  if (Members.getD payload "kind" (.str "")).toStr ≠ streamFrameKind then none
  else
    let streamId := strip (Members.getD payload "stream_id" (.str "")).toStr
    if streamId = "" then none
    else
      (FrameType.ofText (Members.getD payload "frame_type" (.str "")).toStr).bind fun frameType =>
        (parseSeq payload).bind fun seq =>
          if seq < 0 then none
          else some {
            streamId, seq := seq.toNat, frameType
            text := (Members.getD payload "text" (.str "")).toStr }

/-! ## The producer -/

/-- Builds a bounded, ordered sequence of frames for one stream. -/
structure StreamProducer where
  streamId : String
  bounds : StreamBounds
  seq : Nat := 0
  chunks : Nat := 0
  totalBytes : Nat := 0
  opened : Bool := false
  closed : Bool := false

def StreamProducer.new (streamId : String) (bounds : StreamBounds) :
    Except StreamError StreamProducer :=
  if strip streamId = "" then .error .emptyStreamId
  else .ok { streamId := strip streamId, bounds }

/-- The next frame, and the producer behind it. -/
def StreamProducer.emit (producer : StreamProducer) (frameType : FrameType) (text : String) :
    StreamProducer × Except StreamError StreamFrame :=
  ({ producer with seq := producer.seq + 1 },
    .ok { streamId := producer.streamId, seq := producer.seq, frameType, text })

def StreamProducer.open (producer : StreamProducer) :
    StreamProducer × Except StreamError StreamFrame :=
  if producer.opened then (producer, .error .alreadyOpened)
  else StreamProducer.emit { producer with opened := true } .open ""

/-- One body chunk, under the count and byte ceilings. -/
def StreamProducer.chunk (producer : StreamProducer) (text : String) :
    StreamProducer × Except StreamError StreamFrame :=
  let size := text.utf8ByteSize
  if !producer.opened || producer.closed then (producer, .error .notOpen)
  else if size > producer.bounds.maxChunkBytes then
    (producer, .error (.chunkTooLarge size producer.bounds.maxChunkBytes))
  else if producer.chunks ≥ producer.bounds.maxChunks then
    (producer, .error (.tooManyChunks producer.bounds.maxChunks))
  else if producer.totalBytes + size > producer.bounds.maxTotalBytes then
    (producer, .error (.totalExceeded producer.bounds.maxTotalBytes))
  else
    StreamProducer.emit
      { producer with chunks := producer.chunks + 1, totalBytes := producer.totalBytes + size }
      .chunk text

def StreamProducer.close (producer : StreamProducer) (frameType : FrameType) (text : String) :
    StreamProducer × Except StreamError StreamFrame :=
  if !producer.opened then (producer, .error .notOpen)
  else if producer.closed then (producer, .error .alreadyClosed)
  else StreamProducer.emit { producer with closed := true } frameType text

inductive ProducerCall
  | open
  | chunk (text : String)
  | done
  | abort (reason : String)

/-- `" ".join(reason.split())`. -/
def collapse (reason : String) : String :=
  " ".intercalate (((reason.toList.splitOnP isSpace).filter fun word => word ≠ []).map
    String.ofList)

def StreamProducer.call (producer : StreamProducer) :
    ProducerCall → StreamProducer × Except StreamError StreamFrame
  | .open => producer.open
  | .chunk text => producer.chunk text
  | .done => producer.close .done ""
  | .abort reason => producer.close .abort (collapse reason)

/-- The frames a sequence of calls emits; a refused call emits none. -/
def produced (producer : StreamProducer) : List ProducerCall → List StreamFrame
  | [] => []
  | call :: rest =>
    let (next, outcome) := producer.call call
    match outcome with
    | .ok frame => frame :: produced next rest
    | .error _ => produced next rest

/-- A full frame list for some chunks, or the first refusal. -/
def StreamProducer.stream (producer : StreamProducer) (chunks : List String) :
    Except StreamError (List StreamFrame) := do
  let rec body (producer : StreamProducer) : List String → Except StreamError
      (StreamProducer × List StreamFrame)
    | [] => .ok (producer, [])
    | text :: rest => do
      let frame ← (producer.chunk text).2
      let (last, frames) ← body (producer.chunk text).1 rest
      return (last, frame :: frames)
  let first ← producer.open.2
  let (last, frames) ← body producer.open.1 chunks
  let terminal ← (last.close .done "").2
  return first :: frames ++ [terminal]

/-! ## The consumer -/

/-- Reassembles a bounded, ordered stream. -/
structure StreamConsumer where
  streamId : String
  bounds : StreamBounds
  expectedSeq : Nat := 0
  opened : Bool := false
  closed : Bool := false
  chunks : Nat := 0
  totalBytes : Nat := 0
  parts : List String := []
  aborted : Bool := false
  abortReason : String := ""

def StreamConsumer.new (streamId : String) (bounds : StreamBounds) : StreamConsumer :=
  { streamId := strip streamId, bounds }

/-- The body reassembled so far. -/
def StreamConsumer.text (consumer : StreamConsumer) : String := String.join consumer.parts

def StreamConsumer.acceptOpen (consumer : StreamConsumer) :
    StreamConsumer × Except StreamError FrameType :=
  if consumer.opened then (consumer, .error .openedTwice)
  else ({ consumer with opened := true }, .ok .open)

def StreamConsumer.acceptChunk (consumer : StreamConsumer) (text : String) :
    StreamConsumer × Except StreamError FrameType :=
  let size := text.utf8ByteSize
  if !consumer.opened then (consumer, .error .chunkBeforeOpen)
  else if size > consumer.bounds.maxChunkBytes || consumer.chunks ≥ consumer.bounds.maxChunks then
    (consumer, .error .chunkExceedsBounds)
  else if consumer.totalBytes + size > consumer.bounds.maxTotalBytes then
    (consumer, .error (.totalExceeded consumer.bounds.maxTotalBytes))
  else
    ({ consumer with
        chunks := consumer.chunks + 1
        totalBytes := consumer.totalBytes + size
        parts := consumer.parts ++ [text] }, .ok .chunk)

def StreamConsumer.acceptTerminal (consumer : StreamConsumer) (frame : StreamFrame) :
    StreamConsumer × Except StreamError FrameType :=
  if !consumer.opened then (consumer, .error .terminalBeforeOpen)
  else if frame.frameType = .abort then
    ({ consumer with closed := true, aborted := true, abortReason := frame.text },
      .ok frame.frameType)
  else ({ consumer with closed := true }, .ok frame.frameType)

/-- What a frame does by its type. -/
def StreamConsumer.acceptBody (consumer : StreamConsumer) (frame : StreamFrame) :
    StreamConsumer × Except StreamError FrameType :=
  match frame.frameType with
  | .open => consumer.acceptOpen
  | .chunk => consumer.acceptChunk frame.text
  | .done => consumer.acceptTerminal frame
  | .abort => consumer.acceptTerminal frame

/-- Apply one frame in order; the expected number moves only when it is taken. -/
def StreamConsumer.accept (consumer : StreamConsumer) (frame : StreamFrame) :
    StreamConsumer × Except StreamError FrameType :=
  if frame.streamId ≠ consumer.streamId then
    (consumer, .error (.otherStream frame.streamId consumer.streamId))
  else if consumer.closed then (consumer, .error .alreadyClosed)
  else if frame.seq ≠ consumer.expectedSeq then
    (consumer, .error (.outOfOrder frame.seq consumer.expectedSeq))
  else
    match consumer.acceptBody frame with
    | (next, .ok accepted) => ({ next with expectedSeq := next.expectedSeq + 1 }, .ok accepted)
    | (next, .error fault) => (next, .error fault)

/-- A delivered payload: one that parses is offered to the consumer. -/
def StreamConsumer.receive [Builtins] (consumer : StreamConsumer) (payload : Members) :
    StreamConsumer × Option (Except StreamError FrameType) :=
  match parseStreamFrame payload with
  | none => (consumer, none)
  | some frame => ((consumer.accept frame).1, some (consumer.accept frame).2)

def StreamConsumer.receiveAll [Builtins] (consumer : StreamConsumer) (payloads : List Members) :
    StreamConsumer :=
  payloads.foldl (fun consumer payload => (consumer.receive payload).1) consumer

end Streaming

end SynapseChannel
