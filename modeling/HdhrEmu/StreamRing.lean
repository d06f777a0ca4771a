import HdhrEmu.Lib.CopyRing
import Mathlib.Algebra.Group.Nat.Defs
import Mathlib.Logic.Relation

/-!
# The bytes of a stream

A thread reads chunks from the DVR device into a ring; the consumer of the
stream takes them out again.  Both sides hold the mutex while they copy, and
the reader gives it up where the ring is full.  A push collects what it reads
into datagrams, and an HTTP pull writes it to its client.
-/

namespace HdhrEmu

/-- `RING_CAP`. -/
def ringCap : Nat := 2 ^ 20

/-- `sizeof(chunk)` in `reader_thread_main`, and `sizeof(buf)` of an HTTP pull. -/
def streamChunkSize : Nat := 188 * 64

/-- `DATAGRAM_SIZE`. -/
def datagramSize : Nat := 7 * 188

/-- Where `reader_thread_main` stands: `testing` is the head of its loop,
`storing` the head of the inner loop with the mutex held, and `waiting` the
wait for room. -/
inductive ReaderAt
  | testing
  | polling
  | locking (chunk : List UInt8)
  | storing (chunk : List UInt8) (off : Nat)
  | waiting (chunk : List UInt8) (off : Nat)
  | ending
  | finished

def ReaderAt.holdsMutex : ReaderAt → Bool
  | .storing _ _ => true
  | _ => false

/-- The part of the current chunk that has not been stored. -/
def ReaderAt.rest : ReaderAt → List UInt8
  | .locking chunk => chunk
  | .storing chunk off => chunk.drop off
  | .waiting chunk off => chunk.drop off
  | _ => []

/-- The part of `struct dvb_stream` that carries the bytes.  `dvr` and
`returned` record what was read from the device and what `dvb_stream_read`
has returned. -/
structure RingStream where
  ring : CopyRing UInt8
  eof : Bool
  closing : Bool
  reader : ReaderAt
  dvr : List UInt8
  returned : List UInt8

/-- A stream that `dvb_stream_open` has just returned. -/
def openedRingStream : RingStream where
  ring := ⟨List.replicate ringCap 0, 0, 0, 0⟩
  eof := false
  closing := false
  reader := .testing
  dvr := []
  returned := []

/-- How a step of the reader ends: `retried` is a poll that times out or a
read to be tried again, `failed` a read that fails or is at the end. -/
inductive ReaderEvent
  | proceeds
  | retried
  | failed
  | delivered (bytes : List UInt8)

def readerStep (event : ReaderEvent) (s : RingStream) : Option RingStream :=
  match s.reader, event with
  | .testing, .proceeds =>
      some { s with reader := if s.closing then .ending else .polling }
  | .polling, .retried => some { s with reader := .testing }
  | .polling, .failed => some { s with reader := .ending }
  | .polling, .delivered bytes =>
      if 0 < bytes.length ∧ bytes.length ≤ streamChunkSize then
        some { s with
          reader := .locking bytes
          dvr := s.dvr ++ bytes }
      else none
  | .locking chunk, .proceeds => some { s with reader := .storing chunk 0 }
  | .storing chunk off, .proceeds =>
      if off < chunk.length ∧ s.closing = false then
        if s.ring.fill = ringCap then some { s with reader := .waiting chunk off }
        else
          let chunkLen := min (chunk.length - off) (ringCap - s.ring.fill)
          some { s with
            ring := s.ring.store ringCap ((chunk.drop off).take chunkLen)
            reader := .storing chunk (off + chunkLen) }
      else some { s with reader := .testing }
  | .waiting chunk off, .proceeds => some { s with reader := .storing chunk off }
  | .ending, .proceeds =>
      some { s with
        reader := .finished
        eof := true }
  | _, _ => none

/-- `dvb_stream_read`, once it does not have to wait any more. -/
def dvbStreamRead (len : Nat) (s : RingStream) : Option (List UInt8 × RingStream) :=
  if s.reader.holdsMutex then none
  else if s.ring.fill = 0 then
    if s.eof || s.closing then some ([], s) else none
  else
    let taken := s.ring.take ringCap len
    some (taken.1,
      { s with
        ring := taken.2
        returned := s.returned ++ taken.1 })

/-- The first part of `stream_teardown`. -/
def setClosing (s : RingStream) : Option RingStream :=
  if s.reader.holdsMutex then none else some { s with closing := true }

/-- A step that is not the consumer's. -/
inductive StreamAct
  | reader (event : ReaderEvent)
  | close

def streamStep : StreamAct → RingStream → Option RingStream
  | .reader event, s => readerStep event s
  | .close, s => setClosing s

/-- A step of a stream whose consumer reads blocks of any length. -/
inductive RingStream.Step (s : RingStream) : RingStream → Prop
  | stream {next : RingStream} (act : StreamAct) (stepped : streamStep act s = some next) :
      Step s next
  | read {next : RingStream} {bytes : List UInt8} (len : Nat)
      (read : dvbStreamRead len s = some (bytes, next)) : Step s next

/-- What a step of the reader does with the bytes. -/
inductive ReaderDoes (s next : RingStream) : Prop
  | kept (ring : next.ring = s.ring) (dvr : next.dvr = s.dvr)
      (rest : s.closing = false → next.reader.rest = s.reader.rest)
  | delivered (bytes : List UInt8) (ring : next.ring = s.ring) (dvr : next.dvr = s.dvr ++ bytes)
      (before : s.reader.rest = []) (rest : next.reader.rest = bytes)
  | stored (block : List UInt8) (opened : s.closing = false)
      (room : s.ring.fill + block.length ≤ ringCap)
      (ring : next.ring = s.ring.store ringCap block) (dvr : next.dvr = s.dvr)
      (rest : s.reader.rest = block ++ next.reader.rest)

theorem readerStep_does {event : ReaderEvent} {s next : RingStream}
    (full : s.ring.fill ≤ ringCap) (stepped : readerStep event s = some next) :
    ReaderDoes s next ∧ next.closing = s.closing ∧ next.returned = s.returned := by
  revert stepped
  fun_cases readerStep event s with
  | case1 at_ =>
      rintro ⟨⟩
      refine ⟨.kept rfl rfl fun _ => ?_, rfl, rfl⟩
      rw [at_]
      cases s.closing <;> rfl
  | case2 at_ | case3 at_ | case6 chunk at_ | case10 chunk off at_ | case11 at_ =>
      rintro ⟨⟩
      refine ⟨.kept rfl rfl fun _ => ?_, rfl, rfl⟩
      rw [at_]
      rfl
  | case4 bytes at_ size =>
      rintro ⟨⟩
      exact ⟨.delivered bytes rfl rfl (by rw [at_]; rfl) rfl, rfl, rfl⟩
  | case7 chunk off at_ more atCap =>
      rintro ⟨⟩
      refine ⟨.kept rfl rfl fun _ => ?_, rfl, rfl⟩
      rw [at_]
      rfl
  | case8 chunk off at_ more notFull chunkLen =>
      rintro ⟨⟩
      refine ⟨.stored ((chunk.drop off).take chunkLen) more.2 ?_ rfl rfl ?_, rfl, rfl⟩
      · rw [List.length_take]
        omega
      · rw [at_]
        change chunk.drop off = _ ++ chunk.drop (off + chunkLen)
        rw [← List.drop_drop, List.take_append_drop]
  | case9 chunk off at_ done =>
      rintro ⟨⟩
      refine ⟨.kept rfl rfl fun opened => ?_, rfl, rfl⟩
      have atEnd : chunk.length ≤ off := by
        by_contra more
        exact done ⟨by omega, opened⟩
      rw [at_]
      exact (List.drop_eq_nil_of_le atEnd).symm
  | case5 | case12 => rintro ⟨⟩

/-- Nothing is lost, doubled or moved between the device and the consumer. -/
structure RingStream.InOrder (s : RingStream) : Prop where
  valid : s.ring.Valid ringCap
  whole : s.closing = false → s.returned ++ s.ring.contents ++ s.reader.rest = s.dvr
  front : s.returned ++ s.ring.contents <+: s.dvr

theorem inOrder_opened : openedRingStream.InOrder where
  valid :=
    { length_cells := List.length_replicate
      tail_lt := by decide
      fill_le := by decide
      head_eq := by decide }
  whole := fun _ => rfl
  front := List.nil_prefix

theorem RingStream.InOrder.reader {s next : RingStream} {event : ReaderEvent}
    (inOrder : s.InOrder) (stepped : readerStep event s = some next) : next.InOrder := by
  obtain ⟨does, closing, returned⟩ := readerStep_does inOrder.valid.fill_le stepped
  cases does with
  | kept ring dvr rest =>
      refine ⟨by rw [ring]; exact inOrder.valid, fun opened => ?_, ?_⟩
      · rw [closing] at opened
        rw [returned, ring, dvr, rest opened]
        exact inOrder.whole opened
      · rw [returned, ring, dvr]
        exact inOrder.front
  | delivered bytes ring dvr before rest =>
      refine ⟨by rw [ring]; exact inOrder.valid, fun opened => ?_, ?_⟩
      · rw [closing] at opened
        have whole := inOrder.whole opened
        rw [before, List.append_nil] at whole
        rw [returned, ring, dvr, rest, whole]
      · rw [returned, ring, dvr]
        exact inOrder.front.trans (List.prefix_append _ _)
  | stored block opened room ring dvr rest =>
      have contents := inOrder.valid.contents_store room
      have whole := inOrder.whole opened
      rw [rest] at whole
      have same : next.returned ++ next.ring.contents ++ next.reader.rest = next.dvr := by
        rw [returned, ring, dvr, contents, ← whole]
        simp only [List.append_assoc]
      refine ⟨by rw [ring]; exact inOrder.valid.store room, fun _ => same, ?_⟩
      rw [← same]
      exact List.prefix_append _ _

theorem RingStream.InOrder.closing {s next : RingStream} (inOrder : s.InOrder)
    (stepped : setClosing s = some next) : next.InOrder := by
  unfold setClosing at stepped
  split at stepped
  · cases stepped
  · cases stepped
    exact ⟨inOrder.valid, fun opened => (nomatch opened), inOrder.front⟩

/-- A read returns the front of what is in the ring. -/
theorem RingStream.InOrder.read {s next : RingStream} {len : Nat} {bytes : List UInt8}
    (inOrder : s.InOrder) (read : dvbStreamRead len s = some (bytes, next)) :
    next.InOrder ∧ next.returned = s.returned ++ bytes ∧ bytes.length ≤ len := by
  unfold dvbStreamRead at read
  split at read
  · cases read
  · split at read
    · split at read
      · cases read
        exact ⟨inOrder, (List.append_nil _).symm, Nat.zero_le _⟩
      · cases read
    · cases read
      have moved : s.returned ++ (s.ring.take ringCap len).1 ++
          (s.ring.take ringCap len).2.contents = s.returned ++ s.ring.contents := by
        rw [List.append_assoc, inOrder.valid.take_append_contents]
      refine ⟨⟨inOrder.valid.take len, fun opened => ?_, ?_⟩, rfl, ?_⟩
      · simp only [moved]
        exact inOrder.whole opened
      · simp only [moved]
        exact inOrder.front
      · rw [inOrder.valid.taken, List.length_take]
        exact Nat.min_le_left _ _

theorem RingStream.InOrder.stream {s next : RingStream} {act : StreamAct} (inOrder : s.InOrder)
    (stepped : streamStep act s = some next) :
    next.InOrder ∧ next.returned = s.returned := by
  cases act with
  | reader event =>
      exact ⟨inOrder.reader stepped, (readerStep_does inOrder.valid.fill_le stepped).2.2⟩
  | close =>
      refine ⟨inOrder.closing stepped, ?_⟩
      simp only [streamStep, setClosing] at stepped
      split at stepped
      · cases stepped
      · cases stepped
        rfl

theorem RingStream.InOrder.step {s next : RingStream} (inOrder : s.InOrder)
    (step : s.Step next) : next.InOrder := by
  cases step with
  | stream act stepped => exact (inOrder.stream stepped).1
  | read len read => exact (inOrder.read read).1

theorem datagramSize_pos : 0 < datagramSize := by
  decide

/-- The locals of the loop in `push_thread_main`, and the datagrams that were
sent. -/
structure PushLoop where
  running : Bool
  datagram : List UInt8
  haveBytes : Nat
  sent : List (List UInt8)

/-- The body of the loop behind `dvb_stream_read`. -/
def PushLoop.receive (loop : PushLoop) (bytes : List UInt8) (sendOk : Bool) : PushLoop :=
  if bytes = [] then { loop with running := false }
  else
    let datagram := CopyRing.copyTo loop.datagram loop.haveBytes bytes
    let haveBytes := loop.haveBytes + bytes.length
    if haveBytes = datagramSize then
      if sendOk then
        { loop with
          datagram
          haveBytes := 0
          sent := loop.sent ++ [datagram] }
      else { loop with running := false, datagram, haveBytes }
    else { loop with datagram, haveBytes }

/-- A stream with a push as its consumer. -/
structure PushStream where
  stream : RingStream
  loop : PushLoop

/-- The datagram buffer on the stack may hold anything. -/
def openedPushStream (datagram : List UInt8) : PushStream where
  stream := openedRingStream
  loop := ⟨true, datagram, 0, []⟩

inductive PushStream.Step (s : PushStream) : PushStream → Prop
  | stream {next : RingStream} (act : StreamAct) (stepped : streamStep act s.stream = some next) :
      Step s { s with stream := next }
  | read {next : RingStream} {bytes : List UInt8} (running : s.loop.running = true)
      (sendOk : Bool)
      (read : dvbStreamRead (datagramSize - s.loop.haveBytes) s.stream = some (bytes, next)) :
      Step s { stream := next, loop := s.loop.receive bytes sendOk }
  | stop : Step s { s with loop := { s.loop with running := false } }

/-- The datagrams and what has been collected for the next one are what was
read. -/
structure PushStream.InOrder (s : PushStream) : Prop where
  stream : s.stream.InOrder
  length_datagram : s.loop.datagram.length = datagramSize
  have_lt : s.loop.running = true → s.loop.haveBytes < datagramSize
  length_sent : ∀ datagram ∈ s.loop.sent, datagram.length = datagramSize
  collected : s.loop.sent.flatten ++ s.loop.datagram.take s.loop.haveBytes = s.stream.returned

theorem take_copyTo {cells block : List UInt8} {place : Nat} (inside : place ≤ cells.length) :
    (CopyRing.copyTo cells place block).take (place + block.length) =
      cells.take place ++ block := by
  apply List.take_left'
  rw [List.length_append, List.length_take, Nat.min_eq_left inside]

theorem PushStream.InOrder.step {s next : PushStream} (inOrder : s.InOrder)
    (step : s.Step next) : next.InOrder := by
  have length_datagram := inOrder.length_datagram
  cases step with
  | stream act stepped =>
      obtain ⟨stream, returned⟩ := inOrder.stream.stream stepped
      exact ⟨stream, length_datagram, inOrder.have_lt, inOrder.length_sent,
        inOrder.collected.trans returned.symm⟩
  | stop =>
      exact ⟨inOrder.stream, length_datagram, fun running => (nomatch running),
        inOrder.length_sent, inOrder.collected⟩
  | read running sendOk read =>
      rename_i stream bytes
      obtain ⟨inOrder', returned, short⟩ := inOrder.stream.read read
      have have_lt := inOrder.have_lt running
      have size : (CopyRing.copyTo s.loop.datagram s.loop.haveBytes bytes).length =
          datagramSize := by
        rw [CopyRing.length_copyTo (by omega), length_datagram]
      have collected : s.loop.sent.flatten ++
          (CopyRing.copyTo s.loop.datagram s.loop.haveBytes bytes).take
            (s.loop.haveBytes + bytes.length) = stream.returned := by
        rw [take_copyTo (by omega), returned, ← inOrder.collected, List.append_assoc]
      unfold PushLoop.receive
      by_cases nothing : bytes = []
      · rw [if_pos nothing]
        refine ⟨inOrder', length_datagram, fun running => (nomatch running),
          inOrder.length_sent, ?_⟩
        rw [returned, nothing, List.append_nil]
        exact inOrder.collected
      · rw [if_neg nothing]
        by_cases complete : s.loop.haveBytes + bytes.length = datagramSize
        · simp only [if_pos complete]
          rw [complete, ← size, List.take_length] at collected
          cases sendOk with
          | true =>
              refine ⟨inOrder', size, fun _ => datagramSize_pos, ?_, ?_⟩
              · intro datagram member
                obtain old | new := List.mem_append.mp member
                · exact inOrder.length_sent datagram old
                · rw [List.mem_singleton.mp new]
                  exact size
              · simp only [if_true, List.take_zero, List.append_nil, List.flatten_append,
                  List.flatten_singleton]
                exact collected
          | false =>
              refine ⟨inOrder', size, fun running => (nomatch running), inOrder.length_sent, ?_⟩
              simp only [Bool.false_eq_true, if_false]
              rw [complete, ← size, List.take_length]
              exact collected
        · simp only [if_neg complete]
          exact ⟨inOrder', size, fun _ => by simp only; omega, inOrder.length_sent, collected⟩

/-- Where the loop of `stream_channel_to_client` stands. -/
inductive PullAt
  | reading
  | writing (buf : List UInt8) (off : Nat)
  | out

/-- What a pull has to write of its buffer. -/
def PullAt.unwritten : PullAt → List UInt8
  | .writing buf off => buf.drop off
  | _ => []

/-- A stream with an HTTP pull as its consumer, and the bytes that were
written to the client. -/
structure PullStream where
  stream : RingStream
  at_ : PullAt
  written : List UInt8

def openedPullStream : PullStream where
  stream := openedRingStream
  at_ := .reading
  written := []

inductive PullStream.Step (s : PullStream) : PullStream → Prop
  | stream {next : RingStream} (act : StreamAct) (stepped : streamStep act s.stream = some next) :
      Step s { s with stream := next }
  | read {next : RingStream} {bytes : List UInt8} (reading : s.at_ = .reading)
      (read : dvbStreamRead streamChunkSize s.stream = some (bytes, next)) :
      Step s { s with stream := next, at_ := if bytes = [] then .out else .writing bytes 0 }
  | write {buf : List UInt8} {off : Nat} (writing : s.at_ = .writing buf off) (w : Nat)
      (more : off < buf.length) (positive : 0 < w) (bound : w ≤ buf.length - off) :
      Step s { s with
        at_ := .writing buf (off + w)
        written := s.written ++ (buf.drop off).take w }
  | again {buf : List UInt8} {off : Nat} (writing : s.at_ = .writing buf off)
      (done : buf.length ≤ off) : Step s { s with at_ := .reading }
  | failed {buf : List UInt8} {off : Nat} (writing : s.at_ = .writing buf off) :
      Step s { s with at_ := .out }

structure PullStream.InOrder (s : PullStream) : Prop where
  stream : s.stream.InOrder
  whole : s.at_ ≠ .out → s.written ++ s.at_.unwritten = s.stream.returned
  front : s.written <+: s.stream.returned

theorem PullStream.InOrder.step {s next : PullStream} (inOrder : s.InOrder)
    (step : s.Step next) : next.InOrder := by
  cases step with
  | stream act stepped =>
      obtain ⟨stream, returned⟩ := inOrder.stream.stream stepped
      exact ⟨stream, fun live => (inOrder.whole live).trans returned.symm,
        by rw [returned]; exact inOrder.front⟩
  | read reading read =>
      obtain ⟨stream, returned, -⟩ := inOrder.stream.read read
      have whole := inOrder.whole (by rw [reading]; nofun)
      have nothing : PullAt.reading.unwritten = [] := rfl
      rw [reading, nothing, List.append_nil] at whole
      refine ⟨stream, fun live => ?_, ?_⟩
      · split at live
        · exact absurd rfl live
        · rename_i something
          simp only [if_neg something, PullAt.unwritten, List.drop_zero]
          rw [whole, returned]
      · rw [returned]
        exact inOrder.front.trans (List.prefix_append _ _)
  | write writing w more positive bound =>
      rename_i buf off
      have whole := inOrder.whole (by rw [writing]; nofun)
      rw [writing, PullAt.unwritten] at whole
      have after : s.written ++ (buf.drop off).take w ++ buf.drop (off + w) =
          s.stream.returned := by
        rw [List.append_assoc, ← List.drop_drop, List.take_append_drop, whole]
      exact ⟨inOrder.stream, fun _ => after, ⟨_, after⟩⟩
  | again writing done =>
      rename_i buf off
      have whole := inOrder.whole (by rw [writing]; nofun)
      rw [writing, PullAt.unwritten, List.drop_eq_nil_of_le done] at whole
      exact ⟨inOrder.stream, fun _ => whole, inOrder.front⟩
  | failed writing =>
      exact ⟨inOrder.stream, fun live => absurd rfl live, inOrder.front⟩

open Relation

theorem inOrder_of_steps {s : RingStream} (steps : ReflTransGen RingStream.Step openedRingStream s) :
    s.InOrder := by
  induction steps with
  | refl => exact inOrder_opened
  | tail _ step inOrder => exact inOrder.step step

theorem push_inOrder_of_steps {datagram : List UInt8} {s : PushStream}
    (size : datagram.length = datagramSize)
    (steps : ReflTransGen PushStream.Step (openedPushStream datagram) s) : s.InOrder := by
  induction steps with
  | refl =>
      exact ⟨inOrder_opened, size, fun _ => datagramSize_pos, (fun _ member => nomatch member), rfl⟩
  | tail _ step inOrder => exact inOrder.step step

theorem pull_inOrder_of_steps {s : PullStream}
    (steps : ReflTransGen PullStream.Step openedPullStream s) : s.InOrder := by
  induction steps with
  | refl => exact ⟨inOrder_opened, fun _ => rfl, List.nil_prefix⟩
  | tail _ step inOrder => exact inOrder.step step

theorem RingStream.InOrder.returned_prefix {s : RingStream} (inOrder : s.InOrder) :
    s.returned <+: s.dvr :=
  (List.prefix_append _ _).trans inOrder.front

/-- The ring stays well formed and what has been returned, what it holds and
what is left of the chunk are what was read from the device, until the stream is
being closed; what a push sends and what an HTTP pull writes is the front of
what was read. -/
theorem stream_bytes_in_order :
    (∀ s, ReflTransGen RingStream.Step openedRingStream s →
      s.ring.fill ≤ ringCap ∧ s.ring.head = (s.ring.tail + s.ring.fill) % ringCap ∧
        (s.closing = false → s.returned ++ s.ring.contents ++ s.reader.rest = s.dvr) ∧
        s.returned ++ s.ring.contents <+: s.dvr) ∧
      (∀ datagram s, datagram.length = datagramSize →
        ReflTransGen PushStream.Step (openedPushStream datagram) s →
          (∀ sent ∈ s.loop.sent, sent.length = datagramSize) ∧
            s.loop.sent.flatten <+: s.stream.dvr) ∧
      ∀ s, ReflTransGen PullStream.Step openedPullStream s → s.written <+: s.stream.dvr := by
  refine ⟨fun s steps => ?_, fun datagram s size steps => ?_, fun s steps => ?_⟩
  · have inOrder := inOrder_of_steps steps
    exact ⟨inOrder.valid.fill_le, inOrder.valid.head_eq, inOrder.whole, inOrder.front⟩
  · have inOrder := push_inOrder_of_steps size steps
    refine ⟨inOrder.length_sent, ?_⟩
    have sent : s.loop.sent.flatten <+: s.stream.returned := ⟨_, inOrder.collected⟩
    exact sent.trans inOrder.stream.returned_prefix
  · have inOrder := pull_inOrder_of_steps steps
    exact inOrder.front.trans inOrder.stream.returned_prefix

end HdhrEmu
