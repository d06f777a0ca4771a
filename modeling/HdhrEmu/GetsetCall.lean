import HdhrEmu.GetsetServer
import HdhrEmu.Lib.ByteStream
import HdhrEmu.Lib.CString
import Mathlib.Data.List.TakeWhile

/-!
# A call of the web interface to the control server

The web interface sets and gets parameters through a connection of its own to
the control port.  Requests and replies arrive in pieces of any sizes.  What
the client returns is what the handler of the server answered, and the handler
is called once, for the operation that the client was asked for.
-/

namespace HdhrEmu

open ByteStream

/-- The two reads for a frame, as the server and the client make them. -/
inductive FrameRead
  | noHeader
  | tooLarge
  | truncated
  | frame (data : List UInt8) (s : Stream UInt8)

/-- The first read, the check of the declared length and the second read.  A
read that fails and one that never returns both end a loop on frames. -/
def readFrame (s : Stream UInt8) : FrameRead :=
  match s.readFull 4 with
  | none => .noHeader
  | some (header, s₁) =>
      if header.length ≠ 4 then .noHeader
      else
        let paylen := framePayloadLength header
        if hdhrMaxPacketSize < 4 + paylen + 4 then .tooLarge
        else
          match s₁.readFull (paylen + 4) with
          | none => .truncated
          | some (rest, s₂) =>
              if rest.length ≠ paylen + 4 then .truncated else .frame (header ++ rest) s₂

theorem length_of_readFrame {s s' : Stream UInt8} {data : List UInt8}
    (read : readFrame s = .frame data s') : s'.arriving.length < s.arriving.length := by
  unfold readFrame at read
  split at read
  · cases read
  · rename_i header s₁ readHeader
    have first := Stream.length_of_readFull readHeader
    split at read
    · cases read
    · rename_i four
      dsimp only at read
      split at read
      · cases read
      · split at read
        · cases read
        · rename_i readRest
          have second := Stream.length_of_readFull readRest
          split at read
          · cases read
          · cases read
            omega

/-- `conn_thread_main` on a connection. -/
def connThread (pkt : HdhrPkt) (s : Stream UInt8) : List GetsetOp :=
  match _read : readFrame s with
  | .frame data s' =>
      match hdhrPktOpenFrame pkt data with
      | none => []
      | some (opened, frameType) =>
          (if frameType = hdhrTypeGetsetReq then (getsetDispatch opened).toList else []) ++
            connThread pkt s'
  | _ => []
termination_by s.arriving.length
decreasing_by exact length_of_readFrame _read

/-- What is sent for a request: `send_value_reply` or `send_error_reply`. -/
inductive Reply
  | value (text : List UInt8)
  | error (msg : List UInt8)
  deriving DecidableEq, Repr

def sendValueReply (name value : List UInt8) : List UInt8 :=
  sealedFrame (hdhrPktWriteTlvStr (hdhrPktWriteTlvStr hdhrPktStartFrame hdhrTagGetsetName name)
    hdhrTagGetsetValue value) hdhrTypeGetsetRpy

def sendErrorReply (name msg : List UInt8) : List UInt8 :=
  sealedFrame (hdhrPktWriteTlvStr (hdhrPktWriteTlvStr hdhrPktStartFrame hdhrTagGetsetName name)
    hdhrTagErrorMessage msg) hdhrTypeGetsetRpy

def Reply.send (name : List UInt8) : Reply → List UInt8
  | .value text => sendValueReply name text
  | .error msg => sendErrorReply name msg

def GetsetOp.name : GetsetOp → List UInt8
  | .get name | .set name _ => name

/-- The handlers of `dispatch_getset`, on the requests of a connection: the
state behind them, and the bytes that are written. -/
def serve {σ : Type*} (handle : σ → GetsetOp → σ × Reply) (state : σ) :
    List GetsetOp → σ × List UInt8
  | [] => (state, [])
  | op :: ops =>
      let (next, reply) := handle state op
      let (last, bytes) := serve handle next ops
      (last, reply.send op.name ++ bytes)

/-- The bytes of a message of the source. -/
def asciiBytes (text : CStr) : List UInt8 :=
  text.map fun character => UInt8.ofNat character.toNat

/-- What `getset_client_call` returns, and the string it leaves behind
`reply_out` or `err_out`. -/
inductive CallResult
  | replied (reply : List UInt8)
  | failed (err : List UInt8)
  deriving DecidableEq, Repr

/-- What becomes of the connection to the control port.  A reply that does not
come in time is one behind which the connection stays silent. -/
inductive Link
  | socketFails
  | connectFails
  | writeFails
  | connected (reply : Stream UInt8)

/-- `set_err`. -/
def setErr (errLen : Nat) (msg : CStr) : CallResult :=
  .failed ((asciiBytes msg).take (errLen - 1))

/-- `found_value` and `found_error`. -/
structure FoundTexts where
  value : Option (List UInt8) := none
  error : Option (List UInt8) := none

/-- The body of the loop on the items of a reply. -/
def FoundTexts.find (found : FoundTexts) (item : Tlv.Item) : FoundTexts :=
  if item.tag = hdhrTagGetsetValue then { found with value := some item.value }
  else if item.tag = hdhrTagErrorMessage then { found with error := some item.value }
  else found

/-- The end of `getset_client_call`, with the items of the reply. -/
def callTexts (replyLen errLen : Nat) (pkt : HdhrPkt) : CallResult :=
  let (items, r) := hdhrPktReadTlvs pkt
  let found := items.foldl FoundTexts.find {}
  if r < 0 then setErr errLen "malformed reply TLVs".toList
  else
    match found.error, found.value with
    | some error, _ => .failed (cText (error.take (errLen - 1)))
    | none, some value => .replied (cText (value.take (replyLen - 1)))
    | none, none => setErr errLen "reply had neither VALUE nor ERROR_MESSAGE".toList

/-- `getset_client_call` behind its request; `pkt` is whatever the packet on
the stack held before. -/
def getsetClientCall (replyLen errLen : Nat) (pkt : HdhrPkt) : Link → CallResult
  | .socketFails => setErr errLen "socket() failed".toList
  | .connectFails => setErr errLen "connect to control port failed".toList
  | .writeFails => setErr errLen "write to control port failed".toList
  | .connected s =>
      match readFrame s with
      | .noHeader => setErr errLen "no reply from control port (timeout?)".toList
      | .tooLarge => setErr errLen "reply too large".toList
      | .truncated => setErr errLen "truncated reply from control port".toList
      | .frame data _ =>
          match hdhrPktOpenFrame pkt data with
          | none => setErr errLen "malformed reply (bad CRC)".toList
          | some (opened, frameType) =>
              if frameType ≠ hdhrTypeGetsetRpy then
                setErr errLen "unexpected reply frame type".toList
              else callTexts replyLen errLen opened

theorem framePayloadLength_take {data : List UInt8} (enough : 4 ≤ data.length) :
    framePayloadLength (data.take 4) = framePayloadLength data := by
  have parts : data = data.take 4 ++ data.drop 4 := (List.take_append_drop 4 data).symm
  have four : (data.take 4).length = 4 := by
    rw [List.length_take]
    omega
  conv_rhs => rw [parts]
  rw [framePayloadLength, framePayloadLength, List.getD_append _ _ _ _ (by omega),
    List.getD_append _ _ _ _ (by omega)]

/-- A frame that has arrived as a whole is read, and what follows is left. -/
theorem readFrame_whole {s : Stream UInt8}
    (small : 4 + framePayloadLength s.arriving + 4 ≤ hdhrMaxPacketSize)
    (whole : 4 + framePayloadLength s.arriving + 4 ≤ s.arriving.length) :
    ∃ pieces, readFrame s =
      .frame (s.arriving.take (4 + framePayloadLength s.arriving + 4))
        ⟨s.arriving.drop (4 + framePayloadLength s.arriving + 4), pieces, s.atEnd⟩ := by
  have header : 4 ≤ s.arriving.length := by omega
  obtain ⟨pieces, readHeader⟩ := Stream.readFull_enough header
  have four : (s.arriving.take 4).length = 4 := by
    rw [List.length_take]
    omega
  have enough : framePayloadLength s.arriving + 4 ≤ (s.arriving.drop 4).length := by
    rw [List.length_drop]
    omega
  have arrived : framePayloadLength s.arriving + 4 ≤
      (⟨s.arriving.drop 4, pieces, s.atEnd⟩ : Stream UInt8).arriving.length := enough
  obtain ⟨pieces', readRest⟩ := Stream.readFull_enough arrived
  have rest : ((s.arriving.drop 4).take (framePayloadLength s.arriving + 4)).length =
      framePayloadLength s.arriving + 4 := by
    rw [List.length_take]
    omega
  refine ⟨pieces', ?_⟩
  unfold readFrame
  simp only [readHeader, four, ne_eq, not_true_eq_false, if_false,
    framePayloadLength_take (by omega : 4 ≤ s.arriving.length), if_neg (Nat.not_lt.mpr small),
    readRest, rest, List.drop_drop]
  have joined : s.arriving.take 4 ++ (s.arriving.drop 4).take (framePayloadLength s.arriving + 4) =
      s.arriving.take (4 + (framePayloadLength s.arriving + 4)) :=
    List.take_add.symm
  rw [joined, Nat.add_assoc]

/-- A frame that has not arrived as a whole, or is too large, is not read. -/
theorem readFrame_cut {s : Stream UInt8}
    (cut : s.arriving.length < 4 ∨ hdhrMaxPacketSize < 4 + framePayloadLength s.arriving + 4 ∨
      s.arriving.length < 4 + framePayloadLength s.arriving + 4) :
    ∀ data s', readFrame s ≠ .frame data s' := by
  intro data s' read
  unfold readFrame at read
  by_cases header : 4 ≤ s.arriving.length
  · obtain ⟨pieces, readHeader⟩ := Stream.readFull_enough header
    have four : (s.arriving.take 4).length = 4 := by
      rw [List.length_take]
      omega
    simp only [readHeader, four, ne_eq, not_true_eq_false, if_false,
      framePayloadLength_take header] at read
    split at read
    · cases read
    · have few : (s.arriving.drop 4).length < framePayloadLength s.arriving + 4 := by
        rw [List.length_drop]
        omega
      rcases Stream.readFull_short (s := ⟨s.arriving.drop 4, pieces, s.atEnd⟩) few with
        ⟨_, never⟩ | ⟨_, all⟩
      · rw [never] at read
        cases read
      · simp only [all, if_pos (Nat.ne_of_lt few)] at read
        cases read
  · rcases Stream.readFull_short (Nat.lt_of_not_le header) with ⟨_, never⟩ | ⟨_, all⟩
    · rw [never] at read
      cases read
    · simp only [all, if_pos (Nat.ne_of_lt (Nat.lt_of_not_le header))] at read
      cases read

/-- The server does not see in which pieces its requests come. -/
theorem connThread_eq (pkt : HdhrPkt) (s : Stream UInt8) :
    connThread pkt s = connThreadMain pkt s.arriving := by
  generalize size : s.arriving.length = n
  induction n using Nat.strongRecOn generalizing s with
  | ind n ih =>
      rw [connThread, connThreadMain]
      by_cases whole : 4 ≤ s.arriving.length ∧
          4 + framePayloadLength s.arriving + 4 ≤ hdhrMaxPacketSize ∧
          4 + framePayloadLength s.arriving + 4 ≤ s.arriving.length
      · obtain ⟨header, small, whole⟩ := whole
        obtain ⟨pieces, read⟩ := readFrame_whole small whole
        have shorter : (s.arriving.drop (4 + framePayloadLength s.arriving + 4)).length < n := by
          rw [List.length_drop]
          omega
        simp only [if_neg (Nat.not_lt.mpr header), if_neg (Nat.not_lt.mpr small),
          if_neg (by omega : ¬ s.arriving.length < 4 + (framePayloadLength s.arriving + 4))]
        split
        · rename_i data s' same
          cases same.symm.trans read
          cases hdhrPktOpenFrame pkt (s.arriving.take (4 + framePayloadLength s.arriving + 4)) with
          | none => rfl
          | some received => exact congrArg (_ ++ ·) (ih _ shorter _ rfl)
        · rename_i other
          exact absurd read (other _ _)
      · have cut := readFrame_cut (s := s) (by omega)
        split
        · rename_i read
          exact absurd read (cut _ _)
        · split
          · rfl
          · split
            · rfl
            · rw [if_pos (by omega)]

/-- What a client is asked for: texts that fit the buffers of the server. -/
structure GetsetCall where
  name : List UInt8
  value : Option (List UInt8)
  name_nulFree : 0 ∉ name
  value_nulFree : ∀ text ∈ value, 0 ∉ text
  name_short : name.length + 1 < getsetNameSize
  value_short : ∀ text ∈ value, text.length + 1 < getsetValueSize

theorem cText_terminated {text : List UInt8} (nulFree : 0 ∉ text) (rest : List UInt8) :
    cText (text ++ 0 :: rest) = text := by
  have all : ∀ byte ∈ text, decide (byte ≠ 0) = true := by
    intro byte member
    exact decide_eq_true fun zero => nulFree (zero ▸ member)
  rw [cText, List.takeWhile_append_of_pos all, List.takeWhile_cons_of_neg (by decide),
    List.append_nil]

theorem cText_eq_self {text : List UInt8} (nulFree : 0 ∉ text) : cText text = text := by
  apply List.takeWhile_eq_self_iff.mpr
  intro byte member
  exact decide_eq_true fun zero => nulFree (zero ▸ member)

namespace GetsetCall

/-- The operation of a call. -/
def op (call : GetsetCall) : GetsetOp :=
  match call.value with
  | none => .get call.name
  | some value => .set call.name value

theorem name_op (call : GetsetCall) : call.op.name = call.name := by
  unfold op
  cases call.value <;> rfl

theorem short_items (call : GetsetCall) :
    (Tlv.encode (clientItems call.name call.value)).length ≤ 1452 := by
  have named := call.name_short
  have nameSize : getsetNameSize = 128 := rfl
  have valueSize : getsetValueSize = 192 := rfl
  unfold clientItems
  cases value : call.value with
  | none =>
      rw [Option.map_none, Option.toList_none, Tlv.encode_cons, Tlv.encode_nil, List.append_nil,
        Tlv.length_encode_item, List.length_append, List.length_singleton]
      split <;> omega
  | some text =>
      have valued := call.value_short text value
      rw [Option.map_some, Option.toList_some, Tlv.encode_cons, Tlv.encode_cons, Tlv.encode_nil,
        List.append_nil, List.length_append, Tlv.length_encode_item, Tlv.length_encode_item,
        List.length_append, List.length_append, List.length_singleton]
      split <;> split <;> omega

/-- The server carries out the operation of a call, and nothing else. -/
theorem performed (call : GetsetCall) (pkt : HdhrPkt) :
    connThreadMain pkt (getsetClientRequest call.name call.value) = [call.op] := by
  obtain ⟨opened, received, small, read⟩ := client_received pkt call.short_items
  have nothing : connThreadMain pkt [] = [] := by
    rw [connThreadMain]
    rfl
  have whole := connThreadMain_frame received small []
  rw [List.append_nil, if_pos rfl, nothing, List.append_nil, getsetDispatch_eq read] at whole
  have named : nameFits ⟨hdhrTagGetsetName, call.name ++ [0]⟩ = true := by
    have short := call.name_short
    simp [nameFits]
    omega
  have notValue : valueFits ⟨hdhrTagGetsetName, call.name ++ [0]⟩ = false := by
    have differs : hdhrTagGetsetName ≠ hdhrTagGetsetValue := by decide
    simp [valueFits, differs]
  rw [whole, op]
  unfold clientItems
  cases value : call.value with
  | none =>
      simp [lastName?, lastShortValue?, named, notValue, getsetOp,
        cText_terminated call.name_nulFree]
  | some text =>
      have valued : valueFits ⟨hdhrTagGetsetValue, text ++ [0]⟩ = true := by
        have short := call.value_short text value
        simp [valueFits]
        omega
      have notName : nameFits ⟨hdhrTagGetsetValue, text ++ [0]⟩ = false := by
        have differs : hdhrTagGetsetValue ≠ hdhrTagGetsetName := by decide
        simp [nameFits, differs]
      simp [lastName?, lastShortValue?, named, valued, notName, getsetOp,
        cText_terminated call.name_nulFree, cText_terminated (call.value_nulFree text value)]

end GetsetCall

namespace Reply

def text : Reply → List UInt8
  | .value text | .error text => text

def tag : Reply → UInt8
  | .value _ => hdhrTagGetsetValue
  | .error _ => hdhrTagErrorMessage

/-- A reply is a C string that fits a frame with any name. -/
structure Sendable (reply : Reply) : Prop where
  nulFree : 0 ∉ reply.text
  short : reply.text.length ≤ 1319

/-- What the client makes of a reply. -/
def seen (replyLen errLen : Nat) : Reply → CallResult
  | .value text => .replied (text.take (replyLen - 1))
  | .error msg => .failed (msg.take (errLen - 1))

/-- The items of a reply. -/
def items (name : List UInt8) (reply : Reply) : List Tlv.Item :=
  [⟨hdhrTagGetsetName, name ++ [0]⟩, ⟨reply.tag, reply.text ++ [0]⟩]

theorem send_eq (name : List UInt8) (reply : Reply) :
    reply.send name =
      sealedFrame (hdhrPktWriteTlvs hdhrPktStartFrame (reply.items name)) hdhrTypeGetsetRpy := by
  cases reply <;> rfl

theorem length_items {name : List UInt8} (named : name.length + 1 < getsetNameSize) {reply : Reply}
    (sendable : reply.Sendable) : (Tlv.encode (reply.items name)).length ≤ 1452 := by
  have nameSize : getsetNameSize = 128 := rfl
  have short := sendable.short
  rw [items, Tlv.encode_cons, Tlv.encode_cons, Tlv.encode_nil, List.append_nil, List.length_append,
    Tlv.length_encode_item, Tlv.length_encode_item]
  simp only [List.length_append, List.length_singleton]
  split <;> split <;> omega

end Reply

theorem cText_take_terminated {text : List UInt8} (nulFree : 0 ∉ text) (count : Nat) :
    cText ((text ++ [0]).take count) = text.take count := by
  have front : 0 ∉ text.take count := fun member => nulFree (List.mem_of_mem_take member)
  by_cases short : count ≤ text.length
  · rw [List.take_append_of_le_length short, cText_eq_self front]
  · rw [List.take_of_length_le (by rw [List.length_append, List.length_singleton]; omega),
      cText_terminated nulFree, List.take_of_length_le (by omega)]

/-- The client returns the reply that the server sent. -/
theorem getsetClientCall_reply {name : List UInt8} (named : name.length + 1 < getsetNameSize)
    {reply : Reply} (sendable : reply.Sendable) (replyLen errLen : Nat) (pkt : HdhrPkt)
    (pieces : List Nat) (atEnd : AtEnd) (behind : List UInt8) :
    getsetClientCall replyLen errLen pkt (.connected ⟨reply.send name ++ behind, pieces, atEnd⟩) =
      reply.seen replyLen errLen := by
  have limit : hdhrMaxPacketSize = 1460 := rfl
  have buffer : hdhrPktBufferSize = 3074 := rfl
  have size := Reply.length_items named sendable
  have room : 4 + (Tlv.encode (reply.items name)).length + 4 ≤ hdhrPktBufferSize := by omega
  obtain ⟨opened, received, read⟩ := readTlvs_frameBytes pkt hdhrTypeGetsetRpy room
  have declared : framePayloadLength (frameBytes hdhrTypeGetsetRpy (Tlv.encode (reply.items name))) =
      (Tlv.encode (reply.items name)).length :=
    framePayloadLength_frameBytes hdhrTypeGetsetRpy (by omega)
  have length := length_frameBytes hdhrTypeGetsetRpy (Tlv.encode (reply.items name))
  rw [reply.send_eq name, sealedFrame_writeTlvs room]
  generalize frameBytes hdhrTypeGetsetRpy (Tlv.encode (reply.items name)) = data at *
  have longer : framePayloadLength (data ++ behind) = framePayloadLength data := by
    rw [framePayloadLength, framePayloadLength, List.getD_append _ _ _ _ (by omega),
      List.getD_append _ _ _ _ (by omega)]
  have total : 4 + framePayloadLength (data ++ behind) + 4 = data.length := by
    rw [longer, declared]
    omega
  obtain ⟨pieces', readData⟩ := readFrame_whole (s := ⟨data ++ behind, pieces, atEnd⟩)
    (by simp only [total]; omega) (by simp only [total, List.length_append]; omega)
  simp only [total, List.take_left] at readData
  have notError : hdhrTagGetsetName ≠ hdhrTagErrorMessage := by decide
  have notValue : hdhrTagGetsetName ≠ hdhrTagGetsetValue := by decide
  have others : hdhrTagErrorMessage ≠ hdhrTagGetsetValue := by decide
  simp only [getsetClientCall, readData, received, ne_eq, not_true_eq_false, if_false, callTexts,
    read]
  cases reply with
  | value text =>
      have nulFree : 0 ∉ text := sendable.nulFree
      have shown := cText_take_terminated nulFree (replyLen - 1)
      simp [Reply.items, Reply.tag, Reply.text, FoundTexts.find, notValue, notError, Reply.seen,
        shown]
  | error msg =>
      have nulFree : 0 ∉ msg := sendable.nulFree
      have shown := cText_take_terminated nulFree (errLen - 1)
      simp [Reply.items, Reply.tag, Reply.text, FoundTexts.find, notValue, notError, others,
        Reply.seen, shown]

/-- A call through the control port is a call of the handler: it is run once,
for the operation that was asked for, and its reply is returned, whatever the
pieces are in which request and reply arrive. -/
theorem getset_call_answered {σ : Type*} (handle : σ → GetsetOp → σ × Reply) (state : σ)
    (call : GetsetCall) (sendable : (handle state call.op).2.Sendable) (replyLen errLen : Nat)
    (server client : HdhrPkt) (requestPieces replyPieces : List Nat) (requestEnd replyEnd : AtEnd) :
    let served := serve handle state (connThread server
      ⟨getsetClientRequest call.name call.value, requestPieces, requestEnd⟩)
    served.1 = (handle state call.op).1 ∧
      getsetClientCall replyLen errLen client (.connected ⟨served.2, replyPieces, replyEnd⟩) =
        (handle state call.op).2.seen replyLen errLen := by
  intro served
  have outcome : serve handle state (connThread server
      ⟨getsetClientRequest call.name call.value, requestPieces, requestEnd⟩) =
      ((handle state call.op).1, (handle state call.op).2.send call.name ++ []) := by
    rw [connThread_eq, call.performed, ← call.name_op]
    rfl
  have same : served =
      ((handle state call.op).1, (handle state call.op).2.send call.name ++ []) := outcome
  rw [same]
  exact ⟨rfl, getsetClientCall_reply call.name_short sendable replyLen errLen client replyPieces
    replyEnd []⟩

/-- A call to set a parameter, for a server that counts and echoes. -/
def echoCall : GetsetCall where
  name := [0x2f, 0x73]
  value := some [0x31]
  name_nulFree := by decide
  value_nulFree := by decide
  name_short := by decide
  value_short := by decide

theorem getset_call_answered_echo :
    let served := serve (fun count op => (count + 1, Reply.value op.name)) 0
      (connThread hdhrPktStartFrame ⟨getsetClientRequest [0x2f, 0x73] (some [0x31]), [1, 2], .silent⟩)
    served.1 = 1 ∧
      getsetClientCall 32 32 hdhrPktStartFrame (.connected ⟨served.2, [3], .closed⟩) =
        .replied [0x2f, 0x73] :=
  getset_call_answered (fun count op => (count + 1, Reply.value op.name)) 0 echoCall
    ⟨by decide, by decide⟩ 32 32 hdhrPktStartFrame hdhrPktStartFrame [1, 2] [3] .silent .closed

end HdhrEmu
