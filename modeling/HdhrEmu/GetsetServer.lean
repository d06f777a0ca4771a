import HdhrEmu.PktFrame
import Mathlib.Data.List.Induction

/-!
# Requests on the control port

A connection reads frame after frame.  The items of a request are copied into
two buffers of fixed size; an item that is too long for its buffer is passed
over as if it had not been there, so that a request to set a parameter can be
carried out as a request to get it.
-/

namespace HdhrEmu

/-- `sizeof(name)` and `sizeof(value)` in `conn_thread_main`. -/
def getsetNameSize : Nat := 128
def getsetValueSize : Nat := 192

/-- The bytes of a C string in a buffer. -/
def cText (bytes : List UInt8) : List UInt8 :=
  bytes.takeWhile (· ≠ 0)

/-- What `dispatch_getset` is called for. -/
inductive GetsetOp
  | get (name : List UInt8)
  | set (name value : List UInt8)
  deriving DecidableEq, Repr

/-- `name` with `have_name`, and `value` with `have_value`. -/
structure GetsetRequest where
  name : Option (List UInt8) := none
  value : Option (List UInt8) := none

def nameFits (item : Tlv.Item) : Bool :=
  item.tag = hdhrTagGetsetName ∧ 0 < item.value.length ∧ item.value.length < getsetNameSize

def valueFits (item : Tlv.Item) : Bool :=
  item.tag = hdhrTagGetsetValue ∧ item.value.length < getsetValueSize

/-- The body of the loop on the items of a request. -/
def GetsetRequest.copy (request : GetsetRequest) (item : Tlv.Item) : GetsetRequest :=
  if nameFits item then { request with name := some item.value }
  else if valueFits item then { request with value := some item.value }
  else request

def getsetOp (name : List UInt8) : Option (List UInt8) → GetsetOp
  | none => .get (cText name)
  | some value => .set (cText name) (cText value)

/-- What is dispatched for a request, if anything. -/
def getsetDispatch (pkt : HdhrPkt) : Option GetsetOp :=
  let (items, r) := hdhrPktReadTlvs pkt
  let request := items.foldl GetsetRequest.copy {}
  if r < 0 then none
  else request.name.map fun name => getsetOp name request.value

/-- `conn_thread_main` on the bytes that the peer sends before it closes the
connection; `pkt` is whatever the packet on the stack held before. -/
def connThreadMain (pkt : HdhrPkt) (bytes : List UInt8) : List GetsetOp :=
  let paylen := framePayloadLength bytes
  if bytes.length < 4 then []
  else if hdhrMaxPacketSize < 4 + paylen + 4 then []
  else if bytes.length < 4 + (paylen + 4) then []
  else
    match hdhrPktOpenFrame pkt (bytes.take (4 + paylen + 4)) with
    | none => []
    | some (opened, frameType) =>
        (if frameType = hdhrTypeGetsetReq then (getsetDispatch opened).toList else []) ++
          connThreadMain pkt (bytes.drop (4 + paylen + 4))
termination_by bytes.length
decreasing_by
  rw [List.length_drop]
  omega

/-- `getset_client_call`: the bytes of a request. -/
def getsetClientRequest (name : List UInt8) (value : Option (List UInt8)) : List UInt8 :=
  let req := hdhrPktWriteTlvStr hdhrPktStartFrame hdhrTagGetsetName name
  let req :=
    match value with
    | none => req
    | some value => hdhrPktWriteTlvStr req hdhrTagGetsetValue value
  sealedFrame req hdhrTypeGetsetReq

/-- The value of the last item with a tag. -/
def lastValue? (tag : UInt8) (items : List Tlv.Item) : Option (List UInt8) :=
  (items.reverse.find? fun item => item.tag = tag).map Tlv.Item.value

/-- The operation that the items of a request encode. -/
def encodedOp (items : List Tlv.Item) : Option GetsetOp :=
  (lastValue? hdhrTagGetsetName items).map fun name =>
    getsetOp name (lastValue? hdhrTagGetsetValue items)

def lastName? (items : List Tlv.Item) : Option (List UInt8) :=
  (items.reverse.find? nameFits).map Tlv.Item.value

/-- The last value that fits its buffer. -/
def lastShortValue? (items : List Tlv.Item) : Option (List UInt8) :=
  (items.reverse.find? valueFits).map Tlv.Item.value

theorem foldl_copy (items : List Tlv.Item) :
    items.foldl GetsetRequest.copy {} = ⟨lastName? items, lastShortValue? items⟩ := by
  induction items using List.reverseRecOn with
  | nil => rfl
  | append_singleton items item ih =>
      rw [List.foldl_append, ih, List.foldl_cons, List.foldl_nil]
      simp only [lastName?, lastShortValue?, List.reverse_append, List.reverse_singleton,
        List.singleton_append, List.find?_cons, GetsetRequest.copy]
      by_cases name : nameFits item
      · have other : valueFits item = false := by
          have tagged : item.tag = hdhrTagGetsetName := (of_decide_eq_true name).1
          have differs : hdhrTagGetsetName ≠ hdhrTagGetsetValue := by decide
          simp [valueFits, tagged, differs]
        simp [name, other]
      · by_cases value : valueFits item
        · simp [name, value]
        · simp [name, value]

/-- The text of the last name is that of the last name that fits its buffer,
and the same for the values. -/
def TextsFit (items : List Tlv.Item) : Prop :=
  (lastValue? hdhrTagGetsetName items).map cText = (lastName? items).map cText ∧
    (lastValue? hdhrTagGetsetValue items).map cText = (lastShortValue? items).map cText

/-- What is dispatched for a request that is read to its end. -/
theorem getsetDispatch_eq {pkt : HdhrPkt} {items : List Tlv.Item}
    (read : hdhrPktReadTlvs pkt = (items, 0)) :
    getsetDispatch pkt =
      (lastName? items).map fun name => getsetOp name (lastShortValue? items) := by
  simp only [getsetDispatch, read, foldl_copy]
  rfl

theorem getsetOp_eq_iff {name name' : List UInt8} {value value' : Option (List UInt8)} :
    getsetOp name value = getsetOp name' value' ↔
      cText name = cText name' ∧ value.map cText = value'.map cText := by
  cases value <;> cases value' <;> simp [getsetOp]

/-- What is carried out is nothing or what is encoded exactly when the texts
fit or no name does. -/
theorem dispatched_encoded_iff (items : List Tlv.Item) :
    ((lastName? items).map fun name => getsetOp name (lastShortValue? items)) = none ∨
        ((lastName? items).map fun name => getsetOp name (lastShortValue? items)) =
          encodedOp items ↔
      lastName? items = none ∨ TextsFit items := by
  unfold encodedOp TextsFit
  cases lastName? items with
  | none => simp
  | some name =>
      cases lastValue? hdhrTagGetsetName items with
      | none => simp
      | some sent =>
          simp only [Option.map_some, Option.some.injEq, reduceCtorEq, false_or, getsetOp_eq_iff]
          constructor
          · rintro ⟨names, values⟩
            exact ⟨names.symm, values.symm⟩
          · rintro ⟨names, values⟩
            exact ⟨names.symm, values.symm⟩

/-- A frame that the server reads is dispatched on its own, and then the rest
of the connection is read. -/
theorem connThreadMain_frame {pkt opened : HdhrPkt} {data : List UInt8} {frameType : UInt16}
    (received : hdhrPktOpenFrame pkt data = some (opened, frameType))
    (small : data.length ≤ hdhrMaxPacketSize) (rest : List UInt8) :
    connThreadMain pkt (data ++ rest) =
      (if frameType = hdhrTypeGetsetReq then (getsetDispatch opened).toList else []) ++
        connThreadMain pkt rest := by
  have accepted := (remaining_openFrame received).1
  have large := accepted.large
  have declared := accepted.declared
  have same : framePayloadLength (data ++ rest) = framePayloadLength data := by
    rw [framePayloadLength, framePayloadLength, List.getD_append _ _ _ _ (by omega),
      List.getD_append _ _ _ _ (by omega)]
  have length : (data ++ rest).length = data.length + rest.length := List.length_append
  rw [connThreadMain]
  simp only [same]
  rw [if_neg (by omega), if_neg (by omega), if_neg (by omega), declared, List.take_left,
    List.drop_left, received]

/-- The items of a request of the client. -/
def clientItems (name : List UInt8) (value : Option (List UInt8)) : List Tlv.Item :=
  ⟨hdhrTagGetsetName, name ++ [0]⟩ ::
    (value.map fun value => ⟨hdhrTagGetsetValue, value ++ [0]⟩).toList

theorem getsetClientRequest_eq {name : List UInt8} {value : Option (List UInt8)}
    (fits : 4 + (Tlv.encode (clientItems name value)).length + 4 ≤ hdhrPktBufferSize) :
    getsetClientRequest name value =
      frameBytes hdhrTypeGetsetReq (Tlv.encode (clientItems name value)) := by
  rw [← sealedFrame_writeTlvs fits]
  cases value <;> rfl

/-- The server receives a short request of the client as it was written. -/
theorem client_received (pkt : HdhrPkt) {name : List UInt8} {value : Option (List UInt8)}
    (short : (Tlv.encode (clientItems name value)).length ≤ 1452) :
    ∃ opened, hdhrPktOpenFrame pkt (getsetClientRequest name value) =
        some (opened, hdhrTypeGetsetReq) ∧
      (getsetClientRequest name value).length ≤ hdhrMaxPacketSize ∧
      hdhrPktReadTlvs opened = (clientItems name value, 0) := by
  have buffer : hdhrPktBufferSize = 3074 := rfl
  have limit : hdhrMaxPacketSize = 1460 := rfl
  have maximum : Tlv.maxLength = 32768 := rfl
  have fits : 4 + (Tlv.encode (clientItems name value)).length + 4 ≤ hdhrPktBufferSize := by omega
  obtain ⟨opened, received, remaining⟩ := openFrame_frameBytes pkt hdhrTypeGetsetReq fits
  rw [getsetClientRequest_eq fits]
  refine ⟨opened, received, ?_, ?_⟩
  · rw [length_frameBytes]
    omega
  · rw [readTlvs_eq, remaining, Tlv.decode_encode (Tlv.lt_maxLength_of_encode (by omega))]
    rfl

/-- A value of 191 bytes or more is not seen by the server: the request to set
a parameter becomes a request to get it. -/
theorem client_long_value_gets (pkt : HdhrPkt) {name value : List UInt8} (rest : List UInt8)
    (short : name.length < 127) (long : 191 ≤ value.length) (sent : value.length ≤ 255) :
    connThreadMain pkt (getsetClientRequest name (some value) ++ rest) =
      .get (cText (name ++ [0])) :: connThreadMain pkt rest := by
  have items : clientItems name (some value) =
      [⟨hdhrTagGetsetName, name ++ [0]⟩, ⟨hdhrTagGetsetValue, value ++ [0]⟩] := rfl
  have size : (Tlv.encode (clientItems name (some value))).length ≤ 1452 := by
    rw [items, Tlv.encode_cons, Tlv.encode_cons, Tlv.encode_nil, List.length_append,
      List.length_append, Tlv.length_encode_item, Tlv.length_encode_item, List.length_append,
      List.length_append, List.length_singleton, List.length_nil]
    split <;> split <;> omega
  obtain ⟨opened, received, small, read⟩ := client_received pkt size
  rw [connThreadMain_frame received small, if_pos rfl, getsetDispatch_eq read, items]
  have nameSize : getsetNameSize = 128 := rfl
  have valueSize : getsetValueSize = 192 := rfl
  have differs : hdhrTagGetsetName ≠ hdhrTagGetsetValue := by decide
  have named : nameFits ⟨hdhrTagGetsetName, name ++ [0]⟩ = true := by
    simp [nameFits, nameSize]
    omega
  have notName : nameFits ⟨hdhrTagGetsetValue, value ++ [0]⟩ = false := by
    simp [nameFits, differs.symm]
  have tooLong : valueFits ⟨hdhrTagGetsetValue, value ++ [0]⟩ = false := by
    simp [valueFits, valueSize]
    omega
  have notValue : valueFits ⟨hdhrTagGetsetName, name ++ [0]⟩ = false := by
    simp [valueFits, differs]
  simp [lastName?, lastShortValue?, named, notName, tooLong, notValue, getsetOp]

/-- A request that the server reads is carried out as it was meant, or not at
all, exactly when the texts of its last name and its last value fit. -/
theorem request_performed_iff (pkt opened : HdhrPkt) (data rest : List UInt8)
    (received : hdhrPktOpenFrame pkt data = some (opened, hdhrTypeGetsetReq))
    (small : data.length ≤ hdhrMaxPacketSize)
    (wellFormed : (hdhrPktReadTlvs opened).2 = 0) :
    (∃ ops, connThreadMain pkt (data ++ rest) = ops ++ connThreadMain pkt rest ∧
        (ops = [] ∨ ops = (encodedOp (hdhrPktReadTlvs opened).1).toList)) ↔
      lastName? (hdhrPktReadTlvs opened).1 = none ∨ TextsFit (hdhrPktReadTlvs opened).1 := by
  have read : hdhrPktReadTlvs opened = ((hdhrPktReadTlvs opened).1, 0) := by rw [← wellFormed]
  have dispatched := getsetDispatch_eq read
  rw [connThreadMain_frame received small, if_pos rfl, ← dispatched_encoded_iff, ← dispatched]
  constructor
  · rintro ⟨ops, whole, meant⟩
    have same : (getsetDispatch opened).toList = ops := List.append_cancel_right whole
    subst same
    obtain nothing | encoded := meant
    · exact .inl (Option.toList_eq_nil_iff.mp nothing)
    · refine .inr (Option.ext fun op => ?_)
      rw [← Option.mem_toList, encoded, Option.mem_toList]
  · rintro (nothing | encoded)
    · exact ⟨_, rfl, .inl (by rw [nothing]; rfl)⟩
    · exact ⟨_, rfl, .inr (by rw [encoded])⟩

/-- A request of the client for `help`. -/
theorem request_performed_iff_help :
    ∃ opened, hdhrPktReadTlvs opened = (clientItems [0x68, 0x65, 0x6c, 0x70] none, 0) ∧
      ∃ ops, connThreadMain hdhrPktStartFrame
          (getsetClientRequest [0x68, 0x65, 0x6c, 0x70] none ++ []) =
            ops ++ connThreadMain hdhrPktStartFrame [] ∧
        (ops = [] ∨ ops = (encodedOp (hdhrPktReadTlvs opened).1).toList) := by
  have short : (Tlv.encode (clientItems [0x68, 0x65, 0x6c, 0x70] none)).length ≤ 1452 := by decide
  obtain ⟨opened, received, small, read⟩ := client_received hdhrPktStartFrame short
  refine ⟨opened, read, ?_⟩
  apply (request_performed_iff hdhrPktStartFrame opened _ [] received small (by rw [read])).mpr
  right
  rw [read]
  exact ⟨rfl, rfl⟩

/-- `/tuner0/channel`. -/
def tunerChannel : List UInt8 :=
  [0x2f, 0x74, 0x75, 0x6e, 0x65, 0x72, 0x30, 0x2f, 0x63, 0x68, 0x61, 0x6e, 0x6e, 0x65, 0x6c]

/-- A channel of 200 characters from the web interface is answered as if its
value had been asked for. -/
theorem long_channel_not_set :
    ¬ ∃ ops, connThreadMain hdhrPktStartFrame
        (getsetClientRequest tunerChannel (some (List.replicate 200 0x31)) ++ []) =
          ops ++ connThreadMain hdhrPktStartFrame [] ∧
      (ops = [] ∨
        ops = (encodedOp (clientItems tunerChannel (some (List.replicate 200 0x31)))).toList) := by
  rintro ⟨ops, whole, meant⟩
  rw [client_long_value_gets hdhrPktStartFrame [] (by decide)
    (by rw [List.length_replicate]; decide) (by rw [List.length_replicate]; decide)] at whole
  have read : [GetsetOp.get (cText (tunerChannel ++ [0]))] = ops := List.append_cancel_right whole
  subst read
  obtain nothing | set_ := meant
  · cases nothing
  · cases set_

end HdhrEmu
