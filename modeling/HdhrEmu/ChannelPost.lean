import HdhrEmu.GetsetCall
import HdhrEmu.SelectionWrites
import HdhrEmu.StaticFiles
import HdhrEmu.WebStatus

/-!
# Setting a channel from the web interface

For a POST to `/api/tunerN/channel` the web interface cuts the value out of
the body and calls the control server, over a connection for each call.  If the
server takes the value, it polls the tuner until the status is no placeholder,
or three times, and answers with the state of the tuner; else it answers with
the message of the server.
-/

namespace HdhrEmu

open CString ByteStream CheckedMemory

/-- `sizeof(tmp)` and `sizeof(value)`. -/
def channelValueSize : Nat := 256

/-- `extract_channel_value`. -/
def extractChannelValue (body : List Char) : CStr :=
  let tmp := terminated (body.take (channelValueSize - 1))
  match strstr "value=".toList tmp with
  | some v => truncate channelValueSize (v.drop 6)
  | none => truncate channelValueSize tmp

/-- A `name` that `snprintf` prints from `"/tuner%d..."`. -/
def parameterName (idx : Int) (leaf : CStr) : CStr :=
  truncate 32 ("/tuner".toList ++ decimalInt idx ++ leaf)

def channelLeaf : CStr := "/channel".toList
def statusLeaf : CStr := "/status".toList

/-- What `append_tuner_json` asks for. -/
def pollLeaves : List CStr :=
  [statusLeaf, "/vchannel".toList, "/streaminfo".toList, "/debug".toList]

inductive PostAnswer
  | badRequest (body : CStr)
  | ok (body : CStr)
  deriving DecidableEq, Repr

/-- `sizeof(json)` in `handle_channel_post`. -/
def errorJsonSize : Nat := 384

/-- The bytes of a C string as characters. -/
def charText (bytes : List UInt8) : CStr :=
  bytes.map fun byte => Char.ofNat byte.toNat

def errorPieces (err : CStr) : List Piece :=
  [.print "\x7b\"error\":\"".toList, .escape err, .print "\"\x7d\n".toList]

/-- The body of a buffer that has been written. -/
def writtenBody (buffer : TextBuffer) : Checked CStr :=
  if buffer.off ≤ buffer.cap then .ok (buffer.cells.take buffer.off)
  else .error (.read buffer.cap)

/-- The answer to a call that failed. -/
def badRequest (json : List Char) (err : CStr) : Checked PostAnswer :=
  (writeAll ⟨json, 0⟩ (errorPieces err)).bind fun buffer => (writtenBody buffer).map .badRequest

/-- The answer with the state of the tuner. -/
def tunerState (buf : List Char) (idx : Int32) (texts : PollTexts) : Checked PostAnswer :=
  (writeAll ⟨buf, 0⟩ (texts.pieces idx)).bind fun buffer =>
    (buffer.append ['\n']).bind fun buffer => (writtenBody buffer).map .ok

/-- The connection of one call: what the packets on the two stacks held before,
and the pieces in which request and reply arrive. -/
structure Exchange where
  server : HdhrPkt
  client : HdhrPkt
  requestPieces : List Nat
  requestEnd : AtEnd
  replyPieces : List Nat
  replyEnd : AtEnd

/-- The web interface and the control server on one host: the handlers of the
server with their state, what else happens to that state before each of the
calls, their connections, and the two buffers of `handle_channel_post`. -/
structure Loopback (σ : Type*) where
  handle : σ → GetsetOp → σ × Reply
  state : σ
  meanwhile : Nat → σ → σ
  exchange : Nat → Exchange
  json : List Char
  buf : List Char
  json_length : json.length = errorJsonSize
  buf_length : buf.length = perTunerJsonMax

/-- The state of the server, and the operations it has carried out. -/
structure ServerSide (σ : Type*) where
  state : σ
  ops : List GetsetOp

/-- What is in a buffer behind a call, which leaves it alone if it fails. -/
def CallResult.textOr (fallback : CStr) : CallResult → CStr
  | .replied reply => charText reply
  | .failed _ => fallback

/-- `is_placeholder`. -/
def isPlaceholder (status : CStr) : Bool :=
  (strstr "lock=none".toList status).isSome && (strstr "ss=45".toList status).isSome &&
    (strstr "snq=0".toList status).isSome && (strstr "seq=0".toList status).isSome

namespace Loopback

variable {σ : Type*} (host : Loopback σ)

/-- `getset_client_call`, once the connection is there. -/
def call (so : ServerSide σ) (name : CStr) (value : Option CStr) (replyLen errLen : Nat) :
    ServerSide σ × CallResult :=
  let exchange := host.exchange so.ops.length
  let ops := connThread exchange.server
    ⟨getsetClientRequest (asciiBytes name) (value.map asciiBytes), exchange.requestPieces,
      exchange.requestEnd⟩
  let served := serve host.handle (host.meanwhile so.ops.length so.state) ops
  (⟨served.1, so.ops ++ ops⟩,
    getsetClientCall replyLen errLen exchange.client
      (.connected ⟨served.2, exchange.replyPieces, exchange.replyEnd⟩))

/-- The loop on `attempt`. -/
def peekStatus (idx : Int) : Nat → ServerSide σ → ServerSide σ
  | 0, so => so
  | attempts + 1, so =>
      let called := host.call so (parameterName idx statusLeaf) none replySize 128
      match called.2 with
      | .replied status =>
          if isPlaceholder (charText status) then peekStatus idx attempts called.1 else called.1
      | .failed _ => called.1

/-- The calls of `append_tuner_json`. -/
def pollTuner (idx : Int) (so : ServerSide σ) : ServerSide σ × PollTexts :=
  let status := host.call so (parameterName idx statusLeaf) none replySize 128
  let vchannel := host.call status.1 (parameterName idx "/vchannel".toList) none replySize 128
  let streaminfo := host.call vchannel.1 (parameterName idx "/streaminfo".toList) none replySize 128
  let debug := host.call streaminfo.1 (parameterName idx "/debug".toList) none replySize 128
  (debug.1,
    ⟨status.2.textOr (statusOf none), vchannel.2.textOr noneText, streaminfo.2.textOr noneText,
      debug.2.textOr []⟩)

/-- The server behind the call for the channel, and what the call returns. -/
def callChannel (idx : Int) (body : List Char) : ServerSide σ × CallResult :=
  host.call ⟨host.state, []⟩ (parameterName idx channelLeaf) (some (extractChannelValue body))
    192 128

/-- The polls behind a call that succeeded. -/
def pollAfter (idx : Int) (so : ServerSide σ) : ServerSide σ × PollTexts :=
  host.pollTuner idx (host.peekStatus idx 3 so)

def handleChannelPost (idx : Int) (body : List Char) : ServerSide σ × Checked PostAnswer :=
  let called := host.callChannel idx body
  match called.2 with
  | .failed err =>
      (called.1, badRequest host.json (charText err))
  | .replied _ =>
      let polled := host.pollAfter idx called.1
      (polled.1, tunerState host.buf (Int32.ofInt idx) polled.2)

/-- A connection of a browser that brings a POST for a channel. -/
def post (cfg : WebConfig) (s : Stream Char) : Option (ServerSide σ × Checked PostAnswer) :=
  match handleRequest s with
  | some (.webUiTryHandle method path body) =>
      match webUiRoute cfg method path with
      | .channelPost idx => some (host.handleChannelPost idx body)
      | _ => none
  | _ => none

/-- The state that operations leave behind, one call for each. -/
def replay (ops : List GetsetOp) : σ :=
  ops.zipIdx.foldl (fun state op => (host.handle (host.meanwhile op.2 state) op.1).1) host.state

end Loopback

/-- A POST request for the channel of a tuner, with its length first. -/
structure ChannelPost extends PostRequest where
  tuner : Nat
  named : path.takeWhile (· ≠ '?') = "/api/tuner".toList ++ (decimal tuner ++ "/channel".toList)
  lengthFirst : toPostRequest.LengthFirst
  octets : ∀ character ∈ body, character.toNat < 256

namespace ChannelPost

variable (p : ChannelPost)

def value : List UInt8 :=
  asciiBytes (extractChannelValue p.body)

/-- The bytes of a name. -/
def name (leaf : CStr) : List UInt8 :=
  asciiBytes ("/tuner".toList ++ (decimal p.tuner ++ leaf))

/-- What the control server is asked for first: to set the channel to a value
of at most 190 bytes, or else to get it. -/
def op : GetsetOp :=
  if p.value.length + 1 < getsetValueSize then .set (p.name channelLeaf) p.value
  else .get (p.name channelLeaf)

/-- What it is asked for when it has replied: nothing, or one to three times for
the status, and then for what is shown of the tuner. -/
def FollowedBy (later : List GetsetOp) : Reply → Prop
  | .error _ => later = []
  | .value _ => ∃ count, 1 ≤ count ∧ count ≤ 3 ∧
      later = List.replicate count (.get (p.name statusLeaf)) ++
        pollLeaves.map fun leaf => .get (p.name leaf)

end ChannelPost

theorem toNat_asciiByte {character : Char} (octet : character.toNat < 256) :
    (UInt8.ofNat character.toNat).toNat = character.toNat := by
  rw [UInt8.toNat_ofNat']
  omega

theorem nulFree_asciiBytes {text : CStr} (octets : ∀ character ∈ text, character.toNat < 256)
    (nulFree : '\x00' ∉ text) : 0 ∉ asciiBytes text := by
  intro member
  obtain ⟨character, inside, zero⟩ := List.mem_map.mp member
  have value := congrArg UInt8.toNat zero
  rw [toNat_asciiByte (octets character inside), UInt8.toNat_zero] at value
  have same : character = '\x00' := Char.toNat_inj.mp value
  exact nulFree (same ▸ inside)

theorem charText_asciiBytes {text : CStr} (octets : ∀ character ∈ text, character.toNat < 256) :
    charText (asciiBytes text) = text := by
  rw [charText, asciiBytes, List.map_map]
  refine (List.map_congr_left fun character member => ?_).trans (List.map_id _)
  rw [Function.comp_apply, toNat_asciiByte (octets character member), Char.ofNat_toNat]
  rfl

theorem terminated_nulFree (bytes : List Char) : '\x00' ∉ terminated bytes := by
  intro member
  have kept := List.mem_takeWhile_imp member
  simp at kept

theorem extractChannelValue_suffix (body : List Char) :
    ∃ text, extractChannelValue body = text.take 255 ∧
      text <:+ terminated (body.take (channelValueSize - 1)) := by
  unfold extractChannelValue
  dsimp only
  split
  · rename_i v found
    exact ⟨_, rfl, (List.drop_suffix 6 v).trans (strstr_suffix found)⟩
  · exact ⟨_, rfl, List.suffix_rfl⟩

/-- The value is at most 255 bytes of the body without a NUL. -/
theorem mem_extractChannelValue {body : List Char} {character : Char}
    (member : character ∈ extractChannelValue body) :
    character ∈ body ∧ character ≠ '\x00' := by
  obtain ⟨text, same, suffix⟩ := extractChannelValue_suffix body
  rw [same] at member
  have inside := suffix.subset (List.mem_of_mem_take member)
  refine ⟨List.mem_of_mem_take ((List.takeWhile_prefix _).subset inside), ?_⟩
  rintro rfl
  exact terminated_nulFree _ inside

theorem length_extractChannelValue (body : List Char) : (extractChannelValue body).length ≤ 255 := by
  obtain ⟨text, same, -⟩ := extractChannelValue_suffix body
  rw [same, List.length_take]
  exact Nat.min_le_left _ _

theorem isPrefixOf?_append (front rest : CStr) : front.isPrefixOf? (front ++ rest) = some rest := by
  induction front with
  | nil => rfl
  | cons character front ih => simp [List.isPrefixOf?, ih]

theorem scanTunerPath_tuner {tuner : Nat} (small : tuner < 2 ^ 31) (front : CStr) {back : CStr}
    (ends : EndsNumeral back) :
    scanTunerPath front back (front ++ (decimal tuner ++ back)) = some (tuner : Int) := by
  have scanned := scanInt_decimalInt (i := tuner) (by omega) (by omega) ends
  have digits : decimalInt (tuner : Int) = decimal tuner :=
    if_neg (by omega)
  rw [digits] at scanned
  rw [scanTunerPath, isPrefixOf?_append, Option.bind_some, scanned, Option.bind_some]
  exact if_pos rfl

theorem webUiRoute_channelPost {cfg : WebConfig} {tuner : Nat}
    (inRange : (tuner : Int) < cfg.tunerCount) (small : tuner < 2 ^ 31) :
    webUiRoute cfg postMethod ("/api/tuner".toList ++ (decimal tuner ++ "/channel".toList)) =
      .channelPost tuner := by
  have differs : postMethod ≠ getMethod := by decide
  have ends : EndsNumeral "/channel".toList := endsNumeral_cons (by decide) _
  have scanned := scanTunerPath_tuner small "/api/tuner".toList ends
  have present : ¬ ((tuner : Int) < 0 ∨ cfg.tunerCount ≤ tuner) := by omega
  unfold webUiRoute
  simp only [differs, false_and, if_false, scanned, if_true, if_neg present]

/-- The end of a name: short, and without a NUL. -/
structure PlainLeaf (leaf : CStr) : Prop where
  short : leaf.length ≤ 14
  plain : ∀ character ∈ leaf, character.toNat < 0x80 ∧ character ≠ '\x00'

theorem plainLeaf_channel : PlainLeaf channelLeaf :=
  ⟨by decide, List.forall_iff_forall_mem.mp (by decide)⟩

theorem plainLeaf_poll : ∀ leaf ∈ pollLeaves, PlainLeaf leaf := by
  intro leaf member
  simp only [pollLeaves, List.mem_cons, List.not_mem_nil, or_false] at member
  rcases member with rfl | rfl | rfl | rfl
  · exact ⟨by decide, List.forall_iff_forall_mem.mp (by decide)⟩
  · exact ⟨by decide, List.forall_iff_forall_mem.mp (by decide)⟩
  · exact ⟨by decide, List.forall_iff_forall_mem.mp (by decide)⟩
  · exact ⟨by decide, List.forall_iff_forall_mem.mp (by decide)⟩

theorem parameterName_tuner {tuner : Nat} (small : tuner < 2 ^ 31) {leaf : CStr}
    (plain : PlainLeaf leaf) :
    parameterName tuner leaf = "/tuner".toList ++ (decimal tuner ++ leaf) := by
  have digits : decimalInt (tuner : Int) = decimal tuner :=
    if_neg (by omega)
  have short : (decimal tuner).length ≤ 10 := length_decimal (by omega) (by decide)
  have key : "/tuner".toList.length = 6 := by decide
  have leafShort := plain.short
  rw [parameterName, digits, truncate, List.append_assoc, List.take_of_length_le]
  rw [List.length_append, List.length_append, key]
  omega

namespace ChannelPost

variable {p : ChannelPost}

theorem value_nulFree (p : ChannelPost) : 0 ∉ p.value :=
  nulFree_asciiBytes (fun character member => p.octets character (mem_extractChannelValue member).1)
    fun member => (mem_extractChannelValue member).2 rfl

theorem name_spec (small : p.tuner < 2 ^ 31) {leaf : CStr} (plainLeaf : PlainLeaf leaf) :
    0 ∉ p.name leaf ∧ (p.name leaf).length < 127 := by
  have short : (decimal p.tuner).length ≤ 10 := length_decimal (by omega) (by decide)
  have key : "/tuner".toList.length = 6 := by decide
  have leafShort := plainLeaf.short
  have plain : ∀ character ∈ "/tuner".toList ++ (decimal p.tuner ++ leaf),
      character.toNat < 0x80 ∧ character ≠ '\x00' := by
    have first : ∀ character ∈ "/tuner".toList, character.toNat < 0x80 ∧ character ≠ '\x00' :=
      List.forall_iff_forall_mem.mp (by decide)
    rw [List.forall_mem_append, List.forall_mem_append]
    refine ⟨first, fun character digit => ⟨ascii_decimal digit, ?_⟩, plainLeaf.plain⟩
    rintro rfl
    exact absurd (isDigit_decimal digit) (by decide)
  constructor
  · apply nulFree_asciiBytes
    · exact fun character member => Nat.lt_trans (plain character member).1 (by decide)
    · exact fun member => (plain _ member).2 rfl
  · rw [name, asciiBytes, List.length_map, List.length_append, List.length_append, key]
    omega

theorem name_op (p : ChannelPost) : p.op.name = p.name channelLeaf := by
  unfold op
  split <;> rfl

/-- The first call, if the server takes its value. -/
def setCall (p : ChannelPost) (small : p.tuner < 2 ^ 31)
    (fits : p.value.length + 1 < getsetValueSize) : GetsetCall where
  name := p.name channelLeaf
  value := some p.value
  name_nulFree := (name_spec small plainLeaf_channel).1
  value_nulFree _ member := Option.some.inj member ▸ p.value_nulFree
  name_short := Nat.succ_lt_succ (name_spec small plainLeaf_channel).2
  value_short _ member := Option.some.inj member ▸ fits

/-- A call that gets a parameter of the tuner. -/
def getCall (p : ChannelPost) (small : p.tuner < 2 ^ 31) {leaf : CStr} (plain : PlainLeaf leaf) :
    GetsetCall where
  name := p.name leaf
  value := none
  name_nulFree := (name_spec small plain).1
  value_nulFree _ member := nomatch member
  name_short := Nat.succ_lt_succ (name_spec small plain).2
  value_short _ member := nomatch member

/-- The first call carries out one operation. -/
theorem performed (small : p.tuner < 2 ^ 31) (pkt : HdhrPkt) (pieces : List Nat) (atEnd : AtEnd) :
    connThread pkt ⟨getsetClientRequest (p.name channelLeaf) (some p.value), pieces, atEnd⟩ =
      [p.op] := by
  obtain ⟨nulFree, short⟩ := name_spec small plainLeaf_channel
  have size : getsetNameSize = 128 ∧ getsetValueSize = 192 := ⟨rfl, rfl⟩
  rw [connThread_eq]
  simp only [op]
  split
  · rename_i fits
    exact (p.setCall small fits).performed pkt
  · rename_i long
    have bound : p.value.length ≤ 255 := by
      rw [value, asciiBytes, List.length_map]
      exact length_extractChannelValue p.body
    have nothing : connThreadMain pkt [] = [] := by
      rw [connThreadMain]
      rfl
    have whole := client_long_value_gets pkt [] short (by omega) bound
    rw [List.append_nil] at whole
    rw [whole, nothing, cText_terminated nulFree]

/-- Every other call carries out one operation. -/
theorem performed_get (small : p.tuner < 2 ^ 31) {leaf : CStr} (plain : PlainLeaf leaf)
    (pkt : HdhrPkt) (pieces : List Nat) (atEnd : AtEnd) :
    connThread pkt ⟨getsetClientRequest (p.name leaf) none, pieces, atEnd⟩ =
      [.get (p.name leaf)] := by
  rw [connThread_eq]
  dsimp only
  exact (p.getCall small plain).performed pkt

end ChannelPost

namespace Loopback

variable {σ : Type*} {host : Loopback σ} {p : ChannelPost}

/-- The state that the server has before the first operation. -/
def first (host : Loopback σ) : σ :=
  host.meanwhile 0 host.state

/-- What the server replies to the first call. -/
def reply (host : Loopback σ) (p : ChannelPost) : Reply :=
  (host.handle host.first p.op).2

theorem replay_concat (host : Loopback σ) (ops : List GetsetOp) (op : GetsetOp) :
    host.replay (ops ++ [op]) =
      (host.handle (host.meanwhile ops.length (host.replay ops)) op).1 := by
  rw [replay, List.zipIdx_append, List.foldl_append, Nat.zero_add]
  rfl

/-- The state of the server is that which its operations leave. -/
def Replayed (host : Loopback σ) (so : ServerSide σ) : Prop :=
  so.state = host.replay so.ops

theorem serve_singleton (host : Loopback σ) (state : σ) (op : GetsetOp) :
    serve host.handle state [op] =
      ((host.handle state op).1, (host.handle state op).2.send op.name ++ []) :=
  rfl

/-- The first call carries out one operation, and returns the reply to it. -/
theorem callChannel_eq (small : p.tuner < 2 ^ 31) (sendable : (host.reply p).Sendable) :
    host.callChannel p.tuner p.body =
      (⟨(host.handle host.first p.op).1, [p.op]⟩, (host.reply p).seen 192 128) := by
  have size : getsetNameSize = 128 := rfl
  obtain ⟨-, short⟩ := ChannelPost.name_spec small plainLeaf_channel
  have name : asciiBytes (parameterName p.tuner channelLeaf) = p.name channelLeaf := by
    rw [parameterName_tuner small plainLeaf_channel]
    rfl
  have value : (some (extractChannelValue p.body)).map asciiBytes = some p.value := rfl
  have start : host.meanwhile 0 host.state = host.first := rfl
  unfold callChannel call
  simp only [name, value, List.length_nil, start, ChannelPost.performed small, serve_singleton,
    p.name_op]
  rw [← reply, getsetClientCall_reply (by omega) sendable]
  rfl

/-- A further call carries out one operation. -/
theorem call_get (small : p.tuner < 2 ^ 31) {leaf : CStr} (plain : PlainLeaf leaf)
    {so : ServerSide σ} (replayed : host.Replayed so) :
    (host.call so (parameterName p.tuner leaf) none replySize 128).1.ops =
        so.ops ++ [.get (p.name leaf)] ∧
      host.Replayed (host.call so (parameterName p.tuner leaf) none replySize 128).1 := by
  have name : asciiBytes (parameterName p.tuner leaf) = p.name leaf := by
    rw [parameterName_tuner small plain]
    rfl
  unfold Replayed call
  simp only [name, Option.map_none, ChannelPost.performed_get small plain, serve_singleton,
    true_and]
  rw [replay_concat, ← replayed]

/-- A text that a reply carries as it is. -/
structure Carried (text : CStr) : Prop where
  octets : ∀ character ∈ text, character.toNat < 256
  nulFree : '\x00' ∉ text
  short : text.length ≤ 511

theorem carried_iff (text : CStr) :
    ((text.all fun character => decide (character.toNat < 256)) = true ∧ '\x00' ∉ text ∧
      text.length ≤ 511) ↔ Carried text := by
  simp only [List.all_eq_true, decide_eq_true_eq]
  exact ⟨fun ⟨octets, nulFree, short⟩ => ⟨octets, nulFree, short⟩,
    fun carried => ⟨carried.octets, carried.nulFree, carried.short⟩⟩

instance (text : CStr) : Decidable (Carried text) :=
  decidable_of_iff _ (carried_iff text)

/-- A further call leaves the text of the reply in its buffer. -/
theorem textOr_call (small : p.tuner < 2 ^ 31) {leaf text : CStr} (plain : PlainLeaf leaf)
    (carried : Carried text) {so : ServerSide σ} (fallback : CStr)
    (answers : (host.handle (host.meanwhile so.ops.length so.state) (.get (p.name leaf))).2 =
      .value (asciiBytes text)) :
    (host.call so (parameterName p.tuner leaf) none replySize 128).2.textOr fallback = text := by
  have size : getsetNameSize = 128 := rfl
  obtain ⟨-, short⟩ := ChannelPost.name_spec small plain
  have name : asciiBytes (parameterName p.tuner leaf) = p.name leaf := by
    rw [parameterName_tuner small plain]
    rfl
  have sendable : (Reply.value (asciiBytes text)).Sendable := by
    refine ⟨nulFree_asciiBytes carried.octets carried.nulFree, ?_⟩
    have short := carried.short
    rw [Reply.text, asciiBytes, List.length_map]
    omega
  have whole : (asciiBytes text).take (replySize - 1) = asciiBytes text := by
    apply List.take_of_length_le
    rw [asciiBytes, List.length_map]
    exact carried.short
  unfold call
  simp only [name, Option.map_none, ChannelPost.performed_get small plain, serve_singleton,
    GetsetOp.name, answers]
  rw [getsetClientCall_reply (by omega) sendable, Reply.seen, whole, CallResult.textOr,
    charText_asciiBytes carried.octets]

/-- The loop asks for the status at least once, and not more often than it may. -/
theorem peekStatus_spec (small : p.tuner < 2 ^ 31) (attempts : Nat) {so : ServerSide σ}
    (replayed : host.Replayed so) :
    ∃ count, count ≤ attempts ∧ (0 < attempts → 0 < count) ∧
      (host.peekStatus p.tuner attempts so).ops =
        so.ops ++ List.replicate count (.get (p.name statusLeaf)) ∧
      host.Replayed (host.peekStatus p.tuner attempts so) := by
  induction attempts generalizing so with
  | zero => exact ⟨0, Nat.le_refl 0, id, (List.append_nil _).symm, replayed⟩
  | succ attempts ih =>
      have plain := plainLeaf_poll statusLeaf List.mem_cons_self
      obtain ⟨ops, next⟩ := call_get small plain replayed
      have once : ∃ count, count ≤ attempts + 1 ∧ (0 < attempts + 1 → 0 < count) ∧
          (host.call so (parameterName p.tuner statusLeaf) none replySize 128).1.ops =
            so.ops ++ List.replicate count (.get (p.name statusLeaf)) ∧
          host.Replayed (host.call so (parameterName p.tuner statusLeaf) none replySize 128).1 :=
        ⟨1, by omega, fun _ => Nat.one_pos, ops, next⟩
      rw [peekStatus]
      split
      · split
        · obtain ⟨count, few, -, later, last⟩ := ih next
          refine ⟨count + 1, by omega, fun _ => by omega, ?_, last⟩
          rw [later, ops, List.append_assoc, List.replicate_succ]
          rfl
        · exact once
      · exact once

/-- The polls ask once for each of the parameters that are shown. -/
theorem pollTuner_spec (small : p.tuner < 2 ^ 31) {so : ServerSide σ}
    (replayed : host.Replayed so) :
    (host.pollTuner p.tuner so).1.ops =
        so.ops ++ pollLeaves.map (fun leaf => .get (p.name leaf)) ∧
      host.Replayed (host.pollTuner p.tuner so).1 := by
  have plain := plainLeaf_poll
  simp only [pollLeaves, List.forall_mem_cons] at plain
  obtain ⟨status, vchannel, streaminfo, debug, -⟩ := plain
  obtain ⟨first, replayed⟩ := call_get small status replayed
  obtain ⟨second, replayed⟩ := call_get small vchannel replayed
  obtain ⟨third, replayed⟩ := call_get small streaminfo replayed
  obtain ⟨fourth, replayed⟩ := call_get small debug replayed
  refine ⟨?_, replayed⟩
  simp only [pollTuner, fourth, third, second, first, List.append_assoc, pollLeaves, List.map_cons,
    List.map_nil, List.cons_append, List.nil_append]

/-- What a poll asks for, and the texts it is answered with. -/
def shown (texts : PollTexts) : List (CStr × CStr) :=
  [(statusLeaf, texts.status), ("/vchannel".toList, texts.vchannel),
    ("/streaminfo".toList, texts.streaminfo), ("/debug".toList, texts.debug)]

/-- The polls leave the texts of the replies in their buffers. -/
theorem pollTuner_texts (small : p.tuner < 2 ^ 31) (so : ServerSide σ) {texts : PollTexts}
    (carried : ∀ text ∈ (shown texts).map Prod.snd, Carried text)
    (answers : ∀ state, ∀ entry ∈ shown texts,
      (host.handle state (.get (p.name entry.1))).2 = .value (asciiBytes entry.2)) :
    (host.pollTuner p.tuner so).2 = texts := by
  have plain := plainLeaf_poll
  simp only [pollLeaves, List.forall_mem_cons] at plain
  simp only [shown, List.map_cons, List.map_nil, List.forall_mem_cons] at carried answers
  obtain ⟨status, vchannel, streaminfo, debug, -⟩ := plain
  obtain ⟨statusText, vchannelText, streaminfoText, debugText, -⟩ := carried
  simp only [pollTuner]
  rw [textOr_call small status statusText _ (answers _).1,
    textOr_call small vchannel vchannelText _ (answers _).2.1,
    textOr_call small streaminfo streaminfoText _ (answers _).2.2.1,
    textOr_call small debug debugText _ (answers _).2.2.2.1]

end Loopback

theorem holds_empty {json : List Char} {size : Nat} (length : json.length = size) (positive : 0 < size)
    (small : size < 2 ^ 64) : (⟨json, 0⟩ : TextBuffer).Holds [] := by
  apply TextBuffer.holds_nil
  · rwa [length]
  · rwa [length]

theorem writtenBody_eq {buffer : TextBuffer} {text : CStr} (holds : buffer.Holds text) :
    writtenBody buffer = .ok text := by
  have inside : buffer.off ≤ buffer.cap := by
    rw [holds.off]
    exact Nat.le_of_lt holds.room
  rw [writtenBody, if_pos inside, holds.off, holds.text]

/-- A message that is shown as it is. -/
def Printable (msg : List UInt8) : Prop :=
  ∀ byte ∈ msg, 0x20 ≤ byte.toNat ∧ byte.toNat ≤ 0x7E

theorem charText_spec {msg : List UInt8} (printable : Printable msg) :
    Json.Utf8 (charText msg) ∧ (Json.escapeText (charText msg)).length ≤ 2 * msg.length := by
  induction msg with
  | nil => exact ⟨.nil, Nat.le_refl _⟩
  | cons byte msg ih =>
      obtain ⟨⟨low, high⟩, others⟩ := List.forall_mem_cons.mp printable
      obtain ⟨utf8, short⟩ := ih others
      have code : (Char.ofNat byte.toNat).toNat = byte.toNat := by
        rw [Char.ofNat, dif_pos (.inl (by omega))]
        rfl
      have each : (Json.escapeChar (Char.ofNat byte.toNat)).length ≤ 2 := by
        unfold Json.escapeChar
        split
        · exact Nat.le_refl 2
        · rw [code, if_neg (by omega)]
          exact Nat.le_succ 1
      constructor
      · exact .cons (Json.isCharacter_ascii (by rw [code]; omega)) utf8
      · rw [charText, List.map_cons, Json.escapeText_cons, List.length_append, List.length_cons]
        rw [charText] at short
        omega

/-- The answer tells the browser what the handler replied. -/
def PostAnswer.Tells : PostAnswer → Reply → Prop
  | .badRequest body, .error msg =>
      Json.Denotes body (.obj [("error".toList, .str (charText (msg.take 127)))])
  | .ok body, .value _ => ∃ value, Json.Denotes body value
  | _, _ => False

/-- The message fits its buffer, and is sent as it is. -/
theorem badRequest_tells {msg : List UInt8} (printable : Printable msg) {json : List Char}
    (length : json.length = errorJsonSize) :
    ∃ answer, badRequest json (charText (msg.take 127)) = .ok answer ∧
      answer.Tells (.error msg) := by
  have cut : (msg.take 127).length ≤ 127 := by
    rw [List.length_take]
    exact Nat.min_le_left _ _
  have shown : Printable (msg.take 127) :=
    fun byte member => printable byte (List.mem_of_mem_take member)
  obtain ⟨utf8, short⟩ := charText_spec shown
  have pieces : (errorPieces (charText (msg.take 127))).flatMap Piece.text =
      Json.object [.string "error".toList (charText (msg.take 127))] ++ ['\n'] := by
    have front : "\x7b\"error\":\"".toList = '{' :: '"' :: ("error".toList ++ ['"', ':', '"']) := by
      decide
    have back : "\"\x7d\n".toList = ['"', '}', '\n'] := by decide
    simp [errorPieces, Piece.text, front, back, Json.object, Json.commas, Json.Field.written,
      Json.Field.string]
  have keys : "error".toList.length = 5 := by decide
  have size : ((errorPieces (charText (msg.take 127))).flatMap Piece.text).length ≤ 300 := by
    have bound := Json.length_object [.string "error".toList (charText (msg.take 127))]
    simp only [Json.Field.string, List.map_cons, List.map_nil, List.sum_cons, List.sum_nil,
      List.length_cons, List.length_append, List.length_nil, keys] at bound
    rw [pieces, List.length_append, List.length_singleton]
    simp only [Json.Field.string]
    omega
  have start : (⟨json, 0⟩ : TextBuffer).Holds [] :=
    holds_empty length (by decide) (by decide)
  have room : ([] : CStr).length +
      ((errorPieces (charText (msg.take 127))).flatMap Piece.text).length + 6 ≤
        (⟨json, 0⟩ : TextBuffer).cap := by
    rw [TextBuffer.cap, length, List.length_nil, errorJsonSize]
    omega
  obtain ⟨next, wrote, holds, -⟩ := holds_writeAll start room
  rw [List.nil_append, pieces] at holds
  have blank : Json.skip ['\n'] = [] := rfl
  refine ⟨.badRequest _, ?_, Json.denotes_string (Json.verbatim_of_isName rfl) utf8 blank⟩
  rw [badRequest, wrote]
  show (writtenBody next).map PostAnswer.badRequest = _
  rw [writtenBody_eq holds]
  rfl

/-- The state of the tuner fits its buffer, and is sent in JSON. -/
theorem tunerState_tells {poll : TunerPoll} (safe : poll.Safe) (idx : Int32) (text : List UInt8)
    {buf : List Char} (length : buf.length = perTunerJsonMax) :
    ∃ answer, tunerState buf idx poll.texts = .ok answer ∧ answer.Tells (.value text) := by
  have start : (⟨buf, 0⟩ : TextBuffer).Holds [] :=
    holds_empty length (by decide) (by decide)
  have short := length_fields poll idx
  have room : ([] : CStr).length + ((poll.pieces idx).flatMap Piece.text).length + 6 ≤
      (⟨buf, 0⟩ : TextBuffer).cap := by
    apply room_for_pieces poll idx
    rw [TextBuffer.cap, length]
    exact Nat.le_of_eq (Nat.zero_add _)
  obtain ⟨next, wrote, holds, same⟩ := holds_writeAll start room
  rw [List.nil_append, pieces_text] at holds
  have fits : (Json.object (poll.fields idx)).length + ['\n'].length < next.cap := by
    rw [same, TextBuffer.cap, length, List.length_singleton]
    omega
  obtain ⟨last, wroteLast, holdsLast, -, -⟩ := holds.append fits
  obtain ⟨value, denotes⟩ := ((settled_fields poll idx).denotes_iff
    (show Json.skip ['\n'] = [] from rfl)).mpr ((good_iff_safe poll).mpr safe)
  refine ⟨.ok _, ?_, value, denotes⟩
  rw [tunerState, ← TunerPoll.pieces, wrote]
  show ((next.append ['\n']).bind fun buffer => (writtenBody buffer).map PostAnswer.ok) = _
  rw [wroteLast]
  show (writtenBody last).map PostAnswer.ok = _
  rw [writtenBody_eq holdsLast]
  rfl

/-- The replies to the polls of a POST are those of a tuner, without a number in
the target that is infinite or none, or a name that is not in UTF-8. -/
def Loopback.ShowsTuner {σ : Type*} (host : Loopback σ) (p : ChannelPost) : Prop :=
  ∃ poll : TunerPoll, poll.Safe ∧
    (host.pollAfter p.tuner (host.callChannel p.tuner p.body).1).2 = poll.texts

/-- A POST for the channel of a tuner is a request to the control server to set
the channel to the value in the body, or to get it if the value is longer than
190 bytes, followed by polls if the server replies with a value.  The browser is
told the message of the server, or the state of the tuner, in JSON. -/
theorem channel_post_answered {σ : Type*} (host : Loopback σ) (cfg : WebConfig) (p : ChannelPost)
    (inRange : (p.tuner : Int) < cfg.tunerCount) (few : cfg.tunerCount ≤ 8)
    (sendable : (host.reply p).Sendable)
    (printable : ∀ msg, host.reply p = .error msg → Printable msg)
    (shows : ∀ text, host.reply p = .value text → host.ShowsTuner p)
    (pieces : List Nat) (atEnd : AtEnd) :
    ∃ last later answer, host.post cfg (p.stream pieces atEnd) = some (last, .ok answer) ∧
      last.ops = p.op :: later ∧ p.FollowedBy later (host.reply p) ∧
      last.state = host.replay last.ops ∧ answer.Tells (host.reply p) := by
  have small : p.tuner < 2 ^ 31 := by omega
  have delivered := (p.delivered_of_lengthFirst p.lengthFirst).1 pieces atEnd
  have routed := webUiRoute_channelPost inRange small
  have called := Loopback.callChannel_eq small sendable
  have replayed : host.Replayed ⟨(host.handle host.first p.op).1, [p.op]⟩ := rfl
  have posted : host.post cfg (p.stream pieces atEnd) =
      some (host.handleChannelPost p.tuner p.body) := by
    unfold Loopback.post
    rw [delivered, PostRequest.outcome, p.named]
    simp only [routed]
  rw [posted, Loopback.handleChannelPost]
  cases reply : host.reply p with
  | error msg =>
      obtain ⟨answer, answered, tells⟩ := badRequest_tells (printable msg reply) host.json_length
      rw [reply] at called
      refine ⟨_, [], answer, ?_, rfl, rfl, replayed, tells⟩
      simp only [called, Reply.seen]
      rw [answered]
  | value text =>
      obtain ⟨poll, safe, shown⟩ := shows text reply
      obtain ⟨answer, answered, tells⟩ :=
        tunerState_tells safe (Int32.ofInt p.tuner) text host.buf_length
      obtain ⟨count, few, some_, peeked, replayed⟩ := Loopback.peekStatus_spec small 3 replayed
      obtain ⟨polled, replayed⟩ := Loopback.pollTuner_spec small replayed
      rw [reply] at called
      rw [called] at shown
      rw [peeked] at polled
      refine ⟨(host.pollAfter p.tuner ⟨(host.handle host.first p.op).1, [p.op]⟩).1, _, answer, ?_,
        polled, ⟨count, some_ (by decide), few, rfl⟩, replayed, tells⟩
      simp only [called, Reply.seen, shown]
      rw [answered]

/-- A POST of a form for a frequency. -/
def formPost : ChannelPost where
  requestLine := "POST /api/tuner1/channel HTTP/1.1".toList
  headers := ["Content-Length: 19".toList]
  body := "value=8vsb:57000000".toList
  path := "/api/tuner1/channel".toList
  nulFree := by decide
  fits := by decide
  ends := by decide
  post := by decide
  length := ⟨"Content-Length: 19".toList, by decide, [' '], ['1', '9'], [], by decide,
    List.forall_iff_forall_mem.mp (by decide),
    ⟨nofun, List.forall_iff_forall_mem.mp (by decide)⟩, by decide⟩
  small := by decide
  tuner := 1
  named := by decide
  lengthFirst := by decide
  octets := List.forall_iff_forall_mem.mp (by decide)

/-- A tuner that has locked on the frequency. -/
def lockedOnFrequency : Schedule :=
  .arrive (.set (.channelSet "8vsb:57000000".toList)) :: steps 0 4 ++ steps 1 6

def lockedState : TunerState where
  world := (configAfter .empty lockedOnFrequency).shared
  reached := ⟨.empty, configAfter .empty lockedOnFrequency, ⟨lockedOnFrequency, by decide +kernel⟩,
    rfl⟩

def lockedPoll : TunerPoll where
  status := some ⟨lockedState, 0, 0⟩
  vchannel := some lockedState
  streaminfo := some ⟨.empty, .empty, 57000000⟩
  debug := some ⟨lockedState, fun _ => ⟨none, none⟩⟩

/-- What the control server of this tuner replies. -/
def lockedAnswer : GetsetOp → Reply
  | .set _ value => .value value
  | .get name =>
      match (Loopback.shown lockedPoll.texts).find? fun entry => formPost.name entry.1 = name with
      | some entry => .value (asciiBytes entry.2)
      | none => .error (asciiBytes "ERROR: unknown getset variable".toList)

/-- The server counts its requests. -/
def lockedHost : Loopback Nat where
  handle count op := (count + 1, lockedAnswer op)
  state := 0
  meanwhile _ count := count
  exchange _ := ⟨hdhrPktStartFrame, hdhrPktStartFrame, [3], .closed, [1, 1], .silent⟩
  json := List.replicate errorJsonSize ' '
  buf := List.replicate perTunerJsonMax ' '
  json_length := List.length_replicate
  buf_length := List.length_replicate

theorem lockedPoll_safe : lockedPoll.Safe := by
  constructor
  · rintro answer ⟨⟩
    have none_ : ∀ key ∈ [ssDbmKey, snrDbKey],
        tokenStr lockedState.world.tuner.target key 32 = none :=
      List.forall_iff_forall_mem.mp (by decide +kernel)
    constructor
    · intro token member
      rw [none_ ssDbmKey (by decide)] at member
      cases member
    · intro token member
      rw [none_ snrDbKey (by decide)] at member
      cases member
  · rintro answer ⟨⟩
    exact Json.utf8_of_ascii (List.forall_iff_forall_mem.mp (by decide +kernel))

theorem lockedHost_shows : lockedHost.ShowsTuner formPost := by
  have answers : ∀ entry ∈ Loopback.shown lockedPoll.texts,
      lockedAnswer (.get (formPost.name entry.1)) = .value (asciiBytes entry.2) :=
    List.forall_iff_forall_mem.mp (by decide +kernel)
  have carried : ∀ text ∈ (Loopback.shown lockedPoll.texts).map Prod.snd,
      Loopback.Carried text :=
    List.forall_iff_forall_mem.mp (by decide +kernel)
  exact ⟨lockedPoll, lockedPoll_safe,
    Loopback.pollTuner_texts (by decide) _ carried fun _ => answers⟩

theorem channel_post_answered_locked :
    ∃ last later answer, lockedHost.post defaultWebConfig (formPost.stream [40] .closed) =
        some (last, .ok answer) ∧
      last.ops = formPost.op :: later ∧
      formPost.FollowedBy later (.value (asciiBytes "8vsb:57000000".toList)) ∧
      last.state = lockedHost.replay last.ops ∧
      answer.Tells (.value (asciiBytes "8vsb:57000000".toList)) := by
  have asked : formPost.op =
      .set (formPost.name channelLeaf) (asciiBytes "8vsb:57000000".toList) := by decide
  have reply : lockedHost.reply formPost = .value (asciiBytes "8vsb:57000000".toList) := by
    rw [Loopback.reply, asked]
    rfl
  have sendable : (lockedHost.reply formPost).Sendable := by
    rw [reply]
    exact ⟨by decide, by decide⟩
  have printable : ∀ msg, lockedHost.reply formPost = .error msg → Printable msg := by
    rw [reply]
    rintro msg ⟨⟩
  have inRange : (formPost.tuner : Int) < defaultWebConfig.tunerCount := by decide
  have few : defaultWebConfig.tunerCount ≤ 8 := by decide
  rw [← reply]
  exact channel_post_answered lockedHost defaultWebConfig formPost inRange few sendable printable
    (fun _ _ => lockedHost_shows) [40] .closed

end HdhrEmu
