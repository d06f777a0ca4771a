import HdhrEmu.Lib.ByteStream
import HdhrEmu.Lib.Scanf

/-!
# The body of a POST request

A request is read until its header block is complete; what came along belongs
to the body, and the rest of the body is read by its length.  The length is
looked up as a text, wherever that stands first.
-/

namespace HdhrEmu

open CString ByteStream

/-- `sizeof(req)` and `sizeof(body)`. -/
def httpReqSize : Nat := 8192
def httpBodySize : Nat := 512

def crlf : CStr := ['\r', '\n']

/-- `"\r\n\r\n"`. -/
def headerEnd : CStr := ['\r', '\n', '\r', '\n']

/-- `"Content-Length:"`. -/
def contentLengthName : CStr :=
  ['C', 'o', 'n', 't', 'e', 'n', 't', '-', 'L', 'e', 'n', 'g', 't', 'h', ':']

theorem headerEnd_ne_nil : headerEnd ≠ [] :=
  List.cons_ne_nil _ _

theorem contentLengthName_ne_nil : contentLengthName ≠ [] :=
  List.cons_ne_nil _ _

def postMethod : CStr := ['P', 'O', 'S', 'T']
def getMethod : CStr := ['G', 'E', 'T']

/-- What the bytes of a buffer are as a C string. -/
def terminated (bytes : List Char) : CStr :=
  bytes.takeWhile (· ≠ '\x00')

/-- `sscanf(req, "%7s %511s", method, path)`, when it returns 2. -/
def scanRequestLine (req : CStr) : Option (CStr × CStr) :=
  (scanWordRest 7 req).bind fun (method, rest) =>
    (scanWordRest 511 rest).map fun (path, _) => (method, path)

/-- How a request is passed on or answered. -/
inductive HttpOutcome
  /-- The connection is closed without an answer. -/
  | dropped
  | headersTooLarge
  | methodNotAllowed
  | getRoutes (path : CStr)
  | webUiTryHandle (method path : CStr) (body : List Char)
  deriving DecidableEq, Repr

/-- `content_length`, from what follows its name. -/
def contentLength (bodyCap : Nat) (cl : CStr) : Nat :=
  let contentLength := strtol (cl.drop 15)
  let contentLength := if contentLength < 0 then 0 else contentLength
  if (bodyCap : Int) < contentLength then bodyCap else contentLength.toNat

/-- `handle_post_body`; `hdrEnd` is the offset of the end of the headers. -/
def handlePostBody (s : Stream Char) (req : List Char) (hdrEnd bodyCap : Nat) :
    Option (List Char) :=
  let body := (req.drop (hdrEnd + 4)).take bodyCap
  let length :=
    match strstr contentLengthName (terminated req) with
    | some cl => contentLength bodyCap cl
    | none => body.length
  (s.collect (fun body => length - body.length) body).map Prod.fst

/-- The room in `req` for a read, and none once the header block is complete. -/
def headerWanted (req : List Char) : Nat :=
  match strstr headerEnd (terminated req) with
  | some _ => 0
  | none => httpReqSize - 1 - req.length

/-- `handle_request`, or nothing when it never returns. -/
def handleRequest (s : Stream Char) : Option HttpOutcome :=
  (s.collect headerWanted []).bind fun (req, s) =>
    if req = [] then some .dropped
    else
      match strstr headerEnd (terminated req) with
      | none => some .headersTooLarge
      | some hdrEnd =>
          match scanRequestLine (terminated req) with
          | none => some .dropped
          | some (method, path) =>
              let path := path.takeWhile (· ≠ '?')
              if method = postMethod then
                (handlePostBody s req ((terminated req).length - hdrEnd.length) httpBodySize).map
                  fun body => .webUiTryHandle method path body
              else if method ≠ getMethod then some .methodNotAllowed
              else some (.getRoutes path)

theorem terminated_append {text : CStr} (nulFree : '\x00' ∉ text) (bytes : List Char) :
    terminated (text ++ bytes) = text ++ terminated bytes := by
  apply List.takeWhile_append_of_pos
  intro character member
  rw [decide_eq_true_eq]
  rintro rfl
  exact nulFree member

theorem terminated_of_nulFree {text : CStr} (nulFree : '\x00' ∉ text) : terminated text = text := by
  have whole := terminated_append nulFree []
  rw [List.append_nil] at whole
  rw [whole]
  exact List.append_nil text

/-- A block that fits is read on while a part of it is missing. -/
theorem headerWanted_of_proper {block p : CStr} (nulFree : '\x00' ∉ block)
    (fits : block.length ≤ httpReqSize - 1) (ends : strstr headerEnd block = some headerEnd)
    (within : p <+: block) (proper : p ≠ block) : headerWanted p ≠ 0 := by
  have shorter : p.length < block.length :=
    Nat.lt_of_le_of_ne within.length_le fun same => proper (within.eq_of_length same)
  rw [headerWanted, terminated_of_nulFree fun member => nulFree (within.subset member),
    strstr_eq_none_of_prefix headerEnd_ne_nil ends within proper]
  dsimp only
  omega

/-- The line gives a body this length. -/
def SaysLength (line : CStr) (n : Nat) : Prop :=
  ∃ before digits after, line = contentLengthName ++ (before ++ digits ++ after) ∧
    (∀ character ∈ before ++ after, character = ' ' ∨ character = '\t') ∧
    IsNumeral digits ∧ numeralValue digits = n

def headerBlock (requestLine : CStr) (headers : List CStr) : CStr :=
  requestLine ++ crlf ++ headers.flatMap (· ++ crlf) ++ crlf

/-- A POST request with one header line for the length of its body. -/
structure PostRequest where
  requestLine : CStr
  headers : List CStr
  body : List Char
  path : CStr
  nulFree : '\x00' ∉ headerBlock requestLine headers
  fits : (headerBlock requestLine headers).length ≤ 8187
  ends : strstr headerEnd (headerBlock requestLine headers) = some headerEnd
  post : scanRequestLine (headerBlock requestLine headers) = some (postMethod, path)
  length : ∃ line, headers.filter contentLengthName.isPrefixOf = [line] ∧
    SaysLength line body.length
  small : body.length ≤ httpBodySize

namespace PostRequest

variable (r : PostRequest)

abbrev header : CStr :=
  headerBlock r.requestLine r.headers

/-- The request on a connection, split into pieces. -/
def stream (pieces : List Nat) (atEnd : AtEnd) : Stream Char :=
  ⟨r.header ++ r.body, pieces, atEnd⟩

/-- What should be passed on. -/
def outcome : HttpOutcome :=
  .webUiTryHandle postMethod (r.path.takeWhile (· ≠ '?')) r.body

/-- The body is passed on as it is, and the splitting makes no difference. -/
def Delivered : Prop :=
  (∀ pieces atEnd, handleRequest (r.stream pieces atEnd) = some r.outcome) ∧
    ∀ pieces pieces' atEnd atEnd',
      handleRequest (r.stream pieces atEnd) = handleRequest (r.stream pieces' atEnd')

/-- The length is what the header block says behind the first occurrence of
the name, in whatever line that is. -/
def LengthFirst : Prop :=
  (strstr contentLengthName r.header).map (contentLength httpBodySize) = some r.body.length

instance : Decidable r.LengthFirst :=
  inferInstanceAs (Decidable (_ = _))

theorem header_ne_nil : r.header ≠ [] :=
  List.append_ne_nil_of_right_ne_nil _ (List.cons_ne_nil _ _)

theorem endsInSpace_header : EndsInSpace r.header := by
  have nonempty : crlf ≠ [] := List.cons_ne_nil _ _
  have last : r.header.getLast? = crlf.getLast? := List.getLast?_append_of_ne_nil _ nonempty
  exact ⟨'\n', by rw [last]; rfl, rfl⟩

/-- The header block is read on until it is complete, and not after that. -/
theorem headerWanted_prefix {p : List Char} (within : p <+: r.header) (proper : p ≠ r.header) :
    headerWanted p ≠ 0 :=
  headerWanted_of_proper r.nulFree (Nat.le_trans r.fits (by decide)) r.ends within proper

theorem strstr_headerEnd (q : List Char) :
    strstr headerEnd (terminated (r.header ++ q)) = some (headerEnd ++ terminated q) := by
  rw [terminated_append r.nulFree]
  exact strstr_longer headerEnd_ne_nil r.ends _

theorem headerWanted_complete (q : List Char) : headerWanted (r.header ++ q) = 0 := by
  rw [headerWanted, strstr_headerEnd]

/-- The request line is read in the same way whatever came along. -/
theorem scanRequestLine_append (behind : CStr) :
    scanRequestLine (r.header ++ behind) = some (postMethod, r.path) := by
  obtain ⟨⟨method, rest⟩, first, found⟩ := Option.bind_eq_some_iff.mp r.post
  obtain ⟨⟨path, others⟩, second, same⟩ := Option.map_eq_some_iff.mp found
  cases same
  obtain ⟨ends, first⟩ := scanWordRest_append r.endsInSpace_header first behind
  obtain ⟨-, second⟩ := scanWordRest_append ends second behind
  rw [scanRequestLine, first, Option.bind_some]
  dsimp only
  rw [second, Option.map_some]

/-- What `handle_request` does once the header block is complete. -/
theorem handleRequest_complete {s s' : Stream Char} {q : List Char}
    (collected : s.collect headerWanted [] = some (r.header ++ q, s')) :
    handleRequest s = (handlePostBody s' (r.header ++ q) (r.header.length - 4) httpBodySize).map
      fun body => .webUiTryHandle postMethod (r.path.takeWhile (· ≠ '?')) body := by
  have nonempty : r.header ++ q ≠ [] := List.append_ne_nil_of_left_ne_nil r.header_ne_nil _
  have offset : (r.header ++ terminated q).length - (headerEnd ++ terminated q).length =
      r.header.length - 4 := by
    rw [List.length_append, List.length_append, show headerEnd.length = 4 from rfl]
    omega
  rw [handleRequest, collected, Option.bind_some]
  dsimp only
  rw [if_neg nonempty, strstr_headerEnd, terminated_append r.nulFree, scanRequestLine_append]
  dsimp only
  rw [if_pos rfl, offset]

theorem exists_contentLength :
    ∃ cl, strstr contentLengthName r.header = some cl := by
  obtain ⟨line, only, before, digits, after, rfl, -⟩ := r.length
  have member : contentLengthName ++ (before ++ digits ++ after) ∈ r.headers :=
    @List.mem_of_mem_filter _ contentLengthName.isPrefixOf _ _ (only ▸ List.mem_singleton_self _)
  obtain ⟨front, back, split⟩ := List.append_of_mem member
  have header : r.header = r.requestLine ++ crlf ++ front.flatMap (· ++ crlf) ++
      (contentLengthName ++ (before ++ digits ++ after ++ crlf ++ back.flatMap (· ++ crlf) ++ crlf)) := by
    rw [PostRequest.header, headerBlock, split]
    simp only [List.flatMap_append, List.flatMap_cons, List.append_assoc]
  rw [header]
  exact exists_strstr contentLengthName_ne_nil _ _

theorem drop_headerEnd (q : List Char) :
    (r.header ++ q).drop (r.header.length - 4 + 4) = q := by
  have long := (strstr_suffix r.ends).length_le
  have whole : r.header.length - 4 + 4 = r.header.length :=
    Nat.sub_add_cancel long
  rw [whole, List.drop_left]

/-- A length that is not zero stands before the end of the header block. -/
theorem contentLength_append {cl : CStr} (found : strstr contentLengthName r.header = some cl)
    (positive : contentLength httpBodySize cl ≠ 0) (behind : CStr) :
    contentLength httpBodySize (cl ++ behind) = contentLength httpBodySize cl := by
  have named : 15 ≤ cl.length := (strstr_begins found).length_le
  have solid : (cl.drop 15).dropWhile isSpace ≠ [] := by
    intro blank
    apply positive
    have zero : strtol (cl.drop 15) = 0 := by
      simp only [strtol, numeral, blank]
      rfl
    simp only [contentLength, zero]
    rfl
  have nonempty : cl.drop 15 ≠ [] := by
    intro nothing
    rw [nothing] at solid
    exact solid rfl
  have ends : EndsInSpace (cl.drop 15) :=
    r.endsInSpace_header.suffix ((List.drop_suffix _ _).trans (strstr_suffix found)) nonempty
  have same : strtol ((cl ++ behind).drop 15) = strtol (cl.drop 15) := by
    rw [List.drop_append_of_le_length named, strtol, strtol, numeral_append solid ends behind]
  rw [contentLength, contentLength, same]

/-- With the right length, what came along and what is read after it is the
body. -/
theorem handlePostBody_eq (first : r.LengthFirst) {q rest : List Char} (parts : r.body = q ++ rest)
    (pieces : List Nat) (atEnd : AtEnd) :
    handlePostBody ⟨rest, pieces, atEnd⟩ (r.header ++ q) (r.header.length - 4) httpBodySize =
      some r.body := by
  obtain ⟨cl, found, value⟩ := Option.map_eq_some_iff.mp first
  have occurs : strstr contentLengthName (terminated (r.header ++ q)) = some (cl ++ terminated q) := by
    rw [terminated_append r.nulFree]
    exact strstr_longer contentLengthName_ne_nil found _
  have length : contentLength httpBodySize (cl ++ terminated q) = r.body.length := by
    by_cases zero : contentLength httpBodySize cl = 0
    · -- Then nothing can have come along.
      have nothing : r.body = [] := List.eq_nil_of_length_eq_zero (value ▸ zero)
      rw [nothing] at parts
      rw [(List.append_eq_nil_iff.mp parts.symm).1, ← value]
      exact congrArg _ (List.append_nil cl)
    · rw [r.contentLength_append found zero, value]
  have small := r.small
  have lengths := congrArg List.length parts
  rw [List.length_append] at lengths
  have copied : ((r.header ++ q).drop (r.header.length - 4 + 4)).take httpBodySize = q := by
    rw [drop_headerEnd, List.take_of_length_le (by omega)]
  obtain ⟨more, left_, pieces', split, collected⟩ :=
    Stream.collect_reaches ⟨rest, pieces, atEnd⟩ (fun body => r.body.length - body.length) q rest []
      (List.append_nil rest).symm
      (by
        intro p within proper
        have shorter : p.length < rest.length :=
          Nat.lt_of_le_of_ne within.length_le fun same => proper (within.eq_of_length same)
        rw [List.length_append]
        omega)
      (by
        intro p _
        rw [List.length_append, List.length_append]
        omega)
  obtain ⟨rfl, rfl⟩ := List.append_eq_nil_iff.mp split.symm
  unfold handlePostBody
  dsimp only
  rw [occurs, copied]
  dsimp only
  rw [length, collected, Option.map_some, List.append_nil, ← parts]

/-- A request whose length stands first is passed on however it is split. -/
theorem delivered_of_lengthFirst (first : r.LengthFirst) : r.Delivered := by
  have every (pieces : List Nat) (atEnd : AtEnd) :
      handleRequest (r.stream pieces atEnd) = some r.outcome := by
    obtain ⟨q, rest, pieces', parts, collected⟩ :=
      Stream.collect_reaches (r.stream pieces atEnd) headerWanted [] r.header r.body rfl
        (fun p within proper => by
          rw [List.nil_append]
          exact r.headerWanted_prefix within proper)
        (fun q _ => by
          rw [List.nil_append]
          exact r.headerWanted_complete q)
    rw [List.nil_append] at collected
    rw [r.handleRequest_complete collected, r.handlePostBody_eq first parts]
    rfl
  exact ⟨every, fun pieces pieces' atEnd atEnd' => by rw [every, every]⟩

/-- When the header block comes alone and the connection stays open, as many
bytes are passed on as the first length says. -/
theorem lengthFirst_of_delivered (delivered : r.Delivered) : r.LengthFirst := by
  obtain ⟨cl, found⟩ := r.exists_contentLength
  have fits : r.header.length ≤ 8187 := r.fits
  have wants : headerWanted [] ≠ 0 :=
    r.headerWanted_prefix List.nil_prefix (Ne.symm r.header_ne_nil)
  have read : (r.stream [r.header.length] .silent).read (headerWanted []) =
      some (r.header, ⟨r.body, [], .silent⟩) :=
    Stream.read_piece r.body [] .silent r.header_ne_nil (Nat.le_trans fits (by decide))
  have complete := r.headerWanted_complete []
  rw [List.append_nil] at complete
  have header : (r.stream [r.header.length] .silent).collect headerWanted [] =
      some (r.header ++ [], ⟨r.body, [], .silent⟩) := by
    rw [Stream.collect_step wants r.header_ne_nil read, List.nil_append,
      Stream.collect_enough complete, List.append_nil]
  have passed := delivered.1 [r.header.length] .silent
  rw [r.handleRequest_complete header] at passed
  obtain ⟨body, got, same⟩ := Option.map_eq_some_iff.mp passed
  have nothing : (r.header.drop (r.header.length - 4 + 4)).take httpBodySize = [] := by
    have dropped := r.drop_headerEnd []
    rw [List.append_nil] at dropped
    rw [dropped, List.take_nil]
  unfold handlePostBody at got
  dsimp only at got
  rw [List.append_nil, terminated_of_nulFree r.nulFree, found, nothing] at got
  obtain ⟨⟨body', s'⟩, collected, is⟩ := Option.map_eq_some_iff.mp got
  cases is
  cases same
  dsimp only at collected
  have enough : contentLength httpBodySize cl - r.body.length = 0 :=
    Stream.wanted_of_collect rfl collected
  have within : r.body.length ≤ contentLength httpBodySize cl :=
    Stream.length_of_collect _ (fun _ _ => by omega) (Nat.zero_le _) collected
  rw [LengthFirst, found, Option.map_some]
  congr 1
  omega

end PostRequest

/-- The body of a POST request is passed on, however the request is split, if
and only if the first occurrence of `Content-Length:` in the header block says
how long it is. -/
theorem post_body_delivered_iff (r : PostRequest) : r.Delivered ↔ r.LengthFirst :=
  ⟨r.lengthFirst_of_delivered, r.delivered_of_lengthFirst⟩

/-- A header that only ends in the name comes before the one that is meant. -/
def otherLengthFirst : PostRequest where
  requestLine := "POST /api/tuner0/channel HTTP/1.1".toList
  headers := ["X-Content-Length: 3".toList, "Content-Length: 5".toList]
  body := "8vsb:".toList
  path := "/api/tuner0/channel".toList
  nulFree := by decide
  fits := by decide
  ends := by decide
  post := by decide
  length := ⟨"Content-Length: 5".toList, by decide, [' '], ['5'], [], by decide,
    List.forall_iff_forall_mem.mp (by decide),
    ⟨nofun, List.forall_iff_forall_mem.mp (by decide)⟩, by decide⟩
  small := by decide

theorem post_body_other_length_first : ¬ ∀ r : PostRequest, r.Delivered := by
  intro every
  have first := otherLengthFirst.lengthFirst_of_delivered (every otherLengthFirst)
  exact absurd first (by decide)

end HdhrEmu
