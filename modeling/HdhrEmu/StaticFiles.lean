import HdhrEmu.HttpPost
import HdhrEmu.Lib.PathName
import HdhrEmu.Tuner

/-!
# The files of the web interface

A GET request that is for nothing else is for a file below `web_root`.  The
path of the request is put behind `web_root` as it is, without a slash between
them, and the result is cut to the size of a buffer.  A path with `..` in it is
refused.
-/

namespace HdhrEmu

open CString ByteStream PathName

/-- What the web interface reads of `struct hdhr_config`. -/
structure WebConfig where
  tunerCount : Int
  webRoot : CStr
  deriving DecidableEq, Repr

/-- What `web_ui_try_handle` passes a request on to. -/
inductive WebUiRoute
  | tunersJson
  | statsJson (idx : Int)
  | channelPost (idx : Int)
  /-- There is no such tuner. -/
  | notFound
  | staticFile
  /-- It returns false. -/
  | notHandled
  deriving DecidableEq, Repr

/-- `sscanf` with a `%d` between two texts and `%n` behind them, where the path
ends there. -/
def scanTunerPath (front back path : CStr) : Option Int :=
  (front.isPrefixOf? path).bind fun rest =>
    (scanInt rest).bind fun (idx, rest) => if rest = back then some idx else none

/-- The branches of `web_ui_try_handle`. -/
def webUiRoute (cfg : WebConfig) (method path : CStr) : WebUiRoute :=
  let missing (idx : Int) : Prop := idx < 0 ∨ cfg.tunerCount ≤ idx
  if method = getMethod ∧ path = "/api/tuners.json".toList then .tunersJson
  else
    let stats := scanTunerPath "/api/tuner".toList "/stats.json".toList path
    match if method = getMethod then stats else none with
    | some idx => if missing idx then .notFound else .statsJson idx
    | none =>
        let channel := scanTunerPath "/api/tuner".toList "/channel".toList path
        match if method = postMethod then channel else none with
        | some idx => if missing idx then .notFound else .channelPost idx
        | none =>
            if method = getMethod ∧ ¬ "/api/".toList.isPrefixOf path then .staticFile
            else .notHandled

/-- What `handle_request` passes a GET request on to. -/
inductive GetRoute
  | discoverJson
  | lineupStatusJson
  | lineupJson
  | lineupM3u
  | m3u (major minor : Int)
  /-- Any tuner is good where the index is -1. -/
  | streamChannel (idx major minor : Int)
  | notFound
  | webUi (route : WebUiRoute)
  deriving DecidableEq, Repr

/-- `sscanf(text, "%d.%d", &major, &minor)`, with the numbers that are stored. -/
def scanMajorMinor (text : CStr) : Option (Int × Option Int) :=
  (scanInt text).map fun (major, rest) =>
    (major, ((scanLiteral '.' rest).bind scanInt).map Prod.fst)

theorem scanMajorMinor_decimalInt {major minor : Int} (majorInt : -2 ^ 31 ≤ major ∧ major < 2 ^ 31)
    (minorInt : -2 ^ 31 ≤ minor ∧ minor < 2 ^ 31) {rest : CStr} (ends : EndsNumeral rest) :
    scanMajorMinor (decimalInt major ++ '.' :: (decimalInt minor ++ rest)) =
      some (major, some minor) := by
  have first := scanInt_decimalInt majorInt.1 majorInt.2
    (endsNumeral_cons (by decide : '.'.isDigit = false) (decimalInt minor ++ rest))
  have second := scanInt_decimalInt minorInt.1 minorInt.2 ends
  rw [scanMajorMinor, first, Option.map_some]
  dsimp only
  rw [scanLiteral_cons, Option.bind_some, second]
  rfl

/-- `sscanf(path, "/tuner%d%n")` and `sscanf(path + consumed, "/v%d.%d")`, when
they return 1 and 2. -/
def scanTunerChannel (path : CStr) : Option (Int × Int × Int) :=
  ("/tuner".toList.isPrefixOf? path).bind fun rest =>
    (scanInt rest).bind fun (idx, rest) =>
      ("/v".toList.isPrefixOf? rest).bind fun rest =>
        (scanMajorMinor rest).bind fun (major, minor) =>
          minor.map fun minor => (idx, major, minor)

/-- The branches of `handle_request` for a GET request. -/
def getRoute (cfg : WebConfig) (path : CStr) : GetRoute :=
  if path = "/discover.json".toList then .discoverJson
  else if path = "/lineup_status.json".toList then .lineupStatusJson
  else if path = "/lineup.json".toList then .lineupJson
  else if path = "/lineup.m3u".toList then .lineupM3u
  else if "/auto/v".toList.isPrefixOf path then
    let (major, minor) := (scanMajorMinor (path.drop 7)).getD (0, none)
    if 4 < path.length ∧ ".m3u".toList.isSuffixOf path then .m3u major (minor.getD 0)
    else .streamChannel (-1) major (minor.getD 0)
  else
    match scanTunerChannel path with
    | some (idx, major, minor) =>
        if idx < 0 ∨ cfg.tunerCount ≤ idx then .notFound else .streamChannel idx major minor
    | none => .webUi (webUiRoute cfg getMethod path)

/-- A file that is open: where it ends, by `ftell`, and what can be read. -/
structure OpenFile where
  size : Int
  bytes : List UInt8
  deriving DecidableEq, Repr

/-- The C library, as far as a file is served by it. -/
structure Host where
  fopen : CStr → Option OpenFile
  malloc : Nat → Bool

inductive FileAnswer
  | notFound
  | serverError
  | ok (contentType : CStr) (body : List UInt8)
  deriving DecidableEq, Repr

/-- The path that `serve_static_file` opens, and its answer; without one the
caller sends its own. -/
structure Served where
  opened : Option CStr
  answer : Option FileAnswer
  deriving DecidableEq, Repr

def contentTypeFor (path : CStr) : CStr :=
  if ".html".toList.isSuffixOf path then "text/html".toList
  else if ".css".toList.isSuffixOf path then "text/css".toList
  else if ".js".toList.isSuffixOf path then "application/javascript".toList
  else "application/octet-stream".toList

/-- The file that a path stands for. -/
def staticPath (path : CStr) : CStr :=
  if path = "/".toList then "/index.html".toList else path

/-- `full`, of 512 bytes. -/
def fullPath (cfg : WebConfig) (path : CStr) : CStr :=
  truncate 512 (cfg.webRoot ++ path)

def serveStaticFile (host : Host) (cfg : WebConfig) (path : CStr) : Served :=
  match strstr dotDot path with
  | some _ => ⟨none, some .notFound⟩
  | none =>
      let full := fullPath cfg (staticPath path)
      match host.fopen full with
      | none => ⟨none, none⟩
      | some f =>
          if f.size < 0 ∨ 4 * 1024 * 1024 < f.size then ⟨some full, some .notFound⟩
          else if ¬ host.malloc f.size.toNat then ⟨some full, some .serverError⟩
          else ⟨some full, some (.ok (contentTypeFor full) (f.bytes.take f.size.toNat))⟩

/-- The file that a request has opened by `serve_static_file`. -/
def requestOpens (host : Host) (cfg : WebConfig) (s : Stream Char) : Option CStr :=
  match handleRequest s with
  | some (.getRoutes path) =>
      match getRoute cfg path with
      | .webUi .staticFile => (serveStaticFile host cfg path).opened
      | _ => none
  | _ => none

theorem serveStaticFile_opened {host : Host} {cfg : WebConfig} {path full : CStr}
    (opened : (serveStaticFile host cfg path).opened = some full) :
    strstr dotDot path = none ∧ full = fullPath cfg (staticPath path) := by
  unfold serveStaticFile at opened
  split at opened
  · cases opened
  · rename_i plain
    refine ⟨plain, ?_⟩
    dsimp only at opened
    split at opened
    · cases opened
    · split at opened
      · exact (Option.some.inj opened).symm
      · split at opened <;> exact (Option.some.inj opened).symm

theorem of_requestOpens {host : Host} {cfg : WebConfig} {s : Stream Char} {full : CStr}
    (opens : requestOpens host cfg s = some full) :
    ∃ path, handleRequest s = some (.getRoutes path) ∧ getRoute cfg path = .webUi .staticFile ∧
      strstr dotDot path = none ∧ full = fullPath cfg (staticPath path) := by
  unfold requestOpens at opens
  split at opens
  · rename_i path passed
    split at opens
    · rename_i route
      exact ⟨path, passed, route, serveStaticFile_opened opens⟩
    · cases opens
  · cases opens

/-- A host where every file can be opened. -/
def Host.willing : Host where
  fopen _ := some ⟨0, []⟩
  malloc _ := true

theorem requestOpens_willing {cfg : WebConfig} {s : Stream Char} {path : CStr}
    (passed : handleRequest s = some (.getRoutes path))
    (route : getRoute cfg path = .webUi .staticFile) (plain : strstr dotDot path = none) :
    requestOpens Host.willing cfg s = some (fullPath cfg (staticPath path)) := by
  simp only [requestOpens, passed, route, serveStaticFile, plain]
  rfl

/-- A GET request, by the target in its request line. -/
structure GetRequest where
  target : CStr
  nonempty : target ≠ []
  unbroken : Unbroken target
  nulFree : '\x00' ∉ target

namespace GetRequest

variable (r : GetRequest)

/-- What stands in the request line up to the end of the target. -/
def front : CStr :=
  getMethod ++ ' ' :: r.target

/-- The request on a connection, with what stands behind the target. -/
def stream (rest : List Char) (pieces : List Nat) (atEnd : AtEnd) : Stream Char :=
  ⟨r.front ++ rest, pieces, atEnd⟩

/-- The path in the target, without the query. -/
def path : CStr :=
  r.target.takeWhile (· ≠ '?')

/-- The file that the request names. -/
def file : CStr :=
  staticPath r.path

/-- What the server has of the path. -/
def seen : CStr :=
  (r.target.take 511).takeWhile (· ≠ '?')

/-- The request gets as far as a static file, and is not refused. -/
def Reaches (cfg : WebConfig) : Prop :=
  getRoute cfg r.seen = .webUi .staticFile ∧ strstr dotDot r.seen = none ∧ r.target.length ≤ 8183

instance (cfg : WebConfig) : Decidable (r.Reaches cfg) :=
  inferInstanceAs (Decidable (_ ∧ _))

end GetRequest

/-- A path is strictly inside of a directory, reached from it by names, and
that of the file. -/
structure ServedFrom (webRoot file full : CStr) : Prop where
  inside : StrictlyInside webRoot full
  below : ∃ below ≠ [], ∀ start, locate start full = locate start webRoot ++ below
  named : full = webRoot ++ file

namespace GetRequest

variable (r : GetRequest)

/-- Whatever stands behind the target and however the request arrives, what is
opened is the file that the request names, inside of `web_root`. -/
def Confined (cfg : WebConfig) : Prop :=
  ∀ host rest pieces atEnd full, EndsWord rest →
    requestOpens host cfg (r.stream rest pieces atEnd) = some full →
    ServedFrom cfg.webRoot r.file full

/-- A path that gets as far as a static file is separated from `web_root`,
names something, and fits behind it. -/
def Safe (cfg : WebConfig) : Prop :=
  r.Reaches cfg → Joined cfg.webRoot r.file ∧ names r.file ≠ [] ∧
    (cfg.webRoot ++ r.file).length ≤ 511

instance (cfg : WebConfig) : Decidable (r.Safe cfg) :=
  inferInstanceAs (Decidable (_ → _))

theorem not_mem_front {character : Char} (outside : character ∉ getMethod ++ [' '])
    (missing : character ∉ r.target) : character ∉ r.front := by
  have split : r.front = getMethod ++ [' '] ++ r.target := by
    rw [front, List.append_assoc, List.singleton_append]
  rw [split, List.mem_append, not_or]
  exact ⟨outside, missing⟩

theorem nul_not_mem_front : '\x00' ∉ r.front :=
  r.not_mem_front (by decide) r.nulFree

theorem return_not_mem_front : '\r' ∉ r.front := by
  apply r.not_mem_front (by decide)
  intro member
  exact absurd (r.unbroken '\r' member) (by decide)

theorem length_front : r.front.length = r.target.length + 4 := by
  rw [front, List.length_append, List.length_cons, show getMethod.length = 3 from rfl]
  omega

/-- The target is cut to the size of the buffer for it. -/
theorem scanRequestLine_front {rest : CStr} (ends : EndsWord rest) :
    scanRequestLine (r.front ++ rest) = some (getMethod, r.target.take 511) := by
  have first : scanWordRest 7 (r.front ++ rest) = some (getMethod, ' ' :: (r.target ++ rest)) := by
    rw [front, List.append_assoc]
    exact scanWordRest_word (List.cons_ne_nil _ _) (by decide) (endsWord_space _)
  have second : scanWordRest 511 (' ' :: (r.target ++ rest)) =
      some (r.target.take 511, r.target.drop (r.target.take 511).length ++ rest) :=
    scanWordRest_word r.nonempty r.unbroken ends
  rw [scanRequestLine, first, Option.bind_some]
  dsimp only
  rw [second, Option.map_some]

/-- What `handle_request` does once it has a header block behind the target. -/
theorem handleRequest_get {s s' : Stream Char} {req : List Char} {tail hdrEnd : CStr}
    (collected : s.collect headerWanted [] = some (req, s'))
    (text : terminated req = r.front ++ tail) (blank : EndsWord tail)
    (found : strstr headerEnd (terminated req) = some hdrEnd) :
    handleRequest s = some (.getRoutes r.seen) := by
  have nonempty : req ≠ [] := by
    rintro rfl
    cases text
  rw [handleRequest, collected, Option.bind_some]
  dsimp only
  rw [if_neg nonempty, found, text, r.scanRequestLine_front blank]
  dsimp only
  rw [if_neg (by decide), if_neg (not_not.mpr rfl)]
  rfl

/-- The target has no end of a line, so that the header block ends behind it. -/
theorem exists_tail {req rest coming : List Char} {hdrEnd : CStr}
    (arriving : r.front ++ rest = req ++ coming)
    (found : strstr headerEnd (terminated req) = some hdrEnd) :
    ∃ tail, terminated req = r.front ++ tail ∧ tail <+: rest ∧ headerEnd.length ≤ tail.length := by
  obtain ⟨before, split⟩ := strstr_suffix found
  obtain ⟨behind, block⟩ := strstr_begins found
  have within : terminated req <+: r.front ++ rest :=
    (List.takeWhile_prefix _).trans ⟨coming, arriving.symm⟩
  have inside : r.front <+: before := by
    rw [← split, ← block] at within
    exact prefix_of_mark_not_mem r.return_not_mem_front within
  obtain ⟨more, rfl⟩ := inside
  rw [List.append_assoc] at split
  rw [← split, List.prefix_append_right_inj] at within
  refine ⟨more ++ hdrEnd, split.symm, within, ?_⟩
  rw [List.length_append]
  exact Nat.le_add_left_of_le (strstr_begins found).length_le

/-- A request is passed on with the path that is seen, and only if the end of
its header block fits into the buffer behind the target. -/
theorem seen_of_handleRequest {rest : List Char} {pieces : List Nat} {atEnd : AtEnd} {path : CStr}
    (ends : EndsWord rest)
    (passed : handleRequest (r.stream rest pieces atEnd) = some (.getRoutes path)) :
    path = r.seen ∧ r.target.length ≤ 8183 := by
  obtain ⟨⟨req, s'⟩, collected, answer⟩ := Option.bind_eq_some_iff.mp passed
  dsimp only at answer
  split at answer
  · cases answer
  · split at answer
    · cases answer
    · rename_i hdrEnd found
      obtain ⟨got, whole, arriving⟩ := Stream.collect_split collected
      rw [List.nil_append] at whole
      subst whole
      obtain ⟨tail, text, within, long⟩ := r.exists_tail arriving found
      have get := r.handleRequest_get collected text (ends.front within) found
      refine ⟨?_, ?_⟩
      · cases passed.symm.trans get
        rfl
      · have room (sofar : List Char) (fits : sofar.length ≤ httpReqSize - 1) :
            sofar.length + headerWanted sofar ≤ httpReqSize - 1 := by
          unfold headerWanted
          split <;> omega
        have fits : req.length ≤ 8191 :=
          Stream.length_of_collect _ room (Nat.zero_le _) collected
        have cut : (terminated req).length ≤ req.length := (List.takeWhile_prefix _).length_le
        rw [show headerEnd.length = 4 from rfl] at long
        rw [text, List.length_append, length_front] at cut
        omega

/-- A request whose header block ends where it first can is passed on if it fits. -/
theorem handleRequest_seen {block : CStr} (nulFree : '\x00' ∉ block)
    (blank : EndsWord block) (ends : strstr headerEnd block = some headerEnd)
    (fits : r.front.length + block.length ≤ 8191) :
    handleRequest (r.stream block [] .closed) = some (.getRoutes r.seen) := by
  have nulFree : '\x00' ∉ r.front ++ block := by
    rw [List.mem_append, not_or]
    exact ⟨r.nul_not_mem_front, nulFree⟩
  have ends : strstr headerEnd (r.front ++ block) = some headerEnd :=
    (strstr_append r.return_not_mem_front block).trans ends
  have complete : terminated (r.front ++ block) = r.front ++ block :=
    terminated_of_nulFree nulFree
  obtain ⟨q, rest, pieces, nothing, collected⟩ :=
    Stream.collect_reaches (r.stream block [] .closed) headerWanted [] (r.front ++ block) []
      (List.append_nil _).symm
      (by
        intro p within proper
        rw [List.nil_append]
        apply headerWanted_of_proper nulFree _ ends within proper
        rwa [List.length_append])
      (by
        intro q within
        rw [List.prefix_nil] at within
        rw [within, List.nil_append, List.append_nil, headerWanted, complete, ends])
  obtain ⟨rfl, rfl⟩ := List.append_eq_nil_iff.mp nothing.symm
  rw [List.nil_append, List.append_nil] at collected
  rw [← complete] at ends
  exact r.handleRequest_get collected complete blank ends

/-- A path that fits behind `web_root` is seen as it is. -/
theorem seen_of_fits {cfg : WebConfig} (fits : (cfg.webRoot ++ r.file).length ≤ 511) :
    r.seen = r.path := by
  have short : r.path.length ≤ 511 := by
    rw [List.length_append, file, staticPath] at fits
    split at fits
    · rename_i index
      rw [index]
      decide
    · omega
  rw [seen, ← List.take_takeWhile]
  exact List.take_of_length_le short

/-- There is no way up in a path that is not refused. -/
theorem dotDot_not_mem_staticPath {path : CStr} (plain : strstr dotDot path = none) :
    dotDot ∉ names (staticPath path) := by
  unfold staticPath
  split
  · decide
  · intro member
    obtain ⟨front, behind, split⟩ := infix_of_mem_components (List.mem_of_mem_filter member)
    have nonempty : dotDot ≠ [] := List.cons_ne_nil _ _
    obtain ⟨found, occurs⟩ := exists_strstr nonempty front behind
    rw [← List.append_assoc, split, plain] at occurs
    cases occurs

theorem confined_of_safe {cfg : WebConfig} (safe : r.Safe cfg) : r.Confined cfg := by
  intro host rest pieces atEnd full ends opens
  obtain ⟨path, passed, route, plain, rfl⟩ := of_requestOpens opens
  obtain ⟨rfl, arrives⟩ := r.seen_of_handleRequest ends passed
  obtain ⟨joined, some_, fits⟩ := safe ⟨route, plain, arrives⟩
  have named : fullPath cfg (staticPath r.seen) = cfg.webRoot ++ r.file := by
    rw [r.seen_of_fits fits]
    exact List.take_of_length_le fits
  have down : dotDot ∉ names r.file := by
    have seen := dotDot_not_mem_staticPath plain
    rwa [r.seen_of_fits fits] at seen
  rw [named]
  have inside : StrictlyInside cfg.webRoot (cfg.webRoot ++ r.file) :=
    ⟨r.file, rfl, joined, some_, down⟩
  exact ⟨inside, inside.locate, rfl⟩

/-- On a host that opens everything, a short request shows what is opened. -/
theorem safe_of_confined {cfg : WebConfig} (confined : r.Confined cfg) : r.Safe cfg := by
  rintro ⟨route, plain, arrives⟩
  have blank : EndsWord headerEnd := endsWord_cons (by decide) _
  have passed : handleRequest (r.stream headerEnd [] .closed) = some (.getRoutes r.seen) := by
    apply r.handleRequest_seen (by decide) blank rfl
    rw [length_front, show headerEnd.length = 4 from rfl]
    omega
  have opens := requestOpens_willing passed route plain
  obtain ⟨⟨below, split, joined, some_, -⟩, -, named⟩ := confined _ _ _ _ _ blank opens
  have fits : (cfg.webRoot ++ r.file).length ≤ 511 := by
    rw [← named, fullPath, truncate, List.length_take]
    exact Nat.min_le_left _ _
  rw [named] at split
  obtain rfl := List.append_cancel_left split
  exact ⟨joined, some_, fits⟩

end GetRequest

/-- Static files are served from inside of `web_root`, and are those that the
request names, if and only if the path begins with a slash where `web_root`
does not end with one, names something and fits behind `web_root`, or is not
for a static file at all. -/
theorem static_file_confined_iff (cfg : WebConfig) (r : GetRequest) :
    r.Confined cfg ↔ r.Safe cfg :=
  ⟨r.safe_of_confined, r.confined_of_safe⟩

def defaultWebConfig : WebConfig where
  tunerCount := 2
  webRoot := "/usr/local/share/hdhr-emu/web".toList

/-- Without a slash in front, the target goes on with the name of `web_root`. -/
def siblingRequest : GetRequest where
  target := "-old/key".toList
  nonempty := by decide
  unbroken := by decide
  nulFree := by decide

theorem static_file_sibling_directory :
    requestOpens Host.willing defaultWebConfig
        (siblingRequest.stream " HTTP/1.1\r\n\r\n".toList [] .closed) =
      some "/usr/local/share/hdhr-emu/web-old/key".toList ∧
    ¬ ∀ (cfg : WebConfig) (r : GetRequest), r.Confined cfg := by
  have passed := siblingRequest.handleRequest_seen (by decide)
    (endsWord_space "HTTP/1.1\r\n\r\n".toList) (by decide) (by decide)
  refine ⟨requestOpens_willing passed (by decide) (by decide), fun every => ?_⟩
  have safe := siblingRequest.safe_of_confined (every defaultWebConfig siblingRequest)
  exact absurd safe (by decide)

end HdhrEmu
