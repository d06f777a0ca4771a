import HdhrEmu.LineupDocuments
import HdhrEmu.StaticFiles

/-!
# Following the lineup

Every address in the lineup names the host it was fetched from and a path
below `/auto/`.  A request for this path is passed on to the stream of the
channel that the entry is about, with `.m3u` behind it it gives a playlist of
this one channel, and the same number below `/tunerN/` is passed on to its
stream on a tuner of the client's choice.
-/

namespace HdhrEmu

open CString ByteStream

/-- The host, the port and the path of an address, as a client takes it apart. -/
def addressParts (url : CStr) : Option (CStr × CStr × CStr) :=
  ("http://".toList.isPrefixOf? url).bind fun rest =>
    (splitAt? ':' rest).bind fun (host, rest) =>
      (splitAt? '/' rest).map fun (port, path) => (host, port, '/' :: path)

/-- What a GET request leads to once it is routed. -/
inductive Watching
  /-- `stream_channel_to_client`: the tuner that is asked for, or -1, and the
  channel that `dvb_find_channel` finds. -/
  | stream (idx : Int) (ch : Option DvbChannel)
  | playlist (text : CStr)

/-- What `handle_m3u` prints. -/
def m3uBody (ip number name : CStr) : CStr :=
  "#EXTM3U\n#EXTINF:-1,".toList ++ (number ++ ' ' :: (name ++
    ("\nhttp://".toList ++ (ip ++ (":80/auto/v".toList ++ (number ++ ['\n']))))))

/-- `body` of `handle_m3u`, of 512 bytes. -/
def handleM3u (db : ChannelDb) (ip : CStr) (major minor : Int) : CStr :=
  let ch := db.find? ⟨major, minor⟩
  truncate 512 (m3uBody ip (decimalInt major ++ '.' :: decimalInt minor)
    ((ch.map DvbChannel.shortName).getD "Unknown".toList))

/-- The branches of `handle_request` that are about watching a channel. -/
def watchRoute (db : ChannelDb) (ip : CStr) : GetRoute → Option Watching
  | .streamChannel idx major minor => some (.stream idx (db.find? ⟨major, minor⟩))
  | .m3u major minor => some (.playlist (handleM3u db ip major minor))
  | _ => none

/-- Where a GET request is passed on to, as it arrives. -/
def requestRoute (cfg : WebConfig) (s : Stream Char) : Option GetRoute :=
  match handleRequest s with
  | some (.getRoutes path) => some (getRoute cfg path)
  | _ => none

/-- What stands behind the target in a request: the rest of the request line
and the headers, up to the first blank line. -/
structure RequestRest where
  block : CStr
  nulFree : '\x00' ∉ block
  blank : EndsWord block
  ends : strstr headerEnd block = some headerEnd

namespace GetRequest

variable (r : GetRequest)

/-- A request that fits is passed on however it arrives. -/
theorem handleRequest_arrives {rest : RequestRest}
    (fits : r.front.length + rest.block.length ≤ 8191) (pieces : List Nat) (atEnd : AtEnd) :
    handleRequest (r.stream rest.block pieces atEnd) = some (.getRoutes r.seen) := by
  have nulFree : '\x00' ∉ r.front ++ rest.block := by
    rw [List.mem_append, not_or]
    exact ⟨r.nul_not_mem_front, rest.nulFree⟩
  have ends : strstr headerEnd (r.front ++ rest.block) = some headerEnd :=
    (strstr_append r.return_not_mem_front rest.block).trans rest.ends
  have complete : terminated (r.front ++ rest.block) = r.front ++ rest.block :=
    terminated_of_nulFree nulFree
  obtain ⟨q, others, left_, nothing, collected⟩ :=
    Stream.collect_reaches (r.stream rest.block pieces atEnd) headerWanted []
      (r.front ++ rest.block) [] (List.append_nil _).symm
      (by
        intro p within proper
        rw [List.nil_append]
        apply headerWanted_of_proper nulFree _ ends within proper
        rwa [List.length_append])
      (by
        intro q within
        rw [List.prefix_nil] at within
        rw [within, List.nil_append, List.append_nil, headerWanted, complete, ends])
  obtain ⟨rfl, rfl⟩ := List.append_eq_nil_iff.mp nothing.symm
  rw [List.nil_append, List.append_nil] at collected
  rw [← complete] at ends
  exact r.handleRequest_get collected complete rest.blank ends

/-- A short path is seen as it is. -/
theorem seen_eq_path (short : r.path.length ≤ 511) : r.seen = r.path := by
  rw [seen, ← List.take_takeWhile]
  exact List.take_of_length_le short

end GetRequest

/-- The path of a channel behind a front. -/
def channelPath (front : CStr) (ch : DvbChannel) : CStr :=
  front ++ guideNumber ch

/-- What stands before a number to stream it on this tuner. -/
def tunerFront (tuner : Nat) : CStr :=
  "/tuner".toList ++ (decimal tuner ++ "/v".toList)

theorem colon_not_mem_localIpForPeer (address : LocalAddress) : ':' ∉ localIpForPeer address := by
  have digits (n : Nat) : ':' ∉ decimal n :=
    fun member => absurd (isDigit_decimal member) (by decide)
  match address with
  | none => decide
  | some (a, b, c, d) =>
      simp only [localIpForPeer_some, List.mem_append, List.mem_cons, not_or]
      exact ⟨digits _, by decide, digits _, by decide, digits _, by decide, digits _⟩

theorem addressParts_http {ip behind port path : CStr} (plain : ':' ∉ ip)
    (parts : splitAt? '/' behind = some (port, path)) :
    addressParts ("http://".toList ++ (ip ++ ':' :: behind)) = some (ip, port, '/' :: path) := by
  have scheme : "http://".toList.isPrefixOf? ("http://".toList ++ (ip ++ ':' :: behind)) =
      some (ip ++ ':' :: behind) := rfl
  rw [addressParts, scheme, Option.bind_some, splitAt?_append plain, Option.bind_some]
  dsimp only
  rw [parts, Option.map_some]

theorem addressParts_autoUrl {ip : CStr} (plain : ':' ∉ ip) (ch : DvbChannel) :
    addressParts (autoUrl ip ch) = some (ip, "80".toList, channelPath "/auto/v".toList ch) := by
  have port : splitAt? '/' ("80/auto/v".toList ++ guideNumber ch) =
      some ("80".toList, "auto/v".toList ++ guideNumber ch) := rfl
  exact addressParts_http plain port

theorem scanMajorMinor_guideNumber {ch : DvbChannel} (storable : StorableChannel ch) {rest : CStr}
    (ends : EndsNumeral rest) :
    scanMajorMinor (guideNumber ch ++ rest) = some (ch.major, some ch.minor) := by
  rw [guideNumber, List.append_assoc, List.cons_append]
  exact scanMajorMinor_decimalInt storable.major storable.minor ends

/-- A number ends in a digit. -/
theorem digit_of_guideNumber_ends {front rest : CStr} {ch : DvbChannel} {last : Char}
    (ends : front ++ guideNumber ch = rest ++ [last]) : last.isDigit = true := by
  have ofDecimal {front rest : CStr} {n : Nat} (ends : front ++ decimal n = rest ++ [last]) :
      last.isDigit = true := by
    have nonempty := decimal_ne_nil n
    have same := congrArg List.getLast? ends
    rw [List.getLast?_append_of_ne_nil _ nonempty, List.getLast?_concat] at same
    exact isDigit_decimal (List.mem_of_getLast? same)
  rw [guideNumber, decimalInt.eq_def ch.minor] at ends
  split at ends
  · have regrouped : front ++ (decimalInt ch.major ++ ['.', '-']) ++ decimal ch.minor.natAbs =
        rest ++ [last] := by
      rw [← ends]
      simp
    exact ofDecimal regrouped
  · have regrouped : front ++ (decimalInt ch.major ++ ['.']) ++ decimal ch.minor.natAbs =
        rest ++ [last] := by
      rw [← ends]
      simp
    exact ofDecimal regrouped

theorem getRoute_auto (cfg : WebConfig) (text : CStr) :
    getRoute cfg ("/auto/v".toList ++ text) =
      let (major, minor) := (scanMajorMinor text).getD (0, none)
      if 4 < ("/auto/v".toList ++ text).length ∧ ".m3u".toList.isSuffixOf ("/auto/v".toList ++ text)
      then .m3u major (minor.getD 0)
      else .streamChannel (-1) major (minor.getD 0) := by
  have other {path : CStr} (differs : path[1]? ≠ some 'a') : "/auto/v".toList ++ text ≠ path := by
    rintro rfl
    exact differs rfl
  rw [getRoute, if_neg (other (by decide)), if_neg (other (by decide)), if_neg (other (by decide)),
    if_neg (other (by decide)), if_pos]
  · rfl
  · exact List.isPrefixOf_iff_prefix.mpr (List.prefix_append _ _)

/-- The path in the lineup is routed to the channel. -/
theorem getRoute_channelPath (cfg : WebConfig) {ch : DvbChannel} (storable : StorableChannel ch) :
    getRoute cfg (channelPath "/auto/v".toList ch) = .streamChannel (-1) ch.major ch.minor := by
  have numbers := @scanMajorMinor_guideNumber ch storable [] (fun _ member => nomatch member)
  rw [List.append_nil] at numbers
  rw [channelPath, getRoute_auto, numbers]
  apply if_neg
  rintro ⟨-, suffix⟩
  obtain ⟨front, whole⟩ := List.isSuffixOf_iff_suffix.mp suffix
  have ends : "/auto/v".toList ++ guideNumber ch = (front ++ ['.', 'm', '3']) ++ ['u'] := by
    rw [← whole]
    simp
  exact absurd (digit_of_guideNumber_ends ends) (by decide)

theorem getRoute_playlistPath (cfg : WebConfig) {ch : DvbChannel}
    (storable : StorableChannel ch) :
    getRoute cfg (channelPath "/auto/v".toList ch ++ ".m3u".toList) = .m3u ch.major ch.minor := by
  have numbers := scanMajorMinor_guideNumber storable
    (endsNumeral_cons (by decide : '.'.isDigit = false) "m3u".toList)
  rw [channelPath, List.append_assoc, getRoute_auto]
  rw [show ".m3u".toList = '.' :: "m3u".toList from rfl, numbers]
  apply if_pos
  constructor
  · rw [List.length_append]
    exact Nat.lt_add_right _ (by decide)
  · apply List.isSuffixOf_iff_suffix.mpr
    rw [← List.append_assoc]
    exact List.suffix_append _ _

/-- The same number on a tuner of the client's choice. -/
theorem getRoute_tunerPath (cfg : WebConfig) {tuner : Nat} (small : tuner < 2 ^ 31)
    (exists_ : (tuner : Int) < cfg.tunerCount) {ch : DvbChannel} (storable : StorableChannel ch) :
    getRoute cfg (channelPath (tunerFront tuner) ch) =
      .streamChannel tuner ch.major ch.minor := by
  have other {path : CStr} (differs : path[1]? ≠ some 't') :
      channelPath (tunerFront tuner) ch ≠ path := by
    rintro rfl
    exact differs rfl
  have numbers := @scanMajorMinor_guideNumber ch storable [] (fun _ member => nomatch member)
  rw [List.append_nil] at numbers
  have scanned : scanTunerChannel
      (channelPath (tunerFront tuner) ch) =
        some ((tuner : Int), ch.major, ch.minor) := by
    have index : scanInt (decimal tuner ++ ("/v".toList ++ guideNumber ch)) =
        some ((tuner : Int), "/v".toList ++ guideNumber ch) := by
      rw [← decimalInt_natCast]
      exact scanInt_decimalInt (by omega) (by omega) (endsNumeral_cons (by decide) _)
    have front : "/tuner".toList.isPrefixOf?
        (channelPath (tunerFront tuner) ch) =
          some (decimal tuner ++ ("/v".toList ++ guideNumber ch)) := by
      rw [channelPath, tunerFront, List.append_assoc, List.append_assoc]
      rfl
    have middle : "/v".toList.isPrefixOf? ("/v".toList ++ guideNumber ch) =
        some (guideNumber ch) := rfl
    rw [scanTunerChannel, front, Option.bind_some, index, Option.bind_some]
    dsimp only
    rw [middle, Option.bind_some, numbers]
    rfl
  rw [getRoute, if_neg (other (by decide)), if_neg (other (by decide)), if_neg (other (by decide)),
    if_neg (other (by decide)), if_neg, scanned]
  · dsimp only
    rw [if_neg]
    omega
  · intro auto
    obtain ⟨rest, whole⟩ := List.isPrefixOf_iff_prefix.mp auto
    exact other (by simp) whole.symm

/-- A channel as the only entry of a playlist. -/
def onlyEntry (ip : CStr) (ch : DvbChannel) : M3u.Entry where
  duration := "-1".toList
  attributes := []
  title := guideNumber ch ++ ' ' :: ch.shortName
  location := autoUrl ip ch

theorem length_m3uBody (ip number name : CStr) :
    (m3uBody ip number name).length = ip.length + 2 * number.length + name.length + 39 := by
  unfold m3uBody
  simp only [List.length_append, List.length_cons, List.length_nil,
    show "#EXTM3U\n#EXTINF:-1,".toList.length = 19 from rfl,
    show "\nhttp://".toList.length = 8 from rfl, show ":80/auto/v".toList.length = 10 from rfl]
  omega

/-- The playlist fits. -/
theorem handleM3u_eq {db : ChannelDb} {ip : CStr} (address : ip.length ≤ 15) {ch : DvbChannel}
    (storable : StorableChannel ch) (found : db.find? ch.key = some ch) :
    handleM3u db ip ch.major ch.minor = m3uBody ip (guideNumber ch) ch.shortName := by
  have number := length_guideNumber storable
  have name := storable.short
  have looked : db.find? ⟨ch.major, ch.minor⟩ = some ch := found
  have printed : handleM3u db ip ch.major ch.minor =
      truncate 512 (m3uBody ip (guideNumber ch) ch.shortName) := by
    rw [handleM3u, looked, Option.map_some, Option.getD_some]
    rfl
  rw [printed, truncate]
  apply List.take_of_length_le
  rw [length_m3uBody]
  omega

theorem m3uBody_eq (ip : CStr) (ch : DvbChannel) :
    m3uBody ip (guideNumber ch) ch.shortName = "#EXTM3U".toList ++ '\n' ::
      (M3u.info "-1".toList [] (guideNumber ch ++ ' ' :: ch.shortName) ++ '\n' ::
        (autoUrl ip ch ++ ['\n'])) := by
  unfold m3uBody M3u.info autoUrl
  simp only [List.flatMap_nil, List.nil_append, List.append_assoc, List.cons_append]
  rfl

theorem lists_handleM3u {db : ChannelDb} {address : LocalAddress} {ch : DvbChannel}
    (storable : StorableChannel ch) (found : db.find? ch.key = some ch) :
    M3u.Lists (handleM3u db (localIpForPeer address) ch.major ch.minor)
      [onlyEntry (localIpForPeer address) ch] := by
  rw [handleM3u_eq (length_localIpForPeer address) storable found, m3uBody_eq]
  refine ⟨_, splitAt?_append (by decide), 1, ?_⟩
  apply M3u.entries?_cons
  · unfold M3u.info
    simp only [List.flatMap_nil, List.nil_append, List.mem_append, List.mem_cons, not_or]
    exact ⟨by decide, by decide, by decide, not_mem_guideNumber ch (by decide), by decide,
      storable.oneLine⟩
  · intro member
    exact absurd (inAddress_autoUrl (fun _ => inAddress_localIpForPeer) member) (by decide)
  · apply M3u.entryOf?_info
    · exact List.all_eq_true.mp (by decide)
    · exact fun _ member => nomatch member
    · exact fun _ member => nomatch member
  · rfl

/-- The text can be the path of a request. -/
structure PlainPath (path : CStr) : Prop where
  plain : ∀ character ∈ path, inAddress character = true
  noQuery : '?' ∉ path

namespace PlainPath

theorem append {front back : CStr} (first : PlainPath front) (second : PlainPath back) :
    PlainPath (front ++ back) where
  plain := List.forall_mem_append.mpr ⟨first.plain, second.plain⟩
  noQuery := by
    rw [List.mem_append, not_or]
    exact ⟨first.noQuery, second.noQuery⟩

theorem ofLetters {text : CStr} (letters : text.all inAddress = true) (noQuery : '?' ∉ text) :
    PlainPath text :=
  ⟨List.all_eq_true.mp letters, noQuery⟩

theorem ofDecimal (n : Nat) : PlainPath (decimal n) where
  plain := fun _ => inAddress_decimal
  noQuery := fun member => absurd (isDigit_decimal member) (by decide)

theorem ofGuideNumber (ch : DvbChannel) : PlainPath (guideNumber ch) where
  plain := fun _ => inAddress_guideNumber
  noQuery := by
    have part (i : Int) : '?' ∉ decimalInt i := by
      unfold decimalInt
      split
      · rw [List.mem_cons, not_or]
        exact ⟨by decide, (ofDecimal _).noQuery⟩
      · exact (ofDecimal _).noQuery
    rw [guideNumber, List.mem_append, List.mem_cons, not_or, not_or]
    exact ⟨part _, by decide, part _⟩

theorem not_isSpace {character : Char} (address : inAddress character = true) :
    isSpace character = false := by
  cases space : isSpace character with
  | false => rfl
  | true =>
      simp only [isSpace, List.contains_eq_mem, decide_eq_true_eq, List.mem_cons,
        List.not_mem_nil, or_false] at space
      rcases space with rfl | rfl | rfl | rfl | rfl | rfl <;> revert address <;> decide

/-- The path as the target of a request. -/
def request {path : CStr} (plain : PlainPath path) (nonempty : path ≠ []) : GetRequest where
  target := path
  nonempty := nonempty
  unbroken := fun character member => not_isSpace (plain.plain character member)
  nulFree := fun member => absurd (plain.plain _ member) (by decide)

end PlainPath

/-- A request for the path, with or without a query, takes the route however it
arrives; and there are such requests. -/
structure Routed (cfg : WebConfig) (path : CStr) (route : GetRoute) : Prop where
  requested : ∃ r : GetRequest, r.target = path ∧ r.path = path
  arrives : ∀ r : GetRequest, r.path = path → ∀ (rest : RequestRest) (pieces : List Nat)
    (atEnd : AtEnd), r.front.length + rest.block.length ≤ 8191 →
      requestRoute cfg (r.stream rest.block pieces atEnd) = some route

theorem PlainPath.routed {path : CStr} (plain : PlainPath path) (nonempty : path ≠ [])
    (short : path.length ≤ 511) (cfg : WebConfig) : Routed cfg path (getRoute cfg path) where
  requested := by
    refine ⟨plain.request nonempty, rfl, ?_⟩
    have whole : path.takeWhile (· ≠ '?') = path := by
      rw [List.takeWhile_eq_self_iff]
      intro character member
      rw [decide_eq_true_eq]
      rintro rfl
      exact plain.noQuery member
    exact whole
  arrives := by
    rintro r rfl rest pieces atEnd fits
    rw [requestRoute, r.handleRequest_arrives fits pieces atEnd, r.seen_eq_path short]

/-- A request for the path leads there. -/
def Leads (cfg : WebConfig) (lineup : Lineup) (path : CStr) (watching : Watching) : Prop :=
  ∃ route, Routed cfg path route ∧ watchRoute lineup.db lineup.ip route = some watching

/-- What the addresses of a channel lead to. -/
structure Followable (cfg : WebConfig) (lineup : Lineup) (ch : DvbChannel) : Prop where
  address : addressParts (autoUrl lineup.ip ch) =
    some (lineup.ip, "80".toList, channelPath "/auto/v".toList ch)
  anyTuner : Leads cfg lineup (channelPath "/auto/v".toList ch) (.stream (-1) (some ch))
  playlist : ∃ text,
    Leads cfg lineup (channelPath "/auto/v".toList ch ++ ".m3u".toList) (.playlist text) ∧
      M3u.Lists text [onlyEntry lineup.ip ch]
  thisTuner : ∀ tuner : Nat, tuner < 2 ^ 31 → (tuner : Int) < cfg.tunerCount →
    Leads cfg lineup (channelPath (tunerFront tuner) ch) (.stream tuner (some ch))

namespace Lineup

variable (lineup : Lineup)

theorem find?_sorted {ch : DvbChannel} (member : ch ∈ lineup.sorted) :
    lineup.db.find? ch.key = some ch :=
  ChannelDb.find?_eq_some_iff.mpr ⟨lineup.perm_sorted.mem_iff.mp member, rfl⟩

/-- A channel of the lineup is the one that is found under its number. -/
theorem watchRoute_stream {ch : DvbChannel} (member : ch ∈ lineup.sorted) (idx : Int) :
    watchRoute lineup.db lineup.ip (.streamChannel idx ch.major ch.minor) =
      some (.stream idx (some ch)) :=
  congrArg (fun found => some (Watching.stream idx found)) (lineup.find?_sorted member)

theorem colon_not_mem_ip : ':' ∉ lineup.ip :=
  colon_not_mem_localIpForPeer lineup.address

theorem followable (cfg : WebConfig) {ch : DvbChannel} (member : ch ∈ lineup.sorted) :
    Followable cfg lineup ch := by
  have storable := lineup.storable_sorted ch member
  have number := length_guideNumber storable
  have front : PlainPath (channelPath "/auto/v".toList ch) :=
    (PlainPath.ofLetters (by decide) (by decide)).append (.ofGuideNumber ch)
  have frontLength : (channelPath "/auto/v".toList ch).length ≤ 30 := by
    rw [channelPath, List.length_append, show "/auto/v".toList.length = 7 from rfl]
    omega
  constructor
  · exact addressParts_autoUrl lineup.colon_not_mem_ip ch
  · refine ⟨_, front.routed (List.cons_ne_nil _ _) (by omega) cfg, ?_⟩
    rw [getRoute_channelPath cfg storable]
    exact lineup.watchRoute_stream member (-1)
  · have path : PlainPath (channelPath "/auto/v".toList ch ++ ".m3u".toList) :=
      front.append (.ofLetters (by decide) (by decide))
    have pathLength : (channelPath "/auto/v".toList ch ++ ".m3u".toList).length ≤ 34 := by
      rw [List.length_append, show ".m3u".toList.length = 4 from rfl]
      omega
    refine ⟨_, ⟨_, path.routed (List.cons_ne_nil _ _) (by omega) cfg, ?_⟩,
      lists_handleM3u storable (lineup.find?_sorted member)⟩
    rw [getRoute_playlistPath cfg storable]
    rfl
  · intro tuner small inside
    have digits : (decimal tuner).length ≤ 10 :=
      length_decimal (Nat.lt_trans small (by decide)) (by decide)
    have path : PlainPath (channelPath (tunerFront tuner) ch) :=
      ((PlainPath.ofLetters (by decide) (by decide)).append
        ((PlainPath.ofDecimal tuner).append (.ofLetters (by decide) (by decide)))).append
          (.ofGuideNumber ch)
    have pathLength : (channelPath (tunerFront tuner) ch).length ≤ 41 := by
      rw [channelPath, tunerFront, List.length_append, List.length_append, List.length_append,
        show "/tuner".toList.length = 6 from rfl, show "/v".toList.length = 2 from rfl]
      omega
    refine ⟨_, path.routed (List.cons_ne_nil _ _) (by omega) cfg, ?_⟩
    rw [getRoute_tunerPath cfg small inside storable]
    exact lineup.watchRoute_stream member tuner

end Lineup

/-- Whoever follows an entry of the playlist of the lineup gets to the channel
that it names: the path of its address is passed on to the stream of this
channel, on any tuner, has a playlist of this one channel behind it, and the
number is passed on to its stream on every tuner that there is. -/
theorem lineup_followed (lineup : Lineup) (cfg : WebConfig) :
    Answers (handleLineupM3u · lineup.ip lineup.db) (m3uText lineup.ip lineup.sorted) ∧
      M3u.Lists (m3uText lineup.ip lineup.sorted)
        (lineup.sorted.map (playlistEntry lineup.ip)) ∧
      ∀ ch ∈ lineup.sorted, Followable cfg lineup ch :=
  ⟨lineup.answers_m3u, lists_m3uText (fun _ => inAddress_localIpForPeer) lineup.storable_sorted,
    fun _ => lineup.followable cfg⟩

end HdhrEmu
