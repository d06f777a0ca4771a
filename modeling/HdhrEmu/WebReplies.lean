import HdhrEmu.ChannelCache
import HdhrEmu.Lib.Strtod
import HdhrEmu.StreamInfo
import HdhrEmu.TunerStatus

/-!
# The replies that the web interface reads

The web interface is a client of the control protocol.  It cuts tokens out of
the replies by searching for their keys; the reply to a GET of `debug` has the
target in it, which another client has chosen.
-/

namespace HdhrEmu

open CString Interleaving

def endsToken (character : Char) : Bool :=
  [' ', '\t', '\r', '\n'].contains character

/-- `token_str`: what it writes, if it finds the key; it succeeds if that is
not empty. -/
def tokenStr (s key : CStr) (outlen : Nat) : Option CStr :=
  (strstr key s).map fun p =>
    ((p.drop key.length).takeWhile fun character => !endsToken character).take (outlen - 1)

/-- The text does not go on with a token. -/
def EndsToken (text : CStr) : Prop :=
  ∀ character ∈ text.head?, endsToken character = true

def tokenInt (s key : CStr) (fallback : Int) : Int :=
  match (tokenStr s key 32).filter (· ≠ []) with
  | some token => atoi token
  | none => fallback

/-- `%d` of an `int`. -/
def decimalSigned (i : Int) : CStr :=
  decimalInt (Int32.ofInt i).toInt

namespace World

/-- The `vchannel` branch of `handle_tuner_get`. -/
def vchannelReply (w : World) : CStr :=
  if w.tuner.vchResolved then
    decimalSigned w.tuner.vchMajor ++ '.' :: decimalSigned w.tuner.vchMinor
  else noneText

/-- The reading that the `debug` branch takes raw values from. -/
def rawReading (w : World) : Option Reading :=
  match w.tuner.activeStream.bind w.cachedStats with
  | some reading => some reading
  | none =>
      if w.tuner.heldFd.isSome then
        if w.tuner.heldStatsCacheValid then some w.tuner.heldStatsCache else none
      else if w.tuner.scanStatsValid ∧ w.tuner.scanStatsFreq = w.tuner.tunedFrequencyHz then
        some w.tuner.scanStats
      else none

end World

/-- What the driver gave with a reading, in thousandths of a decibel. -/
structure RawStats where
  signalDbm : Option Int64
  snrDb : Option Int64

def ssDbmKey : CStr := "ss_dbm=".toList

def snrDbKey : CStr := "snr_db=".toList

/-- `svalue / 1000.0`. -/
def decibels (svalue : Int64) : Double :=
  (Double.ofInt64 svalue).divNat 1000

/-- `" ss_dbm=%.1f"` and its like. -/
def rawText (key : CStr) (svalue : Int64) : CStr :=
  ' ' :: (key ++ (decibels svalue).text)

namespace World

/-- `"%s program=%d target=%s busy=%d"`. -/
def debugText (w : World) : CStr :=
  w.tuner.status ++ " program=".toList ++ decimalSigned w.tuner.program ++ " target=".toList ++
    w.tuner.target ++ " busy=".toList ++ (if w.tuner.busy then ['1'] else ['0'])

/-- The raw values at the end of the reply. -/
def rawTexts (w : World) (raw : Reading → RawStats) : List CStr :=
  match w.rawReading with
  | none => []
  | some reading =>
      ((raw reading).signalDbm.map (rawText ssDbmKey)).toList ++
        ((raw reading).snrDb.map (rawText snrDbKey)).toList

/-- The `debug` branch of `handle_tuner_get`. -/
def debugReply (w : World) (raw : Reading → RawStats) : CStr :=
  (snprintfAll replySize (w.debugText :: w.rawTexts raw)).1

end World

/-- A channel as it is shown. -/
def ShownChannel (ch : CStr) : Prop :=
  ch = noneText ∨ ∃ delivery freq, ch = channelText delivery freq

def ShownLock (lock : CStr) : Prop :=
  lock = noneText ∨ ∃ delivery : DeliverySystem, lock = delivery.word

/-- What may follow the lock in `t->status`. -/
def statusTails : List CStr :=
  [[], " ss=45 snq=0 seq=0".toList, " ss=45 snq=0 seq=0 bps=0 pps=0".toList,
    " ss=0 snq=0 seq=0 bps=0 pps=0".toList]

def PrintedStatus (status : CStr) : Prop :=
  ∃ ch lock tail, ShownChannel ch ∧ ShownLock lock ∧ tail ∈ statusTails ∧
    status = statusText ch lock tail

/-- The texts of the record are those that the program prints, and the target
fits its array. -/
structure PrintedTexts (channel status target : CStr) : Prop where
  channel : ShownChannel channel
  status : PrintedStatus status
  target : target.length ≤ 63

def Tuner.Printed (t : Tuner) : Prop :=
  PrintedTexts t.channel t.status t.target

section Printed

variable {t : Tuner}

theorem Tuner.Printed.same {next : Tuner} (printed : t.Printed)
    (selection : next.toSelection = t.toSelection) (line : next.toStatusLine = t.toStatusLine)
    (target : next.target = t.target) : next.Printed := by
  unfold Tuner.Printed
  rw [selection, line, target]
  exact printed

theorem printedStatus_idle : PrintedStatus idleStatus :=
  ⟨noneText, noneText, _, .inl rfl, .inl rfl, by simp [statusTails], rfl⟩

theorem Tuner.Printed.reset (printed : t.Printed) : t.channelNoneReset.Printed :=
  ⟨.inl rfl, printedStatus_idle, printed.target⟩

theorem Tuner.Printed.selectRaw (printed : t.Printed) (delivery : DeliverySystem) (freq : UInt32)
    {tail : CStr} (listed : tail ∈ statusTails) : (t.selectRaw delivery freq tail).Printed :=
  ⟨.inr ⟨delivery, freq, rfl⟩,
    ⟨_, noneText, tail, .inr ⟨delivery, freq, rfl⟩, .inl rfl, listed, rfl⟩, printed.target⟩

theorem Tuner.Printed.bind (printed : t.Printed) (ch : DvbChannel) (programOverride : Int) :
    (t.tunerBindChannel ch programOverride).Printed :=
  ⟨.inr ⟨ch.delivery, ch.frequencyHz, rfl⟩, printed.status, printed.target⟩

theorem Tuner.Printed.vchannelStatus (printed : t.Printed) : t.vchannelStatus.Printed :=
  ⟨printed.channel, ⟨_, noneText, [], printed.channel, .inl rfl, List.mem_cons_self, rfl⟩,
    printed.target⟩

theorem Tuner.Printed.pullReset (printed : t.Printed) (ch : DvbChannel) :
    (t.pullReset ch).Printed := by
  unfold Tuner.pullReset
  split
  · exact ⟨.inl rfl, printedStatus_idle, printed.target⟩
  · exact printed

theorem Tuner.Printed.finalize (printed : t.Printed) (job : ScanJob) (lock : LockResult) :
    (job.finalize lock t).Printed := by
  unfold ScanJob.finalize Tuner.finalizeLockResult
  split
  · refine ⟨printed.channel, ⟨_, _, [], .inr ⟨_, _, rfl⟩, ?_, List.mem_cons_self, rfl⟩,
      printed.target⟩
    cases lock.locked with
    | false => exact .inl rfl
    | true => exact .inr ⟨_, rfl⟩
  · exact printed

theorem Tuner.Printed.setTarget (printed : t.Printed) (value : CStr) :
    (t.setTarget value).Printed := by
  refine ⟨printed.channel, printed.status, ?_⟩
  show (truncate 64 value).length ≤ 63
  rw [truncate, List.length_take]
  exact Nat.min_le_left _ _

theorem Tuner.Printed.udpPushStop (printed : t.Printed) : t.udpPushStop.Printed := by
  unfold Tuner.udpPushStop
  split
  · exact printed.same rfl rfl rfl
  · exact printed

theorem Tuner.Printed.udpPushDone (printed : t.Printed) (generation : UInt32) :
    (t.udpPushDone generation).Printed := by
  unfold Tuner.udpPushDone
  split
  · exact printed.same rfl rfl rfl
  · exact printed

variable {w : World} {χ : Choice} {outcome : Outcome}

theorem pushAct_printed {frame : PushFrame} (printed : w.tuner.Printed)
    (acted : pushAct w χ frame = some outcome) : outcome.shared.tuner.Printed := by
  revert acted
  fun_cases pushAct w χ frame <;> intro acted <;> cases acted
  all_goals first
    | exact printed
    | exact printed.bind _ _
    | exact printed.setTarget _
    | exact printed.udpPushDone _

theorem pullAct_printed {frame : PullFrame} (printed : w.tuner.Printed)
    (acted : pullAct w χ frame = some outcome) : outcome.shared.tuner.Printed := by
  revert acted
  fun_cases pullAct w χ frame <;> intro acted <;> cases acted
  all_goals first
    | exact printed
    | exact printed.bind _ _
    | exact printed.pullReset _

theorem setAct_printed {frame : SetFrame} (printed : w.tuner.Printed)
    (acted : setAct w χ frame = some outcome) : outcome.shared.tuner.Printed := by
  revert acted
  fun_cases setAct w χ frame <;> intro acted <;> cases acted
  all_goals first
    | exact printed
    | exact printed.reset
    | exact printed.selectRaw _ _ (by simp [statusTails])
    | exact printed.bind _ _
    | exact printed.vchannelStatus
    | exact printed.setTarget _
    | exact printed.udpPushStop

theorem scanAct_printed {frame : ScanFrame} (printed : w.tuner.Printed)
    (acted : scanAct w χ frame = some outcome) : outcome.shared.tuner.Printed := by
  revert acted
  fun_cases scanAct w χ frame <;> intro acted <;> cases acted
  all_goals first
    | exact printed
    | exact printed.finalize _ _

theorem releaseAct_printed {frame : ReleaseFrame} (printed : w.tuner.Printed)
    (acted : releaseAct w χ frame = some outcome) : outcome.shared.tuner.Printed := by
  revert acted
  fun_cases releaseAct w χ frame <;> intro acted <;> cases acted
  all_goals first
    | exact printed
    | exact printed.same (by simp) (by simp) (by simp)

theorem act_printed {frame : Frame} (printed : w.tuner.Printed)
    (acted : act w frame χ = some outcome) : outcome.shared.tuner.Printed := by
  cases frame with
  | hold frame =>
      simp only [act] at acted
      revert acted
      fun_cases holdAct w χ frame <;> intro acted <;> cases acted <;> exact printed
  | release frame => exact releaseAct_printed printed acted
  | claim frame =>
      simp only [act] at acted
      revert acted
      fun_cases claimAct w χ frame <;> intro acted <;> cases acted <;> exact printed
  | stream frame =>
      simp only [act] at acted
      revert acted
      fun_cases streamAct w χ frame <;> intro acted <;> cases acted <;> exact printed
  | push frame => exact pushAct_printed printed acted
  | pull frame => exact pullAct_printed printed acted
  | set frame => exact setAct_printed printed acted
  | scan frame => exact scanAct_printed printed acted
  | stats frame =>
      simp only [act] at acted
      revert acted
      fun_cases statsAct w χ frame <;> intro acted <;> cases acted <;> exact printed

end Printed

theorem printed_of_reachable {guard : Guard World Frame Choice} {db : ChannelDb}
    {config : Config World Frame} (reachable : machine.Reachable guard (start db) config) :
    config.shared.tuner.Printed := by
  refine reachable.invariant (fun w _ => w.tuner.Printed) ?_ (fun _ _ _ printed _ => printed) ?_
  · exact ⟨.inl rfl, printedStatus_idle, (by decide : noneText.length ≤ 63)⟩
  · intro w frame others χ outcome printed _ acted
    exact act_printed printed acted

theorem takeWhile_token (text : CStr) {rest : CStr} (ends : EndsToken rest) :
    (text ++ rest).takeWhile (fun character => !endsToken character) =
      text.takeWhile fun character => !endsToken character := by
  induction text with
  | nil =>
      cases rest with
      | nil => rfl
      | cons character rest =>
          have end_ := ends character rfl
          rw [List.nil_append, List.takeWhile_cons_of_neg (by rw [end_]; decide), List.takeWhile_nil]
  | cons character text ih => rw [List.cons_append, List.takeWhile_cons, List.takeWhile_cons, ih]

/-- What is behind the first occurrence of a key, up to the end of the token. -/
theorem tokenStr_of_found {s key behind rest : CStr} (outlen : Nat)
    (found : strstr key s = some (key ++ (behind ++ rest))) (ends : EndsToken rest) :
    tokenStr s key outlen =
      some ((behind.takeWhile fun character => !endsToken character).take (outlen - 1)) := by
  rw [tokenStr, found, Option.map_some, List.drop_left, takeWhile_token behind ends]

theorem endsToken_of_unbroken {word : CStr} (unbroken : Unbroken word) :
    word.takeWhile (fun character => !endsToken character) = word := by
  rw [List.takeWhile_eq_self_iff]
  intro character member
  have solid := unbroken character member
  cases end_ : endsToken character with
  | false => rfl
  | true =>
      simp only [endsToken, List.contains_eq_mem, decide_eq_true_eq, List.mem_cons,
        List.not_mem_nil, or_false] at end_
      rcases end_ with rfl | rfl | rfl | rfl <;> cases solid

/-- A word behind its key. -/
theorem tokenStr_word {s key word rest : CStr} {outlen : Nat}
    (found : strstr key s = some (key ++ (word ++ rest))) (unbroken : Unbroken word)
    (fits : word.length < outlen) (ends : EndsToken rest) : tokenStr s key outlen = some word := by
  rw [tokenStr_of_found outlen found ends, endsToken_of_unbroken unbroken,
    List.take_of_length_le (by omega)]

theorem endsToken_nil : EndsToken [] :=
  fun _ member => nomatch member

theorem endsToken_space (rest : CStr) : EndsToken (' ' :: rest) := by
  intro character member
  rw [List.head?_cons, Option.mem_some] at member
  rw [← member]
  rfl

theorem EndsToken.take {text : CStr} (ends : EndsToken text) (n : Nat) :
    EndsToken (text.take n) := by
  cases n with
  | zero => exact endsToken_nil
  | succ n =>
      cases text with
      | nil => exact endsToken_nil
      | cons character text => exact ends

/-- A status line with a channel and a lock as they are shown. -/
def ShownStatus (text : CStr) : Prop :=
  ∃ ch lock tail, ShownChannel ch ∧ ShownLock lock ∧ EndsToken tail ∧ text = statusText ch lock tail

theorem length_channelText (delivery : DeliverySystem) (freq : UInt32) :
    (channelText delivery freq).length ≤ 15 := by
  have word : delivery.word.length ≤ 4 := by cases delivery <;> decide
  have digits : (decimal freq.toNat).length ≤ 10 :=
    length_decimal (Nat.lt_trans freq.toNat_lt (by decide)) (by decide)
  rw [channelText, List.length_append, List.length_cons]
  omega

/-- What a channel text is made of. -/
theorem mem_channelText {delivery : DeliverySystem} {freq : UInt32} {character : Char}
    (member : character ∈ channelText delivery freq) :
    character ∈ delivery.word ∨ character = ':' ∨ character.isDigit = true := by
  rw [channelText, List.mem_append, List.mem_cons] at member
  exact member.imp_right fun behind => behind.imp_right isDigit_decimal

namespace ShownChannel

variable {ch : CStr}

theorem length_le (shown : ShownChannel ch) : ch.length ≤ 15 := by
  rcases shown with rfl | ⟨delivery, freq, rfl⟩
  · decide
  · exact length_channelText delivery freq

theorem unbroken (shown : ShownChannel ch) : Unbroken ch := by
  rcases shown with rfl | ⟨delivery, freq, rfl⟩
  · exact unbroken_noneText
  · exact unbroken_channelText delivery freq

theorem not_mem_l (shown : ShownChannel ch) : 'l' ∉ ch := by
  rcases shown with rfl | ⟨delivery, freq, rfl⟩
  · decide
  · exact notMem_channelText delivery freq

end ShownChannel

namespace ShownLock

variable {lock : CStr}

theorem length_le (shown : ShownLock lock) : lock.length ≤ 4 := by
  rcases shown with rfl | ⟨delivery, rfl⟩
  · decide
  · cases delivery <;> decide

theorem unbroken (shown : ShownLock lock) : Unbroken lock := by
  rcases shown with rfl | ⟨delivery, rfl⟩
  · exact unbroken_noneText
  · exact delivery.unbroken_word

theorem nonempty (shown : ShownLock lock) : lock ≠ [] := by
  rcases shown with rfl | ⟨delivery, rfl⟩
  · decide
  · cases delivery <;> decide

end ShownLock

/-- The tails of `t->status` begin with a blank. -/
theorem endsToken_statusTails {tail : CStr} (listed : tail ∈ statusTails) :
    EndsToken tail ∧ EndsWord tail := by
  simp only [statusTails, List.mem_cons, List.not_mem_nil, or_false] at listed
  rcases listed with rfl | rfl | rfl | rfl
  · exact ⟨endsToken_nil, endsWord_nil⟩
  all_goals exact ⟨endsToken_space _, endsWord_space _⟩

theorem shownLock_lockWord {status : CStr} (printed : PrintedStatus status) :
    ShownLock (lockWord status) := by
  obtain ⟨ch, lock, tail, channel, shown, listed, rfl⟩ := printed
  have short := shown.length_le
  rw [lockWord_statusText channel.not_mem_l shown.nonempty shown.unbroken (by omega)
    (endsToken_statusTails listed).2]
  exact shown

theorem PrintedStatus.shown {status : CStr} (printed : PrintedStatus status) :
    ShownStatus status := by
  obtain ⟨ch, lock, tail, channel, shown, listed, rfl⟩ := printed
  exact ⟨ch, lock, tail, channel, shown, (endsToken_statusTails listed).1, rfl⟩

/-- Whatever the reply is taken from, it shows a channel and a lock. -/
theorem shownStatus_reply {w : World} (printed : w.tuner.Printed) (bps pps : Nat) :
    ShownStatus (w.statusReply bps pps).text := by
  unfold World.statusReply
  split
  · rename_i reading _
    refine ⟨_, _, _, printed.channel, ?_, endsToken_space _, rfl⟩
    cases reading.stats.hasLock with
    | false => exact .inl rfl
    | true => exact .inr ⟨.atscVsb, rfl⟩
  · split
    · split
      · refine ⟨_, _, _, printed.channel, ?_, endsToken_space _, rfl⟩
        cases w.tuner.heldStatsCache.stats.hasLock with
        | false => exact .inl rfl
        | true => exact .inr ⟨_, rfl⟩
      · exact ⟨_, _, _, printed.channel, .inl rfl, endsToken_space _, rfl⟩
    · split
      · exact ⟨_, _, _, printed.channel, shownLock_lockWord printed.status, endsToken_space _, rfl⟩
      · exact printed.status.shown

/-- A buffer only cuts what is behind the lock. -/
theorem ShownStatus.truncate {text : CStr} (shown : ShownStatus text) :
    ShownStatus (truncate replySize text) := by
  obtain ⟨ch, lock, tail, channel, lockShown, ends, rfl⟩ := shown
  have short := channel.length_le
  have shortLock := lockShown.length_le
  have keys : "ch=".toList.length = 3 ∧ " lock=".toList.length = 6 := by decide
  have front : ("ch=".toList ++ ch ++ " lock=".toList ++ lock).length ≤ replySize - 1 := by
    simp only [List.length_append, keys.1, keys.2, replySize]
    omega
  refine ⟨ch, lock, tail.take (replySize - 1 -
    ("ch=".toList ++ ch ++ " lock=".toList ++ lock).length), channel, lockShown, ends.take _, ?_⟩
  rw [HdhrEmu.truncate, statusText, List.take_append, List.take_of_length_le front]
  rfl

/-- The two tokens of a status line that are shown as they are. -/
theorem ShownStatus.tokens {text : CStr} (shown : ShownStatus text) :
    (∃ ch, tokenStr text "ch=".toList 64 = some ch ∧ ShownChannel ch) ∧
      ∃ lock, tokenStr text "lock=".toList 16 = some lock ∧ ShownLock lock := by
  obtain ⟨ch, lock, tail, channel, lockShown, ends, rfl⟩ := shown
  have short := channel.length_le
  have shortLock := lockShown.length_le
  refine ⟨⟨ch, ?_, channel⟩, ⟨lock, ?_, lockShown⟩⟩
  · have found : strstr "ch=".toList (statusText ch lock tail) =
        some ("ch=".toList ++ (ch ++ (" lock=".toList ++ (lock ++ tail)))) := by
      rw [statusText, List.append_assoc, List.append_assoc, List.append_assoc]
      exact strstr_self (by decide) _
    exact tokenStr_word found channel.unbroken (by omega) (endsToken_space _)
  · exact tokenStr_word (strstr_lock channel.not_mem_l lock tail) lockShown.unbroken (by omega) ends

/-- The key of a raw value. -/
structure ValueKey (key : CStr) : Prop where
  marked : ∃ before behind, key = before ++ '_' :: behind ∧ '=' ∉ before
  named : ∃ name, key = name ++ ['='] ∧ '=' ∉ name
  unbroken : Unbroken key

theorem valueKey_ssDbm : ValueKey ssDbmKey where
  marked := ⟨"ss".toList, "dbm=".toList, by decide, by decide⟩
  named := ⟨"ss_dbm".toList, by decide, by decide⟩
  unbroken := by decide

theorem valueKey_snrDb : ValueKey snrDbKey where
  marked := ⟨"snr".toList, "db=".toList, by decide, by decide⟩
  named := ⟨"snr_db".toList, by decide, by decide⟩
  unbroken := by decide

/-- What `atof` is given, if the key is found, is a finite number to it. -/
def ReadsFinite (s key : CStr) : Prop :=
  ∀ token ∈ tokenStr s key 32, ∃ value, Double.strtod token = .finite value

/-- Every token behind an equals sign is a number without an exponent. -/
def NumbersOnly (text : CStr) : Prop :=
  ∀ front back, text = front ++ '=' :: back →
    ∀ character ∈ back.takeWhile fun character => !endsToken character,
      Double.isNumeric character = true

theorem numbersOnly_nil : NumbersOnly [] := by
  intro front back same
  have lengths := congrArg List.length same
  simp at lengths

theorem NumbersOnly.take {text : CStr} (numbers : NumbersOnly text) (n : Nat) :
    NumbersOnly (text.take n) := by
  intro front back same character member
  have whole : text = front ++ '=' :: (back ++ text.drop n) := by
    conv_lhs => rw [← List.take_append_drop n text, same]
    simp
  apply numbers front _ whole
  rw [List.takeWhile_append]
  split
  · rename_i all
    have same := List.IsPrefix.eq_of_length (List.takeWhile_prefix _) all
    rw [same] at member
    exact List.mem_append_left _ member
  · exact member

/-- A number behind a name. -/
theorem NumbersOnly.word {name digits rest : CStr} (others : NumbersOnly rest)
    (plain : '=' ∉ name) (numeric : ∀ character ∈ digits, Double.isNumeric character = true)
    (ends : EndsToken rest) : NumbersOnly (name ++ '=' :: (digits ++ rest)) := by
  have here : ∀ character ∈ (digits ++ rest).takeWhile fun character => !endsToken character,
      Double.isNumeric character = true := by
    rw [takeWhile_token _ ends]
    exact fun character member => numeric character ((List.takeWhile_prefix _).subset member)
  intro front back same
  rcases List.append_eq_append_iff.mp same with ⟨middle, rfl, tail⟩ | ⟨middle, rfl, tail⟩
  · cases middle with
    | nil =>
        cases tail
        exact here
    | cons first middle =>
        obtain ⟨rfl, inside⟩ := List.cons.inj tail
        rcases List.append_eq_append_iff.mp inside with ⟨more, rfl, behind⟩ | ⟨more, rfl, behind⟩
        · exact others more back behind
        · cases more with
          | nil => exact others [] back behind.symm
          | cons first more =>
              obtain ⟨rfl, -⟩ := List.cons.inj behind
              have sign := numeric '=' (List.mem_append_right _ List.mem_cons_self)
              exact absurd sign (by decide)
  · cases middle with
    | nil =>
        cases tail
        exact here
    | cons first middle =>
        obtain ⟨rfl, -⟩ := List.cons.inj tail
        exact absurd (List.mem_append_right _ List.mem_cons_self) plain

/-- A key in such a text stands in front of a finite number. -/
theorem NumbersOnly.readsFinite {text key : CStr} (numbers : NumbersOnly text)
    (is : ValueKey key) : ReadsFinite text key := by
  intro token member
  obtain ⟨found, occurs, rfl⟩ := Option.map_eq_some_iff.mp member
  obtain ⟨front, rfl⟩ := strstr_suffix occurs
  obtain ⟨behind, rfl⟩ := strstr_begins occurs
  obtain ⟨name, rfl, -⟩ := is.named
  have numeric := numbers (front ++ name) behind (by simp)
  rw [List.drop_left]
  apply Double.finite_strtod
  · exact fun character member => numeric character (List.mem_of_mem_take member)
  · rw [List.length_take]
    omega

theorem finite_decibels (svalue : Int64) : ∃ value, decibels svalue = .finite value := by
  obtain ⟨value, is⟩ := Double.finite_ofInt64 svalue
  rw [decibels, is]
  exact Double.finite_divNat (by decide) value

theorem numbersOnly_rawTexts (w : World) (raw : Reading → RawStats) :
    NumbersOnly (w.rawTexts raw).flatten ∧ EndsToken (w.rawTexts raw).flatten := by
  have appended {key : CStr} (is : ValueKey key) (svalue : Option Int64) {rest : CStr}
      (numbers : NumbersOnly rest) (ends : EndsToken rest) :
      NumbersOnly ((svalue.map (rawText key)).toList.flatten ++ rest) ∧
        EndsToken ((svalue.map (rawText key)).toList.flatten ++ rest) := by
    cases svalue with
    | none => exact ⟨numbers, ends⟩
    | some svalue =>
        obtain ⟨name, rfl, plain⟩ := is.named
        obtain ⟨value, finite⟩ := finite_decibels svalue
        have written : (((some svalue).map (rawText (name ++ ['=']))).toList.flatten ++ rest) =
            (' ' :: name) ++ '=' :: ((Double.finite value).text ++ rest) := by
          simp [rawText, finite]
        rw [written]
        refine ⟨numbers.word ?_ (Double.isNumeric_text value) ends, endsToken_space _⟩
        rw [List.mem_cons, not_or]
        exact ⟨by decide, plain⟩
  unfold World.rawTexts
  split
  · exact ⟨numbersOnly_nil, endsToken_nil⟩
  · rename_i reading _
    obtain ⟨numbers, ends⟩ := appended valueKey_snrDb (raw reading).snrDb numbersOnly_nil
      endsToken_nil
    rw [List.flatten_append]
    rw [List.append_nil] at numbers ends
    exact appended valueKey_ssDbm (raw reading).signalDbm numbers ends

theorem length_decimalSigned (i : Int) : (decimalSigned i).length ≤ 11 :=
  length_decimalInt ⟨(Int32.ofInt i).le_toInt, (Int32.ofInt i).toInt_lt⟩

theorem isNumeric_decimalInt {i : Int} {character : Char} (member : character ∈ decimalInt i) :
    Double.isNumeric character = true := by
  unfold decimalInt at member
  split at member
  · rcases List.mem_cons.mp member with rfl | digit
    · rfl
    · exact Double.isNumeric_of_isDigit (isDigit_decimal digit)
  · exact Double.isNumeric_of_isDigit (isDigit_decimal member)

/-- What is in front of the target: it is short, and no key begins in it. -/
def World.debugFront (w : World) : CStr :=
  w.tuner.status ++ " program=".toList ++ decimalSigned w.tuner.program ++ " target".toList

/-- What is behind the target. -/
def World.debugBehind (w : World) (raw : Reading → RawStats) : CStr :=
  ' ' :: ("busy=".toList ++ ((if w.tuner.busy then ['1'] else ['0']) ++ (w.rawTexts raw).flatten))

theorem PrintedStatus.short {status : CStr} (printed : PrintedStatus status) :
    status.length ≤ 59 ∧ '_' ∉ status := by
  obtain ⟨ch, lock, tail, channel, shown, listed, rfl⟩ := printed
  have short := channel.length_le
  have shortLock := shown.length_le
  have tail_ : tail.length ≤ 31 ∧ '_' ∉ tail := by
    simp only [statusTails, List.mem_cons, List.not_mem_nil, or_false] at listed
    rcases listed with rfl | rfl | rfl | rfl <;> decide
  have channel_ : '_' ∉ ch := by
    rcases channel with rfl | ⟨delivery, freq, rfl⟩
    · decide
    · intro member
      rcases mem_channelText member with word | colon | digit
      · cases delivery <;> exact absurd word (by decide)
      · cases colon
      · cases digit
  have lock_ : '_' ∉ lock := by
    rcases shown with rfl | ⟨delivery, rfl⟩
    · decide
    · cases delivery <;> decide
  have keys : "ch=".toList.length = 3 ∧ " lock=".toList.length = 6 := by decide
  constructor
  · simp only [statusText, List.length_append, keys.1, keys.2]
    omega
  · simp only [statusText, List.mem_append, not_or]
    exact ⟨⟨⟨⟨by decide, channel_⟩, by decide⟩, lock_⟩, tail_.2⟩

theorem debugFront_spec {w : World} (printed : w.tuner.Printed) :
    w.debugFront.length ≤ 90 ∧ '_' ∉ w.debugFront ++ ['='] := by
  obtain ⟨short, plain⟩ := printed.status.short
  have number := length_decimalSigned w.tuner.program
  have keys : " program=".toList.length = 9 ∧ " target".toList.length = 7 := by decide
  constructor
  · simp only [World.debugFront, List.length_append, keys.1, keys.2]
    omega
  · simp only [World.debugFront, List.mem_append, not_or]
    refine ⟨⟨⟨⟨plain, by decide⟩, ?_⟩, by decide⟩, by decide⟩
    exact fun member => absurd (isNumeric_decimalInt member) (by decide)

/-- The buffer only cuts what is behind the target. -/
theorem debugReply_eq {w : World} (printed : w.tuner.Printed) (raw : Reading → RawStats) :
    ∃ room, truncate replySize (w.debugReply raw) =
      w.debugFront ++ ['='] ++ (w.tuner.target ++ (w.debugBehind raw).take room) := by
  have short := (debugFront_spec printed).1
  have target := printed.target
  have parts : (w.debugText :: w.rawTexts raw).flatten =
      (w.debugFront ++ ['='] ++ w.tuner.target) ++ w.debugBehind raw := by
    have targetKey : " target=".toList = " target".toList ++ ['='] := by decide
    have busyKey : " busy=".toList = ' ' :: "busy=".toList := by decide
    simp only [World.debugText, World.debugFront, World.debugBehind, targetKey, busyKey,
      List.flatten_cons, List.append_assoc, List.cons_append]
  have fits : (w.debugFront ++ ['='] ++ w.tuner.target).length ≤ replySize - 1 := by
    simp only [List.length_append, List.length_singleton, replySize]
    omega
  refine ⟨replySize - 1 - (w.debugFront ++ ['='] ++ w.tuner.target).length, ?_⟩
  rw [World.debugReply, snprintfAll_eq, truncate, List.take_take, Nat.min_self, parts,
    List.take_append, List.take_of_length_le fits, List.append_assoc]

theorem debugBehind_spec (w : World) (raw : Reading → RawStats) :
    NumbersOnly (w.debugBehind raw) ∧ EndsToken (w.debugBehind raw) := by
  obtain ⟨numbers, ends⟩ := numbersOnly_rawTexts w raw
  have key : ' ' :: ("busy=".toList) = " busy".toList ++ ['='] := by decide
  refine ⟨?_, endsToken_space _⟩
  rw [World.debugBehind, ← List.cons_append, key, List.append_assoc]
  apply numbers.word (by decide) _ ends
  rw [← List.forall_iff_forall_mem]
  cases w.tuner.busy <;> decide

/-- The numbers that the web interface finds in the reply are finite if and
only if those are that it would find in the target. -/
theorem readsFinite_debugReply {w : World} (printed : w.tuner.Printed)
    (raw : Reading → RawStats) {key : CStr} (is : ValueKey key) :
    ReadsFinite (truncate replySize (w.debugReply raw)) key ↔ ReadsFinite w.tuner.target key := by
  obtain ⟨room, reply⟩ := debugReply_eq printed raw
  obtain ⟨numbers, ends⟩ := debugBehind_spec w raw
  have nonempty : key ≠ [] := by
    obtain ⟨name, rfl, -⟩ := is.named
    simp
  have searched : strstr key (truncate replySize (w.debugReply raw)) =
      strstr key (w.tuner.target ++ (w.debugBehind raw).take room) := by
    obtain ⟨before, behind, rfl, apart⟩ := is.marked
    rw [reply]
    exact strstr_front (debugFront_spec printed).2 apart _
  have same (text : CStr) (found : strstr key (truncate replySize (w.debugReply raw)) =
      strstr key text) : ReadsFinite (truncate replySize (w.debugReply raw)) key ↔
        ReadsFinite text key := by
    rw [ReadsFinite, ReadsFinite, tokenStr, tokenStr, found]
  cases found : strstr key w.tuner.target with
  | none =>
      have apart : ∀ character ∈ ((w.debugBehind raw).take room).head?, character ∉ key := by
        intro character member inKey
        have solid := is.unbroken character inKey
        have end_ := (ends.take room) character member
        revert solid
        simp only [endsToken, List.contains_eq_mem, decide_eq_true_eq, List.mem_cons,
          List.not_mem_nil, or_false] at end_
        rcases end_ with rfl | rfl | rfl | rfl <;> decide
      rw [strstr_separated nonempty found apart] at searched
      rw [same _ searched]
      refine iff_of_true ((numbers.take room).readsFinite is) ?_
      rw [ReadsFinite, tokenStr, found]
      exact fun _ member => nomatch member
  | some behind =>
      rw [strstr_longer nonempty found] at searched
      obtain ⟨after, rfl⟩ := strstr_begins found
      have target := tokenStr_of_found 32 (found.trans (by rw [List.append_nil])) endsToken_nil
      rw [List.append_assoc] at searched
      rw [ReadsFinite, ReadsFinite, target, tokenStr_of_found 32 searched (ends.take room)]

end HdhrEmu
