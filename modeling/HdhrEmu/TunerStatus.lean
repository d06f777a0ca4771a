import HdhrEmu.HeldReadings
import HdhrEmu.Lib.Scanf

/-!
# The reply to a GET of `status`

The channel in the reply is usually the one that was requested last, and the
lock word comes from the stream, from the hold, from the last finished attempt
of the scan worker, or from the status line that this attempt left.  The two
belong together exactly when what the lock is about is what is selected.
-/

namespace HdhrEmu

open CString Interleaving

/-- A percentage as the reply shows it; a reading that is not there counts as zero. -/
def shownPct (pct : Int) : CStr :=
  decimalInt (if pct < 0 then 0 else pct)

/-- `" ss=%d snq=%d seq=%d"`. -/
def DvbSignalStats.text (stats : DvbSignalStats) : CStr :=
  " ss=".toList ++ shownPct stats.signalStrengthPct ++ " snq=".toList ++
    shownPct stats.snrQualityPct ++ " seq=".toList ++ shownPct stats.symbolQualityPct

/-- `" bps=%.0f pps=%.0f"` of rates that are rounded already. -/
def rateText (bps pps : Nat) : CStr :=
  " bps=".toList ++ decimal bps ++ " pps=".toList ++ decimal pps

/-- The lock word that is cut out of `t->status`. -/
def lockWord (status : CStr) : CStr :=
  ((strstr "lock=".toList status).bind fun field => scanWord 31 (field.drop 5)).getD noneText

/-- `dvb_stream_get_cached_stats`. -/
def World.cachedStats (w : World) (stream : DvbStream) : Option Reading :=
  ((w.streams[stream.id]?).filter StreamCell.statsCacheValid).map StreamCell.statsCache

/-- A reply, none of which is cut off by its buffer.  Bookkeeping: `lockTunedTo`
is the tuning of the frontend when the lock was read or the attempt was made. -/
structure StatusReply where
  text : CStr
  lockTunedTo : Option Tuning
  deriving DecidableEq

/-- The `status` branch of `handle_tuner_get`. -/
def World.statusReply (w : World) (bps pps : Nat) : StatusReply :=
  match w.tuner.activeStream.bind w.cachedStats with
  | some reading =>
      ⟨statusText w.tuner.channel (if reading.stats.hasLock then "8vsb".toList else noneText)
        (reading.stats.text ++ rateText bps pps), reading.tunedTo⟩
  | none =>
      if w.tuner.heldFd.isSome then
        if w.tuner.heldStatsCacheValid then
          ⟨statusText w.tuner.channel
            (if w.tuner.heldStatsCache.stats.hasLock then w.tuner.tunedDelivery.word else noneText)
            w.tuner.heldStatsCache.stats.text, w.tuner.heldStatsCache.tunedTo⟩
        else ⟨statusText w.tuner.channel noneText " ss=45 snq=0 seq=0".toList, none⟩
      else if w.tuner.scanStatsValid ∧ w.tuner.scanStatsFreq = w.tuner.tunedFrequencyHz then
        ⟨statusText w.tuner.channel (lockWord w.tuner.status) w.tuner.scanStats.stats.text,
          w.tuner.statusTunedTo⟩
      else ⟨w.tuner.status, w.tuner.statusTunedTo⟩

namespace StatusReply

/-- The reply says `ch=M:F lock=L`. -/
def Shows (reply : StatusReply) (modulation : CStr) (freq : UInt32) (lock : CStr) : Prop :=
  Unbroken modulation ∧ Unbroken lock ∧ ∃ tail, EndsWord tail ∧
    reply.text = statusText (modulation ++ ':' :: decimal freq.toNat) lock tail

/-- A lock that is shown is from a frontend that was tuned to the frequency
next to it, and its word is the delivery system it was tuned with. -/
def Truthful (reply : StatusReply) : Prop :=
  ∀ modulation freq lock, reply.Shows modulation freq lock → lock ≠ noneText →
    ∃ delivery, reply.lockTunedTo = some ⟨freq, delivery⟩ ∧ lock = delivery.word

end StatusReply

def World.StatusTruthful (w : World) : Prop :=
  ∀ bps pps, (w.statusReply bps pps).Truthful

theorem unbroken_noneText : Unbroken noneText := by
  decide

theorem DeliverySystem.unbroken_word (delivery : DeliverySystem) : Unbroken delivery.word := by
  cases delivery <;> decide

theorem DeliverySystem.word_ne_none (delivery : DeliverySystem) : delivery.word ≠ noneText := by
  cases delivery <;> decide

/-- A modulation and a frequency, as a channel text shows them. -/
theorem unbroken_channel {modulation : CStr} (unbroken : Unbroken modulation) (n : Nat) :
    Unbroken (modulation ++ ':' :: decimal n) := by
  apply unbroken_append.mpr
  refine ⟨unbroken, ?_⟩
  intro character member
  rcases List.mem_cons.mp member with rfl | digit
  · decide
  · exact unbroken_decimal n character digit

theorem unbroken_channelText (delivery : DeliverySystem) (freq : UInt32) :
    Unbroken (channelText delivery freq) :=
  unbroken_channel delivery.unbroken_word _

theorem colon_notMem_decimal (n : Nat) : ':' ∉ decimal n := by
  intro member
  have digit := isDigit_decimal member
  revert digit
  decide

/-- The last colon of a channel text separates the two parts. -/
theorem channelText_parts {modulation : CStr} {freq : UInt32} {delivery : DeliverySystem}
    {tuned : UInt32} (same : modulation ++ ':' :: decimal freq.toNat = channelText delivery tuned) :
    modulation = delivery.word ∧ freq = tuned := by
  have parts := congrArg (splitAtLast? ':') same
  rw [channelText, splitAtLast?_append _ (colon_notMem_decimal _),
    splitAtLast?_append _ (colon_notMem_decimal _), Option.some_inj, Prod.mk.injEq] at parts
  exact ⟨parts.1, UInt32.toNat_inj.mp (decimal_injective parts.2)⟩

theorem not_channel_noneText (modulation : CStr) (n : Nat) :
    modulation ++ ':' :: decimal n ≠ noneText := by
  intro same
  have parts := congrArg (splitAtLast? ':') same
  rw [splitAtLast?_append _ (colon_notMem_decimal _)] at parts
  cases parts

theorem statusText_inj {ch lock tail ch' lock' tail' : CStr} (chWord : Unbroken ch)
    (chWord' : Unbroken ch') (lockIsWord : Unbroken lock) (lockIsWord' : Unbroken lock')
    (ends : EndsWord tail) (ends' : EndsWord tail')
    (same : statusText ch lock tail = statusText ch' lock' tail') : ch = ch' ∧ lock = lock' := by
  have separated (rest : CStr) : EndsWord (" lock=".toList ++ rest) := endsWord_space _
  simp only [statusText, List.append_assoc] at same
  obtain ⟨sameCh, rest⟩ := word_append_inj chWord chWord' (separated _) (separated _)
    (List.append_cancel_left same)
  obtain ⟨sameLock, -⟩ := word_append_inj lockIsWord lockIsWord' ends ends'
    (List.append_cancel_left rest)
  exact ⟨sameCh, sameLock⟩

/-- The first `lock=` of a status line is its own, as no channel text has an `l`. -/
theorem strstr_lock {ch : CStr} (noL : 'l' ∉ ch) (lock tail : CStr) :
    strstr "lock=".toList (statusText ch lock tail) = some ("lock=".toList ++ (lock ++ tail)) := by
  have front : 'l' ∉ "ch=".toList ++ ch ++ [' '] := by
    simp only [List.mem_append, not_or]
    exact ⟨⟨by decide, noL⟩, by decide⟩
  have parts : statusText ch lock tail =
      ("ch=".toList ++ ch ++ [' ']) ++ ("lock=".toList ++ (lock ++ tail)) := by
    simp [statusText]
  rw [parts]
  exact (strstr_append front _).trans (strstr_self (by decide) _)

theorem lockWord_statusText {ch lock tail : CStr} (noL : 'l' ∉ ch) (nonempty : lock ≠ [])
    (isWord : Unbroken lock) (fits : lock.length ≤ 31) (ends : EndsWord tail) :
    lockWord (statusText ch lock tail) = lock := by
  have field : ("lock=".toList ++ (lock ++ tail)).drop 5 = lock ++ tail := rfl
  rw [lockWord, strstr_lock noL, Option.bind_some, field,
    scanWord_append nonempty isWord fits ends]
  rfl

theorem endsWord_text (stats : DvbSignalStats) : EndsWord stats.text :=
  endsWord_space _

theorem endsWord_rates (stats : DvbSignalStats) (bps pps : Nat) :
    EndsWord (stats.text ++ rateText bps pps) :=
  endsWord_space _

/-- A reply with the selected channel in it is right about the lock if it shows
none, if nothing is selected, or if the lock is about what is selected. -/
theorem truthful_statusText_iff {ch lock tail : CStr} {freq : UInt32} {tunedTo : Option Tuning}
    (isChannel : ch = noneText ∨ ∃ delivery, ch = channelText delivery freq)
    (isWord : Unbroken lock) (ends : EndsWord tail) :
    (⟨statusText ch lock tail, tunedTo⟩ : StatusReply).Truthful ↔
      (ch ≠ noneText → lock ≠ noneText →
        ∃ delivery, tunedTo = some ⟨freq, delivery⟩ ∧ lock = delivery.word) := by
  constructor
  · intro truthful selected locked
    obtain ⟨delivery, rfl⟩ := isChannel.resolve_left selected
    exact truthful delivery.word freq lock ⟨delivery.unbroken_word, isWord, tail, ends, rfl⟩ locked
  · rintro about modulation freq' lock' ⟨modulationIsWord, isWord', tail', ends', same⟩ locked
    have unbroken : Unbroken ch := by
      rcases isChannel with rfl | ⟨delivery, rfl⟩
      · exact unbroken_noneText
      · exact unbroken_channelText delivery freq
    obtain ⟨rfl, rfl⟩ := statusText_inj unbroken (unbroken_channel modulationIsWord _) isWord
      isWord' ends ends' same
    obtain ⟨delivery, shown⟩ := isChannel.resolve_left (not_channel_noneText modulation _)
    obtain ⟨-, rfl⟩ := channelText_parts shown
    exact about (not_channel_noneText modulation _) locked

/-- A status line as the program writes it: one without a lock, or the result
of an attempt that locked. -/
inductive StatusWritten : CStr → Option Tuning → Prop
  | unlocked {ch tail : CStr} {tunedTo : Option Tuning}
      (isChannel : ch = noneText ∨ ∃ delivery freq, ch = channelText delivery freq)
      (ends : EndsWord tail) : StatusWritten (statusText ch noneText tail) tunedTo
  | locked (tuning : Tuning) :
      StatusWritten (statusText (channelText tuning.delivery tuning.freq) tuning.delivery.word [])
        (some tuning)

/-- The channel is about the selected frequency, and the status line is well formed. -/
structure Displays (channel : CStr) (freq : UInt32) (status : CStr) (tunedTo : Option Tuning) :
    Prop where
  selected : channel = noneText ∨ ∃ delivery, channel = channelText delivery freq
  line : StatusWritten status tunedTo

def Tuner.Displays (t : Tuner) : Prop :=
  HdhrEmu.Displays t.channel t.tunedFrequencyHz t.status t.statusTunedTo

section Displays

variable {t : Tuner}

theorem Tuner.Displays.same {next : Tuner} (shown : t.Displays)
    (selection : next.toSelection = t.toSelection) (line : next.toStatusLine = t.toStatusLine) :
    next.Displays := by
  unfold Tuner.Displays
  rw [selection, line]
  exact shown

theorem statusWritten_idle : StatusWritten idleStatus none :=
  .unlocked (.inl rfl) (endsWord_space _)

theorem Tuner.Displays.reset : t.channelNoneReset.Displays :=
  ⟨.inl rfl, statusWritten_idle⟩

theorem Tuner.Displays.selectRaw (t : Tuner) (delivery : DeliverySystem) (freq : UInt32)
    {tail : CStr} (ends : EndsWord tail) : (t.selectRaw delivery freq tail).Displays :=
  ⟨.inr ⟨delivery, rfl⟩, .unlocked (.inr ⟨delivery, freq, rfl⟩) ends⟩

theorem Tuner.Displays.bind (shown : t.Displays) (ch : DvbChannel) (programOverride : Int) :
    (t.tunerBindChannel ch programOverride).Displays :=
  ⟨.inr ⟨ch.delivery, rfl⟩, shown.line⟩

theorem Tuner.Displays.vchannelStatus (shown : t.Displays) : t.vchannelStatus.Displays := by
  constructor
  · exact shown.selected
  · apply StatusWritten.unlocked _ endsWord_nil
    exact shown.selected.imp_right fun ⟨delivery, text⟩ => ⟨delivery, _, text⟩

theorem Tuner.Displays.pullReset (shown : t.Displays) (ch : DvbChannel) :
    (t.pullReset ch).Displays := by
  unfold Tuner.pullReset
  split
  · exact ⟨.inl rfl, statusWritten_idle⟩
  · exact shown

/-- The result of an attempt is written with the tuning that the attempt made. -/
theorem Tuner.Displays.finalize (shown : t.Displays) (job : ScanJob) {lock : LockResult}
    (tuned : lock.locked = true → lock.tunedTo = some (job.ctx.attempt job.freq)) :
    (job.finalize lock t).Displays := by
  unfold ScanJob.finalize Tuner.finalizeLockResult
  split
  · constructor
    · exact shown.selected
    · cases locked : lock.locked with
      | false => exact .unlocked (.inr ⟨_, _, rfl⟩) endsWord_nil
      | true =>
          rw [tuned locked]
          exact .locked (job.ctx.attempt job.freq)
  · exact shown

variable {w : World} {χ : Choice} {outcome : Outcome}

theorem pushAct_displays {frame : PushFrame} (shown : w.tuner.Displays)
    (acted : pushAct w χ frame = some outcome) : outcome.shared.tuner.Displays := by
  revert acted
  fun_cases pushAct w χ frame <;> intro acted <;> cases acted
  all_goals first
    | exact shown
    | exact shown.bind _ _
    | exact shown.same (by simp) (by simp)

theorem pullAct_displays {frame : PullFrame} (shown : w.tuner.Displays)
    (acted : pullAct w χ frame = some outcome) : outcome.shared.tuner.Displays := by
  revert acted
  fun_cases pullAct w χ frame <;> intro acted <;> cases acted
  all_goals first
    | exact shown
    | exact shown.bind _ _
    | exact shown.pullReset _

theorem setAct_displays {frame : SetFrame} (shown : w.tuner.Displays)
    (acted : setAct w χ frame = some outcome) : outcome.shared.tuner.Displays := by
  revert acted
  fun_cases setAct w χ frame <;> intro acted <;> cases acted
  all_goals first
    | exact shown
    | exact .reset
    | exact .selectRaw _ _ _ (endsWord_space _)
    | exact shown.bind _ _
    | exact shown.vchannelStatus
    | exact shown.same (by simp) (by simp)

theorem scanAct_displays {frame : ScanFrame} (shown : w.tuner.Displays)
    (tuned : (Frame.scan frame).tuned w.node.tuning)
    (acted : scanAct w χ frame = some outcome) : outcome.shared.tuner.Displays := by
  revert acted
  fun_cases scanAct w χ frame <;> intro acted <;> cases acted
  all_goals first
    | exact shown
    | exact shown.finalize _ tuned

theorem releaseAct_displays {frame : ReleaseFrame} (shown : w.tuner.Displays)
    (acted : releaseAct w χ frame = some outcome) : outcome.shared.tuner.Displays := by
  revert acted
  fun_cases releaseAct w χ frame <;> intro acted <;> cases acted
  all_goals first
    | exact shown
    | exact shown.same (by simp) (by simp)

theorem act_displays {frame : Frame} (shown : w.tuner.Displays)
    (tuned : frame.tuned w.node.tuning) (acted : act w frame χ = some outcome) :
    outcome.shared.tuner.Displays := by
  cases frame with
  | hold frame =>
      simp only [act] at acted
      revert acted
      fun_cases holdAct w χ frame <;> intro acted <;> cases acted <;> exact shown
  | release frame => exact releaseAct_displays shown acted
  | claim frame =>
      simp only [act] at acted
      revert acted
      fun_cases claimAct w χ frame <;> intro acted <;> cases acted <;> exact shown
  | stream frame =>
      simp only [act] at acted
      revert acted
      fun_cases streamAct w χ frame <;> intro acted <;> cases acted <;> exact shown
  | push frame => exact pushAct_displays shown acted
  | pull frame => exact pullAct_displays shown acted
  | set frame => exact setAct_displays shown acted
  | scan frame => exact scanAct_displays shown tuned acted
  | stats frame =>
      simp only [act] at acted
      revert acted
      fun_cases statsAct w χ frame <;> intro acted <;> cases acted <;> exact shown

end Displays

/-- The lock that the reply is going to show, if any, is about what is
selected: the frontend is tuned to it, as the reply names it, or the status
line that the lock word is cut out of is about the selected frequency. -/
def World.StatusCurrent (w : World) : Prop :=
  w.tuner.channel ≠ noneText →
    match w.tuner.activeStream.bind w.cachedStats with
    | some reading =>
        reading.stats.hasLock = true → w.node.tuning = some ⟨w.tuner.tunedFrequencyHz, .atscVsb⟩
    | none =>
        if w.tuner.heldFd.isSome then
          w.tuner.heldStatsCacheValid = true → w.tuner.heldStatsCache.stats.hasLock = true →
            w.node.tuning = some w.tuner.tuning
        else if w.tuner.scanStatsValid ∧ w.tuner.scanStatsFreq = w.tuner.tunedFrequencyHz then
          lockWord w.tuner.status ≠ noneText → ∃ delivery tail, EndsWord tail ∧
            w.tuner.status = statusText (channelText delivery w.tuner.tunedFrequencyHz)
              (lockWord w.tuner.status) tail
        else True

theorem notMem_channelText (delivery : DeliverySystem) (freq : UInt32) :
    'l' ∉ channelText delivery freq := by
  intro member
  rw [channelText, List.mem_append, List.mem_cons] at member
  rcases member with word | colon | digit
  · revert word
    cases delivery <;> decide
  · revert colon
    decide
  · have digit := isDigit_decimal digit
    revert digit
    decide

/-- The word that is cut out of a status line is the one that was written. -/
theorem lockWord_unlocked {ch tail : CStr}
    (isChannel : ch = noneText ∨ ∃ delivery freq, ch = channelText delivery freq)
    (ends : EndsWord tail) : lockWord (statusText ch noneText tail) = noneText := by
  apply lockWord_statusText _ (by decide) unbroken_noneText (by decide) ends
  rcases isChannel with rfl | ⟨delivery, freq, rfl⟩
  · decide
  · exact notMem_channelText delivery freq

theorem lockWord_locked (delivery : DeliverySystem) (freq : UInt32) {tail : CStr}
    (ends : EndsWord tail) :
    lockWord (statusText (channelText delivery freq) delivery.word tail) = delivery.word := by
  apply lockWord_statusText (notMem_channelText delivery freq) _ delivery.unbroken_word _ ends
  · cases delivery <;> decide
  · cases delivery <;> decide

/-- What the status line itself says about a lock is right. -/
theorem truthful_of_written {status : CStr} {tunedTo : Option Tuning}
    (line : StatusWritten status tunedTo) : (⟨status, tunedTo⟩ : StatusReply).Truthful := by
  cases line with
  | unlocked isChannel ends =>
      rcases isChannel with rfl | ⟨delivery, freq, rfl⟩
      · have nothing : noneText = noneText ∨ ∃ delivery, noneText = channelText delivery 0 := .inl rfl
        apply (truthful_statusText_iff nothing unbroken_noneText ends).mpr
        exact fun _ locked => absurd rfl locked
      · apply (truthful_statusText_iff (.inr ⟨delivery, rfl⟩) unbroken_noneText ends).mpr
        exact fun _ locked => absurd rfl locked
  | locked tuning =>
      apply (truthful_statusText_iff (.inr ⟨tuning.delivery, rfl⟩) tuning.delivery.unbroken_word
        endsWord_nil).mpr
      exact fun _ _ => ⟨tuning.delivery, rfl, rfl⟩

/-- The word of the status line next to another channel is right if the line
is about the frequency of that channel. -/
theorem truthful_lockWord_iff {t : Tuner} (shown : t.Displays) {tail : CStr}
    (ends : EndsWord tail) :
    (⟨statusText t.channel (lockWord t.status) tail, t.statusTunedTo⟩ : StatusReply).Truthful ↔
      (t.channel ≠ noneText → lockWord t.status ≠ noneText → ∃ delivery tail, EndsWord tail ∧
        t.status = statusText (channelText delivery t.tunedFrequencyHz) (lockWord t.status)
          tail) := by
  obtain ⟨selected, line⟩ := shown
  revert line
  generalize t.status = status, t.statusTunedTo = tunedTo
  intro line
  cases line with
  | unlocked isChannel endsLine =>
      rw [lockWord_unlocked isChannel endsLine,
        truthful_statusText_iff selected unbroken_noneText ends]
      exact ⟨fun _ _ locked => absurd rfl locked, fun _ _ locked => absurd rfl locked⟩
  | locked tuning =>
      have word := tuning.delivery.unbroken_word
      rw [lockWord_locked tuning.delivery tuning.freq endsWord_nil,
        truthful_statusText_iff selected word ends]
      refine forall_congr' fun _ => forall_congr' fun _ => ?_
      constructor
      · rintro ⟨delivery, tuned, -⟩
        cases tuned
        exact ⟨delivery, [], endsWord_nil, rfl⟩
      · rintro ⟨delivery, other, endsOther, same⟩
        obtain ⟨text, -⟩ := statusText_inj (unbroken_channelText _ _) (unbroken_channelText _ _)
          word word endsWord_nil endsOther same
        obtain ⟨rfl, freq⟩ := channelText_injective text
        exact ⟨tuning.delivery, by rw [← freq], rfl⟩

/-- A lock that was read while the frontend was tuned as it is now. -/
theorem truthful_reading_iff {t : Tuner} (shown : t.Displays) {reading : Reading}
    {node : Option Tuning} (delivery : DeliverySystem) {tail : CStr} (ends : EndsWord tail)
    (current : reading.stats.hasLock = true → reading.tunedTo = node) :
    (⟨statusText t.channel (if reading.stats.hasLock then delivery.word else noneText) tail,
      reading.tunedTo⟩ : StatusReply).Truthful ↔
      (t.channel ≠ noneText → reading.stats.hasLock = true →
        node = some ⟨t.tunedFrequencyHz, delivery⟩) := by
  cases locked : reading.stats.hasLock with
  | false =>
      rw [if_neg Bool.false_ne_true, truthful_statusText_iff shown.selected unbroken_noneText ends]
      exact ⟨fun _ _ lock => (nomatch lock), fun _ _ lock => absurd rfl lock⟩
  | true =>
      rw [if_pos rfl, truthful_statusText_iff shown.selected delivery.unbroken_word ends,
        current locked]
      refine forall_congr' fun _ => ?_
      constructor
      · intro about _
        obtain ⟨other, tuned, word⟩ := about delivery.word_ne_none
        rw [tuned, DeliverySystem.word_injective word]
      · intro tuned _
        exact ⟨delivery, tuned rfl, rfl⟩

section Reachable

variable {guard : Guard World Frame Choice} {db : ChannelDb} {config : Config World Frame}

theorem displays_of_reachable (reachable : machine.Reachable guard (start db) config) :
    config.shared.tuner.Displays := by
  refine reachable.invariant_of_known StreamContext (fun w _ => w.tuner.Displays)
    (fun _ => streamContext_of_reachable) ?_ (fun _ _ _ shown _ => shown) ?_
  · exact ⟨.inl rfl, statusWritten_idle⟩
  · intro w frame others χ outcome context shown _ acted
    exact act_displays shown (context.tuned frame (Multiset.mem_cons_self _ _)) acted

/-- What a stream has cached with a lock was read from the frontend as it is tuned now. -/
theorem cachedStats_of_reachable (reachable : machine.Reachable guard (start db) config)
    {reading : Reading}
    (cached : config.shared.tuner.activeStream.bind config.shared.cachedStats = some reading)
    (locked : reading.stats.hasLock = true) : reading.tunedTo = config.shared.node.tuning := by
  obtain ⟨ds, active, found⟩ := Option.bind_eq_some_iff.mp cached
  obtain ⟨cell, at_, rfl⟩ := Option.map_eq_some_iff.mp found
  obtain ⟨inHeap, valid⟩ := Option.filter_eq_some_iff.mp at_
  rw [cached_of_active reachable active inHeap valid locked,
    (tuned_of_reachable reachable).1 ds active]

theorem statusReply_truthful_iff (reachable : machine.Reachable guard (start db) config)
    (bps pps : Nat) :
    (config.shared.statusReply bps pps).Truthful ↔ config.shared.StatusCurrent := by
  have shown := displays_of_reachable reachable
  have held := heldReadings_of_reachable reachable
  unfold World.StatusCurrent World.statusReply
  cases cached : config.shared.tuner.activeStream.bind config.shared.cachedStats with
  | some reading =>
      exact truthful_reading_iff shown .atscVsb (endsWord_rates _ _ _)
        (cachedStats_of_reachable reachable cached)
  | none =>
      dsimp only
      by_cases holds : config.shared.tuner.heldFd.isSome = true
      · rw [if_pos holds, if_pos holds]
        by_cases valid : config.shared.tuner.heldStatsCacheValid = true
        · rw [if_pos valid]
          have current := truthful_reading_iff shown config.shared.tuner.tunedDelivery
            (endsWord_text config.shared.tuner.heldStatsCache.stats) (held.cached holds valid)
          refine current.trans (forall_congr' fun _ => ?_)
          exact ⟨fun about _ => about, fun about => about valid⟩
        · have placeholder : EndsWord " ss=45 snq=0 seq=0".toList := endsWord_space _
          rw [if_neg valid, truthful_statusText_iff shown.selected unbroken_noneText placeholder]
          exact ⟨fun _ _ is => absurd is valid, fun _ _ locked => absurd rfl locked⟩
      · rw [if_neg holds, if_neg holds]
        split
        · exact truthful_lockWord_iff shown (endsWord_text _)
        · exact iff_of_true (truthful_of_written shown.line) fun _ => trivial

/-- In every state that can be reached, the reply is right about the lock
exactly when the lock is about what is selected. -/
theorem status_truthful_iff (reachable : machine.Reachable guard (start db) config) :
    config.shared.StatusTruthful ↔ config.shared.StatusCurrent := by
  constructor
  · exact fun truthful => (statusReply_truthful_iff reachable 0 0).mp (truthful 0 0)
  · exact fun current bps pps => (statusReply_truthful_iff reachable bps pps).mpr current

end Reachable

/-- A scan of one channel with another one queued behind it: the first one
locks, and the worker goes on to the second. -/
def lockBeforeQueued : Schedule :=
  .arrive (.set (.channelSet "us-bcast:7".toList)) :: steps 0 4 ++
    .arrive (.set (.channelSet "us-bcast:8".toList)) :: steps 2 3 ++ steps 1 13 ++
    .act 1 { more := true } :: steps 1 2

def lockedReply : StatusReply :=
  ⟨"ch=8vsb:177000000 lock=8vsb ss=0 snq=0 seq=0".toList, some ⟨177000000, .atscVsb⟩⟩

theorem status_truthful_iff_locked :
    ∃ config, machine.Reachable Guard.all (start oneStation) config ∧
      config.shared.statusReply 0 0 = lockedReply ∧
      (config.shared.StatusTruthful ↔ config.shared.StatusCurrent) := by
  obtain ⟨config, reachable, locked⟩ := machine.reachable_of_run Guard.all (start oneStation)
    (.arrive (.set (.channelSet "us-bcast:7".toList)) :: steps 0 4 ++ steps 1 8)
    (fun config => config.shared.statusReply 0 0 = lockedReply)
    (by decide +kernel)
  exact ⟨config, reachable, locked, status_truthful_iff reachable⟩

/-- The lock of the first channel is shown next to the second one. -/
theorem queued_channel_shown_as_locked :
    ∃ config, machine.Reachable Guard.all (start oneStation) config ∧
      ¬ config.shared.StatusTruthful := by
  obtain ⟨config, reachable, reply⟩ := machine.reachable_of_run Guard.all (start oneStation)
    lockBeforeQueued
    (fun config => config.shared.statusReply 0 0 =
      ⟨statusText (channelText .atscVsb 183000000) "8vsb".toList " ss=0 snq=0 seq=0".toList,
        some ⟨177000000, .atscVsb⟩⟩)
    (by decide +kernel)
  refine ⟨config, reachable, fun truthful => ?_⟩
  have word := DeliverySystem.atscVsb.unbroken_word
  obtain ⟨delivery, tuned, -⟩ := truthful 0 0 "8vsb".toList 183000000 "8vsb".toList
    ⟨word, word, _, endsWord_space _, congrArg StatusReply.text reply⟩ (by decide)
  rw [reply] at tuned
  cases tuned

end HdhrEmu
