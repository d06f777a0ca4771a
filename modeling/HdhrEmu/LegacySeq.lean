import HdhrEmu.Lib.Transducer
import Mathlib.Data.Rat.Floor
import Mathlib.Tactic.Linarith
import Mathlib.Tactic.NormNum

/-!
# Symbol quality from a counter of lost blocks

Some drivers only count the blocks that could not be corrected.  The quality is
then estimated over a window, from the blocks lost between two polls and the
number of blocks that are sent in that time.  The calculation exists twice, for
a frontend that is only tuned and for one that streams.
-/

namespace HdhrEmu

/-- `struct timespec`. -/
structure Timespec where
  tvSec : Int
  tvNsec : Int
  deriving DecidableEq, Repr

/-- What a call finds: the lock that its caller saw, the counter unless the
driver refuses to read it, and the clock. -/
structure SeqPoll where
  hasLock : Bool
  ucblocks : Option UInt32
  now : Timespec
  deriving DecidableEq, Repr

/-- `ATSC_SEGMENTS_PER_SEC`. -/
def atscSegmentsPerSec : ℚ := 12935.38

/-- `elapsed`, from one time to another. -/
def elapsedSeconds (last now : Timespec) : ℚ :=
  (now.tvSec - last.tvSec : Int) + (now.tvNsec - last.tvNsec : Int) / 10 ^ 9

/-- The cast of a `double` to `int`, which drops the fraction. -/
def castInt (x : ℚ) : Int :=
  if 0 ≤ x then ⌊x⌋ else ⌈x⌉

/-- `struct dvb_legacy_seq_state`. -/
structure DvbLegacySeqState where
  haveBaseline : Bool := false
  lastUcblocks : UInt32 := 0
  lastTime : Timespec := ⟨0, 0⟩
  lastPct : Int := 0
  deriving DecidableEq, Repr

def clampPct (pct : Int) : Int :=
  let pct := if pct < 0 then 0 else pct
  if pct > 100 then 100 else pct

/-- `dvb_frontend_legacy_seq_pct`. -/
def dvbFrontendLegacySeqPct (state : DvbLegacySeqState) (poll : SeqPoll) :
    DvbLegacySeqState × Int :=
  if poll.hasLock = false then ({ state with haveBaseline := false }, -1)
  else
    match poll.ucblocks with
    | none => (state, -1)
    | some ucblocks =>
        if state.haveBaseline = false then
          (⟨true, ucblocks, poll.now, -1⟩, -1)
        else
          let elapsed := elapsedSeconds state.lastTime poll.now
          if elapsed < 0.5 then (state, state.lastPct)
          else
            let deltaBlocks : UInt32 :=
              if state.lastUcblocks ≤ ucblocks then ucblocks - state.lastUcblocks else 0
            let expectedBlocks := atscSegmentsPerSec * elapsed
            let errorRatio : ℚ :=
              if 0 < expectedBlocks then (deltaBlocks.toNat : ℚ) / expectedBlocks else 0
            let pct := clampPct (castInt ((1 - errorRatio) * 100 + 0.5))
            (⟨true, ucblocks, poll.now, pct⟩, pct)

/-- The fields of `struct dvb_stream` for the same purpose. -/
structure StreamLegacySeq where
  legacySeqHaveBaseline : Bool := false
  legacySeqLastUcblocks : UInt32 := 0
  legacySeqLastTime : Timespec := ⟨0, 0⟩
  legacySeqLastPct : Int := 0
  deriving DecidableEq, Repr

/-- `dvb_stream_get_legacy_seq_pct`, for a stream that exists. -/
def dvbStreamGetLegacySeqPct (s : StreamLegacySeq) (poll : SeqPoll) : StreamLegacySeq × Int :=
  if poll.hasLock = false then ({ s with legacySeqHaveBaseline := false }, -1)
  else
    match poll.ucblocks with
    | none => (s, -1)
    | some ucblocks =>
        if s.legacySeqHaveBaseline = false then
          ({ s with
            legacySeqHaveBaseline := true
            legacySeqLastUcblocks := ucblocks
            legacySeqLastTime := poll.now
            legacySeqLastPct := -1 }, -1)
        else
          let elapsed := elapsedSeconds s.legacySeqLastTime poll.now
          if elapsed < 0.5 then (s, s.legacySeqLastPct)
          else
            let deltaBlocks : UInt32 :=
              if s.legacySeqLastUcblocks ≤ ucblocks then ucblocks - s.legacySeqLastUcblocks else 0
            let expectedBlocks := atscSegmentsPerSec * elapsed
            let errorRatio : ℚ :=
              if 0 < expectedBlocks then (deltaBlocks.toNat : ℚ) / expectedBlocks else 0
            let pct := castInt ((1 - errorRatio) * 100 + 0.5)
            let pct := if pct < 0 then 0 else pct
            let pct := if pct > 100 then 100 else pct
            ({ s with
              legacySeqLastUcblocks := ucblocks
              legacySeqLastTime := poll.now
              legacySeqLastPct := pct }, pct)

/-- The values that successive calls return, from a zeroed state on. -/
def frontendSeqPcts (polls : List SeqPoll) : List Int :=
  Transducer.answers dvbFrontendLegacySeqPct {} polls

def streamSeqPcts (polls : List SeqPoll) : List Int :=
  Transducer.answers dvbStreamGetLegacySeqPct {} polls

/-- The blocks that came through out of those that were sent in a time, in
percent, rounded and kept in range; a counter that went back lost nothing. -/
def qualityPct (first last : UInt32) (elapsed : ℚ) : Int :=
  max 0 (min 100 ⌊(1 - ((last.toNat - first.toNat : Nat) : ℚ) / (atscSegmentsPerSec * elapsed)) * 100 +
    1 / 2⌋)

/-- There was a lock at a poll and ever since. -/
def LockedSince (polls : List SeqPoll) (i : Nat) : Prop :=
  ∀ k poll, i ≤ k → polls[k]? = some poll → poll.hasLock = true

/-- Among the polls so far are two, half a second apart at least, that the value
was computed from; and there was a lock from the first one on. -/
def Measured (polls : List SeqPoll) (pct : Int) : Prop :=
  ∃ (i j : Nat) (first last : UInt32) (before after : Timespec), i < j ∧
    polls[i]? = some ⟨true, some first, before⟩ ∧ polls[j]? = some ⟨true, some last, after⟩ ∧
    1 / 2 ≤ elapsedSeconds before after ∧
    pct = qualityPct first last (elapsedSeconds before after) ∧ LockedSince polls i

/-- The baseline is a poll since which there was a lock, and the value that is
kept was measured up to now. -/
def Baseline (polls : List SeqPoll) (state : DvbLegacySeqState) : Prop :=
  state.haveBaseline = true →
    (∃ i : Nat, polls[i]? = some ⟨true, some state.lastUcblocks, state.lastTime⟩ ∧
      LockedSince polls i) ∧
    (state.lastPct = -1 ∨ Measured polls state.lastPct)

theorem LockedSince.concat {polls : List SeqPoll} {i : Nat} (locked : LockedSince polls i)
    {poll : SeqPoll} (lock : poll.hasLock = true) : LockedSince (polls ++ [poll]) i := by
  intro k found late at_
  rw [List.getElem?_append] at at_
  split at at_
  · exact locked k found late at_
  · rw [← List.mem_singleton.mp (List.mem_of_getElem? at_)] at lock
    exact lock

theorem lockedSince_last (polls : List SeqPoll) {poll : SeqPoll} (lock : poll.hasLock = true) :
    LockedSince (polls ++ [poll]) polls.length := by
  apply LockedSince.concat _ lock
  intro k found late at_
  rw [List.getElem?_eq_none late] at at_
  cases at_

theorem getElem?_concat_of_some {polls : List SeqPoll} {i : Nat} {found : SeqPoll}
    (at_ : polls[i]? = some found) (poll : SeqPoll) : (polls ++ [poll])[i]? = some found := by
  obtain ⟨inside, -⟩ := List.getElem?_eq_some_iff.mp at_
  rw [List.getElem?_append_left inside, at_]

theorem Measured.concat {polls : List SeqPoll} {pct : Int} (measured : Measured polls pct)
    {poll : SeqPoll} (lock : poll.hasLock = true) : Measured (polls ++ [poll]) pct := by
  obtain ⟨i, j, first, last, before, after, order, one, two, apart, is, locked⟩ := measured
  exact ⟨i, j, first, last, before, after, order, getElem?_concat_of_some one poll,
    getElem?_concat_of_some two poll, apart, is, locked.concat lock⟩

/-- A poll with a lock leaves the baseline where it is. -/
theorem Baseline.concat {polls : List SeqPoll} {state : DvbLegacySeqState}
    (baseline : Baseline polls state) {poll : SeqPoll} (lock : poll.hasLock = true) :
    Baseline (polls ++ [poll]) state := by
  intro have_
  obtain ⟨⟨i, sample, locked⟩, kept⟩ := baseline have_
  refine ⟨⟨i, getElem?_concat_of_some sample poll, locked.concat lock⟩, ?_⟩
  exact kept.imp_right fun measured => measured.concat lock

/-- Rounding towards zero or downwards makes no difference in range. -/
theorem clampPct_castInt (x : ℚ) : clampPct (castInt x) = max 0 (min 100 ⌊x⌋) := by
  have clamped (n : Int) : clampPct n = max 0 (min 100 n) := by
    unfold clampPct
    dsimp only
    split_ifs <;> omega
  rw [clamped, castInt]
  split
  · rfl
  · rename_i negative
    have below : ⌊x⌋ < 0 := Int.floor_lt.mpr (by rw [Int.cast_zero]; exact lt_of_not_ge negative)
    have above : ⌈x⌉ ≤ 0 := Int.ceil_le.mpr (by rw [Int.cast_zero]; exact (lt_of_not_ge negative).le)
    omega

/-- The difference of the counters, which does not go below zero. -/
theorem delta_toNat (first last : UInt32) :
    (if first ≤ last then last - first else 0 : UInt32).toNat = last.toNat - first.toNat := by
  split
  · rename_i order
    exact UInt32.toNat_sub_of_le _ _ order
  · rename_i order
    rw [UInt32.le_iff_toNat_le] at order
    rw [UInt32.toNat_zero]
    omega

/-- The value of a window. -/
theorem clampPct_window (first last : UInt32) {elapsed : ℚ} (window : ¬ elapsed < 0.5) :
    clampPct (castInt ((1 - if 0 < atscSegmentsPerSec * elapsed then
        ((if first ≤ last then last - first else 0 : UInt32).toNat : ℚ) /
          (atscSegmentsPerSec * elapsed) else 0) * 100 + 0.5)) =
      qualityPct first last elapsed := by
  have long : (0.5 : ℚ) ≤ elapsed := le_of_not_gt window
  have rate : 0 < atscSegmentsPerSec := by norm_num [atscSegmentsPerSec]
  have sent : 0 < atscSegmentsPerSec * elapsed := mul_pos rate (by linarith)
  have half : (0.5 : ℚ) = 1 / 2 := by norm_num
  rw [clampPct_castInt, if_pos sent, delta_toNat, half, qualityPct]

theorem qualityPct_mem (first last : UInt32) (elapsed : ℚ) :
    0 ≤ qualityPct first last elapsed ∧ qualityPct first last elapsed ≤ 100 := by
  unfold qualityPct
  omega

theorem Measured.mem {polls : List SeqPoll} {pct : Int} (measured : Measured polls pct) :
    0 ≤ pct ∧ pct ≤ 100 := by
  obtain ⟨-, -, first, last, before, after, -, -, -, -, is, -⟩ := measured
  rw [is]
  exact qualityPct_mem first last _

/-- The cast is defined: what it is applied to fits an `int`. -/
theorem castInt_fits (delta : UInt32) {elapsed : ℚ} (window : ¬ elapsed < 0.5) :
    -2 ^ 31 ≤ castInt ((1 - (delta.toNat : ℚ) / (atscSegmentsPerSec * elapsed)) * 100 + 0.5) ∧
      castInt ((1 - (delta.toNat : ℚ) / (atscSegmentsPerSec * elapsed)) * 100 + 0.5) < 2 ^ 31 := by
  have long : (0.5 : ℚ) ≤ elapsed := le_of_not_gt window
  have sent : 6467 ≤ atscSegmentsPerSec * elapsed := by
    unfold atscSegmentsPerSec
    linarith
  have lost : (delta.toNat : ℚ) < 2 ^ 32 := by exact_mod_cast delta.toNat_lt
  have notNegative : 0 ≤ (delta.toNat : ℚ) / (atscSegmentsPerSec * elapsed) :=
    div_nonneg (Nat.cast_nonneg _) (by linarith)
  have bounded : (delta.toNat : ℚ) / (atscSegmentsPerSec * elapsed) ≤ 700000 := by
    rw [div_le_iff₀ (by linarith)]
    linarith
  unfold castInt
  split
  · constructor
    · apply Int.le_floor.mpr
      push_cast
      linarith
    · apply Int.floor_lt.mpr
      push_cast
      linarith
  · constructor
    · apply (Int.le_ceil_iff).mpr
      push_cast
      linarith
    · rw [← Int.le_sub_one_iff]
      apply Int.ceil_le.mpr
      push_cast
      linarith

/-- What one call on a frontend does. -/
theorem Baseline.call {polls : List SeqPoll} {state : DvbLegacySeqState}
    (baseline : Baseline polls state) (poll : SeqPoll) :
    Baseline (polls ++ [poll]) (dvbFrontendLegacySeqPct state poll).1 ∧
      ((dvbFrontendLegacySeqPct state poll).2 = -1 ∨
        Measured (polls ++ [poll]) (dvbFrontendLegacySeqPct state poll).2) := by
  obtain ⟨hasLock, ucblocks, now⟩ := poll
  unfold dvbFrontendLegacySeqPct
  cases hasLock with
  | false => exact ⟨nofun, Or.inl rfl⟩
  | true =>
      have stays := @Baseline.concat polls state baseline ⟨true, ucblocks, now⟩ rfl
      cases ucblocks with
      | none => exact ⟨stays, Or.inl rfl⟩
      | some ucblocks =>
          have here : (polls ++ [⟨true, some ucblocks, now⟩])[polls.length]? =
              some ⟨true, some ucblocks, now⟩ := List.getElem?_concat_length
          have locked := @lockedSince_last polls ⟨true, some ucblocks, now⟩ rfl
          dsimp only
          rw [if_neg Bool.true_eq_false.mp]
          by_cases have_ : state.haveBaseline = false
          · rw [if_pos have_]
            exact ⟨fun _ => ⟨⟨polls.length, here, locked⟩, Or.inl rfl⟩, Or.inl rfl⟩
          · rw [if_neg have_]
            have true_ := Bool.eq_true_of_not_eq_false have_
            by_cases window : elapsedSeconds state.lastTime now < 0.5
            · rw [if_pos window]
              exact ⟨stays, (stays true_).2⟩
            · obtain ⟨⟨i, sample, since⟩, -⟩ := baseline true_
              obtain ⟨inside, -⟩ := List.getElem?_eq_some_iff.mp sample
              have long : 1 / 2 ≤ elapsedSeconds state.lastTime now := by linarith
              have measured : Measured (polls ++ [⟨true, some ucblocks, now⟩])
                  (qualityPct state.lastUcblocks ucblocks (elapsedSeconds state.lastTime now)) :=
                ⟨i, polls.length, state.lastUcblocks, ucblocks, state.lastTime, now, inside,
                  getElem?_concat_of_some sample _, here, long, rfl, since.concat rfl⟩
              rw [if_neg window, clampPct_window _ _ window]
              exact ⟨fun _ => ⟨⟨polls.length, here, locked⟩, Or.inr measured⟩, Or.inr measured⟩

/-- The two states hold the same. -/
def SameSeq (state : DvbLegacySeqState) (s : StreamLegacySeq) : Prop :=
  state = ⟨s.legacySeqHaveBaseline, s.legacySeqLastUcblocks, s.legacySeqLastTime,
    s.legacySeqLastPct⟩

/-- A call on a stream does what one on a frontend does. -/
theorem SameSeq.call {state : DvbLegacySeqState} {s : StreamLegacySeq} (same : SameSeq state s)
    (poll : SeqPoll) :
    SameSeq (dvbFrontendLegacySeqPct state poll).1 (dvbStreamGetLegacySeqPct s poll).1 ∧
      (dvbFrontendLegacySeqPct state poll).2 = (dvbStreamGetLegacySeqPct s poll).2 := by
  obtain ⟨haveBaseline, lastUcblocks, lastTime, lastPct⟩ := s
  unfold SameSeq at same
  rw [same]
  unfold dvbFrontendLegacySeqPct dvbStreamGetLegacySeqPct
  dsimp only
  by_cases lock : poll.hasLock = false
  · rw [if_pos lock, if_pos lock]
    exact ⟨rfl, rfl⟩
  · rw [if_neg lock, if_neg lock]
    cases poll.ucblocks with
    | none => exact ⟨rfl, rfl⟩
    | some ucblocks =>
        dsimp only
        by_cases have_ : haveBaseline = false
        · rw [if_pos have_, if_pos have_]
          exact ⟨rfl, rfl⟩
        · rw [if_neg have_, if_neg have_]
          have true_ := Bool.eq_true_of_not_eq_false have_
          by_cases window : elapsedSeconds lastTime poll.now < 0.5
          · rw [if_pos window, if_pos window]
            exact ⟨rfl, rfl⟩
          · rw [if_neg window, if_neg window, true_]
            exact ⟨rfl, rfl⟩

/-- Over every history of polls both calculations return the same values, each
of them -1 or a percentage, which comes from two samples half a second apart
at least and a lock that was never lost since the first of them. -/
theorem legacy_seq_pcts (polls : List SeqPoll) :
    frontendSeqPcts polls = streamSeqPcts polls ∧
      ∀ k pct, (frontendSeqPcts polls)[k]? = some pct →
        (pct = -1 ∨ 0 ≤ pct ∧ pct ≤ 100) ∧ (pct ≠ -1 → Measured (polls.take (k + 1)) pct) := by
  constructor
  · have initially : SameSeq {} {} := rfl
    exact Transducer.answers_eq_of_simulation SameSeq (fun _ _ poll same => same.call poll)
      initially polls
  · intro k pct answered
    have initially : Baseline [] ({} : DvbLegacySeqState) := nofun
    have step (past : List SeqPoll) (state : DvbLegacySeqState) (poll : SeqPoll)
        (baseline : Baseline past state) := baseline.call poll
    have found : pct = -1 ∨ Measured (polls.take (k + 1)) pct :=
      @Transducer.answers_invariant _ _ _ dvbFrontendLegacySeqPct _ Baseline
        (fun polls pct => pct = -1 ∨ Measured polls pct) initially step polls k pct answered
    exact ⟨found.imp_right Measured.mem, found.resolve_left⟩

end HdhrEmu
