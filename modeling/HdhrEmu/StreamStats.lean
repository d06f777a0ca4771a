import HdhrEmu.HeldRefresher

/-!
# The stats thread of a stream

`dvb_stream_close` waits for the stats thread before the frontend is closed or
parked.  The thread therefore only runs while somebody has the stream, and
every reading it publishes is of the channel the stream was opened for.
-/

namespace HdhrEmu

open Interleaving

/-- The stream in an optional field. -/
def streamOf (ds : Option DvbStream) : Multiset DvbStream :=
  (ds.toList : Multiset DvbStream)

@[simp]
theorem streamOf_none : streamOf none = 0 :=
  rfl

theorem mem_streamOf {ds : DvbStream} {field : Option DvbStream} :
    ds ∈ streamOf field ↔ field = some ds := by
  simp [streamOf]

/-- The stream that the call has in a local variable. -/
def Frame.opened (frame : Frame) : Multiset DvbStream :=
  streamOf frame.holding

/-- The stream whose stats thread the call is. -/
def Frame.reader : Frame → Multiset DvbStream
  | .stats (.streamStatsRead ds) | .stats (.streamStatsPublish ds _)
  | .stats (.streamStatsSleep ds) => streamOf (some ds)
  | _ => 0

/-- The streams that are open: the active one and those in local variables. -/
def openStreams (w : World) (frames : Multiset Frame) : Multiset DvbStream :=
  streamOf w.tuner.activeStream + tally Frame.opened frames

/-- What an action leaves of the open streams that its call knows of. -/
def KeepsOpen (w : World) (opened : Multiset DvbStream) (outcome : Outcome) : Prop :=
  streamOf outcome.shared.tuner.activeStream + (outcome.next.map Frame.opened).sum =
    streamOf w.tuner.activeStream + opened

/-- What an action does to streams and their stats threads. -/
inductive StreamStep (w : World) (frame : Frame) (outcome : Outcome) : Prop
  | kept (streams : outcome.shared.streams = w.streams)
      (reader : (outcome.next.map Frame.reader).sum = frame.reader)
      (opened : KeepsOpen w frame.opened outcome)
  | opened (who : Streamer) (fd : Fd) (started : Bool)
      (was : frame = .stream (.streamStart who fd))
      (streams : outcome.shared.streams = w.streams ++ [⟨Reading.zero, false, false, started⟩])
      (reader : (outcome.next.map Frame.reader).sum =
        if started then streamOf (some (w.newStream fd started)) else 0)
      (opened : KeepsOpen w (streamOf (some (w.newStream fd started))) outcome)
  | stopped (ds : DvbStream) (keepFrontend : Bool)
      (was : frame = .release (.streamTeardown ds keepFrontend))
      (streams : outcome.shared.streams = (w.stopStream ds).streams)
      (reader : (outcome.next.map Frame.reader).sum = 0)
      (opened : KeepsOpen w frame.opened outcome)
  | joined (ds : DvbStream) (keepFrontend : Bool)
      (was : frame = .release (.streamJoin ds keepFrontend)) (returned : w.statsRunning ds = false)
      (streams : outcome.shared.streams = w.streams)
      (reader : (outcome.next.map Frame.reader).sum = 0) (opened : KeepsOpen w 0 outcome)
  | published (ds : DvbStream) (reading : Reading)
      (was : frame = .stats (.streamStatsPublish ds reading))
      (streams : outcome.shared = w.publishStreamStats ds reading)
      (next : outcome.next = [.stats (.streamStatsSleep ds)])
  | returned (ds : DvbStream) (was : frame.reader = streamOf (some ds))
      (returns : w.streamStatsReturn ds = some outcome)

@[simp]
theorem reader_stopping (held : Option Fd) (frames : List Frame) :
    ((stopping held frames).map Frame.reader).sum = (frames.map Frame.reader).sum := by
  unfold stopping
  split <;> simp [Frame.reader]

@[simp]
theorem reader_granted (granted : Granted) : (granted.frames.map Frame.reader).sum = 0 := by
  rcases granted with ⟨_ | _, _⟩ | _ <;> rfl

@[simp]
theorem reader_claimTimedOut (db : ChannelDb) (who : Claimant) :
    ((who.claimTimedOut db).map Frame.reader).sum = 0 := by
  rcases who with ⟨_ | _, _⟩ | _ <;> rfl

@[simp]
theorem reader_openFailed (who : Streamer) : (who.openFailed.map Frame.reader).sum = 0 := by
  cases who <;> rfl

@[simp]
theorem reader_opened (who : Streamer) (ds : DvbStream) :
    ((who.opened ds).map Frame.reader).sum = 0 := by
  cases who <;> rfl

@[simp]
theorem opened_stopping (held : Option Fd) (frames : List Frame) :
    ((stopping held frames).map Frame.opened).sum = (frames.map Frame.opened).sum := by
  unfold stopping
  split <;> simp [Frame.opened, Frame.holding]

@[simp]
theorem opened_granted (granted : Granted) : (granted.frames.map Frame.opened).sum = 0 := by
  rcases granted with ⟨_ | _, _⟩ | _ <;> rfl

@[simp]
theorem opened_claimTimedOut (db : ChannelDb) (who : Claimant) :
    ((who.claimTimedOut db).map Frame.opened).sum = 0 := by
  rcases who with ⟨_ | _, _⟩ | _ <;> rfl

@[simp]
theorem opened_openFailed (who : Streamer) : (who.openFailed.map Frame.opened).sum = 0 := by
  cases who <;> rfl

@[simp]
theorem opened_opened (who : Streamer) (ds : DvbStream) :
    ((who.opened ds).map Frame.opened).sum = streamOf (some ds) := by
  cases who <;> simp [Streamer.opened, Frame.opened, Frame.holding]

section Groups

variable {w : World} {χ : Choice} {outcome : Outcome}

theorem holdAct_streamStep {frame : HoldFrame} (acted : holdAct w χ frame = some outcome) :
    StreamStep w frame outcome := by
  revert acted
  fun_cases holdAct w χ frame <;> intro acted <;> cases acted <;>
    refine .kept rfl ?_ ?_ <;>
    simp [Outcome.next, KeepsOpen, Frame.reader, Frame.opened, Frame.holding]

theorem releaseAct_streamStep {frame : ReleaseFrame}
    (idle : frame.claims = 1 → (Frame.release frame).streams = 0 → w.tuner.activeStream = none)
    (acted : releaseAct w χ frame = some outcome) : StreamStep w frame outcome := by
  revert acted
  fun_cases releaseAct w χ frame <;> intro acted <;> cases acted
  case case3 =>
      exact .stopped _ _ rfl rfl rfl
        (by simp [Outcome.next, KeepsOpen, Frame.opened, Frame.holding])
  case case5 ds returned | case6 ds _ returned _ =>
      exact .joined _ _ rfl (Bool.eq_false_of_not_eq_true returned) rfl rfl
        (by simp [Outcome.next, KeepsOpen, Frame.opened, Frame.holding])
  all_goals
    refine .kept rfl ?_ ?_ <;>
    simp_all [Outcome.next, KeepsOpen, Frame.reader, Frame.opened, Frame.holding]

theorem claimAct_streamStep {frame : ClaimFrame} (acted : claimAct w χ frame = some outcome) :
    StreamStep w frame outcome := by
  revert acted
  fun_cases claimAct w χ frame <;> intro acted <;> cases acted <;>
    refine .kept rfl ?_ ?_ <;>
    simp [Outcome.next, KeepsOpen, Frame.reader, Frame.opened, Frame.holding]

theorem streamAct_streamStep {frame : StreamFrame} (acted : streamAct w χ frame = some outcome) :
    StreamStep w frame outcome := by
  revert acted
  fun_cases streamAct w χ frame <;> intro acted <;> cases acted
  case case16 who fd _ _ =>
      exact .opened who fd true rfl rfl (by simp [Outcome.next, Frame.reader])
        (by simp [Outcome.next, KeepsOpen, Frame.opened, Frame.holding])
  case case17 who fd _ _ =>
      exact .opened who fd false rfl rfl (by simp [Outcome.next])
        (by simp [Outcome.next, KeepsOpen])
  all_goals
    refine .kept rfl ?_ ?_ <;>
    simp [Outcome.next, KeepsOpen, Frame.reader, Frame.opened, Frame.holding]

theorem pushAct_streamStep {frame : PushFrame}
    (idle : frame.claims = 1 → (Frame.push frame).streams = 0 → w.tuner.activeStream = none)
    (acted : pushAct w χ frame = some outcome) : StreamStep w frame outcome := by
  revert acted
  fun_cases pushAct w χ frame <;> intro acted <;> cases acted <;>
    refine .kept rfl ?_ ?_ <;>
    simp_all [Outcome.next, KeepsOpen, Frame.reader, Frame.opened, Frame.holding]

theorem pullAct_streamStep {frame : PullFrame}
    (idle : frame.claims = 1 → (Frame.pull frame).streams = 0 → w.tuner.activeStream = none)
    (acted : pullAct w χ frame = some outcome) : StreamStep w frame outcome := by
  revert acted
  fun_cases pullAct w χ frame <;> intro acted <;> cases acted <;>
    refine .kept rfl ?_ ?_ <;>
    simp_all [Outcome.next, KeepsOpen, Frame.reader, Frame.opened, Frame.holding]

theorem setAct_streamStep {frame : SetFrame} (acted : setAct w χ frame = some outcome) :
    StreamStep w frame outcome := by
  revert acted
  fun_cases setAct w χ frame <;> intro acted <;> cases acted <;>
    refine .kept rfl ?_ ?_ <;>
    simp [Outcome.next, KeepsOpen, Frame.reader, Frame.opened, Frame.holding]

theorem scanAct_streamStep {frame : ScanFrame} (acted : scanAct w χ frame = some outcome) :
    StreamStep w frame outcome := by
  revert acted
  fun_cases scanAct w χ frame <;> intro acted <;> cases acted <;>
    refine .kept rfl ?_ ?_ <;>
    simp [Outcome.next, KeepsOpen, Frame.reader, Frame.opened, Frame.holding]

theorem statsAct_streamStep {frame : StatsFrame} (acted : statsAct w χ frame = some outcome) :
    StreamStep w frame outcome := by
  revert acted
  fun_cases statsAct w χ frame <;> intro acted
  case case9 | case11 => exact .returned _ rfl acted
  case case10 =>
      cases acted
      exact .published _ _ rfl rfl rfl
  all_goals
    cases acted
    refine .kept rfl ?_ ?_ <;>
    simp [Outcome.next, KeepsOpen, Frame.reader, Frame.opened, Frame.holding]

theorem act_streamStep {frame : Frame}
    (idle : frame.claims = 1 → frame.streams = 0 → w.tuner.activeStream = none)
    (acted : act w frame χ = some outcome) : StreamStep w frame outcome := by
  cases frame with
  | hold frame => exact holdAct_streamStep acted
  | release frame => exact releaseAct_streamStep idle acted
  | claim frame => exact claimAct_streamStep acted
  | stream frame => exact streamAct_streamStep acted
  | push frame => exact pushAct_streamStep idle acted
  | pull frame => exact pullAct_streamStep idle acted
  | set frame => exact setAct_streamStep acted
  | scan frame => exact scanAct_streamStep acted
  | stats frame => exact statsAct_streamStep acted

end Groups

theorem arrives_opened : ∀ frame, arrives frame = true → frame.opened = 0 := by
  simp [forall_arrives, Frame.opened, Frame.holding]

theorem arrives_reader : ∀ frame, arrives frame = true → frame.reader = 0 := by
  simp [forall_arrives, Frame.reader]

/-- A call with a stream has its descriptor. -/
theorem card_opened_le (frame : Frame) : frame.opened.card ≤ frame.fds.card := by
  unfold Frame.opened
  cases holds : frame.holding with
  | none => exact Nat.zero_le _
  | some ds => exact Multiset.card_pos.mpr (fds_of_holding holds)

theorem card_tally_opened_le (frames : Multiset Frame) :
    (tally Frame.opened frames).card ≤ (tally Frame.fds frames).card := by
  induction frames using Multiset.induction with
  | empty => exact le_rfl
  | cons frame frames ih =>
      rw [tally_cons, tally_cons, Multiset.card_add, Multiset.card_add]
      exact Nat.add_le_add (card_opened_le frame) ih

/-- At most one stream is open. -/
theorem card_openStreams {w : World} {frames : Multiset Frame} (owned : Owned w frames) :
    (openStreams w frames).card ≤ 1 := by
  have card := card_nodeFds w
  have opened := card_tally_opened_le frames
  have active : (streamOf w.tuner.activeStream).card =
      (fdsOf (w.tuner.activeStream.map DvbStream.frontendFd)).card := by
    cases w.tuner.activeStream <;> rfl
  rw [owned, World.fds, Multiset.card_add, Multiset.card_add] at card
  rw [openStreams, Multiset.card_add, active]
  omega

theorem open_unique {w : World} {frames : Multiset Frame} (owned : Owned w frames)
    {first second : DvbStream} (one : first ∈ openStreams w frames)
    (other : second ∈ openStreams w frames) : second = first := by
  have card := card_openStreams owned
  obtain ⟨rest, split⟩ := Multiset.exists_cons_of_mem one
  rw [split, Multiset.card_cons] at card
  have empty : rest = 0 := Multiset.card_eq_zero.mp (by omega)
  rw [split, empty] at other
  exact Multiset.mem_singleton.mp other

/-- The frontend of the open stream is tuned to what the stream was opened for. -/
theorem tuning_of_open {w : World} {frames : Multiset Frame} {ds : DvbStream}
    (active : ∀ ds, w.tuner.activeStream = some ds → w.node.tuning = some ds.tuning)
    (tuned : ∀ frame ∈ frames, frame.tuned w.node.tuning) (isOpen : ds ∈ openStreams w frames) :
    w.node.tuning = some ds.tuning := by
  rw [openStreams, Multiset.mem_add, mem_streamOf] at isOpen
  rcases isOpen with is | among
  · exact active ds is
  · obtain ⟨frame, member, holds⟩ := mem_tally.mp among
    exact tuning_of_holding (tuned frame member) (mem_streamOf.mp holds)

/-- Everything that is known of the open stream and its stats thread: the
thread only runs while the stream is open, and what is published of a stream
with a lock was read while the frontend was tuned to its channel. -/
structure LiveStats (w : World) (frames : Multiset Frame) : Prop where
  readers : tally Frame.reader frames ≤ openStreams w frames
  running : ∀ ds ∈ tally Frame.reader frames, w.statsRunning ds = true
  cached : ∀ ds ∈ openStreams w frames, ∀ cell, w.streams[ds.id]? = some cell →
    cell.statsCacheValid = true → cell.statsCache.stats.hasLock = true →
      cell.statsCache.tunedTo = some ds.tuning
  reading : ∀ ds reading, .stats (.streamStatsPublish ds reading) ∈ frames →
    reading.stats.hasLock = true → reading.tunedTo = some ds.tuning

/-- What every reachable state is known to satisfy. -/
structure StreamContext (w : World) (frames : Multiset Frame) : Prop where
  owned : Owned w frames
  active : ∀ ds, w.tuner.activeStream = some ds → w.node.tuning = some ds.tuning
  tuned : ∀ frame ∈ frames, frame.tuned w.node.tuning
  claimed : w.tuner.busy.toNat = tally Frame.claims frames
  streaming : w.tuner.activeStream.isSome.toNat ≤ tally Frame.streams frames

theorem hasLock_read {node : Node} {fd : Fd} {stats : DvbSignalStats}
    (locked : (node.read fd stats).stats.hasLock = true) :
    (node.read fd stats).tunedTo = node.tuning := by
  unfold Node.read at locked ⊢
  split at locked
  · rename_i isOpen
    rw [if_pos isOpen]
  · cases locked

section Step

variable {w : World} {frame : Frame} {others : List Frame} {χ : Choice} {outcome : Outcome}

/-- The frames after an action. -/
theorem tally_framesAfter {M : Type*} [AddCommMonoid M] (token : Frame → M) :
    tally token (framesAfter outcome others) =
      (outcome.next.map token).sum + tally token (others : Multiset Frame) := by
  rw [framesAfter, Outcome.next, tally_add, tally_add, tally_coe, tally_coe, List.map_append,
    List.sum_append, add_assoc]

theorem openStreams_after {opened : Multiset DvbStream} (kept : KeepsOpen w opened outcome) :
    openStreams outcome.shared (framesAfter outcome others) =
      streamOf w.tuner.activeStream + opened + tally Frame.opened (others : Multiset Frame) := by
  rw [openStreams, tally_framesAfter, ← add_assoc, kept]

theorem openStreams_cons :
    openStreams w (frame ::ₘ (others : Multiset Frame)) =
      streamOf w.tuner.activeStream + frame.opened +
        tally Frame.opened (others : Multiset Frame) := by
  rw [openStreams, tally_cons, add_assoc]

/-- A published reading was made by the same thread. -/
theorem published_of_kept (reader : (outcome.next.map Frame.reader).sum = frame.reader)
    (acted : act w frame χ = some outcome) {ds : DvbStream} {reading : Reading}
    (member : .stats (.streamStatsPublish ds reading) ∈ outcome.next) :
    frame = .stats (.streamStatsRead ds) ∧
      ∃ stats, reading = w.node.read ds.frontendFd stats := by
  have among : ds ∈ (outcome.next.map Frame.reader).sum := by
    rw [← tally_coe, mem_tally]
    exact ⟨_, Multiset.mem_coe.mpr member, mem_streamOf.mpr rfl⟩
  rw [reader] at among
  revert among
  fun_cases Frame.reader frame <;> intro among
  · cases mem_streamOf.mp among
    cases acted
    simp only [Outcome.next, List.flatten_nil, List.append_nil, List.mem_singleton] at member
    cases member
    exact ⟨rfl, _, rfl⟩
  · simp only [act, statsAct] at acted
    split at acted <;> cases acted <;> simp [Outcome.next] at member
  · simp only [act, statsAct] at acted
    split at acted <;> cases acted <;> simp [Outcome.next] at member
  · exact absurd among (Multiset.notMem_zero _)

/-- A cell after one of them was changed. -/
theorem cell_modify {cells : List StreamCell} {index number : Nat} {f : StreamCell → StreamCell}
    {cell : StreamCell} (found : (cells.modify index f)[number]? = some cell) :
    ∃ old, cells[number]? = some old ∧ cell = if index = number then f old else old := by
  rw [List.getElem?_modify, Option.map_eq_map, Option.map_eq_some_iff] at found
  obtain ⟨old, before, rfl⟩ := found
  exact ⟨old, before, rfl⟩

theorem statsRunning_modify {after : World} {index : Nat} {f : StreamCell → StreamCell}
    (streams : after.streams = w.streams.modify index f)
    (kept : ∀ cell, (f cell).statsRunning = cell.statsRunning) (ds : DvbStream) :
    after.statsRunning ds = w.statsRunning ds := by
  rw [World.statsRunning, World.statsRunning, streams, List.getElem?_modify]
  cases w.streams[ds.id]? with
  | none => rfl
  | some cell =>
      by_cases same : index = ds.id <;> simp [same, kept]

theorem not_published_of_streamStart {who : Streamer} {fd : Fd}
    (acted : act w (.stream (.streamStart who fd)) χ = some outcome) {ds : DvbStream}
    {reading : Reading} : .stats (.streamStatsPublish ds reading) ∉ outcome.next := by
  simp only [act, streamAct] at acted
  split at acted
  · cases acted
    cases who <;> simp [Outcome.next, Streamer.openFailed]
  · split at acted <;> cases acted <;> cases who <;> simp [Outcome.next, Streamer.opened]

theorem not_published_of_noReader (reader : (outcome.next.map Frame.reader).sum = 0)
    {ds : DvbStream} {reading : Reading} :
    .stats (.streamStatsPublish ds reading) ∉ outcome.next := by
  intro member
  have among : ds ∈ tally Frame.reader (outcome.next : Multiset Frame) :=
    mem_tally.mpr ⟨_, Multiset.mem_coe.mpr member, mem_streamOf.mpr rfl⟩
  rw [tally_coe, reader] at among
  exact Multiset.notMem_zero _ among

/-- A change of a cell that leaves its cache alone. -/
theorem LiveStats.cached_modify {after : World} {frames : Multiset Frame} {index : Nat}
    {f : StreamCell → StreamCell} (live : LiveStats w frames)
    (streams : after.streams = w.streams.modify index f)
    (kept : ∀ cell, (f cell).statsCache = cell.statsCache ∧
      (f cell).statsCacheValid = cell.statsCacheValid) {ds : DvbStream}
    (isOpen : ds ∈ openStreams w frames) {cell : StreamCell}
    (found : after.streams[ds.id]? = some cell) (valid : cell.statsCacheValid = true)
    (locked : cell.statsCache.stats.hasLock = true) :
    cell.statsCache.tunedTo = some ds.tuning := by
  rw [streams] at found
  obtain ⟨old, before, rfl⟩ := cell_modify found
  have sameCache : (if index = ds.id then f old else old).statsCache = old.statsCache ∧
      (if index = ds.id then f old else old).statsCacheValid = old.statsCacheValid := by
    split
    · exact kept old
    · exact ⟨rfl, rfl⟩
  rw [sameCache.2] at valid
  rw [sameCache.1] at locked ⊢
  exact live.cached ds isOpen old before valid locked

theorem LiveStats.reading_of_old {w : World}
    (live : LiveStats w (frame ::ₘ (others : Multiset Frame))) {ds : DvbStream} {reading : Reading}
    (old : .stats (.streamStatsPublish ds reading) ∈ others)
    (locked : reading.stats.hasLock = true) : reading.tunedTo = some ds.tuning :=
  live.reading ds reading (Multiset.mem_cons_of_mem (Multiset.mem_coe.mpr old)) locked

theorem LiveStats.kept (context : StreamContext w (frame ::ₘ (others : Multiset Frame)))
    (live : LiveStats w (frame ::ₘ (others : Multiset Frame)))
    (streams : outcome.shared.streams = w.streams)
    (reader : (outcome.next.map Frame.reader).sum = frame.reader)
    (opened : KeepsOpen w frame.opened outcome) (acted : act w frame χ = some outcome) :
    LiveStats outcome.shared (framesAfter outcome others) := by
  have sameOpen : openStreams outcome.shared (framesAfter outcome others) =
      openStreams w (frame ::ₘ (others : Multiset Frame)) := by
    rw [openStreams_after opened, openStreams_cons]
  have sameReaders : tally Frame.reader (framesAfter outcome others) =
      tally Frame.reader (frame ::ₘ (others : Multiset Frame)) := by
    rw [tally_framesAfter, reader, tally_cons]
  constructor
  · rw [sameReaders, sameOpen]
    exact live.readers
  · rw [sameReaders]
    intro ds among
    rw [World.statsRunning, streams]
    exact live.running ds among
  · rw [sameOpen, streams]
    exact live.cached
  · intro ds reading member locked
    rcases mem_framesAfter.mp member with new | old
    · obtain ⟨rfl, stats, rfl⟩ := published_of_kept reader acted new
      have among : ds ∈ tally Frame.reader
          (.stats (.streamStatsRead ds) ::ₘ (others : Multiset Frame)) := by
        rw [tally_cons, Multiset.mem_add]
        exact .inl (mem_streamOf.mpr rfl)
      rw [hasLock_read locked]
      exact tuning_of_open context.active context.tuned (Multiset.mem_of_le live.readers among)
    · exact live.reading_of_old old locked

/-- A call that has the descriptor of a stream it opens finds none open. -/
theorem openStreams_of_streamStart {who : Streamer} {fd : Fd}
    (owned : Owned w (.stream (.streamStart who fd) ::ₘ (others : Multiset Frame))) :
    streamOf w.tuner.activeStream = 0 ∧ tally Frame.opened (others : Multiset Frame) = 0 := by
  obtain ⟨record, idle⟩ := owned.alone (by simp)
  constructor
  · cases active : w.tuner.activeStream with
    | none => rfl
    | some ds =>
        rw [World.fds, active, Option.map_some] at record
        exact absurd (add_eq_zero.mp record).2 (fdsOf_some_ne_zero _)
  · rw [tally_eq_zero]
    intro other member
    have none := card_opened_le other
    rw [idle other (Multiset.mem_coe.mp member), Multiset.card_zero, Nat.le_zero] at none
    exact Multiset.card_eq_zero.mp none

theorem LiveStats.opened {who : Streamer} {fd : Fd} {started : Bool}
    (context : StreamContext w (.stream (.streamStart who fd) ::ₘ (others : Multiset Frame)))
    (live : LiveStats w (.stream (.streamStart who fd) ::ₘ (others : Multiset Frame)))
    (streams : outcome.shared.streams = w.streams ++ [⟨Reading.zero, false, false, started⟩])
    (reader : (outcome.next.map Frame.reader).sum =
      if started then streamOf (some (w.newStream fd started)) else 0)
    (opened : KeepsOpen w (streamOf (some (w.newStream fd started))) outcome)
    (acted : act w (.stream (.streamStart who fd)) χ = some outcome) :
    LiveStats outcome.shared (framesAfter outcome others) := by
  obtain ⟨inactive, idle⟩ := openStreams_of_streamStart context.owned
  have isOpen : openStreams outcome.shared (framesAfter outcome others) =
      streamOf (some (w.newStream fd started)) := by
    rw [openStreams_after opened, inactive, idle, zero_add, add_zero]
  have noReader : tally Frame.reader (others : Multiset Frame) = 0 := by
    have le := live.readers
    rw [openStreams_cons, inactive, idle, tally_cons] at le
    exact Multiset.le_zero.mp (le_trans le_add_self le)
  have readers : tally Frame.reader (framesAfter outcome others) =
      if started then streamOf (some (w.newStream fd started)) else 0 := by
    rw [tally_framesAfter, reader, noReader, add_zero]
  have cell : outcome.shared.streams[w.streams.length]? =
      some ⟨Reading.zero, false, false, started⟩ := by
    rw [streams, List.getElem?_concat_length]
  constructor
  · rw [readers, isOpen]
    split
    · exact le_rfl
    · exact Multiset.zero_le _
  · rw [readers]
    intro ds among
    split at among
    · rename_i running
      cases mem_streamOf.mp among
      simp [World.statsRunning, World.newStream, cell, running]
    · exact absurd among (Multiset.notMem_zero _)
  · rw [isOpen]
    intro ds among found at_ valid
    cases mem_streamOf.mp among
    rw [World.newStream, cell] at at_
    cases at_
    cases valid
  · intro ds reading member locked
    rcases mem_framesAfter.mp member with new | old
    · exact absurd new (not_published_of_streamStart acted)
    · exact live.reading_of_old old locked

theorem LiveStats.stopped {ds : DvbStream} {keepFrontend : Bool}
    (live : LiveStats w (.release (.streamTeardown ds keepFrontend) ::ₘ (others : Multiset Frame)))
    (streams : outcome.shared.streams = (w.stopStream ds).streams)
    (reader : (outcome.next.map Frame.reader).sum = 0)
    (opened : KeepsOpen w (Frame.release (.streamTeardown ds keepFrontend)).opened outcome) :
    LiveStats outcome.shared (framesAfter outcome others) := by
  have sameOpen : openStreams outcome.shared (framesAfter outcome others) =
      openStreams w (.release (.streamTeardown ds keepFrontend) ::ₘ (others : Multiset Frame)) := by
    rw [openStreams_after opened, openStreams_cons]
  have sameReaders : tally Frame.reader (framesAfter outcome others) =
      tally Frame.reader
        (.release (.streamTeardown ds keepFrontend) ::ₘ (others : Multiset Frame)) := by
    rw [tally_framesAfter, reader, tally_cons]
    rfl
  constructor
  · rw [sameReaders, sameOpen]
    exact live.readers
  · rw [sameReaders]
    intro other among
    rw [statsRunning_modify streams fun _ => rfl]
    exact live.running other among
  · rw [sameOpen]
    intro other among cell found valid locked
    exact live.cached_modify streams (fun _ => ⟨rfl, rfl⟩) among found valid locked
  · intro other reading member locked
    rcases mem_framesAfter.mp member with new | old
    · exact absurd new (not_published_of_noReader reader)
    · exact live.reading_of_old old locked

theorem LiveStats.joined {ds : DvbStream} {keepFrontend : Bool}
    (context : StreamContext w
      (.release (.streamJoin ds keepFrontend) ::ₘ (others : Multiset Frame)))
    (live : LiveStats w (.release (.streamJoin ds keepFrontend) ::ₘ (others : Multiset Frame)))
    (returned : w.statsRunning ds = false) (streams : outcome.shared.streams = w.streams)
    (reader : (outcome.next.map Frame.reader).sum = 0) (opened : KeepsOpen w 0 outcome) :
    LiveStats outcome.shared (framesAfter outcome others) := by
  have isOpen : ds ∈ openStreams w
      (.release (.streamJoin ds keepFrontend) ::ₘ (others : Multiset Frame)) := by
    rw [openStreams_cons, add_right_comm]
    exact Multiset.mem_add.mpr (.inr (mem_streamOf.mpr rfl))
  have noReader : tally Frame.reader (framesAfter outcome others) = 0 := by
    rw [tally_framesAfter, reader, zero_add]
    refine Multiset.eq_zero_of_forall_notMem fun other among => ?_
    have inside : other ∈ tally Frame.reader
        (.release (.streamJoin ds keepFrontend) ::ₘ (others : Multiset Frame)) := by
      rw [tally_cons]
      exact Multiset.mem_add.mpr (.inr among)
    have same := open_unique context.owned isOpen (Multiset.mem_of_le live.readers inside)
    have running := live.running other inside
    rw [same, returned] at running
    cases running
  constructor
  · rw [noReader]
    exact Multiset.zero_le _
  · rw [noReader]
    exact fun _ among => absurd among (Multiset.notMem_zero _)
  · intro other among
    rw [streams]
    apply live.cached other
    rw [openStreams_after opened, add_zero] at among
    rw [openStreams_cons, add_right_comm]
    exact Multiset.mem_add.mpr (.inl among)
  · intro other reading member locked
    rcases mem_framesAfter.mp member with new | old
    · exact absurd new (not_published_of_noReader reader)
    · exact live.reading_of_old old locked

theorem LiveStats.published {ds : DvbStream} {reading : Reading}
    (context : StreamContext w
      (.stats (.streamStatsPublish ds reading) ::ₘ (others : Multiset Frame)))
    (live : LiveStats w (.stats (.streamStatsPublish ds reading) ::ₘ (others : Multiset Frame)))
    (shared : outcome.shared = w.publishStreamStats ds reading)
    (next : outcome.next = [.stats (.streamStatsSleep ds)]) :
    LiveStats outcome.shared (framesAfter outcome others) := by
  have sameOpen : openStreams outcome.shared (framesAfter outcome others) =
      openStreams w (.stats (.streamStatsPublish ds reading) ::ₘ (others : Multiset Frame)) := by
    rw [openStreams, tally_framesAfter, next, shared, openStreams, tally_cons]
    rfl
  have sameReaders : tally Frame.reader (framesAfter outcome others) =
      tally Frame.reader (.stats (.streamStatsPublish ds reading) ::ₘ (others : Multiset Frame)) := by
    rw [tally_framesAfter, next, tally_cons]
    rfl
  have isReader : ds ∈ tally Frame.reader
      (.stats (.streamStatsPublish ds reading) ::ₘ (others : Multiset Frame)) := by
    rw [tally_cons]
    exact Multiset.mem_add.mpr (.inl (mem_streamOf.mpr rfl))
  have streams : outcome.shared.streams = w.streams.modify ds.id fun cell =>
      { cell with statsCache := reading, statsCacheValid := true } := by
    rw [shared]
    rfl
  constructor
  · rw [sameReaders, sameOpen]
    exact live.readers
  · rw [sameReaders]
    intro other among
    rw [statsRunning_modify streams fun _ => rfl]
    exact live.running other among
  · rw [sameOpen, streams]
    intro other among cell found valid locked
    have same := open_unique context.owned (Multiset.mem_of_le live.readers isReader) among
    subst same
    obtain ⟨old, before, rfl⟩ := cell_modify found
    rw [if_pos rfl] at locked ⊢
    exact live.reading _ reading (Multiset.mem_cons_self _ _) locked
  · intro other late member locked
    rcases mem_framesAfter.mp member with new | old
    · rw [next, List.mem_singleton] at new
      cases new
    · exact live.reading_of_old old locked

theorem LiveStats.returned {ds : DvbStream}
    (context : StreamContext w (frame ::ₘ (others : Multiset Frame)))
    (live : LiveStats w (frame ::ₘ (others : Multiset Frame)))
    (was : frame.reader = streamOf (some ds)) (returns : w.streamStatsReturn ds = some outcome) :
    LiveStats outcome.shared (framesAfter outcome others) := by
  have noReader : tally Frame.reader (others : Multiset Frame) = 0 := by
    have card := Multiset.card_le_card live.readers
    have one := card_openStreams context.owned
    rw [tally_cons, was, Multiset.card_add] at card
    have single : (streamOf (some ds)).card = 1 := rfl
    exact Multiset.card_eq_zero.mp (by omega)
  have idle : frame.opened = 0 := by
    revert was
    fun_cases Frame.reader frame <;> intro was
    · rfl
    · rfl
    · rfl
    · simp [streamOf] at was
  obtain ⟨streams, tuner, next⟩ : outcome.shared.streams = w.streams.modify ds.id (fun cell =>
      { cell with statsRunning := false }) ∧ outcome.shared.tuner = w.tuner ∧
      outcome.next = [] := by
    cases returns
    exact ⟨rfl, rfl, rfl⟩
  have readers : tally Frame.reader (framesAfter outcome others) = 0 := by
    rw [tally_framesAfter, noReader, next]
    rfl
  have sameOpen : openStreams outcome.shared (framesAfter outcome others) =
      openStreams w (frame ::ₘ (others : Multiset Frame)) := by
    rw [openStreams, tally_framesAfter, next, tuner, openStreams_cons, idle]
    simp
  constructor
  · rw [readers]
    exact Multiset.zero_le _
  · rw [readers]
    exact fun _ among => absurd among (Multiset.notMem_zero _)
  · rw [sameOpen]
    intro other among cell found valid locked
    exact live.cached_modify streams (fun _ => ⟨rfl, rfl⟩) among found valid locked
  · intro other reading member locked
    rcases mem_framesAfter.mp member with new | old
    · rw [next] at new
      exact absurd new List.not_mem_nil
    · exact live.reading_of_old old locked

theorem LiveStats.step (context : StreamContext w (frame ::ₘ (others : Multiset Frame)))
    (live : LiveStats w (frame ::ₘ (others : Multiset Frame)))
    (acted : act w frame χ = some outcome) :
    LiveStats outcome.shared (framesAfter outcome others) := by
  have idle : frame.claims = 1 → frame.streams = 0 → w.tuner.activeStream = none :=
    idle_of_claims context.claimed context.streaming
  cases act_streamStep idle acted with
  | kept streams reader opened => exact live.kept context streams reader opened acted
  | opened who fd started was streams reader opened =>
      subst was
      exact live.opened context streams reader opened acted
  | stopped ds keepFrontend was streams reader opened =>
      subst was
      exact live.stopped streams reader opened
  | joined ds keepFrontend was returned streams reader opened =>
      subst was
      exact live.joined context returned streams reader opened
  | published ds reading was shared next =>
      subst was
      exact live.published context shared next
  | returned ds was returns => exact live.returned context was returns

end Step

section Reachable

variable {guard : Guard World Frame Choice} {db : ChannelDb} {config : Config World Frame}

theorem streamContext_of_reachable (reachable : machine.Reachable guard (start db) config) :
    StreamContext config.shared config.frames where
  owned := nodeFds_eq reachable
  active := (tuned_of_reachable reachable).1
  tuned := (tuned_of_reachable reachable).2
  claimed := busy_eq_tally_claims reachable
  streaming := active_le_tally_streams reachable

theorem liveStats_of_reachable (reachable : machine.Reachable guard (start db) config) :
    LiveStats config.shared config.frames := by
  refine reachable.invariant_of_known StreamContext LiveStats
    (fun _ => streamContext_of_reachable) ?_ ?_ ?_
  · constructor
    · exact Multiset.zero_le _
    · exact fun _ among => absurd among (Multiset.notMem_zero _)
    · exact fun _ _ _ found => nomatch found
    · exact fun _ _ member => absurd member (Multiset.notMem_zero _)
  · intro w frames frame live arriving
    have sameOpen : openStreams w (frame ::ₘ frames) = openStreams w frames := by
      rw [openStreams, openStreams, tally_cons, arrives_opened frame arriving, zero_add]
    have sameReaders : tally Frame.reader (frame ::ₘ frames) = tally Frame.reader frames := by
      rw [tally_cons, arrives_reader frame arriving, zero_add]
    constructor
    · rw [sameReaders, sameOpen]
      exact live.readers
    · rw [sameReaders]
      exact live.running
    · rw [sameOpen]
      exact live.cached
    · intro ds reading member
      rcases Multiset.mem_cons.mp member with rfl | old
      · cases arriving
      · exact live.reading ds reading old
  · intro w frame others χ outcome context live _ acted
    exact live.step context acted

/-- What is cached of the active stream was read while the frontend was tuned
to its channel. -/
theorem cached_of_active (reachable : machine.Reachable guard (start db) config) {ds : DvbStream}
    {cell : StreamCell} (active : config.shared.tuner.activeStream = some ds)
    (found : config.shared.streams[ds.id]? = some cell) (valid : cell.statsCacheValid = true)
    (locked : cell.statsCache.stats.hasLock = true) :
    cell.statsCache.tunedTo = some ds.tuning := by
  apply (liveStats_of_reachable reachable).cached ds _ cell found valid locked
  rw [openStreams, Multiset.mem_add, mem_streamOf]
  exact .inl active

end Reachable

end HdhrEmu
