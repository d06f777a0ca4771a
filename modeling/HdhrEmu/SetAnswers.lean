import HdhrEmu.ScanQueue
import HdhrEmu.SelectionWrites

/-!
# What a `channel` SET is answered with

A SET that has been accepted waits until the scan worker records a result for
its session and frequency, or until it times out, and then replies with the
channel text of the tuner.  Neither belongs to the SET: the text is that of
the newest selection, and the recorded result may be from an attempt that was
made for an earlier SET of the same frequency.
-/

namespace HdhrEmu

open CString Interleaving

/-- What a waiter compares: a generation and a frequency. -/
abbrev AttemptKey := UInt32 × UInt32

/-- `last_attempt_generation` and `last_attempt_freq`. -/
def ScanSession.lastAttempt (session : ScanSession) : AttemptKey :=
  (session.lastAttemptGeneration, session.lastAttemptFreq)

def ScanJob.attemptKey (job : ScanJob) : AttemptKey :=
  (job.ctx.generation, job.freq)

/-- An attempt begins with its tune and ends when its result is recorded. -/
inductive AttemptMark
  | started (job : ScanJob)
  | recorded (job : ScanJob)
  deriving DecidableEq

def attemptMark : Marking World Frame AttemptMark := fun _ frame =>
  match frame with
  | .scan (.scanTune job) => some (.started job)
  | .scan (.scanRecord job _) => some (.recorded job)
  | _ => none

/-- The attempt that has started and whose result is not recorded yet. -/
@[simp]
def Frame.underway : Frame → Option ScanJob
  | .scan (.scanWaitLock job _) | .scan (.scanRecord job _) => some job
  | _ => none

/-- The newest result of the trail is of an attempt that started in it. -/
def LastResultIsNew (trail : List (Nat × AttemptMark)) : Prop :=
  ∃ front thread job back, trail = front ++ (thread, .recorded job) :: back ∧
    (∀ other job', (other, .recorded job') ∉ back) ∧ (thread, .started job) ∈ front

theorem lastResultIsNew_append {trail : List (Nat × AttemptMark)} {marks : List (Nat × AttemptMark)}
    (new : LastResultIsNew trail) (quiet : ∀ other job, (other, .recorded job) ∉ marks) :
    LastResultIsNew (trail ++ marks) := by
  obtain ⟨front, thread, job, back, rfl, last, started⟩ := new
  refine ⟨front, thread, job, back ++ marks, by simp, ?_, started⟩
  intro other job' member
  rcases List.mem_append.mp member with earlier | later
  · exact last other job' earlier
  · exact quiet other job' later

/-- What an action has to do with attempts: a result replaces the newest one,
and only a tune begins an attempt. -/
structure AttemptStep (w : World) (frame : Frame) (outcome : Outcome) : Prop where
  result : outcome.shared.tuner.lastAttempt =
    match attemptMark w frame with
    | some (.recorded job) => job.attemptKey
    | _ => w.tuner.lastAttempt
  underway : ∀ next ∈ outcome.frames, ∀ job, next.underway = some job →
    frame.underway = some job ∨ attemptMark w frame = some (.started job)
  spawned : ∀ next ∈ outcome.spawned.flatten, next.underway = none

theorem underway_of_apart {frame : Frame} (apart : frame.apart = true) :
    frame.underway = none := by
  fun_cases Frame.underway frame <;> simp_all

section Groups

variable {w : World} {χ : Choice} {outcome : Outcome}

theorem Apart.attemptStep {frame : Frame} (apart : Apart w outcome)
    (unmarked : attemptMark w frame = none) : AttemptStep w frame outcome := by
  obtain ⟨session, frames⟩ := apart
  rw [Interleaving.Outcome.next, List.all_append, Bool.and_eq_true, List.all_eq_true,
    List.all_eq_true] at frames
  refine ⟨?_, ?_, ?_⟩
  · rw [unmarked, session]
  · intro next member job is
    rw [underway_of_apart (frames.1 next member)] at is
    cases is
  · intro next member
    exact underway_of_apart (frames.2 next member)

theorem setAct_attemptStep {frame : SetFrame} (acted : setAct w χ frame = some outcome) :
    AttemptStep w (.set frame) outcome := by
  revert acted
  fun_cases setAct w χ frame <;> intro acted <;> cases acted
  all_goals
    constructor <;> simp [attemptMark, ScanSession.lastAttempt]

theorem scanAct_attemptStep {frame : ScanFrame} (acted : scanAct w χ frame = some outcome) :
    AttemptStep w (.scan frame) outcome := by
  revert acted
  fun_cases scanAct w χ frame <;> intro acted <;> cases acted
  all_goals
    constructor <;> simp [attemptMark, ScanSession.lastAttempt, ScanJob.attemptKey]

/-- A wait that does not time out ends because of the newest result. -/
theorem lastAttempt_of_wait {generation freq : UInt32}
    (acted : act w (.set (.channelWait generation freq)) χ = some outcome)
    (inTime : χ.timedOut = false) : w.tuner.lastAttempt = (generation, freq) := by
  rw [act, setAct] at acted
  split at acted
  · rename_i ended
    rcases ended with ⟨sameGeneration, sameFreq⟩ | late
    · exact Prod.ext sameGeneration sameFreq
    · rw [inTime] at late
      cases late
  · cases acted

/-- The step lemma of the attempts. -/
theorem act_attemptStep {frame : Frame} (acted : act w frame χ = some outcome) :
    AttemptStep w frame outcome := by
  cases frame with
  | hold frame => exact (holdAct_apart acted).attemptStep rfl
  | release frame => exact (releaseAct_apart acted).attemptStep rfl
  | claim frame => exact (claimAct_apart acted).attemptStep rfl
  | stream frame => exact (streamAct_apart acted).attemptStep rfl
  | push frame => exact (pushAct_apart acted).attemptStep rfl
  | pull frame => exact (pullAct_apart acted).attemptStep rfl
  | set frame => exact setAct_attemptStep acted
  | scan frame => exact scanAct_attemptStep acted
  | stats frame => exact (statsAct_apart acted).attemptStep rfl

end Groups

/-- Since the trail began, every attempt at `awaited` that is under way has
started, and so has the one with the newest result, if that result is awaited. -/
structure SeesAttempts (awaited : AttemptKey) (config : Interleaving.Config World Frame)
    (trail : List (Nat × AttemptMark)) : Prop where
  underway : ∀ thread stack, config.threads[thread]? = some stack → ∀ frame ∈ stack, ∀ job,
    frame.underway = some job → job.attemptKey = awaited → (thread, .started job) ∈ trail
  result : config.shared.tuner.lastAttempt = awaited → LastResultIsNew trail

namespace SeesAttempts

variable {awaited : AttemptKey} {config : Interleaving.Config World Frame}
  {trail : List (Nat × AttemptMark)}

theorem arrive {frame : Frame} (sees : SeesAttempts awaited config trail)
    (arriving : arrives frame = true) :
    SeesAttempts awaited ⟨config.shared, config.threads ++ [[frame]]⟩ trail where
  underway := by
    intro thread stack found other member job is key
    rw [List.getElem?_append] at found
    split at found
    · exact sees.underway thread stack found other member job is key
    · have alone := List.mem_singleton.mp (List.mem_of_getElem? found)
      rw [alone, List.mem_singleton] at member
      rw [member, underway_of_apart (arrives_apart frame arriving)] at is
      cases is
  result := sees.result

theorem act {thread : Nat} {frame : Frame} {rest : List Frame} {χ : Choice} {outcome : Outcome}
    (sees : SeesAttempts awaited config trail)
    (found : config.threads[thread]? = some (frame :: rest))
    (acted : act config.shared frame χ = some outcome) :
    SeesAttempts awaited
      ⟨outcome.shared, config.threads.set thread (outcome.frames ++ rest) ++ outcome.spawned⟩
      (trail ++ ((attemptMark config.shared frame).map (Prod.mk thread)).toList) := by
  have step : AttemptStep config.shared frame outcome := act_attemptStep acted
  constructor
  · intro other stack after next member job is key
    rcases stack_after after with ⟨rfl, rfl⟩ | before | spawned
    · have own (frame' : Frame) (inside : frame' ∈ frame :: rest)
          (was : frame'.underway = some job) : (other, .started job) ∈ trail :=
        sees.underway other _ found frame' inside job was key
      rcases List.mem_append.mp member with new | below
      · rcases step.underway next new job is with was | starts
        · exact List.mem_append_left _ (own frame List.mem_cons_self was)
        · rw [starts]
          exact List.mem_append_right _ List.mem_cons_self
      · exact List.mem_append_left _ (own next (List.mem_cons_of_mem _ below) is)
    · exact List.mem_append_left _ (sees.underway other stack before next member job is key)
    · rw [step.spawned next (List.mem_flatten_of_mem spawned member)] at is
      cases is
  · intro matched
    have result := step.result
    change outcome.shared.tuner.lastAttempt = awaited at matched
    rw [matched] at result
    cases mark : attemptMark config.shared frame with
    | none =>
        rw [mark] at result
        simpa using sees.result result.symm
    | some attempt =>
        rw [mark] at result
        cases attempt with
        | started job => exact lastResultIsNew_append (sees.result result.symm) (by simp)
        | recorded job =>
            -- The result of an attempt at `awaited`: this attempt was under way.
            have was : frame.underway = some job := by
              revert mark
              fun_cases attemptMark config.shared frame <;> simp
            have started := sees.underway thread _ found frame List.mem_cons_self job was result.symm
            exact ⟨trail, thread, job, [], by simp, by simp, started⟩

/-- The run lemma. -/
theorem run {start : Interleaving.Config World Frame} {events : Schedule}
    (sees : SeesAttempts awaited start []) (ran : machine.run .all start events = some config) :
    SeesAttempts awaited config (machine.trail .all attemptMark start events) := by
  apply Machine.trail_invariant (SeesAttempts awaited) ran sees
  · intro config frame past sees arriving
    exact sees.arrive arriving
  · intro config thread frame rest choice outcome past sees found acted
    exact sees.act found acted

end SeesAttempts

/-- The action that accepts a request, and the generation it then waits for:
it joins the session of a running worker, or starts a session of its own. -/
def acceptance (w : World) : Frame → Option (ChannelRequest × UInt32)
  | .set (.channelQueue request) =>
      if w.tuner.activeStream = none ∧ w.tuner.scanWorkerActive = true then
        some (request, w.tuner.scanGeneration)
      else none
  | .set (.channelSelect request _) => some (request, w.tuner.scanGeneration + 1)
  | _ => none

/-- A SET that is accepted, in any configuration. -/
structure AcceptedSet where
  thread : Nat
  frame : Frame
  rest : List Frame
  request : ChannelRequest
  generation : UInt32
  before : Interleaving.Config World Frame
  after : Interleaving.Config World Frame
  choice : Choice
  atAcceptance : before.threads[thread]? = some (frame :: rest)
  accepts : acceptance before.shared frame = some (request, generation)
  accepted : machine.step .all before (.act thread choice) = some after

namespace AcceptedSet

/-- What the SET waits for. -/
def awaited (set : AcceptedSet) : AttemptKey :=
  (set.generation, set.request.value.freq)

/-- What was requested. -/
def tuning (set : AcceptedSet) : Tuning :=
  ⟨set.request.value.freq, set.request.delivery⟩

/-- The channel string of the frequency that was requested. -/
def ownText (set : AcceptedSet) : CStr :=
  channelText set.tuning.delivery set.tuning.freq

/-- When the SET is accepted, no result that it waits for is recorded, and no
attempt that will record one is under way. -/
def Unprecedented (set : AcceptedSet) : Prop :=
  set.before.shared.tuner.lastAttempt ≠ set.awaited ∧
    ∀ frame ∈ set.before.threads.flatten,
      frame.underway.map ScanJob.attemptKey ≠ some set.awaited

instance (set : AcceptedSet) : Decidable set.Unprecedented :=
  inferInstanceAs (Decidable (_ ∧ _))

theorem selected_after (set : AcceptedSet) :
    set.after.shared.tuner.selected =
      (SelectionWrite.raw set.tuning.delivery set.tuning.freq).selected := by
  obtain ⟨frame, rest, outcome, found, -, acted, next⟩ := Machine.step_act_threads set.accepted
  rw [set.atAcceptance] at found
  cases found
  have written : WritesSelection set.before.shared set.frame outcome :=
    act_writes (χ := set.choice) acted
  have own : selectionWrite set.before.shared set.frame =
      some (.raw set.tuning.delivery set.tuning.freq) := by
    have accepts := set.accepts
    revert accepts
    rw [tuning]
    fun_cases acceptance set.before.shared set.frame <;> simp_all [selectionWrite]
  rw [WritesSelection, own] at written
  rw [next]
  exact written

theorem attemptMark_frame (set : AcceptedSet) :
    attemptMark set.before.shared set.frame = none := by
  have accepts := set.accepts
  revert accepts
  fun_cases acceptance set.before.shared set.frame <;> simp_all [attemptMark]

theorem seesAttempts (set : AcceptedSet) (new : set.Unprecedented) :
    SeesAttempts set.awaited set.after [] := by
  have before : SeesAttempts set.awaited set.before [] := by
    constructor
    · intro thread stack found frame member job is key
      have inside := List.mem_flatten_of_mem (List.mem_of_getElem? found) member
      have apart := new.2 frame inside
      rw [is, Option.map_some, key] at apart
      exact absurd rfl apart
    · intro matched
      exact absurd matched new.1
  obtain ⟨frame, rest, outcome, found, -, acted, next⟩ := Machine.step_act_threads set.accepted
  rw [set.atAcceptance] at found
  cases found
  have after := before.act set.atAcceptance acted
  rw [set.attemptMark_frame] at after
  rw [next]
  exact after

end AcceptedSet

/-- An accepted SET whose calls have all returned: the reply is next. -/
structure AnsweredSet extends AcceptedSet where
  events : Schedule
  answered : Interleaving.Config World Frame
  runs : machine.run .all after events = some answered
  returned : answered.threads[thread]? = some rest

namespace AnsweredSet

/-- `send_value_reply(fd, name, t->channel)`. -/
def reply (set : AnsweredSet) : CStr :=
  set.answered.shared.tuner.channel

/-- If the wait of the SET ends before the deadline, the attempt whose result
ends it was started after the SET had been accepted. -/
def EndedByNewAttempt (set : AnsweredSet) : Prop :=
  ∀ first choice second waiting, set.events = first ++ .act set.thread choice :: second →
    machine.run .all set.after first = some waiting →
    waiting.threads[set.thread]? =
      some (.set (.channelWait set.generation set.request.value.freq) :: set.rest) →
    choice.timedOut = false →
    LastResultIsNew (machine.trail .all attemptMark set.after first)

/-- The newest selection since the acceptance, if there is one, is of what was
requested. -/
def Undisturbed (set : AnsweredSet) : Prop :=
  ∀ write ∈ lastWrite (machine.trail .all selectionWrite set.after set.events),
    write.tuning = some set.tuning

instance (set : AnsweredSet) : Decidable set.Undisturbed :=
  inferInstanceAs (Decidable (∀ _ ∈ _, _))

theorem reply_eq_iff (set : AnsweredSet) : set.reply = set.ownText ↔ set.Undisturbed := by
  have selected := congrArg Selected.channel (selected_of_run set.runs)
  rw [set.selected_after] at selected
  change set.reply = _ at selected
  rw [selected, Undisturbed]
  cases lastWrite (machine.trail .all selectionWrite set.after set.events) with
  | none => simp [SelectionWrite.selected, AcceptedSet.ownText]
  | some write => simpa [AcceptedSet.ownText] using SelectionWrite.channel_eq_iff

theorem endedByNewAttempt (set : AnsweredSet) (new : set.Unprecedented) :
    set.EndedByNewAttempt := by
  intro first choice second waiting split reached atWait inTime
  have ran := set.runs
  rw [split, Machine.run_append, reached, Option.bind_some] at ran
  obtain ⟨next, ends, -⟩ := Option.bind_eq_some_iff.mp ran
  obtain ⟨frame, rest, outcome, found, -, acted, -⟩ := Machine.step_act_threads ends
  rw [atWait] at found
  cases found
  have matched := lastAttempt_of_wait (χ := choice) acted inTime
  exact ((set.seesAttempts new).run reached).result matched

end AnsweredSet

/-- The reply to a SET is the channel string of what was requested exactly when
no other selection came in between; and a wait that starts with no result and no
attempt to match is ended by an attempt that started after it. -/
theorem channel_set_answered_iff (set : AnsweredSet) :
    (set.reply = set.ownText ↔ set.Undisturbed) ∧
      (set.Unprecedented → set.EndedByNewAttempt) :=
  ⟨set.reply_eq_iff, set.endedByNewAttempt⟩

/-- A SET of 57 MHz on a free tuner, up to its acceptance. -/
def freshTune : Schedule :=
  .arrive (.set (.channelSet "auto:57000000".toList)) :: steps 0 2

/-- Its worker starts, the attempt locks, and the wait ends. -/
def attemptAndReply : Schedule :=
  steps 0 1 ++ steps 1 5 ++ steps 0 1

def freshSet : AnsweredSet where
  thread := 0
  frame := .set (.channelSelect ⟨⟨57000000, 2⟩, .atscVsb⟩ none)
  rest := []
  request := ⟨⟨57000000, 2⟩, .atscVsb⟩
  generation := 1
  before := configAfter .empty freshTune
  after := configAfter .empty (freshTune ++ steps 0 1)
  choice := {}
  atAcceptance := by decide +kernel
  accepts := by decide +kernel
  accepted := by decide +kernel
  events := attemptAndReply
  answered := configAfter .empty (freshTune ++ steps 0 1 ++ attemptAndReply)
  runs := by decide +kernel
  returned := by decide +kernel

theorem channel_set_answered_iff_fresh_tune :
    freshSet.reply = freshSet.ownText ∧ freshSet.EndedByNewAttempt :=
  ⟨(channel_set_answered_iff freshSet).1.mpr (by decide +kernel),
    (channel_set_answered_iff freshSet).2 (by decide +kernel)⟩

/-- The same SET once more, up to its acceptance behind the worker. -/
def repeatedTune : Schedule :=
  freshTune ++ steps 0 1 ++ attemptAndReply ++
    .arrive (.set (.channelSet "auto:57000000".toList)) :: steps 2 2

/-- Another SET is queued before the repeated one looks at the result. -/
def otherTune : Schedule :=
  .arrive (.set (.channelSet "auto:63000000".toList)) :: steps 3 3

def repeatedSet : AnsweredSet where
  thread := 2
  frame := .set (.channelQueue ⟨⟨57000000, 2⟩, .atscVsb⟩)
  rest := []
  request := ⟨⟨57000000, 2⟩, .atscVsb⟩
  generation := 1
  before := configAfter .empty repeatedTune
  after := configAfter .empty (repeatedTune ++ steps 2 1)
  choice := {}
  atAcceptance := by decide +kernel
  accepts := by decide +kernel
  accepted := by decide +kernel
  events := otherTune ++ steps 2 1
  answered := configAfter .empty (repeatedTune ++ steps 2 1 ++ otherTune ++ steps 2 1)
  runs := by decide +kernel
  returned := by decide +kernel

/-- The repeated SET is answered with the other frequency, and because of the
attempt that was made for the first SET. -/
theorem repeated_set_answered_for_others :
    machine.Reachable .all (start .empty) repeatedSet.before ∧
      repeatedSet.reply ≠ repeatedSet.ownText ∧ ¬ repeatedSet.EndedByNewAttempt := by
  refine ⟨⟨repeatedTune, by decide +kernel⟩, by decide +kernel, ?_⟩
  intro ended
  have new := ended otherTune {} [] (configAfter .empty (repeatedTune ++ steps 2 1 ++ otherTune))
    rfl (by decide +kernel) (by decide +kernel) rfl
  have quiet : machine.trail .all attemptMark repeatedSet.after otherTune = [] := by
    decide +kernel
  rw [quiet] at new
  obtain ⟨front, thread, job, back, split, -⟩ := new
  simp at split

end HdhrEmu
