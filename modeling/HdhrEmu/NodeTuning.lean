import HdhrEmu.Ownership

/-!
# What the frontend is tuned to

Only a call with a descriptor of the node can retune or close it, and there is
only one such descriptor.  Whoever has it therefore finds the frontend tuned
to what it was tuned to last, whatever the other calls do in the meantime.
-/

namespace HdhrEmu

open Interleaving

/-- The descriptors that are owned are those the kernel has open. -/
def Owned (w : World) (frames : Multiset Frame) : Prop :=
  w.nodeFds = w.fds + tally Frame.fds frames

@[simp]
theorem fdsOf_some_ne_zero (fd : Fd) : fdsOf (some fd) ≠ 0 := by
  intro empty
  simpa [empty] using card_fdsOf_some fd

/-- The descriptor of the acting call is the one that is open, and nothing
else is owned. -/
theorem Owned.alone {w : World} {frame : Frame} {others : List Frame}
    (owned : Owned w (frame ::ₘ (others : Multiset Frame)))
    (acting : frame.fds ≠ 0) :
    w.fds = 0 ∧ ∀ other ∈ others, other.fds = 0 := by
  have card := card_nodeFds w
  have positive : 0 < frame.fds.card := Multiset.card_pos.mpr acting
  rw [owned, tally_cons, Multiset.card_add, Multiset.card_add] at card
  have record : w.fds = 0 := Multiset.card_eq_zero.mp (by omega)
  have rest : tally Frame.fds (others : Multiset Frame) = 0 := Multiset.card_eq_zero.mp (by omega)
  rw [tally_eq_zero] at rest
  exact ⟨record, fun other member => rest other (Multiset.mem_coe.mpr member)⟩

/-- While the node is closed, nothing is owned. -/
theorem Owned.closed {w : World} {frame : Frame} {others : List Frame}
    (owned : Owned w (frame ::ₘ (others : Multiset Frame)))
    (closed : w.node.opener = none) :
    w.fds = 0 ∧ ∀ other ∈ others, other.fds = 0 := by
  unfold Owned at owned
  have empty : w.nodeFds = 0 := by simp [World.nodeFds, closed]
  rw [empty, tally_cons] at owned
  have zero := owned.symm
  rw [add_eq_zero, add_eq_zero, tally_eq_zero] at zero
  exact ⟨zero.1, fun other member => zero.2.2 other (Multiset.mem_coe.mpr member)⟩

section Groups

variable {w : World} {χ : Choice} {outcome : Outcome}

/-- The node stays as it is, or it is opened, or changed by a call that has a
descriptor of it. -/
def KeepsNode (w : World) (fds : Multiset Fd) (outcome : Outcome) : Prop :=
  outcome.shared.node = w.node ∨ w.node.opener = none ∨ fds ≠ 0

theorem holdAct_keepsNode {frame : HoldFrame} (acted : holdAct w χ frame = some outcome) :
    KeepsNode w frame.fds outcome := by
  revert acted
  fun_cases holdAct w χ frame <;> intro acted <;> cases acted
  all_goals first
    | exact .inl rfl
    | exact .inr (.inl (open?_eq_some ‹_›).1)
    | exact .inr (.inr (by simp_all))

theorem releaseAct_keepsNode {frame : ReleaseFrame} (acted : releaseAct w χ frame = some outcome) :
    KeepsNode w frame.fds outcome := by
  revert acted
  fun_cases releaseAct w χ frame <;> intro acted <;> cases acted <;> exact .inl rfl

theorem claimAct_keepsNode {frame : ClaimFrame} (acted : claimAct w χ frame = some outcome) :
    KeepsNode w frame.fds outcome := by
  revert acted
  fun_cases claimAct w χ frame <;> intro acted <;> cases acted
  all_goals first
    | exact .inl rfl
    | exact .inr (.inl (open?_eq_some ‹_›).1)
    | exact .inr (.inr (by simp_all))

theorem streamAct_keepsNode {frame : StreamFrame} (acted : streamAct w χ frame = some outcome) :
    KeepsNode w frame.fds outcome := by
  revert acted
  fun_cases streamAct w χ frame <;> intro acted <;> cases acted
  all_goals first
    | exact .inl rfl
    | exact .inr (.inl (open?_eq_some ‹_›).1)
    | exact .inr (.inr (by simp_all))

theorem pushAct_keepsNode {frame : PushFrame} (acted : pushAct w χ frame = some outcome) :
    KeepsNode w frame.fds outcome := by
  revert acted
  fun_cases pushAct w χ frame <;> intro acted <;> cases acted <;> exact .inl rfl

theorem pullAct_keepsNode {frame : PullFrame} (acted : pullAct w χ frame = some outcome) :
    KeepsNode w frame.fds outcome := by
  revert acted
  fun_cases pullAct w χ frame <;> intro acted <;> cases acted <;> exact .inl rfl

theorem setAct_keepsNode {frame : SetFrame} (acted : setAct w χ frame = some outcome) :
    KeepsNode w frame.fds outcome := by
  revert acted
  fun_cases setAct w χ frame <;> intro acted <;> cases acted <;> exact .inl rfl

theorem scanAct_keepsNode {frame : ScanFrame} (acted : scanAct w χ frame = some outcome) :
    KeepsNode w frame.fds outcome := by
  revert acted
  fun_cases scanAct w χ frame <;> intro acted <;> cases acted
  all_goals first
    | exact .inl rfl
    | exact .inr (.inl (open?_eq_some ‹_›).1)
    | exact .inr (.inr (by simp_all))

theorem statsAct_keepsNode {frame : StatsFrame} (acted : statsAct w χ frame = some outcome) :
    KeepsNode w 0 outcome := by
  revert acted
  fun_cases statsAct w χ frame <;> intro acted <;> cases acted <;> exact .inl rfl

theorem act_keepsNode {frame : Frame} (acted : act w frame χ = some outcome) :
    KeepsNode w frame.fds outcome := by
  cases frame with
  | hold frame => exact holdAct_keepsNode acted
  | release frame => exact releaseAct_keepsNode acted
  | claim frame => exact claimAct_keepsNode acted
  | stream frame => exact streamAct_keepsNode acted
  | push frame => exact pushAct_keepsNode acted
  | pull frame => exact pullAct_keepsNode acted
  | set frame => exact setAct_keepsNode acted
  | scan frame => exact scanAct_keepsNode acted
  | stats frame => exact statsAct_keepsNode acted

/-- While something is held, the node stays as it is. -/
theorem Owned.node_of_held {frame : Frame} {others : List Frame}
    (owned : Owned w (frame ::ₘ (others : Multiset Frame)))
    (held : w.tuner.heldFd.isSome = true) (acted : act w frame χ = some outcome) :
    outcome.shared.node = w.node := by
  obtain ⟨fd, is⟩ := Option.isSome_iff_exists.mp held
  have record : w.fds ≠ 0 := by
    rw [World.fds, is, add_assoc]
    intro none
    exact fdsOf_some_ne_zero fd (add_eq_zero.mp none).1
  rcases act_keepsNode acted with same | closed | owns
  · exact same
  · exact absurd (owned.closed closed).1 record
  · exact absurd (owned.alone owns).1 record

end Groups

/-- The stream object in a local variable. -/
def Frame.holding : Frame → Option DvbStream
  | .push (.pushBind _ ds) | .push (.pushSetStream _ ds) | .pull (.pullBind _ ds)
  | .pull (.pullSetStream _ ds) | .release (.streamTeardown ds _)
  | .release (.streamJoin ds _) => some ds
  | .release (.tunerReleaseParkRestore ds) => ds
  | _ => none

/-- What a call relies on about the tuning of the frontend, and that a result
that locked was read from a frontend tuned to what it is about. -/
def Frame.tuned (tuning : Option Tuning) : Frame → Prop
  | .stream (.streamWaitLock _ _ _ _) | .stream (.streamStart _ _) => tuning.isSome = true
  | .scan (.scanWaitLock job _) =>
      job.ffd.isSome = true ∧ tuning = some (job.ctx.attempt job.freq)
  | .scan (.scanRecord job lock) | .scan (.scanFinalize job lock) =>
      lock.locked = true → lock.tunedTo = some (job.ctx.attempt job.freq)
  | frame => ∀ ds, frame.holding = some ds → tuning = some ds.tuning

/-- A call with a stream object owns its frontend. -/
theorem fds_of_holding {frame : Frame} {ds : DvbStream} (holds : frame.holding = some ds) :
    frame.fds ≠ 0 := by
  revert holds
  fun_cases Frame.holding frame
  case case7 restored => cases restored <;> simp
  all_goals simp

theorem tuning_of_holding {frame : Frame} {ds : DvbStream} {tuning : Option Tuning}
    (tuned : frame.tuned tuning) (holds : frame.holding = some ds) :
    tuning = some ds.tuning := by
  revert tuned holds
  fun_cases Frame.holding frame <;> simp_all [Frame.tuned, Frame.holding]

/-- Nothing is relied on by a call without a descriptor. -/
theorem tuned_of_fds {frame : Frame} (idle : frame.fds = 0) {tuning : Option Tuning}
    (before : frame.tuned tuning) (after : Option Tuning) : frame.tuned after := by
  revert before idle
  fun_cases Frame.tuned tuning frame with
  | case1 | case2 => simp
  | case3 job fd => cases found : job.ffd <;> simp [found]
  | case4 | case5 => exact fun _ before => before
  | case6 frame h₁ h₂ h₃ h₄ h₅ =>
      intro idle _
      have nothing : ∀ ds, frame.holding = some ds → after = some ds.tuning :=
        fun ds holds => absurd idle (fds_of_holding holds)
      revert h₁ h₂ h₃ h₄ h₅
      fun_cases Frame.tuned after frame <;> simp_all

/-- `Frame.tuned` of all frames in a list. -/
def TunedAll (tuning : Option Tuning) (frames : List Frame) : Prop :=
  ∀ frame ∈ frames, frame.tuned tuning

section TunedAll

variable {tuning : Option Tuning}

@[simp]
theorem tunedAll_nil : TunedAll tuning [] :=
  List.forall_mem_nil _

@[simp]
theorem tunedAll_cons {frame : Frame} {frames : List Frame} :
    TunedAll tuning (frame :: frames) ↔ frame.tuned tuning ∧ TunedAll tuning frames :=
  List.forall_mem_cons

@[simp]
theorem tunedAll_append {first second : List Frame} :
    TunedAll tuning (first ++ second) ↔ TunedAll tuning first ∧ TunedAll tuning second :=
  List.forall_mem_append

@[simp]
theorem tunedAll_stopping {held : Option Fd} {frames : List Frame} :
    TunedAll tuning (stopping held frames) ↔ TunedAll tuning frames := by
  unfold stopping
  split <;> simp [Frame.tuned, Frame.holding]

@[simp]
theorem tunedAll_granted (granted : Granted) : TunedAll tuning granted.frames := by
  rcases granted with ⟨_ | _, _⟩ | _ <;>
    simp [Granted.frames, Frame.tuned, Frame.holding]

@[simp]
theorem tunedAll_claimTimedOut (db : ChannelDb) (who : Claimant) :
    TunedAll tuning (who.claimTimedOut db) := by
  rcases who with ⟨_ | _, _⟩ | _ <;>
    simp [Claimant.claimTimedOut, Frame.tuned, Frame.holding]

@[simp]
theorem tunedAll_openFailed (who : Streamer) : TunedAll tuning who.openFailed := by
  cases who <;> simp [Streamer.openFailed, Frame.tuned, Frame.holding]

@[simp]
theorem tunedAll_opened (who : Streamer) (ds : DvbStream) :
    TunedAll tuning (who.opened ds) ↔ tuning = some ds.tuning := by
  cases who <;> simp [Streamer.opened, Frame.tuned, Frame.holding]

end TunedAll

section Groups

variable {w : World} {χ : Choice} {outcome : Outcome}

/-- The next frames can rely on the node, and results are about what was tuned. -/
def NextTuned (outcome : Outcome) : Prop :=
  TunedAll outcome.shared.node.tuning outcome.next

/-- Only the owner of a descriptor tunes it, and it is open. -/
theorem tuning_tune {fd : Fd} (covered : w.fds + fdsOf (some fd) ≤ w.nodeFds) (tuning : Tuning) :
    (w.node.tune fd tuning).tuning = some tuning := by
  rw [Node.tune, if_pos (opener_of_covered covered).1]

theorem tuning_newStream (locked : w.node.tuning.isSome = true) (fd : Fd) (started : Bool) :
    w.node.tuning = some (w.newStream fd started).tuning := by
  obtain ⟨tuning, is⟩ := Option.isSome_iff_exists.mp locked
  rw [World.newStream, is]
  rfl

theorem holdAct_nextTuned {frame : HoldFrame} (acted : holdAct w χ frame = some outcome) :
    NextTuned outcome := by
  revert acted
  fun_cases holdAct w χ frame <;> intro acted <;> cases acted <;>
    simp [NextTuned, Outcome.next, Frame.tuned, Frame.holding]

theorem releaseAct_nextTuned {frame : ReleaseFrame}
    (active : ∀ ds, w.tuner.activeStream = some ds → w.node.tuning = some ds.tuning)
    (tuned : (Frame.release frame).tuned w.node.tuning)
    (acted : releaseAct w χ frame = some outcome) : NextTuned outcome := by
  revert acted
  fun_cases releaseAct w χ frame <;> intro acted <;> cases acted <;>
    simp_all [NextTuned, Outcome.next, Frame.tuned, Frame.holding]

theorem claimAct_nextTuned {frame : ClaimFrame} (acted : claimAct w χ frame = some outcome) :
    NextTuned outcome := by
  revert acted
  fun_cases claimAct w χ frame <;> intro acted <;> cases acted <;>
    simp [NextTuned, Outcome.next, Frame.tuned, Frame.holding]

theorem streamAct_nextTuned {frame : StreamFrame} (covered : w.fds + frame.fds ≤ w.nodeFds)
    (tuned : (Frame.stream frame).tuned w.node.tuning)
    (acted : streamAct w χ frame = some outcome) : NextTuned outcome := by
  revert acted
  fun_cases streamAct w χ frame <;> intro acted <;> cases acted <;>
    simp_all [NextTuned, Outcome.next, Frame.tuned, Frame.holding]
  case case5.refl | case13.refl => rw [tuning_tune covered, Option.isSome_some]
  case case16.refl | case17.refl => exact tuning_newStream tuned _ _

theorem pushAct_nextTuned {frame : PushFrame} (tuned : (Frame.push frame).tuned w.node.tuning)
    (acted : pushAct w χ frame = some outcome) : NextTuned outcome := by
  revert acted
  fun_cases pushAct w χ frame <;> intro acted <;> cases acted <;>
    simp_all [NextTuned, Outcome.next, Frame.tuned, Frame.holding]

theorem pullAct_nextTuned {frame : PullFrame} (tuned : (Frame.pull frame).tuned w.node.tuning)
    (acted : pullAct w χ frame = some outcome) : NextTuned outcome := by
  revert acted
  fun_cases pullAct w χ frame <;> intro acted <;> cases acted <;>
    simp_all [NextTuned, Outcome.next, Frame.tuned, Frame.holding]

theorem setAct_nextTuned {frame : SetFrame} (acted : setAct w χ frame = some outcome) :
    NextTuned outcome := by
  revert acted
  fun_cases setAct w χ frame <;> intro acted <;> cases acted <;>
    simp [NextTuned, Outcome.next, Frame.tuned, Frame.holding]

theorem scanAct_nextTuned {frame : ScanFrame} (covered : w.fds + frame.fds ≤ w.nodeFds)
    (tuned : (Frame.scan frame).tuned w.node.tuning)
    (acted : scanAct w χ frame = some outcome) : NextTuned outcome := by
  revert acted
  fun_cases scanAct w χ frame <;> intro acted <;> cases acted <;>
    simp_all [NextTuned, Outcome.next, Frame.tuned, Frame.holding]
  case case6.refl => exact tuning_tune covered _

theorem statsAct_nextTuned {frame : StatsFrame} (acted : statsAct w χ frame = some outcome) :
    NextTuned outcome := by
  revert acted
  fun_cases statsAct w χ frame <;> intro acted <;> cases acted <;>
    simp [NextTuned, Outcome.next, Frame.tuned, Frame.holding]

theorem act_nextTuned {frame : Frame} (covered : w.fds + frame.fds ≤ w.nodeFds)
    (active : ∀ ds, w.tuner.activeStream = some ds → w.node.tuning = some ds.tuning)
    (tuned : frame.tuned w.node.tuning) (acted : act w frame χ = some outcome) :
    NextTuned outcome := by
  cases frame with
  | hold frame => exact holdAct_nextTuned acted
  | release frame => exact releaseAct_nextTuned active tuned acted
  | claim frame => exact claimAct_nextTuned acted
  | stream frame => exact streamAct_nextTuned covered tuned acted
  | push frame => exact pushAct_nextTuned tuned acted
  | pull frame => exact pullAct_nextTuned tuned acted
  | set frame => exact setAct_nextTuned acted
  | scan frame => exact scanAct_nextTuned covered tuned acted
  | stats frame => exact statsAct_nextTuned acted

/-- A stream becomes active only by a call that has it, and the node is not
touched by that. -/
theorem act_activeStream {frame : Frame} (acted : act w frame χ = some outcome) {ds : DvbStream}
    (active : outcome.shared.tuner.activeStream = some ds) :
    w.tuner.activeStream = some ds ∨
      frame.holding = some ds ∧ outcome.shared.node = w.node := by
  revert acted
  cases frame with
  | hold frame =>
      simp only [act]
      fun_cases holdAct w χ frame <;> intro acted <;> cases acted <;> exact .inl active
  | release frame =>
      simp only [act]
      fun_cases releaseAct w χ frame <;> intro acted <;> cases acted <;>
        simp_all [Frame.holding]
  | claim frame =>
      simp only [act]
      fun_cases claimAct w χ frame <;> intro acted <;> cases acted <;> exact .inl active
  | stream frame =>
      simp only [act]
      fun_cases streamAct w χ frame <;> intro acted <;> cases acted <;> exact .inl active
  | push frame =>
      simp only [act]
      fun_cases pushAct w χ frame <;> intro acted <;> cases acted <;> simp_all [Frame.holding]
  | pull frame =>
      simp only [act]
      fun_cases pullAct w χ frame <;> intro acted <;> cases acted <;> simp_all [Frame.holding]
  | set frame =>
      simp only [act]
      fun_cases setAct w χ frame <;> intro acted <;> cases acted <;> simp_all
  | scan frame =>
      simp only [act]
      fun_cases scanAct w χ frame <;> intro acted <;> cases acted <;> simp_all
  | stats frame =>
      simp only [act]
      fun_cases statsAct w χ frame <;> intro acted <;> cases acted <;> exact .inl active

end Groups

theorem arrives_tuned (tuning : Option Tuning) :
    ∀ frame, arrives frame = true → frame.tuned tuning := by
  simp [forall_arrives, Frame.tuned, Frame.holding]

section Reachable

variable {guard : Guard World Frame Choice} {db : ChannelDb} {config : Config World Frame}

/-- The frontend of the active stream is tuned to its channel, and every call
finds it tuned to what it relies on. -/
theorem tuned_of_reachable (reachable : machine.Reachable guard (start db) config) :
    (∀ ds, config.shared.tuner.activeStream = some ds →
      config.shared.node.tuning = some ds.tuning) ∧
    ∀ frame ∈ config.frames, frame.tuned config.shared.node.tuning := by
  refine reachable.forall_frames Owned
    (fun w => ∀ ds, w.tuner.activeStream = some ds → w.node.tuning = some ds.tuning)
    (fun w frame => frame.tuned w.node.tuning) (fun _ => nodeFds_eq)
    (by simp [start, World.init, Tuner.init])
    (fun _ member => absurd member (Multiset.notMem_zero _))
    (fun w frame _ => arrives_tuned w.node.tuning frame) ?_
  intro w frame others χ outcome owned active tuned rest _ acted
  have covered : w.fds + frame.fds ≤ w.nodeFds := by
    unfold Owned at owned
    rw [owned, tally_cons, ← add_assoc]
    exact le_self_add
  have node : outcome.shared.node = w.node ∨
      w.fds = 0 ∧ ∀ other ∈ others, other.fds = 0 := by
    rcases act_keepsNode acted with same | closed | owns
    · exact .inl same
    · exact .inr (owned.closed closed)
    · exact .inr (owned.alone owns)
  refine ⟨?_, act_nextTuned covered active tuned acted, ?_⟩
  · intro ds now
    rcases act_activeStream acted now with before | ⟨holds, same⟩
    · rcases node with same | ⟨record, -⟩
      · rw [same]
        exact active ds before
      · simp [World.fds, before] at record
    · rw [same]
      exact tuning_of_holding tuned holds
  · intro other member
    rcases node with same | ⟨-, idle⟩
    · rw [same]
      exact rest other member
    · exact tuned_of_fds (idle other member) (rest other member) _

end Reachable

end HdhrEmu
