import HdhrEmu.SelectionWrites

/-!
# The end of an HTTP pull

A pull binds its channel when its stream is open, and gives the selection back
when the stream ends.  Whether the selection is still the one it bound is not
recorded: `release_http_pull` compares the virtual channel and the frequency
with what the database says about the channel at that moment.  That is right
for raw tunes and resets in between.  It goes wrong when the same channel was
selected again, and when a rescan has moved the channel.
-/

namespace HdhrEmu

open Interleaving

/-- An HTTP pull from its `tuner_bind_channel` to its `release_http_pull`, with
whatever other threads do in between. -/
structure PullRun where
  thread : Nat
  key : ChannelKey
  stream : DvbStream
  rest : List Frame
  before : Config World Frame
  bound : Config World Frame
  released : Config World Frame
  after : Config World Frame
  bindChoice : Choice
  between : Schedule
  releaseChoice : Choice
  atBind : before.threads[thread]? = some (.pull (.pullBind key stream) :: rest)
  binds : machine.step .all before (.act thread bindChoice) = some bound
  runs : machine.run .all bound between = some released
  atRelease : released.threads[thread]? = some (.pull (.releaseHttpPull key) :: rest)
  releases : machine.step .all released (.act thread releaseChoice) = some after

namespace PullRun

/-- The writes of the selection after the bind, by whatever thread. -/
def writes (pull : PullRun) : List (Nat × SelectionWrite) :=
  machine.trail .all selectionWrite pull.bound pull.between

/-- `*ch` at the bind. -/
def boundChannel (pull : PullRun) : DvbChannel :=
  pull.before.shared.db.deref pull.key

/-- `*ch` at the release. -/
def releasedChannel (pull : PullRun) : DvbChannel :=
  pull.released.shared.db.deref pull.key

/-- The release resets the selection. -/
def Resets (pull : PullRun) : Prop :=
  pull.released.shared.tuner.selected ≠ .idle ∧ pull.after.shared.tuner.selected = .idle

/-- The selection is reset exactly when nothing else wrote it, and is left
alone when a `vchannel` SET made one in between. -/
structure ReleasesItsOwn (pull : PullRun) : Prop where
  resets_iff : pull.Resets ↔ pull.writes = []
  keeps : ∀ key, .set (.vchannelBind key) ∈ machine.actions .all pull.bound pull.between →
    pull.after.shared.tuner.toSelection = pull.released.shared.tuner.toSelection

/-- The comparison tells whose selection it is: without another write the
channel is still at the frequency of the bind, and a newer bind is not of the
channel as it is at the release. -/
def Recognises (pull : PullRun) : Prop :=
  match lastWrite pull.writes with
  | none => pull.releasedChannel.frequencyHz = pull.boundChannel.frequencyHz
  | some (.bound ch) =>
      ¬ (ch.key = pull.key ∧ ch.frequencyHz = pull.releasedChannel.frequencyHz)
  | some .reset | some (.raw _ _) => True

theorem selected_bound (pull : PullRun) :
    pull.bound.shared.tuner.selected = (SelectionWrite.bound pull.boundChannel).selected := by
  obtain ⟨frame, rest, outcome, top, -, acted, next⟩ := Machine.step_act_threads pull.binds
  rw [pull.atBind] at top
  cases top
  cases acted
  rw [next]
  rfl

/-- What the release finds selected. -/
theorem selected_released (pull : PullRun) :
    pull.released.shared.tuner.selected =
      ((lastWrite pull.writes).getD (.bound pull.boundChannel)).selected := by
  rw [selected_of_run pull.runs, pull.selected_bound, ← writes]
  cases lastWrite pull.writes <;> rfl

theorem tuner_after (pull : PullRun) :
    pull.after.shared.tuner = pull.released.shared.tuner.pullReset pull.releasedChannel := by
  obtain ⟨frame, rest, outcome, top, -, acted, next⟩ := Machine.step_act_threads pull.releases
  rw [pull.atRelease] at top
  cases top
  cases acted
  rw [next]
  rfl

/-- The comparison that the release makes. -/
abbrev Matches (pull : PullRun) : Prop :=
  pull.released.shared.tuner.StillBound pull.releasedChannel

theorem resets_iff_matches (pull : PullRun) : pull.Resets ↔ pull.Matches := by
  rw [Resets, pull.tuner_after]
  constructor
  · rintro ⟨selected, idle⟩
    by_contra lost
    rw [Tuner.pullReset_of_not_stillBound _ lost] at idle
    exact selected idle
  · intro bound
    refine ⟨?_, Tuner.pullReset_of_stillBound _ bound⟩
    intro idle
    have virtualChannel := (Selection.stillBound_iff.mp bound).1
    rw [idle] at virtualChannel
    cases virtualChannel

theorem keeps_iff (pull : PullRun) :
    pull.after.shared.tuner.toSelection = pull.released.shared.tuner.toSelection ↔
      ¬ pull.Matches := by
  constructor
  · intro same bound
    obtain ⟨selected, idle⟩ := pull.resets_iff_matches.mpr bound
    apply selected
    rw [← idle, same]
  · intro lost
    rw [pull.tuner_after, Tuner.pullReset_of_not_stillBound _ lost]

/-- The comparison looks at nothing but the newest write. -/
theorem matches_iff (pull : PullRun) :
    pull.Matches ↔
      ((lastWrite pull.writes).getD (.bound pull.boundChannel)).selected.virtualChannel =
          some pull.key ∧
        ((lastWrite pull.writes).getD (.bound pull.boundChannel)).selected.frequency =
          pull.releasedChannel.frequencyHz := by
  rw [Matches, Selection.stillBound_iff, pull.selected_released, releasedChannel,
    ChannelDb.key_deref]

/-- When nothing else wrote the selection, it has to be recognised. -/
theorem releasesItsOwn_iff_of_nil {pull : PullRun} (alone : pull.writes = []) :
    pull.ReleasesItsOwn ↔ pull.Matches := by
  rw [← pull.resets_iff_matches]
  constructor
  · intro own
    exact own.resets_iff.mpr alone
  · intro resets
    refine ⟨iff_of_true resets alone, ?_⟩
    intro key acted
    exact absurd alone (Machine.trail_ne_nil (fun _ => rfl) acted)

/-- When something did, it must not be. -/
theorem releasesItsOwn_iff_of_ne_nil {pull : PullRun} (written : pull.writes ≠ []) :
    pull.ReleasesItsOwn ↔ ¬ pull.Matches := by
  constructor
  · intro own bound
    exact written (own.resets_iff.mp (pull.resets_iff_matches.mpr bound))
  · intro lost
    refine ⟨iff_of_false (fun resets => lost (pull.resets_iff_matches.mp resets)) written, ?_⟩
    intro key _
    exact pull.keeps_iff.mpr lost

/-- The release of a pull resets the selection exactly when it is its own, and
keeps that of a `vchannel` SET in between, if and only if the comparison tells
the two apart. -/
theorem releasesItsOwn_iff (pull : PullRun) : pull.ReleasesItsOwn ↔ pull.Recognises := by
  have found := pull.matches_iff
  unfold Recognises
  cases last : lastWrite pull.writes with
  | none =>
      have alone : pull.writes = [] := by simpa [lastWrite] using last
      rw [releasesItsOwn_iff_of_nil alone, found, last]
      simp [SelectionWrite.selected, boundChannel, eq_comm]
  | some write =>
      have written : pull.writes ≠ [] := by
        intro alone
        rw [alone] at last
        cases last
      rw [releasesItsOwn_iff_of_ne_nil written, found, last]
      cases write with
      | reset => simp [SelectionWrite.selected, Selected.idle]
      | raw delivery freq => simp [SelectionWrite.selected]
      | bound ch => simp [SelectionWrite.selected]

end PullRun

/-- A pull of 2.1 until its stream is open. -/
def pullUntilBind : Schedule :=
  .arrive (.pull (.streamChannelToClient ⟨2, 1⟩ 0 false)) :: steps 0 8

/-- A `vchannel` SET of the same channel while the stream runs, and the end of
the stream. -/
def reselectedWhilePulling : Schedule :=
  steps 0 1 ++ .arrive (.set (.vchannelSet ⟨2, 1⟩)) :: steps 2 6 ++ steps 0 1

def reselectedPull : PullRun where
  thread := 0
  key := ⟨2, 1⟩
  stream := ⟨0, 0, true, ⟨57000000, .atscVsb⟩⟩
  rest := []
  before := configAfter oneStation pullUntilBind
  bound := configAfter oneStation (pullUntilBind ++ steps 0 1)
  released := configAfter oneStation (pullUntilBind ++ steps 0 1 ++ reselectedWhilePulling)
  after := configAfter oneStation
    (pullUntilBind ++ steps 0 1 ++ reselectedWhilePulling ++ steps 0 1)
  bindChoice := {}
  between := reselectedWhilePulling
  releaseChoice := {}
  atBind := by decide +kernel
  binds := by decide +kernel
  runs := by decide +kernel
  atRelease := by decide +kernel
  releases := by decide +kernel

/-- The SET of the channel that is being pulled is undone by the release. -/
theorem reselected_channel_released :
    machine.Reachable .all (start oneStation) reselectedPull.before ∧
      ¬ reselectedPull.ReleasesItsOwn := by
  refine ⟨⟨pullUntilBind, by decide +kernel⟩, ?_⟩
  intro own
  have acted : .set (.vchannelBind ⟨2, 1⟩) ∈
      machine.actions .all reselectedPull.bound reselectedPull.between := by
    decide +kernel
  have lost : reselectedPull.after.shared.tuner.toSelection ≠
      reselectedPull.released.shared.tuner.toSelection := by
    decide +kernel
  exact lost (own.keeps _ acted)

end HdhrEmu
