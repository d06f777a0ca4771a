import HdhrEmu.Channel
import HdhrEmu.PidFilter

/-!
# The PIDs a stream opens

The part of `dvb_stream_open` that chooses demux filters, when every filter
can be opened: an explicit PID filter that is small enough, the wildcard of a
full-mux passthrough, or the PIDs of one program.
-/

namespace HdhrEmu

def maxDemuxFds : Nat := 6

/-- The wildcard PID of a full-mux passthrough. -/
def fullMuxPid : UInt16 := 0x2000

/-- `add_pid`: a PID that is already filtered is not opened again. -/
def addPid (pids : List UInt16) (pid : UInt16) : Option (List UInt16) :=
  if pid ∈ pids then some pids
  else if maxDemuxFds ≤ pids.length then none
  else some (pids ++ [pid])

/-- `add_pid_if_new`: zero in a channel field means that there is no such PID. -/
def addPidIfNew (pids : List UInt16) (pid : UInt16) : Option (List UInt16) :=
  if pid = 0 then some pids else addPid pids pid

/-- The channel on the same mux whose program was asked for, or the channel
itself. -/
def programTarget (db : ChannelDb) (channel : DvbChannel) (programOverride : Int) : DvbChannel :=
  if 0 < programOverride ∧ programOverride ≠ channel.programNumber.toNat then
    ((db.onFreq channel.frequencyHz).find? fun sibling =>
      sibling.programNumber == UInt16.ofNat programOverride.toNat).getD channel
  else channel

/-- The filter in effect: text that does not parse, or names no PID, is no filter. -/
def explicitFilter? (pidFilter : CStr) : Option (List PidRange) :=
  (pidFilterParse pidFilter).filter fun ranges => !ranges.isEmpty

/-- The PIDs that `dvb_stream_open` filters, in the order they are opened. -/
def dvbStreamPids (db : ChannelDb) (channel : DvbChannel) (programOverride : Int)
    (pidFilter : CStr) : Option (List UInt16) :=
  match explicitFilter? pidFilter with
  | some ranges =>
      if pidFilterTotalCount ranges ≤ maxDemuxFds - 1 then do
        let pids ← addPid [] 0x0000
        (ranges.flatMap PidRange.pids).foldlM addPidIfNew pids
      else addPidIfNew [] fullMuxPid
  | none =>
      if programOverride = 0 then addPidIfNew [] fullMuxPid
      else do
        let target := programTarget db channel programOverride
        let pids ← addPid [] 0x0000
        [target.pmtPid, target.pcrPid, target.videoPid, target.audioPid].foldlM addPidIfNew pids

theorem addPid_subset {pids more : List UInt16} {pid : UInt16}
    (added : addPid pids pid = some more) : pids ⊆ more := by
  simp only [addPid] at added
  split at added
  · cases added
    exact List.Subset.refl _
  · split at added
    · cases added
    · cases added
      exact List.subset_append_left _ _

theorem addPidIfNew_subset {pids more : List UInt16} {pid : UInt16}
    (added : addPidIfNew pids pid = some more) : pids ⊆ more := by
  simp only [addPidIfNew] at added
  split at added
  · cases added
    exact List.Subset.refl _
  · exact addPid_subset added

/-- Opening further filters keeps the ones that are open. -/
theorem foldlM_addPidIfNew_subset {pids more wanted : List UInt16}
    (added : wanted.foldlM addPidIfNew pids = some more) : pids ⊆ more := by
  induction wanted generalizing pids with
  | nil =>
      cases added
      exact List.Subset.refl _
  | cons pid wanted ih =>
      rw [List.foldlM_cons] at added
      obtain ⟨next, first, rest⟩ := Option.bind_eq_some_iff.mp added
      exact List.Subset.trans (addPidIfNew_subset first) (ih rest)

/-- A program-filtered stream has the PAT, which a full-mux passthrough does not name. -/
theorem pat_mem_of_program {db : ChannelDb} {channel : DvbChannel} {programOverride : Int}
    {pidFilter : CStr} {pids : List UInt16} (noFilter : explicitFilter? pidFilter = none)
    (program : programOverride ≠ 0)
    (opened : dvbStreamPids db channel programOverride pidFilter = some pids) :
    (0 : UInt16) ∈ pids := by
  simp only [dvbStreamPids, noFilter, program, if_false] at opened
  exact foldlM_addPidIfNew_subset opened (List.mem_singleton.mpr rfl)

/-- An explicit filter in effect takes over the whole choice. -/
theorem dvbStreamPids_of_filter {db : ChannelDb} {pidFilter : CStr}
    (filtered : (explicitFilter? pidFilter).isSome) (first second : DvbChannel)
    (firstProgram secondProgram : Int) :
    dvbStreamPids db first firstProgram pidFilter =
      dvbStreamPids db second secondProgram pidFilter := by
  obtain ⟨ranges, found⟩ := Option.isSome_iff_exists.mp filtered
  simp only [dvbStreamPids, found]

/-- Program zero asks for the full mux, of whatever channel. -/
theorem dvbStreamPids_program_zero {db : ChannelDb} (pidFilter : CStr)
    (first second : DvbChannel) :
    dvbStreamPids db first 0 pidFilter = dvbStreamPids db second 0 pidFilter := by
  simp only [dvbStreamPids, if_true]

theorem dvbStreamPids_full_mux {db : ChannelDb} {pidFilter : CStr} {channel : DvbChannel}
    (noFilter : explicitFilter? pidFilter = none) :
    dvbStreamPids db channel 0 pidFilter = some [fullMuxPid] := by
  simp only [dvbStreamPids, noFilter]
  rfl

end HdhrEmu
