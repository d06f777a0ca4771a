import HdhrEmu.Tuner

/-!
# A `channel` SET and its request

The SET handler resolves the value to a frequency and takes the delivery
system from the active channel map.  On a free tuner the pair goes into the
context of a new scan worker; behind a running worker only the frequency is
queued, and the worker combines it with the delivery system it was started
with.
-/

namespace HdhrEmu

open CString

/-- What `handle_tuner_set` knows after `parse_channel_value`. -/
structure ChannelRequest where
  value : ChannelValue
  delivery : DeliverySystem
  deriving DecidableEq, Repr

def channelRequest (channelmap value : CStr) : Option ChannelRequest :=
  (parseChannelValue channelmap value).map fun parsed =>
    ⟨parsed, deliveryForMap channelmap⟩

/-- `struct channel_scan_ctx`. -/
structure ChannelScanCtx where
  rfChannel : Int
  freq : UInt32
  delivery : DeliverySystem
  staleHeldFd : Option Fd
  generation : UInt32
  deriving DecidableEq, Repr

namespace ChannelScanCtx

/-- The tuning of the worker's attempt at a frequency. -/
def attempt (ctx : ChannelScanCtx) (freq : UInt32) : Tuning :=
  ⟨freq, ctx.delivery⟩

end ChannelScanCtx

/-- The context of the worker that a SET on a free tuner starts. -/
def Tuner.channelScanCtx (t : Tuner) (request : ChannelRequest) (staleHeldFd : Option Fd) :
    ChannelScanCtx where
  rfChannel := request.value.rfChannel
  freq := request.value.freq
  delivery := request.delivery
  staleHeldFd := staleHeldFd
  generation := t.scanGeneration + 1

/-- The tuning that the value `M:N` names. -/
def namedTuning (mapName : CStr) (n : Nat) : Tuning :=
  ⟨resolveChannelInMap mapName n, deliveryForMap mapName⟩

/-- The selection shows a tuning. -/
def Selection.Selects (selection : Selection) (tuning : Tuning) : Prop :=
  selection.tunedFrequencyHz = tuning.freq ∧
    selection.channel = channelText tuning.delivery tuning.freq

/-- A selection shows one tuning only. -/
theorem Selection.Selects.unique {selection : Selection} {first second : Tuning}
    (shows : selection.Selects first) (also : selection.Selects second) : first = second := by
  obtain ⟨-, text⟩ := shows
  obtain ⟨delivery, freq⟩ := channelText_injective (text.symm.trans also.2)
  cases first
  cases second
  simp_all

/-- A named channel is requested with the delivery system of the active map. -/
theorem channelRequest_named (channelmap : CStr) {mapName : CStr} {n : Nat}
    (supported : mapName ∈ supportedMaps) (covered : resolveChannelInMap mapName n ≠ 0) :
    channelRequest channelmap (mapName ++ ':' :: decimal n) =
      some ⟨⟨resolveChannelInMap mapName n, n⟩, deliveryForMap channelmap⟩ := by
  rw [channelRequest, parseChannelValue_named channelmap supported covered, Option.map_some]

end HdhrEmu
