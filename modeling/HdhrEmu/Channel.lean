import HdhrEmu.ChannelMap
import Mathlib.Data.List.Nodup

/-!
# The channel database

All tuners share one table of virtual channels, keyed by major and minor
number.  Nothing in a running server removes an entry: a rescan replaces the
entry of a channel it finds again.  A `const struct dvb_channel *` into the
table therefore always points to the current entry of its key, and the key is
what the model keeps of such a pointer.
-/

namespace HdhrEmu

def dvbChannelMax : Nat := 256

structure DvbChannel where
  major : Int
  minor : Int
  shortName : CStr
  rfChannel : Int
  delivery : DeliverySystem
  frequencyHz : UInt32
  channelTsid : UInt16
  programNumber : UInt16
  pmtPid : UInt16
  pcrPid : UInt16
  videoPid : UInt16
  videoStreamType : UInt8
  audioPid : UInt16
  audioStreamType : UInt8
  deriving DecidableEq, Repr

/-- A channel after `memset(&ch, 0, sizeof(ch))`. -/
def DvbChannel.zero : DvbChannel where
  major := 0
  minor := 0
  shortName := []
  rfChannel := 0
  delivery := .atscVsb
  frequencyHz := 0
  channelTsid := 0
  programNumber := 0
  pmtPid := 0
  pcrPid := 0
  videoPid := 0
  videoStreamType := 0
  audioPid := 0
  audioStreamType := 0

structure ChannelKey where
  major : Int
  minor : Int
  deriving DecidableEq, Repr

def DvbChannel.key (channel : DvbChannel) : ChannelKey :=
  ⟨channel.major, channel.minor⟩

/-- `g_channels[0 .. g_count)`: no key twice, and never more than the array holds. -/
structure ChannelDb where
  channels : List DvbChannel
  keys_nodup : (channels.map DvbChannel.key).Nodup
  bounded : channels.length ≤ dvbChannelMax
  deriving DecidableEq

namespace ChannelDb

def empty : ChannelDb where
  channels := []
  keys_nodup := List.nodup_nil
  bounded := Nat.zero_le _

/-- `dvb_find_channel`. -/
def find? (db : ChannelDb) (key : ChannelKey) : Option DvbChannel :=
  db.channels.find? fun channel => channel.key == key

/-- `dvb_channels_on_freq`. -/
def onFreq (db : ChannelDb) (frequencyHz : UInt32) : List DvbChannel :=
  db.channels.filter fun channel => channel.frequencyHz == frequencyHz

/-- `*ch`, for a pointer that was found earlier. -/
def deref (db : ChannelDb) (key : ChannelKey) : DvbChannel :=
  (db.find? key).getD { DvbChannel.zero with major := key.major, minor := key.minor }

/-- The first entry of a list with the key of `channel` becomes `channel`. -/
def replace (channel : DvbChannel) : List DvbChannel → List DvbChannel
  | [] => []
  | old :: rest =>
      if old.key = channel.key then channel :: rest else old :: replace channel rest

theorem replace_keys (channel : DvbChannel) (channels : List DvbChannel) :
    (replace channel channels).map DvbChannel.key = channels.map DvbChannel.key := by
  induction channels with
  | nil => rfl
  | cons old rest ih =>
      simp only [replace]
      split
      · rename_i same
        simp [same]
      · simp [ih]

/-- `dvb_channel_db_add`: update in place, or append while there is room. -/
def add (db : ChannelDb) (channel : DvbChannel) : ChannelDb :=
  if found : channel.key ∈ db.channels.map DvbChannel.key then
    { channels := replace channel db.channels
      keys_nodup := by rw [replace_keys]; exact db.keys_nodup
      bounded := by
        have kept := congrArg List.length (replace_keys channel db.channels)
        rw [List.length_map, List.length_map] at kept
        exact kept ▸ db.bounded }
  else if room : db.channels.length < dvbChannelMax then
    { channels := db.channels ++ [channel]
      keys_nodup := by
        rw [List.map_append, List.nodup_append]
        refine ⟨db.keys_nodup, List.nodup_singleton _, ?_⟩
        rintro key member _ added rfl
        rw [List.map_singleton, List.mem_singleton] at added
        exact found (added ▸ member)
      bounded := by simpa using Nat.succ_le_of_lt room }
  else db

/-- Whether `dvb_channel_db_add` returns true. -/
def accepts (db : ChannelDb) (channel : DvbChannel) : Bool :=
  channel.key ∈ db.channels.map DvbChannel.key ∨ db.channels.length < dvbChannelMax

/-- The channels that a scan of a mux finds, added one after another. -/
def addAll (db : ChannelDb) (channels : List DvbChannel) : ChannelDb :=
  channels.foldl add db

/-- The channels that `dvb_channel_db_add` takes when it is handed these. -/
def taken : ChannelDb → List DvbChannel → List DvbChannel
  | _, [] => []
  | db, ch :: channels =>
      if db.accepts ch then ch :: (db.add ch).taken channels else (db.add ch).taken channels

theorem find?_key {db : ChannelDb} {key : ChannelKey} {channel : DvbChannel}
    (found : db.find? key = some channel) : channel.key = key := by
  simpa using List.find?_some found

theorem find?_eq_some_iff {db : ChannelDb} {key : ChannelKey} {channel : DvbChannel} :
    db.find? key = some channel ↔ channel ∈ db.channels ∧ channel.key = key := by
  constructor
  · intro found
    exact ⟨List.mem_of_find?_eq_some found, find?_key found⟩
  · rintro ⟨member, rfl⟩
    cases found : db.find? channel.key with
    | none =>
        have differs := List.find?_eq_none.mp found channel member
        simp at differs
    | some other =>
        have same : other = channel :=
          List.inj_on_of_nodup_map db.keys_nodup (List.mem_of_find?_eq_some found) member
            (find?_key found)
        rw [same]

@[simp]
theorem key_deref (db : ChannelDb) (key : ChannelKey) : (db.deref key).key = key := by
  rw [deref]
  cases found : db.find? key with
  | none => rfl
  | some channel => exact find?_key found

theorem mem_replace {channel ch : DvbChannel} {channels : List DvbChannel}
    (member : ch ∈ replace channel channels) : ch ∈ channels ∨ ch = channel := by
  induction channels with
  | nil => exact Or.inl member
  | cons old rest ih =>
      rw [replace] at member
      by_cases same : old.key = channel.key
      · rw [if_pos same, List.mem_cons] at member
        exact member.symm.imp_left (List.mem_cons_of_mem _)
      · rw [if_neg same, List.mem_cons] at member
        rcases member with rfl | later
        · exact Or.inl List.mem_cons_self
        · exact (ih later).imp_left (List.mem_cons_of_mem _)

/-- A channel that is added is taken, or nothing changes. -/
theorem mem_add {db : ChannelDb} {channel ch : DvbChannel}
    (member : ch ∈ (db.add channel).channels) :
    ch ∈ db.channels ∨ ch = channel ∧ db.accepts channel = true := by
  rw [accepts, decide_eq_true_iff]
  rw [add] at member
  by_cases found : channel.key ∈ db.channels.map DvbChannel.key
  · rw [dif_pos found] at member
    exact (mem_replace member).imp_right fun new => ⟨new, Or.inl found⟩
  · rw [dif_neg found] at member
    by_cases room : db.channels.length < dvbChannelMax
    · rw [dif_pos room, List.mem_append, List.mem_singleton] at member
      exact member.imp_right fun new => ⟨new, Or.inr room⟩
    · rw [dif_neg room] at member
      exact Or.inl member

theorem taken_subset {db : ChannelDb} {channels : List DvbChannel} {ch : DvbChannel}
    (member : ch ∈ db.taken channels) : ch ∈ channels := by
  induction channels generalizing db with
  | nil => exact member
  | cons first channels ih =>
      rw [taken] at member
      by_cases accepted : db.accepts first = true
      · rw [if_pos accepted, List.mem_cons] at member
        rcases member with rfl | later
        · exact List.mem_cons_self
        · exact List.mem_cons_of_mem _ (ih later)
      · rw [if_neg accepted] at member
        exact List.mem_cons_of_mem _ (ih member)

/-- What is in the table afterwards was there before or was taken. -/
theorem mem_addAll {db : ChannelDb} {channels : List DvbChannel} {ch : DvbChannel}
    (member : ch ∈ (db.addAll channels).channels) :
    ch ∈ db.channels ∨ ch ∈ db.taken channels := by
  induction channels generalizing db with
  | nil => exact Or.inl member
  | cons first channels ih =>
      rw [taken]
      rcases ih member with inside | later
      · rcases mem_add inside with old | ⟨new, accepted⟩
        · exact Or.inl old
        · rw [if_pos accepted, new]
          exact Or.inr List.mem_cons_self
      · right
        split
        · exact List.mem_cons_of_mem _ later
        · exact later

end ChannelDb

end HdhrEmu
