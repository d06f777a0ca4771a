import HdhrEmu.ControlServer
import HdhrEmu.SavedSettings

/-!
# Restoring what was saved

A client reads the settings of a server, parameter by parameter, and sets them
on the same server later, or on another one.  When nothing is refused for a
while only, this succeeds exactly if every channel can be found again.  A
target is no setting: it is what a running push sends to.
-/

namespace HdhrEmu

open CString Interleaving

def overrideName : CStr :=
  "/sys/8vsb_override".toList

/-- The parameters that are saved. -/
def settingNames (cfg : Settings) : List CStr :=
  overrideName :: (List.range cfg.tunerCount.val.toNat).flatMap fun idx =>
    SettingLeaf.all.map fun leaf => tunerName idx leaf.text

/-- The value that was saved for a parameter. -/
def savedValue (saved : CStr → Answer) (name : CStr) : CStr :=
  match saved name with
  | .value text => text
  | .error _ => []

/-- The SETs of one tuner.  A channel text is only set where no virtual channel
is selected. -/
def tunerRequests (saved : CStr → Answer) (idx : Nat) : List (CStr × CStr) :=
  let item (leaf : SettingLeaf) :=
    (tunerName idx leaf.text, savedValue saved (tunerName idx leaf.text))
  [item .channelmap, if (item .vchannel).2 = noneText then item .channel else item .vchannel,
    item .program, item .filter, item .lockkey]

/-- The SETs that restore what was saved. -/
def restoreRequests (cfg : Settings) (saved : CStr → Answer) : List (CStr × CStr) :=
  (overrideName, savedValue saved overrideName) ::
    (List.range cfg.tunerCount.val.toNat).flatMap (tunerRequests saved)

namespace TunerView

variable (saved u : TunerView)

/-- The calls that are all carried out. -/
def carried (frames : List SetFrame) : Option TunerView :=
  frames.foldlM (fun v frame => if frame.valid v then some (frame.through v) else none) u

/-- The channel of `saved` means something on a tuner with its channel map. -/
def Tunable : Prop :=
  saved.tuning.valid ((SetFrame.channelmapSet saved.selection.channelmap).through u) = true

instance : Decidable (saved.Tunable u) :=
  inferInstanceAs (Decidable (_ = true))

/-- The SETs of a tuner with these settings. -/
def requests (lockkey : UInt32) (idx : Nat) : List (CStr × CStr) :=
  let item (leaf : SettingLeaf) := (tunerName idx leaf.text, saved.reply lockkey leaf)
  [item .channelmap, if saved.selection.vchResolved then item .vchannel else item .channel,
    item .program, item .filter, item .lockkey]

variable {saved u}

theorem reply_vchannel_eq_none_iff (lockkey : UInt32) :
    saved.reply lockkey .vchannel = noneText ↔ saved.selection.vchResolved = false := by
  rw [reply]
  cases resolved : saved.selection.vchResolved with
  | false => simp
  | true =>
      refine iff_of_false ?_ (by simp)
      intro same
      have point : '.' ∈ noneText := by
        rw [← same, if_pos rfl]
        simp
      exact absurd point (by decide)

/-- The channel map, the program and the filter of a tuner are always taken
back. -/
theorem carried_calls (settled : Settled saved.selection) (pids : saved.db.PidsFit) :
    u.carried saved.calls = if saved.Tunable u then some (saved.restored u) else none := by
  have filter (v : TunerView) :
      (SetFrame.filterSet (filterReply saved.tuner saved.db)).valid v := by
    rcases filterReply_cases (t := saved.tuner) settled pids with ⟨isNone, -⟩ | value
    · simp [SetFrame.valid, isNone]
    · simp [SetFrame.valid, value.parsed]
  have program (v : TunerView) : (SetFrame.programSet saved.selection.program).valid v = true := rfl
  have map : (SetFrame.channelmapSet saved.selection.channelmap).valid u = true :=
    settled.channelmap
  by_cases tunable : saved.Tunable u
  · have tuning : saved.tuning.valid
        ((SetFrame.channelmapSet saved.selection.channelmap).through u) = true := tunable
    rw [if_pos tunable]
    simp only [carried, calls, List.foldlM_cons, List.foldlM_nil, map, tuning, program, filter,
      if_true, Option.bind_eq_bind, Option.bind_some]
    rfl
  · have tuning : ¬ saved.tuning.valid
        ((SetFrame.channelmapSet saved.selection.channelmap).through u) = true := tunable
    rw [if_neg tunable]
    simp only [carried, calls, List.foldlM_cons, map, if_true, Option.bind_eq_bind,
      Option.bind_some]
    rw [if_neg tuning]
    rfl

/-- The saved texts are read as the calls that they were made for. -/
theorem handleTunerSet_tuning (ints : IntFields saved.selection) (lockkey : UInt32)
    (resolved : saved.selection.vchResolved = true) :
    ∃ reply, handleTunerSet SettingLeaf.vchannel.text (saved.reply lockkey .vchannel) =
      .call saved.tuning reply := by
  have text : saved.reply lockkey .vchannel = decimalInt saved.selection.vchMajor ++
      '.' :: decimalInt saved.selection.vchMinor := by
    rw [reply, if_pos resolved, decimalSigned_eq ints.major.1 ints.major.2,
      decimalSigned_eq ints.minor.1 ints.minor.2]
  have ends : EndsNumeral [] := by
    simp [EndsNumeral]
  have scanned := scanMajorMinor_decimalInt ints.major ints.minor ends
  rw [List.append_nil, ← text] at scanned
  have leaf : SettingLeaf.vchannel.text = "vchannel".toList := rfl
  rw [handleTunerSet, if_neg (by decide), if_pos leaf, scanned, tuning, if_pos resolved]
  exact ⟨_, rfl⟩

theorem handleTunerSet_program (ints : IntFields saved.selection) (lockkey : UInt32) :
    handleTunerSet SettingLeaf.program.text (saved.reply lockkey .program) =
      .call (.programSet saved.selection.program) (some (saved.reply lockkey .program)) := by
  have read : atoi (saved.reply lockkey .program) = saved.selection.program := by
    rw [reply, decimalSigned_eq ints.program.1 ints.program.2]
    exact atoi_decimalInt ints.program.1 ints.program.2
  rw [← read]
  rfl

end TunerView

theorem handleTunerSet_lockkey (key : UInt32) :
    handleTunerSet SettingLeaf.lockkey.text (lockkeyText key) = .lockkey key := by
  have called : handleTunerSet SettingLeaf.lockkey.text (lockkeyText key) =
      .lockkey (if lockkeyText key = noneText then 0
        else UInt32.ofNat (strtoulAnyBase (lockkeyText key))) := rfl
  rw [called, lockkeyText]
  split
  · rename_i zero
    rw [if_pos rfl, zero]
  · have notNone : hexOfId (idDigits key) ≠ noneText := by
      intro same
      cases same
    rw [if_neg notNone, strtoulAnyBase_hexOfId rfl, idOf_idDigits, UInt32.ofNat_toNat]

namespace ServerSettings

variable {cfg : Settings} {settings last : ServerSettings} {idx : Nat} {u saved : TunerView}

/-- Calls of one tuner, carried out one after another. -/
theorem setAll_calls {requests : List (CStr × CStr)} {frames : List SetFrame}
    (inRange : (idx : Int) < cfg.tunerCount.val)
    (calls : List.Forall₂ (fun request frame => ∃ leaf reply, request.1 = tunerName idx leaf ∧
      handleTunerSet leaf request.2 = .call frame reply) requests frames)
    (found : settings.tuners[idx]? = some u) :
    settings.setAll cfg requests =
      (u.carried frames).map fun v => { settings with tuners := settings.tuners.set idx v } := by
  induction calls generalizing settings u with
  | nil =>
      obtain ⟨bound, here⟩ := List.getElem?_eq_some_iff.mp found
      have same : settings.tuners.set idx u = settings.tuners := by
        rw [← here, List.set_getElem_self]
      change some settings = some { settings with tuners := settings.tuners.set idx u }
      rw [same]
  | @cons request frame requests frames call _ ih =>
      obtain ⟨leaf, reply, name, handled⟩ := call
      obtain ⟨called, value⟩ := request
      change called = tunerName idx leaf at name
      subst name
      have set : settings.set cfg (tunerName idx leaf) value =
          if frame.valid u then
            some { settings with tuners := settings.tuners.set idx (frame.through u) }
          else none := by
        simp only [ServerSettings.set, dispatchGetset_tunerName leaf inRange, handled, found,
          Option.bind_some]
      have bound := (List.getElem?_eq_some_iff.mp found).1
      rw [setAll_cons, set, TunerView.carried, List.foldlM_cons]
      split
      · rw [Option.bind_some, Option.bind_eq_bind, Option.bind_some,
          ih (u := frame.through u) (List.getElem?_set_self bound)]
        simp only [List.set_set]
        rfl
      · rfl

/-- The SETs of one tuner. -/
theorem setAll_requests (inRange : (idx : Int) < cfg.tunerCount.val)
    (found : settings.tuners[idx]? = some u) (settled : Settled saved.selection)
    (ints : IntFields saved.selection) (pids : saved.db.PidsFit) (lockkey : UInt32) :
    settings.setAll cfg (saved.requests lockkey idx) =
      if saved.Tunable u then
        some { settings with
          tuners := settings.tuners.set idx (saved.restored u)
          lockkeys := Function.update settings.lockkeys idx lockkey }
      else none := by
  have calls : List.Forall₂ (fun request frame => ∃ leaf reply, request.1 = tunerName idx leaf ∧
      handleTunerSet leaf request.2 = .call frame reply)
      ((saved.requests lockkey idx).take 4) saved.calls := by
    refine .cons ⟨_, _, rfl, rfl⟩ (.cons ?_ (.cons ?_ (.cons ⟨_, _, rfl, rfl⟩ .nil)))
    · cases resolved : saved.selection.vchResolved with
      | true =>
          obtain ⟨reply, handled⟩ := TunerView.handleTunerSet_tuning ints lockkey resolved
          exact ⟨_, reply, rfl, handled⟩
      | false =>
          have tuning : saved.tuning = .channelSet saved.selection.channel := by
            rw [TunerView.tuning, if_neg (by simp [resolved])]
          rw [tuning]
          exact ⟨SettingLeaf.channel.text, _, rfl, rfl⟩
    · exact ⟨_, _, rfl, TunerView.handleTunerSet_program ints lockkey⟩
  have split : saved.requests lockkey idx = (saved.requests lockkey idx).take 4 ++
      [(tunerName idx SettingLeaf.lockkey.text, lockkeyText lockkey)] := rfl
  have locked (settings : ServerSettings) :
      settings.setAll cfg [(tunerName idx SettingLeaf.lockkey.text, lockkeyText lockkey)] =
        some { settings with lockkeys := Function.update settings.lockkeys idx lockkey } := by
    rw [setAll_cons, ServerSettings.set, dispatchGetset_tunerName _ inRange]
    dsimp only
    rw [handleTunerSet_lockkey]
    rfl
  rw [split, setAll_append, setAll_calls inRange calls found,
    TunerView.carried_calls settled pids]
  split
  · rw [Option.map_some, Option.bind_some, locked]
  · rfl

/-- A tuner whose settings can be saved: they came about in a run, its numbers
are numbers of the program, and the PIDs in its lineup are PIDs. -/
structure Savable (v : TunerView) : Prop where
  settled : Settled v.selection
  ints : IntFields v.selection
  pids : v.db.PidsFit

/-- What the SETs of some tuners do. -/
structure Restores (source settings last : ServerSettings) (restored : List Nat) : Prop where
  inside : ∀ idx ∈ restored, ∀ saved, source.tuners[idx]? = some saved →
    ∃ u, settings.tuners[idx]? = some u ∧ saved.Tunable u ∧
      last.tuners[idx]? = some (saved.restored u) ∧ last.lockkeys idx = source.lockkeys idx
  outside : ∀ idx, idx ∉ restored →
    last.tuners[idx]? = settings.tuners[idx]? ∧ last.lockkeys idx = settings.lockkeys idx
  override : last.override = settings.override

/-- The SETs of the tuner at an index. -/
def requests (source : ServerSettings) (idx : Nat) : List (CStr × CStr) :=
  match source.tuners[idx]? with
  | some saved => saved.requests (source.lockkeys idx) idx
  | none => []

variable {source : ServerSettings}

/-- The settings of two servers with the same configuration, the ones of the
first to be saved. -/
structure Matching (cfg : Settings) (source settings : ServerSettings) : Prop where
  count : (source.tuners.length : Int) = cfg.tunerCount.val
  length : settings.tuners.length = source.tuners.length
  savable : ∀ saved ∈ source.tuners, Savable saved

/-- The settings of one tuner are those that were saved. -/
def restoredAt (source settings : ServerSettings) (idx : Nat) (saved u : TunerView) :
    ServerSettings :=
  { settings with
    tuners := settings.tuners.set idx (saved.restored u)
    lockkeys := Function.update settings.lockkeys idx (source.lockkeys idx) }

theorem Matching.setAll_requests (matching : Matching cfg source settings)
    (here : source.tuners[idx]? = some saved) (found : settings.tuners[idx]? = some u) :
    settings.setAll cfg (source.requests idx) =
      if saved.Tunable u then some (source.restoredAt settings idx saved u) else none := by
  have inRange : (idx : Int) < cfg.tunerCount.val := by
    have count := matching.count
    have bound := (List.getElem?_eq_some_iff.mp here).1
    omega
  have savable := matching.savable saved (List.mem_of_getElem? here)
  rw [requests, here]
  exact ServerSettings.setAll_requests inRange found savable.settled savable.ints savable.pids _

theorem Matching.restoredAt (matching : Matching cfg source settings) (idx : Nat)
    (saved u : TunerView) : Matching cfg source (source.restoredAt settings idx saved u) :=
  { matching with
    length := by rw [ServerSettings.restoredAt, List.length_set, matching.length] }

/-- One tuner is restored, and then others. -/
theorem Restores.cons {indices : List Nat} (fresh : idx ∉ indices)
    (here : source.tuners[idx]? = some saved) (found : settings.tuners[idx]? = some u)
    (tunable : saved.Tunable u)
    (restores : Restores source (source.restoredAt settings idx saved u) last indices) :
    Restores source settings last (idx :: indices) where
  inside := by
    intro other member shown there
    by_cases same : other = idx
    · subst same
      rw [here] at there
      cases there
      have bound := (List.getElem?_eq_some_iff.mp found).1
      obtain ⟨kept, key⟩ := restores.outside other fresh
      refine ⟨u, found, tunable, ?_, ?_⟩
      · rw [kept, restoredAt, List.getElem?_set_self bound]
      · exact key.trans (Function.update_self _ _ _)
    · obtain ⟨v, place, rest⟩ := restores.inside other
        ((List.mem_cons.mp member).resolve_left same) shown there
      rw [restoredAt, List.getElem?_set_ne (Ne.symm same)] at place
      exact ⟨v, place, rest⟩
  outside := by
    intro other absent
    obtain ⟨differs, absent⟩ := not_or.mp (mt List.mem_cons.mpr absent)
    obtain ⟨kept, key⟩ := restores.outside other absent
    rw [restoredAt, List.getElem?_set_ne (Ne.symm differs)] at kept
    exact ⟨kept, key.trans (Function.update_of_ne differs _ _)⟩
  override := restores.override

/-- The SETs of some tuners restore them. -/
theorem Matching.restores (matching : Matching cfg source settings) {indices : List Nat}
    (inside : ∀ idx ∈ indices, idx < source.tuners.length) (apart : indices.Nodup)
    (ran : settings.setAll cfg (indices.flatMap source.requests) = some last) :
    Restores source settings last indices := by
  induction indices generalizing settings with
  | nil =>
      cases ran
      exact ⟨by simp, fun _ _ => ⟨rfl, rfl⟩, rfl⟩
  | cons idx indices ih =>
      obtain ⟨first, others⟩ := List.forall_mem_cons.mp inside
      obtain ⟨fresh, apart⟩ := List.nodup_cons.mp apart
      have here : source.tuners[idx]? = some source.tuners[idx] := List.getElem?_eq_getElem first
      have found := List.getElem?_eq_getElem (matching.length ▸ first)
      rw [List.flatMap_cons, setAll_append, matching.setAll_requests here found] at ran
      split at ran
      · rename_i tunable
        exact (ih (matching.restoredAt idx _ _) others apart ran).cons fresh here found tunable
      · cases ran

/-- The SETs of some tuners are all carried out when the channels mean
something. -/
theorem Matching.setAll_isSome (matching : Matching cfg source settings) {indices : List Nat}
    (inside : ∀ idx ∈ indices, idx < source.tuners.length) (apart : indices.Nodup)
    (tunable : ∀ idx ∈ indices, ∀ saved u, source.tuners[idx]? = some saved →
      settings.tuners[idx]? = some u → saved.Tunable u) :
    (settings.setAll cfg (indices.flatMap source.requests)).isSome := by
  induction indices generalizing settings with
  | nil => rfl
  | cons idx indices ih =>
      obtain ⟨first, others⟩ := List.forall_mem_cons.mp inside
      obtain ⟨fresh, apart⟩ := List.nodup_cons.mp apart
      have here : source.tuners[idx]? = some source.tuners[idx] := List.getElem?_eq_getElem first
      have found := List.getElem?_eq_getElem (matching.length ▸ first)
      rw [List.flatMap_cons, setAll_append, matching.setAll_requests here found,
        if_pos (tunable idx List.mem_cons_self _ _ here found), Option.bind_some]
      apply ih (matching.restoredAt idx _ _) others apart
      intro other member saved u there place
      have differs : other ≠ idx := by
        rintro rfl
        exact fresh member
      rw [ServerSettings.restoredAt, List.getElem?_set_ne (Ne.symm differs)] at place
      exact tunable other (List.mem_cons_of_mem _ member) saved u there place

/-- What was read into a buffer fits into it. -/
theorem set_override (settings : ServerSettings) (text : VsbOverride) :
    settings.set cfg overrideName text.val = some { settings with override := text } := by
  have whole : Text.print vsbOverride_positive text.val = text :=
    Subtype.ext (List.take_of_length_le (by
      have short := text.property
      omega))
  have called : settings.set cfg overrideName text.val =
      some { settings with override := Text.print vsbOverride_positive text.val } := rfl
  rw [called, whole]

end ServerSettings

namespace ControlServer

variable {cfg : Settings} {source server last : ControlServer cfg} {idx : Nat} {v : TunerView}
  {now later : Instruments}

theorem get_setting (found : source.settings.tuners[idx]? = some v) (leaf : SettingLeaf) :
    source.get now (tunerName idx leaf.text) = .value (v.reply (source.lockkeys idx) leaf) := by
  rw [settings, List.getElem?_map, Option.map_eq_some_iff] at found
  obtain ⟨config, there, rfl⟩ := found
  have inRange : (idx : Int) < cfg.tunerCount.val := by
    have bound := (List.getElem?_eq_some_iff.mp there).1
    have count := source.tuners_length
    omega
  rw [get, dispatchGetset_tunerName leaf.text inRange none]
  dsimp only
  rw [there]
  exact handleTunerGet_setting config.shared _ now leaf

theorem get_override : source.get now overrideName = .value source.override.val :=
  rfl

theorem tunerRequests_get (found : source.settings.tuners[idx]? = some v) :
    tunerRequests (source.get now) idx = source.settings.requests idx := by
  have item (leaf : SettingLeaf) : savedValue (source.get now) (tunerName idx leaf.text) =
      v.reply (source.lockkeys idx) leaf := by
    rw [savedValue, get_setting found leaf]
  rw [ServerSettings.requests, found]
  simp only [tunerRequests, item, TunerView.requests, TunerView.reply_vchannel_eq_none_iff]
  cases v.selection.vchResolved <;> rfl

theorem restoreRequests_get :
    restoreRequests cfg (source.get now) = (overrideName, source.override.val) ::
      (List.range source.settings.tuners.length).flatMap source.settings.requests := by
  have count : cfg.tunerCount.val.toNat = source.settings.tuners.length := by
    rw [← source.tuners_length, Int.toNat_natCast, settings, List.length_map]
  have each : ∀ idx ∈ List.range source.settings.tuners.length,
      tunerRequests (source.get now) idx = source.settings.requests idx := fun idx member =>
    tunerRequests_get (List.getElem?_eq_getElem (List.mem_range.mp member))
  rw [restoreRequests, count, List.flatMap_congr each]
  rfl

/-- The lineup is that of another server. -/
def SameLineup (source server : ControlServer cfg) : Prop :=
  ∀ (idx : Nat) (saved u : TunerView), source.settings.tuners[idx]? = some saved →
    server.settings.tuners[idx]? = some u → u.db = saved.db

theorem matching (savable : ∀ saved ∈ source.settings.tuners, ServerSettings.Savable saved)
    (server : ControlServer cfg) (override : VsbOverride) :
    ServerSettings.Matching cfg source.settings { server.settings with override := override } where
  count := by
    rw [settings, List.length_map]
    exact source.tuners_length
  length := by
    have first := source.tuners_length
    have second := server.tuners_length
    simp only [settings, List.length_map]
    omega
  savable := savable

/-- The restoring SETs, without the override at their front. -/
theorem setAll_restoreRequests (server : ControlServer cfg) :
    server.settings.setAll cfg (restoreRequests cfg (source.get now)) =
      ({ server.settings with override := source.override } : ServerSettings).setAll cfg
        ((List.range source.settings.tuners.length).flatMap source.settings.requests) := by
  rw [restoreRequests_get, ServerSettings.setAll_cons, ServerSettings.set_override]
  rfl

theorem tunable_of_restorable {saved u : TunerView} (settled : Settled saved.selection)
    (sameDb : u.db = saved.db) (restorable : saved.Restorable) : saved.Tunable u :=
  (TunerView.Restorable.tuning
    (v := (SetFrame.channelmapSet saved.selection.channelmap).through u) restorable settled
    (truncate_channelmap settled.channelmap) sameDb).1

/-- What the two servers show after the restoration. -/
theorem get_restored
    (restores : ServerSettings.Restores source.settings
      { server.settings with override := source.override } last.settings
      (List.range source.settings.tuners.length))
    (savable : ∀ saved ∈ source.settings.tuners, ServerSettings.Savable saved)
    (sameLineup : SameLineup source server) :
    (∀ name ∈ settingNames cfg, last.get later name = source.get now name) ↔
      ∀ saved ∈ source.settings.tuners, saved.Restorable := by
  have count : cfg.tunerCount.val.toNat = source.settings.tuners.length := by
    rw [← source.tuners_length, Int.toNat_natCast, settings, List.length_map]
  -- The settings of one tuner, before and after.
  have at_ : ∀ idx (saved : TunerView), source.settings.tuners[idx]? = some saved →
      ∃ u : TunerView, u.db = saved.db ∧ saved.Tunable u ∧ ∀ leaf : SettingLeaf,
        last.get later (tunerName idx leaf.text) =
          .value ((saved.restored u).reply (source.lockkeys idx) leaf) := by
    intro idx saved here
    have member := List.mem_range.mpr (List.getElem?_eq_some_iff.mp here).1
    obtain ⟨u, found, tunable, there, key⟩ := restores.inside idx member saved here
    refine ⟨u, sameLineup idx saved u here found, tunable, fun leaf => ?_⟩
    have key : last.lockkeys idx = source.lockkeys idx := key
    rw [get_setting there leaf, key]
  constructor
  · intro same saved member
    obtain ⟨idx, bound, rfl⟩ := List.getElem_of_mem member
    have here := List.getElem?_eq_getElem bound
    obtain ⟨u, sameDb, tunable, shown⟩ := at_ idx _ here
    have listed : tunerName idx SettingLeaf.channel.text ∈ settingNames cfg := by
      refine List.mem_cons_of_mem _ (List.mem_flatMap.mpr ⟨idx, ?_, ?_⟩)
      · rw [count]
        exact List.mem_range.mpr bound
      · exact List.mem_map_of_mem (SettingLeaf.mem_all .channel)
    have equal := same _ listed
    rw [shown, get_setting here] at equal
    exact TunerView.restorable_of_restored (savable _ member).settled sameDb tunable
      (Answer.value.inj equal)
  · intro restorable name listed
    rcases List.mem_cons.mp listed with rfl | listed
    · have override : last.override = source.override := restores.override
      rw [get_override, get_override, override]
    · obtain ⟨idx, inRange, listed⟩ := List.mem_flatMap.mp listed
      obtain ⟨leaf, -, rfl⟩ := List.mem_map.mp listed
      rw [count] at inRange
      have bound := List.mem_range.mp inRange
      have here := List.getElem?_eq_getElem bound
      have member := List.getElem_mem bound
      obtain ⟨u, sameDb, -, shown⟩ := at_ idx _ here
      have savable := savable _ member
      rw [shown, get_setting here, (restorable _ member).reply_restored savable.settled
        savable.pids sameDb]

/-- The settings of a server are restored, on this server or on another one
with the same lineup, exactly if every channel can be found again: then all SETs
are carried out, and all parameters are shown as they were. -/
theorem settings_restored_iff {answers : List Answer}
    (reachable : ∀ config ∈ source.tuners, ∃ db, machine.Reachable filtersFit (start db) config)
    (ints : ∀ config ∈ source.tuners, IntFields config.shared.tuner.toSelection)
    (pids : ∀ config ∈ source.tuners, config.shared.db.PidsFit)
    (sameLineup : SameLineup source server)
    (served : server.Served (restoreRequests cfg (source.get now)) answers last)
    (free : ∀ msg ∈ transientRefusals, .error msg ∉ answers) :
    ((∀ answer ∈ answers, ∃ text, answer = .value text) ∧
        ∀ name ∈ settingNames cfg, last.get later name = source.get now name) ↔
      ∀ config ∈ source.tuners, config.shared.view.Restorable := by
  have savable : ∀ saved ∈ source.settings.tuners, ServerSettings.Savable saved := by
    intro saved member
    obtain ⟨config, there, rfl⟩ := List.mem_map.mp member
    obtain ⟨db, reached⟩ := reachable config there
    exact ⟨settled_of_reachable reached, ints config there, pids config there⟩
  have every : (∀ config ∈ source.tuners, config.shared.view.Restorable) ↔
      ∀ saved ∈ source.settings.tuners, saved.Restorable := List.forall_mem_map.symm
  have matches_ := source.matching savable server source.override
  have inside : ∀ idx ∈ List.range source.settings.tuners.length,
      idx < source.settings.tuners.length := fun _ => List.mem_range.mp
  have ran := served.ran
  rw [every]
  constructor
  · rintro ⟨values, same⟩
    have all := ran.setAll values
    rw [setAll_restoreRequests] at all
    exact (get_restored (matches_.restores inside List.nodup_range all) savable sameLineup).mp same
  · intro restorable
    have succeeds : (server.settings.setAll cfg (restoreRequests cfg (source.get now))).isSome := by
      rw [setAll_restoreRequests]
      refine matches_.setAll_isSome inside List.nodup_range ?_
      intro idx _ saved u here found
      have member := List.mem_of_getElem? here
      exact tunable_of_restorable (savable saved member).settled
        (sameLineup idx saved u here found) (restorable saved member)
    have values := ran.values succeeds free
    have all := ran.setAll values
    rw [setAll_restoreRequests] at all
    exact ⟨values, (get_restored (matches_.restores inside List.nodup_range all) savable
      sameLineup).mpr restorable⟩

theorem Passes.refl (server : ControlServer cfg) : server.Passes server where
  tuners := List.forall₂_same.mpr fun _ _ => ⟨[], rfl, rfl⟩
  lockkeys := rfl
  override := rfl

/-- A SET of a tuner on which nothing else runs. -/
theorem handled_call (frame : SetFrame) {leaf value : CStr} {answer : Answer}
    {reply : Option CStr} {first after : Interleaving.Config World Frame} (count : Nat)
    (inRange : (idx : Int) < cfg.tunerCount.val)
    (handled : handleTunerSet leaf value = .call frame reply)
    (found : server.tuners[idx]? = some first)
    (ran : machine.run .all first (.arrive (.set frame) :: steps first.threads.length count) =
      some after)
    (alone : (machine.trail .all settingMark first
      (.arrive (.set frame) :: steps first.threads.length count)).all
        fun mark => mark.1 == first.threads.length)
    (returned : after.threads[first.threads.length]? = some [])
    (answered : callAnswer frame reply (ownMarks (machine.trail .all settingMark first
      (.arrive (.set frame) :: steps first.threads.length count))) after.shared = answer) :
    server.Handled (tunerName idx leaf) value answer (server.put idx after) := by
  rw [← answered]
  exact .call (dispatchGetset_tunerName leaf inRange (some value)) handled found ran
    (fun mark member => eq_of_beq (List.all_eq_true.mp alone mark member)) returned

theorem oneTuner_inRange : (1 : Int) ≤ 1 ∧ (1 : Int) ≤ hdhrMaxTuners := by
  decide

/-- The defaults, with a single tuner. -/
def oneTuner : Settings :=
  { configDefaults 0 with tunerCount := ⟨1, oneTuner_inRange⟩ }

/-- A server with one tuner, after a schedule. -/
def single (schedule : Schedule) : ControlServer oneTuner where
  tuners := [configAfter oneStation schedule]
  lockkeys := fun _ => 0
  override := Text.print vsbOverride_positive noneText
  tuners_length := rfl

/-- A server on which a station is selected. -/
def selectedStation : ControlServer oneTuner :=
  single (.arrive (.set (.vchannelSet ⟨2, 1⟩)) :: steps 0 9)

/-- The SETs that select it on another server, each without anything else. -/
def restoringCalls : List Schedule :=
  [.arrive (.set (.channelmapSet "us-bcast".toList)) :: steps 0 4,
    .arrive (.set (.vchannelSet ⟨2, 1⟩)) :: steps 1 9,
    .arrive (.set (.programSet 3)) :: steps 3 1,
    .arrive (.set (.filterSet "0x0030-0x0031 0x0034".toList)) :: steps 4 1]

def restoredStation : ControlServer oneTuner :=
  { single restoringCalls.flatten with lockkeys := Function.update (fun _ => 0) 0 0 }

def restoringAnswers : List Answer :=
  ["none", "us-bcast", "2.1", "3", "0x0030-0x0031 0x0034", "none"].map fun text =>
    .value text.toList

theorem served_restoredStation (now : Instruments) :
    (single []).Served (restoreRequests oneTuner (selectedStation.get now)) restoringAnswers
      restoredStation := by
  have one : ((0 : Nat) : Int) < oneTuner.tunerCount.val := by
    decide
  have requests : restoreRequests oneTuner (selectedStation.get now) =
      [(overrideName, noneText), (tunerName 0 SettingLeaf.channelmap.text, "us-bcast".toList),
        (tunerName 0 SettingLeaf.vchannel.text, "2.1".toList),
        (tunerName 0 SettingLeaf.program.text, "3".toList),
        (tunerName 0 SettingLeaf.filter.text, "0x0030-0x0031 0x0034".toList),
        (tunerName 0 SettingLeaf.lockkey.text, noneText)] := rfl
  have override : (single []).Handled overrideName noneText (.value noneText) (single []) :=
    (Handled.override rfl rfl : (single []).Handled overrideName noneText
      (.value (Text.print vsbOverride_positive noneText).val)
      { single [] with override := Text.print vsbOverride_positive noneText })
  have map : (single []).Handled (tunerName 0 SettingLeaf.channelmap.text) "us-bcast".toList
      (.value "us-bcast".toList) (single (restoringCalls.take 1).flatten) :=
    handled_call (.channelmapSet "us-bcast".toList) 4 one rfl rfl rfl rfl rfl rfl
  have station : (single (restoringCalls.take 1).flatten).Handled
      (tunerName 0 SettingLeaf.vchannel.text) "2.1".toList (.value "2.1".toList)
      (single (restoringCalls.take 2).flatten) :=
    handled_call (.vchannelSet ⟨2, 1⟩) 9 one rfl rfl rfl rfl rfl rfl
  have program : (single (restoringCalls.take 2).flatten).Handled
      (tunerName 0 SettingLeaf.program.text) "3".toList (.value "3".toList)
      (single (restoringCalls.take 3).flatten) :=
    handled_call (.programSet 3) 1 one rfl rfl rfl rfl rfl rfl
  have filter : (single (restoringCalls.take 3).flatten).Handled
      (tunerName 0 SettingLeaf.filter.text) "0x0030-0x0031 0x0034".toList
      (.value "0x0030-0x0031 0x0034".toList) (single restoringCalls.flatten) :=
    handled_call (.filterSet "0x0030-0x0031 0x0034".toList) 1 one rfl rfl rfl rfl rfl rfl
  rw [requests]
  exact .request (.refl _) override (.request (.refl _) map (.request (.refl _) station
    (.request (.refl _) program (.request (.refl _) filter (.request (.refl _)
      (.lockkey (dispatchGetset_tunerName _ one _) rfl) (.done (.refl _)))))))

theorem settings_restored_iff_station :
    let now : Instruments := ⟨1, 0, 0, 0, fun _ => ⟨none, none⟩⟩
    ((∀ answer ∈ restoringAnswers, ∃ text, answer = .value text) ∧
        ∀ name ∈ settingNames oneTuner,
          restoredStation.get now name = selectedStation.get now name) ↔
      ∀ config ∈ selectedStation.tuners, config.shared.view.Restorable := by
  refine settings_restored_iff ?_ ?_ ?_ ?_ (served_restoredStation _) ?_
  · intro config member
    rw [List.mem_singleton.mp member]
    exact ⟨oneStation, .arrive (.set (.vchannelSet ⟨2, 1⟩)) :: steps 0 9, rfl⟩
  · intro config member
    rw [List.mem_singleton.mp member]
    exact ⟨by decide, by decide, by decide⟩
  · intro config member
    rw [List.mem_singleton.mp member]
    intro ch there
    rw [List.mem_singleton.mp there]
    exact List.forall_iff_forall_mem.mp (by decide)
  · intro idx saved u here found
    cases idx with
    | zero =>
        cases here
        cases found
        rfl
    | succ idx => cases here
  · exact List.forall_iff_forall_mem.mp (by decide)

end ControlServer

end HdhrEmu
