import HdhrEmu.SettledSettings

/-!
# The settings of a server, set by its clients

A server has several tuners, each with threads of its own.  Clients see the
settings through GETs and change them through SETs, and a SET of a tuner runs
between the threads that stream and scan.  As long as these write no settings,
each SET is a transaction on the settings of the whole server.
-/

namespace HdhrEmu

open CString Interleaving

/-- What can be set on a server. -/
@[ext]
structure ServerSettings where
  tuners : List TunerView
  lockkeys : Nat → UInt32
  override : VsbOverride

def unableToStart : CStr :=
  "ERROR: unable to start stream (no channel set?)".toList

/-- The refusals that have nothing to do with the value. -/
def transientRefusals : List CStr :=
  [busyStreaming, busyScanning, unableToStart]

namespace ServerSettings

/-- A SET that is carried out, if its value means something. -/
def set (cfg : Settings) (settings : ServerSettings) (name value : CStr) :
    Option ServerSettings :=
  match dispatchGetset cfg name (some value) with
  | .sysSet leaf value =>
      match handleSysSet cfg leaf value with
      | .override text => some { settings with override := text }
      | _ => none
  | .tunerSet idx leaf value =>
      match handleTunerSet leaf value with
      | .call frame _ =>
          settings.tuners[idx]?.bind fun v =>
            if frame.valid v then
              some { settings with tuners := settings.tuners.set idx (frame.through v) }
            else none
      | .lockkey key =>
          some { settings with lockkeys := Function.update settings.lockkeys idx key }
      | .refused _ => none
  | _ => none

/-- What a SET can be refused with. -/
def refusals (cfg : Settings) (settings : ServerSettings) (name value : CStr) : List CStr :=
  match dispatchGetset cfg name (some value) with
  | .sysSet leaf value =>
      match handleSysSet cfg leaf value with
      | .refused msg => [msg]
      | _ => []
  | .tunerSet idx leaf value =>
      match handleTunerSet leaf value with
      | .call (.targetSet target) _ =>
          (settings.tuners[idx]?.map (SetFrame.targetSet target).refusals).getD [] ++
            [unableToStart]
      | .call frame _ => (settings.tuners[idx]?.map frame.refusals).getD []
      | .lockkey _ => []
      | .refused msg => [msg]
  | _ => [unknownParameter]

/-- SETs that are carried out or refused one after another, with their answers. -/
inductive Ran (cfg : Settings) :
    ServerSettings → List (CStr × CStr) → List Answer → ServerSettings → Prop
  | done (settings : ServerSettings) : Ran cfg settings [] [] settings
  | value {settings next last : ServerSettings} {name value text : CStr}
      {requests : List (CStr × CStr)} {answers : List Answer}
      (set : settings.set cfg name value = some next)
      (others : Ran cfg next requests answers last) :
      Ran cfg settings ((name, value) :: requests) (.value text :: answers) last
  | refused {settings last : ServerSettings} {name value msg : CStr}
      {requests : List (CStr × CStr)} {answers : List Answer}
      (listed : msg ∈ settings.refusals cfg name value)
      (others : Ran cfg settings requests answers last) :
      Ran cfg settings ((name, value) :: requests) (.error msg :: answers) last

/-- SETs that are all carried out. -/
def setAll (cfg : Settings) (settings : ServerSettings) (requests : List (CStr × CStr)) :
    Option ServerSettings :=
  requests.foldlM (fun settings request => settings.set cfg request.1 request.2) settings

end ServerSettings

namespace ServerSettings

variable {cfg : Settings} {settings next last : ServerSettings} {name value : CStr}
  {requests : List (CStr × CStr)} {answers : List Answer}

theorem setAll_cons (settings : ServerSettings) (name value : CStr)
    (requests : List (CStr × CStr)) :
    settings.setAll cfg ((name, value) :: requests) =
      (settings.set cfg name value).bind fun next => next.setAll cfg requests :=
  List.foldlM_cons

theorem setAll_append (settings : ServerSettings) (first second : List (CStr × CStr)) :
    settings.setAll cfg (first ++ second) =
      (settings.setAll cfg first).bind fun next => next.setAll cfg second :=
  List.foldlM_append

/-- Without refusals all SETs have been carried out. -/
theorem Ran.setAll (ran : Ran cfg settings requests answers last)
    (values : ∀ answer ∈ answers, ∃ text, answer = .value text) :
    settings.setAll cfg requests = some last := by
  induction ran with
  | done settings => rfl
  | value set _ ih =>
      rw [setAll_cons, set, Option.bind_some]
      exact ih (List.forall_mem_cons.mp values).2
  | refused _ _ _ =>
      obtain ⟨text, isValue⟩ := values _ List.mem_cons_self
      cases isValue

theorem refusals_of_valid {frame : SetFrame} {v : TunerView} (valid : frame.valid v = true) :
    frame.refusals v ⊆ [busyStreaming, busyScanning] := by
  cases frame <;> simp_all [SetFrame.refusals]
  case channelSet value => split <;> simp

/-- A value that means something is refused for a while at most. -/
theorem refusals_of_set (set : settings.set cfg name value = some next) :
    settings.refusals cfg name value ⊆ transientRefusals := by
  have busy {msg : CStr} (listed : msg ∈ [busyStreaming, busyScanning]) :
      msg ∈ transientRefusals := List.mem_append_left [unableToStart] listed
  have start : unableToStart ∈ transientRefusals :=
    List.mem_append_right [busyStreaming, busyScanning] List.mem_cons_self
  intro msg listed
  cases dispatched : dispatchGetset cfg name (some value) with
  | sysSet leaf value =>
      simp only [ServerSettings.set, refusals, dispatched] at set listed
      cases handled : handleSysSet cfg leaf value <;> simp_all
  | tunerSet idx leaf value =>
      simp only [ServerSettings.set, refusals, dispatched] at set listed
      cases handled : handleTunerSet leaf value with
      | call frame reply =>
          simp only [handled] at set listed
          obtain ⟨v, found, carried⟩ := Option.bind_eq_some_iff.mp set
          split at carried
          · rename_i valid
            have fewer := refusals_of_valid valid
            cases frame with
            | targetSet target =>
                rw [found] at listed
                rcases List.mem_append.mp listed with early | late
                · exact busy (fewer early)
                · rw [List.mem_singleton.mp late]
                  exact start
            | _ =>
                rw [found] at listed
                exact busy (fewer listed)
          · cases carried
      | lockkey key =>
          simp only [handled] at listed
          cases listed
      | refused refusal =>
          simp only [handled] at set
          cases set
  | _ =>
      simp only [ServerSettings.set, dispatched] at set
      cases set

/-- If all values mean something and there is no refusal for a while, there is
no refusal at all. -/
theorem Ran.values (ran : Ran cfg settings requests answers last)
    (all : (settings.setAll cfg requests).isSome)
    (free : ∀ msg ∈ transientRefusals, .error msg ∉ answers) :
    ∀ answer ∈ answers, ∃ text, answer = .value text := by
  induction ran with
  | done settings => simp
  | value set _ ih =>
      rw [setAll_cons, set, Option.bind_some] at all
      have others := ih all fun msg listed member => free msg listed (List.mem_cons_of_mem _ member)
      exact List.forall_mem_cons.mpr ⟨⟨_, rfl⟩, others⟩
  | @refused settings _ name value msg _ _ listed _ ih =>
      rw [setAll_cons] at all
      cases set : settings.set cfg name value with
      | none =>
          rw [set] at all
          cases all
      | some next => exact absurd List.mem_cons_self (free msg (refusals_of_set set listed))

end ServerSettings

/-- The tuners with everything that runs on them, and what else can be set. -/
structure ControlServer (cfg : Settings) where
  tuners : List (Interleaving.Config World Frame)
  lockkeys : Nat → UInt32
  override : VsbOverride
  tuners_length : (tuners.length : Int) = cfg.tunerCount.val

namespace ControlServer

variable {cfg : Settings}

def settings (server : ControlServer cfg) : ServerSettings where
  tuners := server.tuners.map fun config => config.shared.view
  lockkeys := server.lockkeys
  override := server.override

/-- A GET; `dispatch_getset` names no tuner that is not there. -/
def get (server : ControlServer cfg) (instruments : Instruments) (name : CStr) : Answer :=
  match dispatchGetset cfg name none with
  | .help => .value helpText
  | .sysGet leaf => handleSysGet cfg server.override instruments leaf
  | .tunerGet idx leaf =>
      match server.tuners[idx]? with
      | some config => handleTunerGet config.shared (server.lockkeys idx) instruments leaf
      | none => .error unknownParameter
  | _ => .error unknownParameter

/-- A tuner with its threads is replaced. -/
def put (server : ControlServer cfg) (idx : Nat) (config : Interleaving.Config World Frame) :
    ControlServer cfg :=
  { server with
    tuners := server.tuners.set idx config
    tuners_length := by
      rw [List.length_set]
      exact server.tuners_length }

/-- The message that a SET was refused with. -/
def refusal? : SettingMark → Option CStr
  | .refused msg => some msg
  | _ => none

/-- The reply to a call that has returned; `marks` are those of its thread. -/
def callAnswer (frame : SetFrame) (reply : Option CStr) (marks : List SettingMark) (w : World) :
    Answer :=
  match marks.findSome? refusal? with
  | some msg => .error msg
  | none =>
      match frame with
      | .targetSet _ =>
          if .wrote .target ∈ marks then .value (reply.getD w.tuner.channel)
          else .error unableToStart
      | _ => .value (reply.getD w.tuner.channel)

/-- A SET, its answer, and what it leaves.  During a call other threads of the
tuner run as well, but write no settings; after a restart there is no server. -/
inductive Handled (server : ControlServer cfg) (name value : CStr) :
    Answer → ControlServer cfg → Prop
  | unknown (dispatched : dispatchGetset cfg name (some value) = .unknownParameter) :
      Handled server name value (.error unknownParameter) server
  | override {leaf : CStr} {text : VsbOverride}
      (dispatched : dispatchGetset cfg name (some value) = .sysSet leaf value)
      (handled : handleSysSet cfg leaf value = .override text) :
      Handled server name value (.value text.val) { server with override := text }
  | sysRefused {leaf msg : CStr}
      (dispatched : dispatchGetset cfg name (some value) = .sysSet leaf value)
      (handled : handleSysSet cfg leaf value = .refused msg) :
      Handled server name value (.error msg) server
  | lockkey {idx : Nat} {leaf : CStr} {key : UInt32}
      (dispatched : dispatchGetset cfg name (some value) = .tunerSet idx leaf value)
      (handled : handleTunerSet leaf value = .lockkey key) :
      Handled server name value (.value value)
        { server with lockkeys := Function.update server.lockkeys idx key }
  | refused {idx : Nat} {leaf msg : CStr}
      (dispatched : dispatchGetset cfg name (some value) = .tunerSet idx leaf value)
      (handled : handleTunerSet leaf value = .refused msg) :
      Handled server name value (.error msg) server
  | call {idx : Nat} {leaf : CStr} {frame : SetFrame} {reply : Option CStr}
      {first last : Interleaving.Config World Frame} {events : Schedule}
      (dispatched : dispatchGetset cfg name (some value) = .tunerSet idx leaf value)
      (handled : handleTunerSet leaf value = .call frame reply)
      (found : server.tuners[idx]? = some first)
      (ran : machine.run .all first (.arrive (.set frame) :: events) = some last)
      (alone : Alone first.threads.length
        (machine.trail .all settingMark first (.arrive (.set frame) :: events)))
      (returned : last.threads[first.threads.length]? = some []) :
      Handled server name value
        (callAnswer frame reply
          (ownMarks (machine.trail .all settingMark first (.arrive (.set frame) :: events)))
          last.shared)
        (server.put idx last)

/-- The threads of the tuners run, and write no settings. -/
structure Passes (server next : ControlServer cfg) : Prop where
  tuners : List.Forall₂ (fun first last => ∃ events, machine.run .all first events = some last ∧
    machine.trail .all settingMark first events = []) server.tuners next.tuners
  lockkeys : next.lockkeys = server.lockkeys
  override : next.override = server.override

/-- SETs that are handled one after another, with their answers. -/
inductive Served : ControlServer cfg → List (CStr × CStr) → List Answer → ControlServer cfg → Prop
  | done {server next : ControlServer cfg} (passes : server.Passes next) : Served server [] [] next
  | request {server before after last : ControlServer cfg} {name value : CStr} {answer : Answer}
      {requests : List (CStr × CStr)} {answers : List Answer} (passes : server.Passes before)
      (handled : before.Handled name value answer after)
      (others : Served after requests answers last) :
      Served server ((name, value) :: requests) (answer :: answers) last

variable {server next : ControlServer cfg}

theorem Passes.settings (passes : server.Passes next) : next.settings = server.settings := by
  have tuners : next.settings.tuners = server.settings.tuners := by
    apply List.ext_getElem
    · simp [ControlServer.settings, passes.tuners.length_eq]
    · intro idx there here
      rw [ControlServer.settings, List.length_map] at there here
      obtain ⟨events, ran, unmarked⟩ := (List.forall₂_iff_get.mp passes.tuners).2 idx here there
      have kept := Machine.view_of_unmarked settingMark_covers ran unmarked
      rw [List.get_eq_getElem, List.get_eq_getElem] at kept
      simp only [ControlServer.settings, List.getElem_map]
      exact kept
  ext1
  · exact tuners
  · exact passes.lockkeys
  · exact passes.override

theorem settings_put (idx : Nat) (config : Interleaving.Config World Frame) :
    (server.put idx config).settings =
      { server.settings with tuners := server.settings.tuners.set idx config.shared.view } := by
  simp only [ControlServer.settings, put, List.map_set]

/-- A run from the arrival of a call on. -/
theorem run_arrive {first last : Interleaving.Config World Frame} {frame : Frame}
    {events : Schedule} (ran : machine.run .all first (.arrive frame :: events) = some last) :
    machine.run .all ⟨first.shared, first.threads ++ [[frame]]⟩ events = some last ∧
      machine.trail .all settingMark first (.arrive frame :: events) =
        machine.trail .all settingMark ⟨first.shared, first.threads ++ [[frame]]⟩ events := by
  obtain ⟨after, arrived, rest⟩ := Option.bind_eq_some_iff.mp ran
  have trail : machine.trail .all settingMark first (.arrive frame :: events) =
      machine.trail .all settingMark after events := by
    rw [Machine.trail, arrived, Option.map_some, Option.getD_some]
    rfl
  rw [Machine.step] at arrived
  split at arrived
  · cases arrived
    exact ⟨rest, trail⟩
  · cases arrived

/-- A SET of a tuner is a call for a request. -/
theorem isRequest_of_call {leaf value : CStr} {frame : SetFrame} {reply : Option CStr}
    (handled : handleTunerSet leaf value = .call frame reply) : frame.isRequest = true := by
  revert handled
  fun_cases handleTunerSet leaf value <;> intro handled <;> cases handled <;> rfl

/-- The answer to a call that was not refused. -/
theorem callAnswer_of_wrote (frame : SetFrame) (reply : Option CStr) {marks : List SettingMark}
    (w : World) (wrote : ∀ mark ∈ marks, ∃ write, mark = .wrote write) :
    (∃ text, callAnswer frame reply marks w = .value text) ∨
      callAnswer frame reply marks w = .error unableToStart ∧
        ∃ target, frame = .targetSet target := by
  have unrefused : marks.findSome? refusal? = none := by
    rw [List.findSome?_eq_none_iff]
    intro mark member
    obtain ⟨write, rfl⟩ := wrote mark member
    rfl
  unfold callAnswer
  rw [unrefused]
  cases frame with
  | targetSet target =>
      dsimp only
      split
      · exact .inl ⟨_, rfl⟩
      · exact .inr ⟨rfl, target, rfl⟩
  | _ => exact .inl ⟨_, rfl⟩

/-- Nothing is set when nothing has changed. -/
theorem settings_put_same {idx : Nat} {first last : Interleaving.Config World Frame}
    (found : server.tuners[idx]? = some first) (same : last.shared.view = first.shared.view) :
    (server.put idx last).settings = server.settings := by
  have view : server.settings.tuners[idx]? = some last.shared.view := by
    simp [settings, found, same]
  obtain ⟨bound, here⟩ := List.getElem?_eq_some_iff.mp view
  rw [settings_put, ← here, List.set_getElem_self]

/-- What a call of a SET may be refused with. -/
theorem mem_refusals_of_call {name value leaf msg : CStr} {idx : Nat} {frame : SetFrame}
    {reply : Option CStr} {v : TunerView}
    (dispatched : dispatchGetset cfg name (some value) = .tunerSet idx leaf value)
    (handled : handleTunerSet leaf value = .call frame reply)
    (found : server.settings.tuners[idx]? = some v)
    (listed : msg ∈ frame.refusals v ∨
      msg = unableToStart ∧ ∃ target, frame = .targetSet target) :
    msg ∈ server.settings.refusals cfg name value := by
  simp only [ServerSettings.refusals, dispatched, handled]
  rcases listed with early | ⟨rfl, target, rfl⟩
  · cases frame with
    | targetSet target =>
        dsimp only
        rw [found]
        exact List.mem_append_left _ early
    | _ =>
        dsimp only
        rw [found]
        exact early
  · exact List.mem_append_right _ List.mem_cons_self

/-- A SET is carried out as a whole, or it is refused and changes nothing. -/
theorem Handled.transaction {name value : CStr} {answer : Answer}
    (handled : server.Handled name value answer next) :
    (∃ text, answer = .value text) ∧
        server.settings.set cfg name value = some next.settings ∨
      (∃ msg ∈ server.settings.refusals cfg name value, answer = .error msg) ∧
        next.settings = server.settings := by
  cases handled with
  | unknown dispatched => exact .inr ⟨⟨_, by simp [ServerSettings.refusals, dispatched], rfl⟩, rfl⟩
  | override dispatched handled =>
      exact .inl ⟨⟨_, rfl⟩, by simp [ServerSettings.set, dispatched, handled, settings]⟩
  | sysRefused dispatched handled =>
      exact .inr ⟨⟨_, by simp [ServerSettings.refusals, dispatched, handled], rfl⟩, rfl⟩
  | lockkey dispatched handled =>
      exact .inl ⟨⟨_, rfl⟩, by simp [ServerSettings.set, dispatched, handled, settings]⟩
  | refused dispatched handled =>
      exact .inr ⟨⟨_, by simp [ServerSettings.refusals, dispatched, handled], rfl⟩, rfl⟩
  | @call idx leaf frame reply first last events dispatched handled found ran alone returned =>
      obtain ⟨rest, trail⟩ := run_arrive ran
      rw [trail] at alone ⊢
      have view : server.settings.tuners[idx]? = some first.shared.view := by
        simp [settings, found]
      have begins : (first.threads ++ [[Frame.set frame]])[first.threads.length]? =
          some [.set frame] := List.getElem?_concat_length
      obtain ⟨valid, through, wrote⟩ | ⟨same, msg, listed, marks⟩ :=
        set_returned (isRequest_of_call handled) begins rest alone returned
      · obtain answered | ⟨failed, target, rfl⟩ := callAnswer_of_wrote frame reply last.shared wrote
        · refine .inl ⟨answered, ?_⟩
          simp [ServerSettings.set, dispatched, handled, view, valid, settings_put, through]
        · have listed := mem_refusals_of_call dispatched handled view (.inr ⟨rfl, target, rfl⟩)
          exact .inr ⟨⟨_, listed, failed⟩, settings_put_same found through⟩
      · have listed := mem_refusals_of_call dispatched handled view (.inl listed)
        refine .inr ⟨⟨msg, listed, ?_⟩, settings_put_same found same⟩
        rw [marks]
        rfl

theorem Served.ran {requests : List (CStr × CStr)} {answers : List Answer}
    (served : server.Served requests answers next) :
    ServerSettings.Ran cfg server.settings requests answers next.settings := by
  induction served with
  | done passes =>
      rw [passes.settings]
      exact .done _
  | request passes handled _ ih =>
      rw [← passes.settings]
      obtain ⟨⟨text, rfl⟩, set⟩ | ⟨⟨msg, listed, rfl⟩, same⟩ := handled.transaction
      · exact .value set ih
      · rw [same] at ih
        exact .refused listed ih

end ControlServer

end HdhrEmu
