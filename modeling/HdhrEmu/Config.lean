import HdhrEmu.DeviceId
import HdhrEmu.Discovery
import HdhrEmu.Lib.Registers
import HdhrEmu.Lib.Scanf
import Mathlib.Data.List.DropRight

/-!
# The file of settings

Every line of the file gives a value to a key; comments, blanks around either
and keys that nobody knows are passed over.  A setting is what the last line
for it says, and its default if there is none.
-/

namespace HdhrEmu

open CString

/-- `HDHR_MAX_TUNERS`. -/
def hdhrMaxTuners : Nat := 8

/-- A text in a buffer of some bytes. -/
abbrev Text (size : Nat) :=
  { text : CStr // text.length < size }

/-- `snprintf` with `"%s"` into a buffer. -/
def Text.print {size : Nat} (positive : 0 < size) (text : CStr) : Text size :=
  ⟨truncate size text, by
    rw [truncate, List.length_take]
    omega⟩

/-- `struct hdhr_config`. -/
@[ext]
structure Settings where
  deviceId : UInt32
  friendlyName : Text 64
  model : Text 32
  firmwareName : Text 32
  firmwareVersion : Text 32
  tunerCount : { count : Int // 1 ≤ count ∧ count ≤ hdhrMaxTuners }
  bindIp : Text 16
  dvbAdapter : Fin hdhrMaxTuners → Int
  dvbFrontend : Int
  dvbDemux : Int
  scanOnStartup : Bool
  debugSignalStats : Bool
  allowRemoteRestart : Bool
  channelCacheFile : Text 256
  webRoot : Text 256

/-- `config_defaults`; `now` is what the clock says. -/
def configDefaults (now : UInt32) : Settings where
  deviceId := hdhrDeviceIdGenerate (now &&& 0x00FFFFFF)
  friendlyName := Text.print (by decide) "HDHomeRun ATSC".toList
  model := Text.print (by decide) "HDHR3-US".toList
  firmwareName := Text.print (by decide) "hdhomerun3_atsc".toList
  firmwareVersion := Text.print (by decide) "20130117".toList
  tunerCount := ⟨2, by decide⟩
  bindIp := Text.print (by decide) "0.0.0.0".toList
  dvbAdapter := fun index => index.val
  dvbFrontend := 0
  dvbDemux := 0
  scanOnStartup := true
  debugSignalStats := false
  allowRemoteRestart := false
  channelCacheFile := ⟨[], by decide⟩
  webRoot := Text.print (by decide) "/usr/local/share/hdhr-emu/web".toList

def trim (s : CStr) : CStr :=
  (s.dropWhile (· ∈ [' ', '\t'])).rdropWhile (· ∈ ['\n', '\r', ' ', '\t'])

/-- The key and the value in a line, when it has both. -/
def settingOf? (line : CStr) : Option (CStr × CStr) :=
  let line := line.takeWhile (· ≠ '\x00')
  let line := ((splitAt? '#' line).map Prod.fst).getD line
  match splitAt? '=' line with
  | none => none
  | some (key, val) => if trim key = [] then none else some (trim key, trim val)

/-- What a key names. -/
inductive Slot
  | deviceId
  | friendlyName
  | model
  | firmwareName
  | firmwareVersion
  | tunerCount
  | bindIp
  | dvbFrontend
  | dvbDemux
  | scanOnStartup
  | debugSignalStats
  | allowRemoteRestart
  | channelCacheFile
  | webRoot
  | dvbAdapter (index : Fin hdhrMaxTuners)
  deriving DecidableEq, Repr

/-- The slot of a tuner, `key` being what follows `tuner`. -/
def adapterSlot? (key : CStr) : Option Slot :=
  let idx := atoi key
  if bound : 0 ≤ idx ∧ idx < hdhrMaxTuners then
    some (.dvbAdapter ⟨idx.toNat, by omega⟩)
  else none

/-- The comparisons with the known keys. -/
def slotOf? (key : CStr) : Option Slot :=
  if key = "device_id".toList then some .deviceId
  else if key = "friendly_name".toList then some .friendlyName
  else if key = "model".toList then some .model
  else if key = "firmware_name".toList then some .firmwareName
  else if key = "firmware_version".toList then some .firmwareVersion
  else if key = "tuner_count".toList then some .tunerCount
  else if key = "bind_ip".toList then some .bindIp
  else if key = "dvb_frontend".toList then some .dvbFrontend
  else if key = "dvb_demux".toList then some .dvbDemux
  else if key = "scan_on_startup".toList then some .scanOnStartup
  else if key = "debug_signal_stats".toList then some .debugSignalStats
  else if key = "allow_remote_restart".toList then some .allowRemoteRestart
  else if key = "channel_cache_file".toList then some .channelCacheFile
  else if key = "web_root".toList then some .webRoot
  else if "tuner".toList <+: key ∧ strstr "_adapter".toList key ≠ none then
    adapterSlot? (key.drop 5)
  else none

/-- A number of tuners that there is room for. -/
def clampTuners (n : Int) : { count : Int // 1 ≤ count ∧ count ≤ hdhrMaxTuners } :=
  let n := if n < 1 then 1 else n
  have low : 1 ≤ n := by
    dsimp only [n]
    split <;> omega
  ⟨if n > hdhrMaxTuners then hdhrMaxTuners else n, by
    have eight : hdhrMaxTuners = 8 := rfl
    split <;> omega⟩

/-- The assignment that a key stands for. -/
def Settings.set (cfg : Settings) (slot : Slot) (val : CStr) : Settings :=
  match slot with
  | .deviceId => { cfg with deviceId := UInt32.ofNat (strtoulAnyBase val) }
  | .friendlyName => { cfg with friendlyName := Text.print (by decide) val }
  | .model => { cfg with model := Text.print (by decide) val }
  | .firmwareName => { cfg with firmwareName := Text.print (by decide) val }
  | .firmwareVersion => { cfg with firmwareVersion := Text.print (by decide) val }
  | .tunerCount => { cfg with tunerCount := clampTuners (atoi val) }
  | .bindIp => { cfg with bindIp := Text.print (by decide) val }
  | .dvbFrontend => { cfg with dvbFrontend := atoi val }
  | .dvbDemux => { cfg with dvbDemux := atoi val }
  | .scanOnStartup => { cfg with scanOnStartup := atoi val ≠ 0 }
  | .debugSignalStats => { cfg with debugSignalStats := atoi val ≠ 0 }
  | .allowRemoteRestart => { cfg with allowRemoteRestart := atoi val ≠ 0 }
  | .channelCacheFile => { cfg with channelCacheFile := Text.print (by decide) val }
  | .webRoot => { cfg with webRoot := Text.print (by decide) val }
  | .dvbAdapter index =>
      { cfg with dvbAdapter := Function.update cfg.dvbAdapter index (atoi val) }

/-- What a line with a key and a value does. -/
def Settings.apply (cfg : Settings) (setting : CStr × CStr) : Settings :=
  match slotOf? setting.1 with
  | some slot => cfg.set slot setting.2
  | none => cfg

/-- The body of the loop on the lines of the file. -/
def Settings.readLine (cfg : Settings) (line : CStr) : Settings :=
  match settingOf? line with
  | some setting => cfg.apply setting
  | none => cfg

/-- `config_load`; there is `none` when the file cannot be opened. -/
def configLoad (file : Option CStr) (cfg : Settings) : Settings :=
  match file with
  | none => cfg
  | some text => (fgetsLines 510 text).foldl Settings.readLine cfg

/-- What a setting holds. -/
inductive Value
  | word (word : UInt32)
  | text (text : CStr)
  | number (number : Int)
  | flag (flag : Bool)
  deriving DecidableEq

/-- What a slot holds. -/
def Settings.at (cfg : Settings) : Slot → Value
  | .deviceId => .word cfg.deviceId
  | .friendlyName => .text cfg.friendlyName.val
  | .model => .text cfg.model.val
  | .firmwareName => .text cfg.firmwareName.val
  | .firmwareVersion => .text cfg.firmwareVersion.val
  | .tunerCount => .number cfg.tunerCount.val
  | .bindIp => .text cfg.bindIp.val
  | .dvbFrontend => .number cfg.dvbFrontend
  | .dvbDemux => .number cfg.dvbDemux
  | .scanOnStartup => .flag cfg.scanOnStartup
  | .debugSignalStats => .flag cfg.debugSignalStats
  | .allowRemoteRestart => .flag cfg.allowRemoteRestart
  | .channelCacheFile => .text cfg.channelCacheFile.val
  | .webRoot => .text cfg.webRoot.val
  | .dvbAdapter index => .number (cfg.dvbAdapter index)

/-- What a slot is made to hold by the text behind the `=`. -/
def written (val : CStr) : Slot → Value
  | .deviceId => .word (UInt32.ofNat (strtoulAnyBase val))
  | .friendlyName => .text (truncate 64 val)
  | .model | .firmwareName | .firmwareVersion => .text (truncate 32 val)
  | .tunerCount => .number (max 1 (min (hdhrMaxTuners : Int) (atoi val)))
  | .bindIp => .text (truncate 16 val)
  | .dvbFrontend | .dvbDemux | .dvbAdapter _ => .number (atoi val)
  | .scanOnStartup | .debugSignalStats | .allowRemoteRestart => .flag (atoi val ≠ 0)
  | .channelCacheFile | .webRoot => .text (truncate 256 val)

theorem clampTuners_val (n : Int) : (clampTuners n).val = max 1 (min (hdhrMaxTuners : Int) n) := by
  have eight : hdhrMaxTuners = 8 := rfl
  rw [clampTuners]
  dsimp only
  split_ifs <;> omega

theorem at_set_self (cfg : Settings) (slot : Slot) (val : CStr) :
    (cfg.set slot val).at slot = written val slot := by
  cases slot with
  | tunerCount => exact congrArg Value.number (clampTuners_val _)
  | dvbAdapter index => exact congrArg Value.number (Function.update_self index _ _)
  | _ => rfl

theorem at_set_of_ne (cfg : Settings) {slot other : Slot} (differs : slot ≠ other) (val : CStr) :
    (cfg.set slot val).at other = cfg.at other := by
  cases slot with
  | dvbAdapter index =>
      cases other with
      | dvbAdapter another =>
          have apart : another ≠ index := fun same => differs (congrArg Slot.dvbAdapter same.symm)
          exact congrArg Value.number (Function.update_of_ne apart _ _)
      | _ => rfl
  | _ => cases other <;> first | rfl | exact absurd rfl differs

/-- Settings are what their slots hold. -/
theorem Settings.eq_of_at {first second : Settings}
    (same : ∀ slot, first.at slot = second.at slot) : first = second := by
  apply Settings.ext
  · exact Value.word.inj (same .deviceId)
  · exact Subtype.ext (Value.text.inj (same .friendlyName))
  · exact Subtype.ext (Value.text.inj (same .model))
  · exact Subtype.ext (Value.text.inj (same .firmwareName))
  · exact Subtype.ext (Value.text.inj (same .firmwareVersion))
  · exact Subtype.ext (Value.number.inj (same .tunerCount))
  · exact Subtype.ext (Value.text.inj (same .bindIp))
  · ext index
    exact Value.number.inj (same (.dvbAdapter index))
  · exact Value.number.inj (same .dvbFrontend)
  · exact Value.number.inj (same .dvbDemux)
  · exact Value.flag.inj (same .scanOnStartup)
  · exact Value.flag.inj (same .debugSignalStats)
  · exact Value.flag.inj (same .allowRemoteRestart)
  · exact Subtype.ext (Value.text.inj (same .channelCacheFile))
  · exact Subtype.ext (Value.text.inj (same .webRoot))

/-- The settings as registers that keys and values write. -/
def settingRegisters : Registers Settings Slot Value (CStr × CStr) where
  read := Settings.at
  write := Settings.apply
  target setting := slotOf? setting.1
  value setting := ((slotOf? setting.1).map (written setting.2)).getD (.flag false)

theorem settingRegisters_lawful : settingRegisters.Lawful where
  read_write cfg setting slot := by
    show (cfg.apply setting).at slot =
      if slotOf? setting.1 = some slot then
        ((slotOf? setting.1).map (written setting.2)).getD (.flag false)
      else cfg.at slot
    rw [Settings.apply]
    cases named : slotOf? setting.1 with
    | none => rfl
    | some target =>
        by_cases same : target = slot
        · rw [same, if_pos rfl]
          exact at_set_self cfg slot setting.2
        · rw [if_neg (fun equal => same (Option.some.inj equal))]
          exact at_set_of_ne cfg same setting.2
  ext _ _ same := Settings.eq_of_at same

/-- The keys and values in a file. -/
def settingsIn (text : CStr) : List (CStr × CStr) :=
  (fgetsLines 510 text).filterMap settingOf?

theorem configLoad_eq (text : CStr) (cfg : Settings) :
    configLoad (some text) cfg = (settingsIn text).foldl Settings.apply cfg := by
  show (fgetsLines 510 text).foldl Settings.readLine cfg = _
  rw [settingsIn, List.foldl_filterMap]
  congr 1
  funext cfg line
  rw [Settings.readLine]
  cases settingOf? line <;> rfl

/-- Blanks and tabs. -/
def Blank (text : CStr) : Prop :=
  ∀ character ∈ text, character = ' ' ∨ character = '\t'

/-- A text that neither begins nor ends with what is trimmed. -/
structure Solid (text : CStr) : Prop where
  head : ∀ character ∈ text.head?, character ∉ [' ', '\t']
  last : ∀ character ∈ text.getLast?, character ∉ ['\n', '\r', ' ', '\t']

theorem Solid.of_ends {text : CStr} {first final : Char} (begins : text.head? = some first)
    (ends : text.getLast? = some final) (head : first ∉ [' ', '\t'])
    (last : final ∉ ['\n', '\r', ' ', '\t']) : Solid text where
  head := by
    intro character member
    rwa [← Option.some.inj (begins.symm.trans member)]
  last := by
    intro character member
    rwa [← Option.some.inj (ends.symm.trans member)]

/-- Nothing, or a comment. -/
def Comment (text : CStr) : Prop :=
  ∀ character ∈ text.head?, character = '#'

/-- Blanks, tabs and the carriage return of a line end of two characters. -/
def Trailing (text : CStr) : Prop :=
  ∀ character ∈ text, character = ' ' ∨ character = '\t' ∨ character = '\r'

/-- What a line without its end says: a key with a value, or nothing at all,
because nothing is assigned or no key is named. -/
inductive Spells : CStr → Option (CStr × CStr) → Prop
  | setting {indent key gap gap' val trail comment : CStr} (indent_ : Blank indent)
      (key_ : Solid key) (named : key ≠ []) (plain : ∀ character ∈ key, character ∉ ['#', '='])
      (gap_ : Trailing gap) (gap'_ : Blank gap') (val_ : Solid val) (uncut : '#' ∉ val)
      (trail_ : Trailing trail) (comment_ : Comment comment) :
      Spells (indent ++ key ++ gap ++ '=' :: (gap' ++ val ++ trail ++ comment)) (some (key, val))
  | nothing {text comment : CStr} (plain : ∀ character ∈ text, character ∉ ['#', '='])
      (comment_ : Comment comment) : Spells (text ++ comment) none
  | keyless {indent val comment : CStr} (indent_ : Trailing indent) (uncut : '#' ∉ val)
      (comment_ : Comment comment) : Spells (indent ++ '=' :: (val ++ comment)) none

theorem trim_padded {front text back : CStr} (front_ : Blank front) (solid : Solid text)
    (back_ : ∀ character ∈ back, character ∈ ['\n', '\r', ' ', '\t']) :
    trim (front ++ text ++ back) = text := by
  have begins : (front ++ text ++ back).dropWhile (· ∈ [' ', '\t']) =
      (text ++ back).dropWhile (· ∈ [' ', '\t']) := by
    rw [List.append_assoc, List.dropWhile_append_of_pos]
    intro character member
    simpa using front_ character member
  rw [trim, begins]
  cases text with
  | nil =>
      rw [List.nil_append, List.rdropWhile_eq_nil_iff]
      intro character member
      have inside := (List.dropWhile_sublist _).subset member
      simpa using back_ character inside
  | cons first text =>
      have starts := solid.head first rfl
      rw [List.cons_append, List.dropWhile_cons_of_neg (by simpa using starts),
        ← List.cons_append]
      clear begins
      induction back using List.reverseRecOn with
      | nil =>
          rw [List.append_nil, List.rdropWhile_eq_self_iff]
          intro some_
          have ends := solid.last _ (List.getLast?_eq_some_getLast some_)
          simpa using ends
      | append_singleton back character ih =>
          rw [List.forall_mem_append, List.forall_mem_singleton] at back_
          rw [← List.append_assoc, List.rdropWhile_concat_pos, ih back_.1]
          simpa using back_.2

/-- A line is cut where its comment begins, or ends where it ends. -/
theorem cut_comment {text comment final : CStr} (plain : '#' ∉ text) (comment_ : Comment comment)
    (ended : ∀ character ∈ final, character = '\n') :
    ∃ ending, (∀ character ∈ ending, character = '\n') ∧
      ((splitAt? '#' (text ++ comment ++ final)).map Prod.fst).getD (text ++ comment ++ final) =
        text ++ ending := by
  cases comment with
  | nil =>
      have absent : '#' ∉ text ++ [] ++ final := by
        rw [List.append_nil, List.mem_append, not_or]
        exact ⟨plain, fun member => absurd (ended _ member) (by decide)⟩
      refine ⟨final, ended, ?_⟩
      rw [splitAt?_eq_none absent, List.append_nil]
      rfl
  | cons mark comment =>
      refine ⟨[], fun character member => absurd member List.not_mem_nil, ?_⟩
      rw [comment_ mark rfl, List.append_assoc, List.cons_append, splitAt?_append plain,
        List.append_nil]
      rfl

theorem Blank.trailing {text : CStr} (blank : Blank text) : Trailing text :=
  fun character member => (blank character member).imp_right Or.inl

theorem Trailing.not_mem {text : CStr} (trailing : Trailing text) {character : Char}
    (solid : character ∉ [' ', '\t', '\r']) : character ∉ text := by
  intro member
  apply solid
  simpa using trailing character member

/-- What is left of it, with the end of the line behind it, is trimmed. -/
theorem Trailing.trimmed {text ending : CStr} (trailing : Trailing text)
    (ended : ∀ character ∈ ending, character = '\n') :
    ∀ character ∈ text ++ ending, character ∈ ['\n', '\r', ' ', '\t'] := by
  rw [List.forall_mem_append]
  constructor
  · intro character member
    rcases trailing character member with rfl | rfl | rfl <;> decide
  · intro character member
    rw [ended character member]
    decide

theorem no_ending : ∀ character ∈ ([] : CStr), character = '\n' :=
  fun _ member => absurd member List.not_mem_nil

theorem not_mem_line {line final : CStr} (isText : '\x00' ∉ line)
    (ended : ∀ character ∈ final, character = '\n') : '\x00' ∉ line ++ final := by
  rw [List.mem_append, not_or]
  exact ⟨isText, fun member => absurd (ended _ member) (by decide)⟩

/-- What stands before the `=` and behind it is trimmed, and the comment is not seen. -/
theorem settingOf?_assignment {key val comment final : CStr}
    (plainKey : ∀ mark ∈ ['#', '='], mark ∉ key) (plainVal : '#' ∉ val) (comment_ : Comment comment)
    (isText : '\x00' ∉ key ++ '=' :: (val ++ comment))
    (ended : ∀ character ∈ final, character = '\n') :
    ∃ ending, (∀ character ∈ ending, character = '\n') ∧
      settingOf? (key ++ '=' :: (val ++ comment) ++ final) =
        if trim key = [] then none else some (trim key, trim (val ++ ending)) := by
  have plain : '#' ∉ key ++ '=' :: val := by
    rw [List.mem_append, List.mem_cons, not_or, not_or]
    exact ⟨plainKey '#' (by decide), by decide, plainVal⟩
  obtain ⟨ending, only, cut⟩ := cut_comment plain comment_ ended
  have regroup : key ++ '=' :: (val ++ comment) = key ++ '=' :: val ++ comment := by
    simp
  refine ⟨ending, only, ?_⟩
  rw [settingOf?, takeWhile_text (not_mem_line isText ended), regroup, cut, List.append_assoc,
    List.cons_append, splitAt?_append (plainKey '=' (by decide))]

/-- A line is read as what it says, with its end or without it. -/
theorem settingOf?_of_spells {line final : CStr} {said : Option (CStr × CStr)}
    (spells : Spells line said) (isText : '\x00' ∉ line)
    (ended : ∀ character ∈ final, character = '\n') : settingOf? (line ++ final) = said := by
  cases spells with
  | @nothing text comment plain comment_ =>
      obtain ⟨ending, only, cut⟩ :=
        cut_comment (fun member => absurd (plain _ member) (by decide)) comment_ ended
      have absent : '=' ∉ text ++ ending := by
        rw [List.mem_append, not_or]
        exact ⟨fun member => absurd (plain _ member) (by decide),
          fun member => absurd (only _ member) (by decide)⟩
      rw [settingOf?, takeWhile_text (not_mem_line isText ended), cut, splitAt?_eq_none absent]
  | @keyless indent val comment indent_ uncut comment_ =>
      have front : ∀ mark ∈ ['#', '='], mark ∉ indent := by
        intro mark special
        rcases List.mem_pair.mp special with rfl | rfl <;> exact indent_.not_mem (by decide)
      obtain ⟨ending, -, read⟩ := settingOf?_assignment front uncut comment_ isText ended
      have solid : Solid ([] : CStr) :=
        ⟨fun _ member => absurd member nofun, fun _ member => absurd member nofun⟩
      have key : trim ([] ++ [] ++ (indent ++ [])) = [] :=
        trim_padded (fun _ member => absurd member List.not_mem_nil) solid (indent_.trimmed no_ending)
      rw [List.nil_append, List.nil_append, List.append_nil] at key
      rw [read, if_pos key]
  | @setting indent key gap gap' val trail comment indent_ key_ named plain gap_ gap'_ val_ uncut
      trail_ comment_ =>
      have front : ∀ mark ∈ ['#', '='], mark ∉ indent ++ key ++ gap := by
        intro mark special
        have solid : mark ∉ [' ', '\t', '\r'] := by
          rcases List.mem_pair.mp special with rfl | rfl <;> decide
        rw [List.mem_append, List.mem_append, not_or, not_or]
        exact ⟨⟨indent_.trailing.not_mem solid, fun member => plain mark member special⟩,
          gap_.not_mem solid⟩
      have behind : '#' ∉ gap' ++ val ++ trail := by
        rw [List.mem_append, List.mem_append, not_or, not_or]
        exact ⟨⟨gap'_.trailing.not_mem (by decide), uncut⟩, trail_.not_mem (by decide)⟩
      obtain ⟨ending, only, read⟩ := settingOf?_assignment front behind comment_ isText ended
      have key' : trim (indent ++ key ++ (gap ++ [])) = key :=
        trim_padded indent_ key_ (gap_.trimmed no_ending)
      have value : trim (gap' ++ val ++ (trail ++ ending)) = val :=
        trim_padded gap'_ val_ (trail_.trimmed only)
      rw [List.append_nil] at key'
      rw [read, key', if_neg named, List.append_assoc (gap' ++ val), value]

/-- A line of a file with what it says; it fits the buffer that it is read into. -/
structure FileLine where
  text : CStr
  said : Option (CStr × CStr)
  spells : Spells text said
  fits : text.length ≤ 510
  oneLine : '\n' ∉ text
  isText : '\x00' ∉ text

/-- The file of some lines. -/
def fileOf (lines : List FileLine) : CStr :=
  lines.flatMap fun line => line.text ++ ['\n']

theorem settingsIn_fileOf (lines : List FileLine) :
    settingsIn (fileOf lines) = lines.filterMap FileLine.said := by
  have read : fgetsLines 510 (fileOf lines) = lines.map fun line => line.text ++ ['\n'] := by
    have fit : ∀ line ∈ lines.map FileLine.text, '\n' ∉ line ∧ line.length ≤ 510 := by
      simp only [List.forall_mem_map]
      exact fun line _ => ⟨line.oneLine, line.fits⟩
    have lines_ := fgetsLines_lines fit
    rwa [List.flatMap_map, List.map_map] at lines_
  rw [settingsIn, read, List.filterMap_map]
  congr 1
  funext line
  exact settingOf?_of_spells line.spells line.isText fun _ => List.mem_singleton.mp

theorem settingsIn_append {front : CStr} (whole : WholeLines front) (rest : CStr) :
    settingsIn (front ++ rest) = settingsIn front ++ settingsIn rest := by
  rw [settingsIn, fgetsLines_append whole, List.filterMap_append]
  rfl

theorem wholeLines_fileOf (lines : List FileLine) : WholeLines (fileOf lines) := by
  induction lines using List.reverseRecOn with
  | nil => exact Or.inl rfl
  | append_singleton lines line ih =>
      right
      simp [fileOf]

theorem settingsIn_nil : settingsIn [] = [] := by
  rw [settingsIn, fgetsLines]
  rfl

/-- The last line of a file need not have an end. -/
theorem settingsIn_unended (line : FileLine) : settingsIn line.text = line.said.toList := by
  have read := fgets_unended line.oneLine (Nat.le_succ_of_le line.fits)
  have said := settingOf?_of_spells line.spells line.isText no_ending
  rw [List.append_nil] at said
  cases text : line.text with
  | nil =>
      rw [text] at said
      rw [settingsIn_nil, ← said]
      rfl
  | cons character rest =>
      rw [text] at read said
      rw [settingsIn, fgetsLines, read, fgetsLines, List.filterMap_cons, said]
      cases line.said <;> rfl

theorem settingsIn_newline (rest : CStr) : settingsIn ('\n' :: rest) = settingsIn rest := by
  have read := @fgetsLines_line 510 [] List.not_mem_nil (by decide) rest
  rw [List.nil_append] at read
  rw [settingsIn, read]
  rfl

/-- A line in a file is followed by the end of the line, or of the file. -/
theorem settingsIn_line (line : FileLine) {after : CStr}
    (ends : after = [] ∨ after.head? = some '\n') :
    settingsIn (line.text ++ after) = line.said.toList ++ settingsIn after := by
  rcases ends with rfl | newline
  · rw [List.append_nil, settingsIn_unended, settingsIn_nil, List.append_nil]
  · obtain ⟨rest, rfl⟩ := List.head?_eq_some_iff.mp newline
    have parts : line.text ++ '\n' :: rest = fileOf [line] ++ rest := by
      simp [fileOf]
    rw [parts, settingsIn_append (wholeLines_fileOf _), settingsIn_fileOf, settingsIn_newline]
    cases said : line.said <;> simp [said]

/-- The last setting for a slot. -/
def lastFor (settings : List (CStr × CStr)) (slot : Slot) : Option CStr :=
  (settings.filter fun setting => slotOf? setting.1 = some slot).getLast?.map Prod.snd

theorem lastValue_eq (settings : List (CStr × CStr)) (slot : Slot) :
    settingRegisters.lastValue settings slot =
      (lastFor settings slot).map fun val => written val slot := by
  rw [Registers.lastValue, lastFor, Option.map_map]
  apply Option.map_congr
  intro setting last
  have member := List.mem_of_getLast? last
  have target : slotOf? setting.1 = some slot := of_decide_eq_true (List.mem_filter.mp member).2
  show ((slotOf? setting.1).map (written setting.2)).getD (.flag false) = written setting.2 slot
  rw [target]
  rfl

theorem at_configLoad (text : CStr) (cfg : Settings) (slot : Slot) :
    (configLoad (some text) cfg).at slot =
      ((lastFor (settingsIn text) slot).map fun val => written val slot).getD (cfg.at slot) := by
  rw [configLoad_eq, ← lastValue_eq]
  exact Registers.read_foldl settingRegisters_lawful _ cfg slot

/-- Every setting is what the last line for it says, however the lines are
laid out, and stays what it was if there is none; so a file that is loaded
once more changes nothing.  The last line has no end, and may be empty. -/
theorem config_file_loaded (lines : List FileLine) (last : FileLine) (cfg : Settings) :
    (∀ slot, (configLoad (some (fileOf lines ++ last.text)) cfg).at slot =
      match lastFor ((lines ++ [last]).filterMap FileLine.said) slot with
      | some val => written val slot
      | none => cfg.at slot) ∧
    ∀ text, configLoad (some text) (configLoad (some text) cfg) = configLoad (some text) cfg := by
  constructor
  · intro slot
    have settings : settingsIn (fileOf lines ++ last.text) =
        (lines ++ [last]).filterMap FileLine.said := by
      rw [settingsIn_append (wholeLines_fileOf lines), settingsIn_fileOf, settingsIn_unended,
        List.filterMap_append]
      cases said : last.said <;> simp [said]
    rw [at_configLoad, settings]
    cases lastFor ((lines ++ [last]).filterMap FileLine.said) slot <;> rfl
  · intro text
    rw [configLoad_eq, configLoad_eq]
    exact Registers.foldl_foldl settingRegisters_lawful _ cfg

/-- `"0x%08X"`. -/
def hexOfId (digits : List Nibble) : CStr :=
  "0x".toList ++ digits.map fun digit => capitalDigit digit.value

/-- What `hdhr-emu --gen-device-id` prints, without the end of the line. -/
def genDeviceId (seed : UInt32) : CStr :=
  hexOfId (idDigits (hdhrDeviceIdGenerate (seed &&& 0x00FFFFFF)))

/-- What discovery uses of the settings. -/
def Settings.toHdhrConfig (cfg : Settings) : HdhrConfig where
  deviceId := cfg.deviceId
  tunerCount := cfg.tunerCount.val
  bindIp := cfg.bindIp.val
  bindIp_length := cfg.bindIp.property

theorem strtoulAnyBase_hexOfId {digits : List Nibble} (eight : digits.length = 8) :
    strtoulAnyBase (hexOfId digits) = idOf digits := by
  have small : ∀ digit ∈ digits.map Nibble.value, digit < 16 := by
    simp only [List.forall_mem_map]
    exact fun digit _ => digit.value_lt
  have read := strtoulAnyBase_hex small (by
    intro none_
    rw [List.map_eq_nil_iff.mp none_] at eight
    cases eight) (by rw [List.length_map, eight]; decide)
  rwa [List.map_map] at read

theorem length_of_slip {digits wrong : List Nibble} (slip : CheckDigit.Slip digits wrong) :
    wrong.length = digits.length := by
  cases slip <;> simp

theorem toNat_ofNat_idOf {digits : List Nibble} (eight : digits.length = 8) :
    (UInt32.ofNat (idOf digits)).toNat = idOf digits := by
  have bound := idOf_lt digits
  rw [eight] at bound
  rw [UInt32.toNat_ofNat']
  exact Nat.mod_eq_of_lt bound

/-- The last line with an id gives the device its id. -/
theorem deviceId_pasted {before after : CStr} (whole : WholeLines before)
    (ends : after = [] ∨ after.head? = some '\n')
    (last : ∀ setting ∈ settingsIn after, slotOf? setting.1 ≠ some .deviceId)
    {digits : List Nibble} (eight : digits.length = 8) {line : FileLine}
    (said : line.said = some ("device_id".toList, hexOfId digits)) (cfg : Settings) :
    (configLoad (some (before ++ (line.text ++ after))) cfg).deviceId =
      UInt32.ofNat (idOf digits) := by
  have named : slotOf? "device_id".toList = some .deviceId := by decide
  have settings : settingsIn (before ++ (line.text ++ after)) =
      settingsIn before ++ ([("device_id".toList, hexOfId digits)] ++ settingsIn after) := by
    rw [settingsIn_append whole, settingsIn_line line ends, said]
    rfl
  have held : (configLoad (some (before ++ (line.text ++ after))) cfg).at .deviceId =
      written (hexOfId digits) .deviceId := by
    rw [at_configLoad, ← lastValue_eq, settings, Registers.lastValue_append,
      Registers.lastValue_append, Registers.lastValue_eq_none last,
      Registers.lastValue_singleton named, Option.none_or, Option.some_or, Option.getD_some]
    show ((slotOf? "device_id".toList).map (written (hexOfId digits))).getD (.flag false) = _
    rw [named]
    rfl
  have word := Value.word.inj held
  rw [word, strtoulAnyBase_hexOfId eight]

/-- A generated id that is pasted into the file, however its line is laid out
and whatever else the file says before and after, but for an id after it, is
the id of the device: it passes the check, and requests for it are answered.
If a digit of it is copied wrong, or two neighbours are swapped, the id that is
loaded fails the check.  Without any id in the file there is a valid one. -/
theorem device_id_pasted {before after : CStr} (whole : WholeLines before)
    (ends : after = [] ∨ after.head? = some '\n')
    (last : ∀ setting ∈ settingsIn after, slotOf? setting.1 ≠ some .deviceId)
    (seed : UInt32) (line : FileLine) (cfg : Settings) :
    let loaded := configLoad (some (before ++ (line.text ++ after))) cfg
    (line.said = some ("device_id".toList, genDeviceId seed) →
      loaded.deviceId = hdhrDeviceIdGenerate (seed &&& 0x00FFFFFF) ∧
        hdhrDeviceIdIsValid loaded.deviceId = true ∧
        ∀ address pkt data, AsksFor (hdhrDeviceIdGenerate (seed &&& 0x00FFFFFF)) data →
          handleDiscoverReq loaded.toHdhrConfig address pkt data =
            [discoverReply loaded.toHdhrConfig address]) ∧
    (∀ wrong, CheckDigit.Slip (idDigits (hdhrDeviceIdGenerate (seed &&& 0x00FFFFFF))) wrong →
      line.said = some ("device_id".toList, hexOfId wrong) →
        hdhrDeviceIdIsValid loaded.deviceId = false) ∧
    ∀ now, hdhrDeviceIdIsValid (configLoad (some after) (configDefaults now)).deviceId = true := by
  have eight : (idDigits (hdhrDeviceIdGenerate (seed &&& 0x00FFFFFF))).length = 8 := rfl
  refine ⟨?_, ?_, ?_⟩
  · intro said
    have is := deviceId_pasted whole ends last eight said cfg
    rw [idOf_idDigits, UInt32.ofNat_toNat] at is
    refine ⟨is, is.symm ▸ hdhrDeviceIdIsValid_generate _, ?_⟩
    intro address pkt data asks
    rw [← is] at asks
    obtain ⟨-, answered⟩ | ⟨ignored, -⟩ := handleDiscoverReq_eq
      (configLoad (some (before ++ (line.text ++ after))) cfg).toHdhrConfig address pkt data
    · exact answered
    · exact absurd asks ignored
  · intro wrong slip said
    have length := (length_of_slip slip).trans eight
    rw [deviceId_pasted whole ends last length said cfg]
    apply not_isValid_of_slip (hdhrDeviceIdIsValid_generate (seed &&& 0x00FFFFFF))
    rwa [idDigits_of_toNat length (toNat_ofNat_idOf length)]
  · intro now
    have none_ : lastFor (settingsIn after) .deviceId = none := by
      rw [lastFor, List.filter_eq_nil_iff.mpr]
      · rfl
      · intro setting member
        simpa using last setting member
    have held := at_configLoad after (configDefaults now) .deviceId
    rw [none_] at held
    have word : (configLoad (some after) (configDefaults now)).deviceId =
        (configDefaults now).deviceId := Value.word.inj held
    rw [word]
    exact hdhrDeviceIdIsValid_generate _

/-- `device_id = 0x10423041  # the attic`. -/
def atticLine : FileLine where
  text := "device_id".toList ++ " ".toList ++ '=' ::
    (" ".toList ++ "0x10423041".toList ++ "  ".toList ++ "# the attic".toList)
  said := some ("device_id".toList, "0x10423041".toList)
  spells := by
    have blank (text : CStr) (blanks : text.all fun character => character = ' ') :
        Blank text := by
      intro character member
      exact Or.inl (by simpa using List.all_eq_true.mp blanks character member)
    have key : Solid "device_id".toList := Solid.of_ends rfl rfl (by decide) (by decide)
    have val : Solid "0x10423041".toList := Solid.of_ends rfl rfl (by decide) (by decide)
    exact @Spells.setting [] _ _ _ _ _ _ (blank [] rfl) key (by decide)
      (List.forall_iff_forall_mem.mp (by decide)) (blank _ rfl).trailing (blank _ rfl) val
      (by decide) (blank _ rfl).trailing (fun character first => (Option.some.inj first).symm)
  fits := by decide
  oneLine := by decide
  isText := by decide

theorem device_id_pasted_attic :
    hdhrDeviceIdIsValid (configLoad (some ("device_id=1\n".toList ++ (atticLine.text ++ ['\n'])))
      (configDefaults 0)).deviceId = true := by
  have pasted := @device_id_pasted "device_id=1\n".toList ['\n'] (Or.inr rfl) (Or.inr rfl)
    (by
      rw [settingsIn_newline, settingsIn_nil]
      exact fun setting member => absurd member List.not_mem_nil)
    0x042304 atticLine (configDefaults 0)
  exact (pasted.1 (by decide)).2.1

end HdhrEmu
