import HdhrEmu.Lib.CString

/-!
# Extended M3U playlists

A playlist is a header line and two lines for each entry: what is known about
it (a duration, attributes in quotation marks and a title behind the first
comma after them) and its location.
-/

namespace M3u

open CString

structure Entry where
  duration : CStr
  attributes : List (CStr × CStr)
  title : CStr
  location : CStr

/-- Attributes up to the comma, each of them behind a blank. -/
def attributes? : Nat → CStr → Option (List (CStr × CStr) × CStr)
  | _, ',' :: text => some ([], text)
  | bound + 1, ' ' :: text =>
      (splitAt? '=' text).bind fun name =>
        match name.2 with
        | '"' :: text =>
            (splitAt? '"' text).bind fun value =>
              (attributes? bound value.2).map fun read => ((name.1, value.1) :: read.1, read.2)
        | _ => none
  | _, _ => none

/-- A duration ends at a blank or a comma. -/
def inDuration (character : Char) : Bool :=
  character != ' ' && character != ','

/-- What stands behind `#EXTINF:`. -/
def known? (text location : CStr) : Option Entry :=
  (attributes? text.length (text.dropWhile inDuration)).map fun read =>
    ⟨text.takeWhile inDuration, read.1, read.2, location⟩

def entryOf? (line location : CStr) : Option Entry :=
  ("#EXTINF:".toList.isPrefixOf? line).bind fun text => known? text location

/-- The lines of the entries, two by two. -/
def entries? : Nat → CStr → Option (List Entry)
  | _, [] => some []
  | 0, _ => none
  | bound + 1, text =>
      (splitAt? '\n' text).bind fun line =>
        (splitAt? '\n' line.2).bind fun location =>
          (entryOf? line.1 location.1).bind fun entry =>
            (entries? bound location.2).map fun more => entry :: more

/-- The text is a playlist with these entries. -/
def Lists (text : CStr) (entries : List Entry) : Prop :=
  ∃ rest, splitAt? '\n' text = some ("#EXTM3U".toList, rest) ∧
    ∃ bound, entries? bound rest = some entries

/-- An attribute as it is written. -/
def attributeText (name value : CStr) : CStr :=
  ' ' :: (name ++ '=' :: '"' :: (value ++ ['"']))

/-- The first line of an entry as it is written. -/
def info (duration : CStr) (attributes : List (CStr × CStr)) (title : CStr) : CStr :=
  "#EXTINF:".toList ++
    (duration ++ (attributes.flatMap (fun pair => attributeText pair.1 pair.2) ++ ',' :: title))

theorem length_le_attributeText (attributes : List (CStr × CStr)) :
    attributes.length ≤
      (attributes.flatMap fun pair => attributeText pair.1 pair.2).length := by
  induction attributes with
  | nil => exact Nat.le_refl _
  | cons pair attributes ih =>
      rw [List.flatMap_cons, List.length_append, List.length_cons, attributeText, List.length_cons]
      omega

theorem attributes?_append {attributes : List (CStr × CStr)} {bound : Nat}
    (names : ∀ pair ∈ attributes, '=' ∉ pair.1) (values : ∀ pair ∈ attributes, '"' ∉ pair.2)
    (enough : attributes.length ≤ bound) (title : CStr) :
    attributes? bound (attributes.flatMap (fun pair => attributeText pair.1 pair.2) ++ ',' :: title) =
      some (attributes, title) := by
  induction attributes generalizing bound with
  | nil => simp [attributes?]
  | cons pair attributes ih =>
      obtain ⟨bound, rfl⟩ : ∃ less, bound = less + 1 := ⟨bound - 1, by simp at enough; omega⟩
      rw [List.forall_mem_cons] at names values
      have more := @ih bound names.2 values.2 (by simpa using enough)
      have written : (pair :: attributes).flatMap (fun pair => attributeText pair.1 pair.2) ++
          ',' :: title = ' ' :: (pair.1 ++ '=' :: '"' :: (pair.2 ++ '"' ::
            (attributes.flatMap (fun pair => attributeText pair.1 pair.2) ++ ',' :: title))) := by
        simp [attributeText]
      rw [written, attributes?, splitAt?_append names.1, Option.bind_some]
      simp only [splitAt?_append values.1, Option.bind_some, more, Option.map_some]

/-- An entry is read as it was written. -/
theorem entryOf?_info {duration : CStr} {attributes : List (CStr × CStr)} (title location : CStr)
    (unbroken : ∀ character ∈ duration, inDuration character = true)
    (names : ∀ pair ∈ attributes, '=' ∉ pair.1) (values : ∀ pair ∈ attributes, '"' ∉ pair.2) :
    entryOf? (info duration attributes title) location =
      some ⟨duration, attributes, title, location⟩ := by
  have ends : ∀ behind : CStr, behind =
      attributes.flatMap (fun pair => attributeText pair.1 pair.2) ++ ',' :: title →
        behind.takeWhile inDuration = [] ∧ behind.dropWhile inDuration = behind := by
    rintro _ rfl
    cases attributes with
    | nil => exact ⟨rfl, rfl⟩
    | cons _ _ => exact ⟨rfl, rfl⟩
  obtain ⟨taken, dropped⟩ := ends _ rfl
  have written := length_le_attributeText attributes
  have marked : entryOf? (info duration attributes title) location =
      known? (duration ++ (attributes.flatMap (fun pair => attributeText pair.1 pair.2) ++
        ',' :: title)) location := rfl
  rw [marked, known?, List.takeWhile_append_of_pos unbroken,
    List.dropWhile_append_of_pos unbroken, taken, dropped, List.append_nil,
    attributes?_append names values, Option.map_some]
  simp only [List.length_append]
  omega

theorem entries?_cons {bound : Nat} {line location rest : CStr} {entry : Entry}
    {entries : List Entry} (oneLine : '\n' ∉ line) (oneLocation : '\n' ∉ location)
    (first : entryOf? line location = some entry) (more : entries? bound rest = some entries) :
    entries? (bound + 1) (line ++ '\n' :: (location ++ '\n' :: rest)) = some (entry :: entries) := by
  rw [entries?]
  · rw [splitAt?_append oneLine, Option.bind_some, splitAt?_append oneLocation, Option.bind_some,
      first, Option.bind_some, more, Option.map_some]
  · simp

end M3u
