import HdhrEmu.Lib.CString

/-!
# Path names

A path name is a list of components between slashes.  An empty component and
`.` stay in the directory that is reached, `..` goes back to the one above, and
any other component is a name in it; symbolic links are left aside.
-/

namespace PathName

/-- The components of a path, some of which may be empty. -/
def components (path : CStr) : List CStr :=
  path.splitOn '/'

def dot : CStr := ['.']

def dotDot : CStr := ['.', '.']

/-- A component that is no name stays where it is. -/
def stays (component : CStr) : Bool :=
  component == [] || component == dot

/-- The names in a path. -/
def names (path : CStr) : List CStr :=
  (components path).filter fun component => !stays component

/-- A directory as the names on the way to it; a component leads to the next one. -/
def enter (place : List CStr) (component : CStr) : List CStr :=
  if stays component then place
  else if component = dotDot then place.dropLast
  else place ++ [component]

/-- The place a path leads to. A path with a slash in front starts at the root
directory, another one at the working directory. -/
def locate (start : List CStr) (path : CStr) : List CStr :=
  (components path).foldl enter start

/-- The path only goes down, and at least one step. -/
def Descends (path : CStr) : Prop :=
  names path ≠ [] ∧ dotDot ∉ names path

instance (path : CStr) : Decidable (Descends path) :=
  inferInstanceAs (Decidable (_ ∧ _))

/-- The path of a directory and a path below it have a slash between them. -/
def Joined (directory below : CStr) : Prop :=
  directory.getLast? = some '/' ∨ below.head? = some '/'

instance (directory below : CStr) : Decidable (Joined directory below) :=
  inferInstanceAs (Decidable (_ ∨ _))

/-- The path is that of the directory, followed by a slash and by names. -/
def StrictlyInside (directory path : CStr) : Prop :=
  ∃ below, path = directory ++ below ∧ Joined directory below ∧ Descends below

theorem components_slash (front rest : CStr) :
    components (front ++ '/' :: rest) = components front ++ components rest :=
  List.splitOn_append_cons_self front rest

/-- The way along a path is the way to its directory, and on from there. -/
theorem locate_slash (start : List CStr) (front rest : CStr) :
    locate start (front ++ '/' :: rest) = locate (locate start front) rest := by
  rw [locate, components_slash, List.foldl_append]
  rfl

theorem locate_joined {directory below : CStr} (joined : Joined directory below)
    (start : List CStr) : locate start (directory ++ below) = locate (locate start directory) below := by
  rcases joined with ends | begins
  · obtain ⟨front, rfl⟩ := List.getLast?_eq_some_iff.mp ends
    rw [List.append_assoc, List.singleton_append, locate_slash, locate_slash]
    rfl
  · obtain ⟨rest, rfl⟩ := List.head?_eq_some_iff.mp begins
    rw [locate_slash]
    rfl

/-- Without `..`, a path leads down along its names. -/
theorem locate_of_no_dotDot {path : CStr} (down : dotDot ∉ names path) (start : List CStr) :
    locate start path = start ++ names path := by
  unfold names at *
  rw [locate]
  generalize components path = parts at *
  induction parts generalizing start with
  | nil => exact (List.append_nil start).symm
  | cons component rest ih =>
      rw [List.foldl_cons]
      cases stay : stays component with
      | true =>
          rw [List.filter_cons_of_neg (by rw [stay]; decide)] at down ⊢
          rw [enter, if_pos stay]
          exact ih start down
      | false =>
          rw [List.filter_cons_of_pos (by rw [stay]; rfl)] at down ⊢
          obtain ⟨differs, others⟩ := List.ne_and_not_mem_of_not_mem_cons down
          rw [enter, if_neg (by rw [stay]; decide), if_neg (Ne.symm differs), ih _ others,
            List.append_assoc, List.singleton_append]

/-- What is strictly inside of a directory is reached from it by names. -/
theorem StrictlyInside.locate {directory path : CStr} (inside : StrictlyInside directory path) :
    ∃ below ≠ [], ∀ start, PathName.locate start path = PathName.locate start directory ++ below := by
  obtain ⟨below, rfl, joined, some_, down⟩ := inside
  refine ⟨names below, some_, fun start => ?_⟩
  rw [locate_joined joined, locate_of_no_dotDot down]

theorem infix_intercalate {α : Type*} {separator part : List α} {parts : List (List α)}
    (member : part ∈ parts) : part <:+: separator.intercalate parts := by
  induction parts with
  | nil => cases member
  | cons first rest ih =>
      cases rest with
      | nil =>
          obtain rfl := List.mem_singleton.mp member
          exact ⟨[], [], by simp⟩
      | cons second rest =>
          rw [List.intercalate_cons_of_ne_nil (List.cons_ne_nil second rest)]
          rcases List.mem_cons.mp member with rfl | behind
          · exact ⟨[], _, by rw [List.nil_append, List.append_assoc]⟩
          · exact (ih behind).trans (List.suffix_append _ _).isInfix

theorem infix_of_mem_components {path component : CStr} (member : component ∈ components path) :
    component <:+: path := by
  have part : component <:+: ['/'].intercalate (components path) := infix_intercalate member
  rwa [components, List.intercalate_splitOn] at part

end PathName
