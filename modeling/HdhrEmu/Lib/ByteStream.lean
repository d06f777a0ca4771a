import Mathlib.Data.List.Basic

/-!
# Reading from a stream socket

What a peer sends arrives in pieces.  A `read` returns what has arrived, up to
the size it is asked for; where nothing more comes, it returns nothing if the
peer has closed the connection and does not return otherwise.  A loop collects
what it reads until it wants no more.
-/

namespace ByteStream

variable {β : Type*}

/-- What there is behind the last byte. -/
inductive AtEnd
  | closed
  | silent
  deriving DecidableEq, Repr

/-- A connection: the bytes that will come, and how many of them the next reads
find, which is one at least; a read that is not listed finds all. -/
structure Stream (β : Type*) where
  arriving : List β
  pieces : List Nat
  atEnd : AtEnd

namespace Stream

/-- `read`; no bytes stand for a return value that is not positive. -/
def read (size : Nat) (s : Stream β) : Option (List β × Stream β) :=
  match s.arriving, s.atEnd with
  | [], .closed => some ([], s)
  | [], .silent => none
  | byte :: bytes, atEnd =>
      let n := min size (max 1 (s.pieces.headD (byte :: bytes).length))
      some ((byte :: bytes).take n, ⟨(byte :: bytes).drop n, s.pieces.tail, atEnd⟩)

theorem length_of_read {size : Nat} {s s' : Stream β} {byte : β} {bytes : List β}
    (got : s.read size = some (byte :: bytes, s')) : s'.arriving.length < s.arriving.length := by
  unfold read at got
  split at got
  · cases got
  · cases got
  · rename_i first others arriving
    obtain ⟨taken, rfl⟩ := Prod.mk.inj (Option.some.inj got)
    have positive : min size (max 1 (s.pieces.headD (first :: others).length)) ≠ 0 := by
      intro zero
      rw [zero, List.take_zero] at taken
      cases taken
    rw [arriving, List.length_drop, List.length_cons]
    omega

/-- A loop that reads as many bytes as it still wants, given what it has, and
ends where it wants none or the peer has closed the connection. -/
def collect (wanted : List β → Nat) (s : Stream β) (sofar : List β) :
    Option (List β × Stream β) :=
  if wanted sofar = 0 then some (sofar, s)
  else
    match _got : s.read (wanted sofar) with
    | none => none
    | some ([], s') => some (sofar, s')
    | some (byte :: bytes, s') => collect wanted s' (sofar ++ byte :: bytes)
termination_by s.arriving.length
decreasing_by exact length_of_read _got

/-- What a read finds while there is something to come. -/
theorem read_arriving {size : Nat} {s : Stream β} (asked : size ≠ 0) (some_ : s.arriving ≠ []) :
    ∃ got rest, got ≠ [] ∧ got.length ≤ size ∧ s.arriving = got ++ rest ∧
      s.read size = some (got, ⟨rest, s.pieces.tail, s.atEnd⟩) := by
  obtain ⟨arriving, pieces, atEnd⟩ := s
  obtain ⟨byte, bytes, rfl⟩ := List.exists_cons_of_ne_nil some_
  refine ⟨(byte :: bytes).take (min size (max 1 (pieces.headD (byte :: bytes).length))),
    (byte :: bytes).drop (min size (max 1 (pieces.headD (byte :: bytes).length))), ?_, ?_,
    (List.take_append_drop _ _).symm, rfl⟩
  · rw [ne_eq, List.take_eq_nil_iff, not_or]
    exact ⟨by omega, List.cons_ne_nil _ _⟩
  · rw [List.length_take]
    omega

/-- A piece that is not longer than the size asked for is read as it is. -/
theorem read_piece {size : Nat} {front : List β} (back : List β) (pieces : List Nat)
    (atEnd : AtEnd) (nonempty : front ≠ []) (fits : front.length ≤ size) :
    (⟨front ++ back, front.length :: pieces, atEnd⟩ : Stream β).read size =
      some (front, ⟨back, pieces, atEnd⟩) := by
  obtain ⟨byte, bytes, rfl⟩ := List.exists_cons_of_ne_nil nonempty
  have positive := List.length_pos_of_ne_nil nonempty
  have whole : min size (max 1 (byte :: bytes).length) = (byte :: bytes).length := by omega
  simp only [read, List.cons_append, List.headD_cons, List.tail_cons, whole]
  rw [← List.cons_append, List.take_left, List.drop_left]

section Collect

variable {wanted : List β → Nat} {s : Stream β} {sofar : List β}

theorem collect_enough (enough : wanted sofar = 0) :
    s.collect wanted sofar = some (sofar, s) := by
  rw [collect, if_pos enough]

theorem collect_step {got : List β} {s' : Stream β} (wants : wanted sofar ≠ 0)
    (some_ : got ≠ []) (read : s.read (wanted sofar) = some (got, s')) :
    s.collect wanted sofar = s'.collect wanted (sofar ++ got) := by
  obtain ⟨byte, bytes, rfl⟩ := List.exists_cons_of_ne_nil some_
  rw [collect, if_neg wants]
  split
  · rename_i none_
    cases none_.symm.trans read
  · rename_i empty
    cases empty.symm.trans read
  · rename_i same
    cases same.symm.trans read
    rfl

/-- Where nothing more comes. -/
theorem collect_nothing (wants : wanted sofar ≠ 0) (nothing : s.arriving = []) :
    s.collect wanted sofar =
      match s.atEnd with
      | .closed => some (sofar, s)
      | .silent => none := by
  obtain ⟨arriving, pieces, atEnd⟩ := s
  cases nothing
  rw [collect, if_neg wants]
  cases atEnd with
  | closed =>
      split
      · rename_i read
        cases read
      · rename_i read
        cases read
        rfl
      · rename_i read
        cases read
  | silent =>
      split
      · rfl
      · rename_i read
        cases read
      · rename_i read
        cases read

/-- Induction along the loop: it has enough, or nothing more comes, or a read
brings some of the bytes that it wants. -/
@[elab_as_elim]
theorem collect_induct (wanted : List β → Nat) {motive : Stream β → List β → Prop}
    (enough : ∀ s sofar, wanted sofar = 0 → motive s sofar)
    (nothing : ∀ s sofar, wanted sofar ≠ 0 → s.arriving = [] → motive s sofar)
    (some_ : ∀ (s : Stream β) sofar got rest, wanted sofar ≠ 0 → got ≠ [] →
      got.length ≤ wanted sofar → s.arriving = got ++ rest →
      s.read (wanted sofar) = some (got, ⟨rest, s.pieces.tail, s.atEnd⟩) →
      motive ⟨rest, s.pieces.tail, s.atEnd⟩ (sofar ++ got) → motive s sofar)
    (s : Stream β) (sofar : List β) : motive s sofar := by
  generalize size : s.arriving.length = n
  induction n using Nat.strongRecOn generalizing s sofar with
  | ind n ih =>
    by_cases wants : wanted sofar = 0
    · exact enough s sofar wants
    · by_cases comes : s.arriving = []
      · exact nothing s sofar wants comes
      · obtain ⟨got, rest, nonempty, within, split, read⟩ := read_arriving wants comes
        have shorter : rest.length < n := by
          have positive := List.length_pos_of_ne_nil nonempty
          rw [split, List.length_append] at size
          omega
        exact some_ s sofar got rest wants nonempty within split read
          (ih rest.length shorter _ _ rfl)

/-- If the bytes in front are not enough until the last of them is there, and
enough from then on, the loop ends with them and with what came along. -/
theorem collect_reaches (s : Stream β) (wanted : List β → Nat) (sofar front back : List β)
    (arriving : s.arriving = front ++ back)
    (wants : ∀ p, p <+: front → p ≠ front → wanted (sofar ++ p) ≠ 0)
    (enough : ∀ q, q <+: back → wanted (sofar ++ front ++ q) = 0) :
    ∃ q rest pieces, back = q ++ rest ∧
      s.collect wanted sofar = some (sofar ++ front ++ q, ⟨rest, pieces, s.atEnd⟩) := by
  have empty (none_ : front = []) : wanted sofar = 0 := by
    have done := enough [] List.nil_prefix
    rwa [none_, List.append_nil, List.append_nil] at done
  induction s, sofar using collect_induct wanted generalizing front with
  | enough s sofar done =>
      have none_ : front = [] := by
        by_contra nonempty
        have first := wants [] List.nil_prefix (Ne.symm nonempty)
        rw [List.append_nil] at first
        exact first done
      subst none_
      refine ⟨[], back, s.pieces, rfl, ?_⟩
      rw [List.nil_append] at arriving
      rw [collect_enough done, List.append_nil, List.append_nil, ← arriving]
  | nothing s sofar wanting nothing =>
      rw [nothing] at arriving
      exact absurd (empty (List.append_eq_nil_iff.mp arriving.symm).1) wanting
  | some_ s sofar got rest wanting nonempty _ split read ih =>
      rw [collect_step wanting nonempty read]
      rw [arriving] at split
      rcases List.append_eq_append_iff.mp split with ⟨more, rfl, behind⟩ | ⟨more, rfl, behind⟩
      · -- The read goes beyond the bytes in front.
        refine ⟨more, rest, s.pieces.tail, behind, ?_⟩
        have done := enough more ⟨rest, behind.symm⟩
        rw [List.append_assoc] at done
        rw [collect_enough done, List.append_assoc]
      · have nearer (q : List β) (within : q <+: back) : wanted (sofar ++ got ++ more ++ q) = 0 := by
          rw [List.append_assoc sofar got]
          exact enough q within
        obtain ⟨q, left_, pieces, parts, collected⟩ := ih more behind
          (by
            intro p within proper
            rw [List.append_assoc]
            apply wants (got ++ p) ((List.prefix_append_right_inj got).mpr within)
            exact fun same => proper (List.append_cancel_left same))
          nearer
          (by
            rintro rfl
            have done := nearer [] List.nil_prefix
            rwa [List.append_nil, List.append_nil] at done)
        refine ⟨q, left_, pieces, parts, ?_⟩
        rw [collected, List.append_assoc sofar got]

/-- What the loop collects stands in front of what is still to come. -/
theorem collect_split {out : List β} {s' : Stream β}
    (collected : s.collect wanted sofar = some (out, s')) :
    ∃ got, out = sofar ++ got ∧ s.arriving = got ++ s'.arriving := by
  induction s, sofar using collect_induct wanted with
  | enough s sofar enough =>
      rw [collect_enough enough] at collected
      cases collected
      exact ⟨[], (List.append_nil _).symm, rfl⟩
  | nothing s sofar wants nothing =>
      rw [collect_nothing wants nothing] at collected
      split at collected <;> cases collected
      exact ⟨[], (List.append_nil _).symm, rfl⟩
  | some_ s sofar got rest wants nonempty _ split read ih =>
      rw [collect_step wants nonempty read] at collected
      obtain ⟨more, whole, others⟩ := ih collected
      refine ⟨got ++ more, ?_, ?_⟩
      · rw [whole, List.append_assoc]
      · rw [split, List.append_assoc]
        exact congrArg (got ++ ·) others

/-- On a connection that stays open, the loop only ends where it wants no more. -/
theorem wanted_of_collect {out : List β} {s' : Stream β} (silent : s.atEnd = .silent)
    (collected : s.collect wanted sofar = some (out, s')) : wanted out = 0 := by
  induction s, sofar using collect_induct wanted with
  | enough s sofar enough =>
      rw [collect_enough enough] at collected
      cases collected
      exact enough
  | nothing s sofar wants nothing =>
      rw [collect_nothing wants nothing, silent] at collected
      cases collected
  | some_ s sofar got rest wants nonempty _ _ read ih =>
      rw [collect_step wants nonempty read] at collected
      exact ih silent collected

/-- A loop that never asks for more than fits does not overrun. -/
theorem length_of_collect {out : List β} {s' : Stream β} (capacity : Nat)
    (room : ∀ have_, have_.length ≤ capacity → have_.length + wanted have_ ≤ capacity)
    (fits : sofar.length ≤ capacity) (collected : s.collect wanted sofar = some (out, s')) :
    out.length ≤ capacity := by
  induction s, sofar using collect_induct wanted with
  | enough s sofar enough =>
      rw [collect_enough enough] at collected
      cases collected
      exact fits
  | nothing s sofar wants nothing =>
      rw [collect_nothing wants nothing] at collected
      split at collected <;> cases collected
      exact fits
  | some_ s sofar got rest wants nonempty within _ read ih =>
      rw [collect_step wants nonempty read] at collected
      have grown : (sofar ++ got).length ≤ capacity := by
        have larger := room sofar fits
        rw [List.length_append]
        omega
      exact ih grown collected

end Collect

/-- A loop that reads `size` bytes, or less where the peer has closed the
connection before. -/
def readFull (size : Nat) (s : Stream β) : Option (List β × Stream β) :=
  s.collect (fun got => size - got.length) []

theorem length_of_readFull {size : Nat} {s s' : Stream β} {got : List β}
    (read : s.readFull size = some (got, s')) :
    s.arriving.length = got.length + s'.arriving.length := by
  obtain ⟨more, rfl, split⟩ := collect_split read
  rw [split, List.length_append]

/-- What the pieces are does not matter where enough bytes come. -/
theorem readFull_enough {size : Nat} {s : Stream β} (enough : size ≤ s.arriving.length) :
    ∃ pieces, s.readFull size =
      some (s.arriving.take size, ⟨s.arriving.drop size, pieces, s.atEnd⟩) := by
  have front : (s.arriving.take size).length = size := by
    rw [List.length_take]
    omega
  obtain ⟨more, rest, pieces, split, collected⟩ :=
    collect_reaches s (fun got => size - got.length) [] (s.arriving.take size)
      (s.arriving.drop size) (List.take_append_drop size s.arriving).symm
      (by
        intro p within proper
        have shorter : p.length < size := by
          have short := within.length_le
          have differs : p.length ≠ (s.arriving.take size).length :=
            fun same => proper (within.eq_of_length same)
          omega
        rw [List.nil_append]
        omega)
      (by
        intro q _
        rw [List.nil_append, List.length_append]
        omega)
  rw [List.nil_append] at collected
  have bounded := length_of_collect size (fun have_ fits => by omega) (Nat.zero_le _) collected
  have nothing : more = [] := by
    rw [List.length_append] at bounded
    exact List.eq_nil_of_length_eq_zero (by omega)
  subst nothing
  rw [List.nil_append] at split
  rw [List.append_nil, ← split] at collected
  exact ⟨pieces, collected⟩

/-- Where too few bytes come, all of them are read at the end of the
connection, and the loop does not end while it stays open. -/
theorem readFull_short {size : Nat} {s : Stream β} (short : s.arriving.length < size) :
    (s.atEnd = .silent ∧ s.readFull size = none) ∨
      ∃ s', s.readFull size = some (s.arriving, s') := by
  have all : ∀ sofar : List β, sofar.length + s.arriving.length < size →
      (s.atEnd = .silent ∧ s.collect (fun got => size - got.length) sofar = none) ∨
        ∃ s', s.collect (fun got => size - got.length) sofar = some (sofar ++ s.arriving, s') := by
    intro sofar few
    induction s, sofar using collect_induct (fun got => size - got.length) with
    | enough s sofar enough => omega
    | nothing s sofar wants nothing =>
        rw [collect_nothing wants nothing, nothing, List.append_nil]
        cases s.atEnd with
        | closed => exact .inr ⟨s, rfl⟩
        | silent => exact .inl ⟨rfl, rfl⟩
    | some_ s sofar got rest wants nonempty _ split read ih =>
        rw [split, List.length_append] at few short
        rw [collect_step wants nonempty read, split]
        have further := ih (by simp only; omega) (by rw [List.length_append]; simp only; omega)
        rwa [List.append_assoc] at further
  have started := all [] (by simpa using short)
  rwa [List.nil_append] at started

end Stream

end ByteStream
