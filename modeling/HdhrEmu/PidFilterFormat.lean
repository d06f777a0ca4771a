import HdhrEmu.AutoFilter
import HdhrEmu.Lib.TextBuffer
import HdhrEmu.PidFilterText
import Mathlib.Data.Finset.Card
import Mathlib.Data.List.Pairwise

/-!
# Writing PIDs as a filter

The PIDs are copied, sorted and freed of repetitions in place, and each run of
consecutive numbers is appended to the text as one entry.  Read back, the text
stands for the runs that the PIDs form.
-/

namespace HdhrEmu

open CheckedMemory

/-- The inner loop of the sort: the key sinks from a place towards the front, and
what is larger moves up. -/
def insertKey (key : UInt16) : Nat → List UInt16 → List UInt16
  | 0, sorted => sorted.set 0 key
  | place + 1, sorted =>
      if key < sorted.getD place 0 then
        insertKey key place (sorted.set (place + 1) (sorted.getD place 0))
      else sorted.set (place + 1) key

/-- The outer loop of the sort. -/
def sortPids (sorted : List UInt16) : List UInt16 :=
  (List.range' 1 (sorted.length - 1)).foldl
    (fun sorted i => insertKey (sorted.getD i 0) i sorted) sorted

/-- One round of the loop that drops repetitions; `n` entries are kept so far. -/
def keepPid (kept : List UInt16 × Nat) (i : Nat) : List UInt16 × Nat :=
  let (sorted, n) := kept
  if n = 0 ∨ sorted.getD i 0 ≠ sorted.getD (n - 1) 0 then
    (sorted.set n (sorted.getD i 0), n + 1)
  else (sorted, n)

def dedupPids (sorted : List UInt16) : List UInt16 × Nat :=
  (List.range sorted.length).foldl keepPid (sorted, 0)

/-- The end of the run that begins at a place. -/
def runEnd (sorted : List UInt16) (n j : Nat) : Nat :=
  if j + 1 < n ∧ (sorted.getD (j + 1) 0).toNat = (sorted.getD j 0).toNat + 1 then
    runEnd sorted n (j + 1)
  else j
termination_by n - j

/-- The format of an entry, with the blank behind it. -/
def entryText (sorted : List UInt16) (i j : Nat) : CStr :=
  if j = i then "0x".toList ++ hex4 (sorted.getD i 0) ++ " ".toList
  else "0x".toList ++ hex4 (sorted.getD i 0) ++ "-0x".toList ++ hex4 (sorted.getD j 0) ++ " ".toList

theorem le_runEnd (sorted : List UInt16) (n j : Nat) : j ≤ runEnd sorted n j := by
  fun_induction runEnd sorted n j with
  | case1 j _ ih => exact Nat.le_of_succ_le ih
  | case2 j _ => exact Nat.le_refl j

/-- The loop that writes the entries; a text that is cut off ends it. -/
def writeEntries (sorted : List UInt16) (n i : Nat) (buffer : TextBuffer) : Checked TextBuffer :=
  if i < n then do
    let buffer ← buffer.append (entryText sorted i (runEnd sorted n i))
    if buffer.cap ≤ buffer.off then .ok ⟨buffer.cells, buffer.cap - 1⟩
    else writeEntries sorted n (runEnd sorted n i + 1) buffer
  else .ok buffer
termination_by n - i
decreasing_by
  have := le_runEnd sorted n i
  omega

/-- The blank behind the last entry is cut off. -/
def trimBlank (buffer : TextBuffer) : List Char :=
  if 0 < buffer.off ∧ buffer.cells.getD (buffer.off - 1) terminator = ' ' then
    buffer.cells.set (buffer.off - 1) terminator
  else buffer.cells

/-- `pid_filter_format`: what it leaves in `out`. -/
def pidFilterFormat (pids : List UInt16) (out : List Char) : Checked (List Char) := do
  let sorted := sortPids (pids.take 64)
  let (sorted, n) := dedupPids sorted
  let out ← store out 0 terminator
  let buffer ← writeEntries sorted n 0 ⟨out, 0⟩
  .ok (trimBlank buffer)

theorem getD_append_length (front : List UInt16) (value : UInt16) (back : List UInt16) :
    (front ++ value :: back).getD front.length 0 = value := by
  rw [List.getD_eq_getElem?_getD, List.getElem?_append_right (Nat.le_refl _), Nat.sub_self]
  rfl

theorem set_append_length (front : List UInt16) (old value : UInt16) (back : List UInt16) :
    (front ++ old :: back).set front.length value = front ++ value :: back := by
  rw [List.set_append_right _ _ (Nat.le_refl _), Nat.sub_self, List.set_cons_zero]

/-- The key sinks to where it belongs. -/
theorem insertKey_sorted (key : UInt16) {front : List UInt16} (sorted : front.Pairwise (· ≤ ·))
    (hole : UInt16) (back : List UInt16) :
    ∃ result, insertKey key front.length (front ++ hole :: back) = result ++ back ∧
      result.Perm (key :: front) ∧ result.Pairwise (· ≤ ·) := by
  induction front using List.reverseRecOn generalizing hole back with
  | nil => exact ⟨[key], rfl, List.Perm.refl _, List.pairwise_singleton _ _⟩
  | append_singleton front last ih =>
      have at_ : (front ++ [last] ++ hole :: back).getD front.length 0 = last := by
        rw [List.append_assoc]
        exact getD_append_length front last (hole :: back)
      have moved (value : UInt16) :
          (front ++ [last] ++ hole :: back).set (front.length + 1) value =
            front ++ last :: (value :: back) := by
        have place := set_append_length (front ++ [last]) hole value back
        rw [List.length_append, List.length_singleton] at place
        rw [place, List.append_assoc]
        rfl
      obtain ⟨frontSorted, -, frontLast⟩ := List.pairwise_append.mp sorted
      rw [List.length_append, List.length_singleton, insertKey, at_, moved, moved]
      split
      · rename_i smaller
        obtain ⟨result, sunk, perm, resultSorted⟩ := ih frontSorted last (last :: back)
        refine ⟨result ++ [last], ?_, ?_, ?_⟩
        · rw [sunk, List.append_assoc]
          rfl
        · exact perm.append_right [last]
        · apply List.pairwise_append.mpr ⟨resultSorted, List.pairwise_singleton _ _, ?_⟩
          intro pid member other isLast
          rw [List.mem_singleton.mp isLast]
          rcases List.mem_cons.mp (perm.subset member) with rfl | earlier
          · exact UInt16.le_of_lt smaller
          · exact frontLast pid earlier last List.mem_cons_self
      · rename_i notSmaller
        have larger : last ≤ key := UInt16.not_lt.mp notSmaller
        refine ⟨front ++ [last] ++ [key], ?_, ?_, ?_⟩
        · rw [List.append_assoc, List.append_assoc]
          rfl
        · exact List.perm_append_comm
        · apply List.pairwise_append.mpr ⟨sorted, List.pairwise_singleton _ _, ?_⟩
          intro pid member other isKey
          rw [List.mem_singleton.mp isKey]
          rcases List.mem_append.mp member with earlier | isLast
          · exact UInt16.le_trans (frontLast pid earlier last List.mem_cons_self) larger
          · rw [List.mem_singleton.mp isLast]
            exact larger

/-- The rounds of the sort from a place on, with everything before it sorted. -/
theorem foldl_insertKey (front rest : List UInt16) (sorted : front.Pairwise (· ≤ ·)) :
    ((List.range' front.length rest.length).foldl
        (fun sorted i => insertKey (sorted.getD i 0) i sorted) (front ++ rest)).Perm (front ++ rest) ∧
      ((List.range' front.length rest.length).foldl
        (fun sorted i => insertKey (sorted.getD i 0) i sorted) (front ++ rest)).Pairwise
          (· ≤ ·) := by
  induction rest generalizing front with
  | nil =>
      rw [List.append_nil]
      exact ⟨List.Perm.refl _, sorted⟩
  | cons key rest ih =>
      obtain ⟨result, sunk, perm, resultSorted⟩ := insertKey_sorted key sorted key rest
      have length : result.length = front.length + 1 := perm.length_eq
      rw [List.length_cons, List.range'_succ, List.foldl_cons, getD_append_length, sunk, ← length]
      obtain ⟨all, allSorted⟩ := ih result resultSorted
      refine ⟨all.trans ?_, allSorted⟩
      exact (perm.append_right rest).trans List.perm_middle.symm

theorem sortPids_perm (pids : List UInt16) :
    (sortPids pids).Perm pids ∧ (sortPids pids).Pairwise (· ≤ ·) := by
  cases pids with
  | nil => exact ⟨List.Perm.refl _, List.Pairwise.nil⟩
  | cons first rest => exact foldl_insertKey [first] rest (List.pairwise_singleton _ _)

/-- The entries that are kept, as a list of their own. -/
def keepLast (kept : List UInt16) (pid : UInt16) : List UInt16 :=
  if kept.getLast? = some pid then kept else kept ++ [pid]

theorem foldl_keepLast (kept : List UInt16) (last : UInt16) (rest : List UInt16) :
    rest.foldl keepLast (kept ++ [last]) = kept ++ dropRepeats (last :: rest) := by
  induction rest generalizing kept last with
  | nil => rfl
  | cons pid rest ih =>
      rw [List.foldl_cons, keepLast, List.getLast?_concat, dropRepeats, List.head?_cons]
      by_cases same : last = pid
      · rw [if_pos (congrArg some same), if_pos (congrArg some same.symm), ih, same]
      · have differs : ¬ some last = some pid := fun equal => same (Option.some.inj equal)
        rw [if_neg differs, if_neg fun equal => differs equal.symm, ih, List.append_assoc]
        rfl

theorem foldl_keepLast_nil (pids : List UInt16) :
    pids.foldl keepLast [] = dropRepeats pids := by
  cases pids with
  | nil => rfl
  | cons first rest => exact foldl_keepLast [] first rest

/-- The rounds from a place on: what is kept is in front, and the places from
there on were not written. -/
theorem foldl_keepPid (rest : List UInt16) (i : Nat) (sorted : List UInt16) (n : Nat)
    (inside : n ≤ i) (untouched : sorted.drop i = rest) :
    ((List.range' i rest.length).foldl keepPid (sorted, n)).1.take
        ((List.range' i rest.length).foldl keepPid (sorted, n)).2 =
      rest.foldl keepLast (sorted.take n) := by
  induction rest generalizing i sorted n with
  | nil => rfl
  | cons pid rest ih =>
      have long : i < sorted.length := by
        have length := congrArg List.length untouched
        rw [List.length_drop, List.length_cons] at length
        omega
      have behind : sorted.drop (i + 1) = rest := by
        rw [← List.tail_drop, untouched, List.tail_cons]
      have here : sorted.getD i 0 = pid := by
        rw [List.getD_eq_getElem?_getD, ← List.head?_drop, untouched]
        rfl
      have last : (sorted.take n).getLast? = if n = 0 then none else sorted[n - 1]? := by
        rw [List.getLast?_take]
        split
        · rfl
        · rw [List.getElem?_eq_getElem (by omega), Option.some_or]
      have new_iff : (n = 0 ∨ pid ≠ sorted.getD (n - 1) 0) ↔
          ¬ (sorted.take n).getLast? = some pid := by
        rw [last]
        by_cases first : n = 0
        · simp [first]
        · rw [if_neg first, or_iff_right first, List.getD_eq_getElem?_getD,
            List.getElem?_eq_getElem (by omega), Option.getD_some, Option.some.injEq]
          exact not_congr eq_comm
      rw [List.length_cons, List.range'_succ, List.foldl_cons, List.foldl_cons, keepPid, here,
        keepLast]
      by_cases new : n = 0 ∨ pid ≠ sorted.getD (n - 1) 0
      · have front : (sorted.set n pid).take (n + 1) = sorted.take n ++ [pid] := by
          rw [List.take_add_one, List.take_set_of_le (Nat.le_refl n),
            List.getElem?_set_self (by omega)]
          rfl
        rw [if_pos new, if_neg (new_iff.mp new), ih (i + 1) (sorted.set n pid) (n + 1) (by omega), front]
        rw [List.drop_set_of_lt (by omega), behind]
      · rw [if_neg new, if_pos (not_not.mp fun differs => new (new_iff.mpr differs)),
          ih (i + 1) sorted n (by omega) behind]

theorem keepPid_inside (sorted : List UInt16) {n i : Nat} (inside : n ≤ i) :
    (keepPid (sorted, n) i).1.length = sorted.length ∧ (keepPid (sorted, n) i).2 ≤ i + 1 := by
  rw [keepPid]
  split
  · exact ⟨List.length_set, Nat.succ_le_succ inside⟩
  · exact ⟨rfl, Nat.le_succ_of_le inside⟩

theorem foldl_keepPid_inside (rounds i : Nat) {sorted : List UInt16} {n : Nat} (inside : n ≤ i) :
    ((List.range' i rounds).foldl keepPid (sorted, n)).1.length = sorted.length ∧
      ((List.range' i rounds).foldl keepPid (sorted, n)).2 ≤ i + rounds := by
  induction rounds generalizing i sorted n with
  | zero => exact ⟨rfl, inside⟩
  | succ rounds ih =>
      have first := keepPid_inside sorted inside
      obtain ⟨⟨next, kept⟩, is⟩ : ∃ next, keepPid (sorted, n) i = next := ⟨_, rfl⟩
      rw [is] at first
      obtain ⟨lengths, bounds⟩ := @ih (i + 1) next kept first.2
      rw [List.range'_succ, List.foldl_cons, is]
      exact ⟨lengths.trans first.1, by omega⟩

theorem dedupPids_inside (sorted : List UInt16) :
    (dedupPids sorted).2 ≤ (dedupPids sorted).1.length := by
  obtain ⟨length, bound⟩ := @foldl_keepPid_inside sorted.length 0 sorted 0 (Nat.le_refl 0)
  rw [dedupPids, List.range_eq_range', length]
  omega

theorem dedupPids_eq (sorted : List UInt16) :
    (dedupPids sorted).1.take (dedupPids sorted).2 = dropRepeats sorted := by
  rw [dedupPids, List.range_eq_range', foldl_keepPid sorted 0 sorted 0 (Nat.le_refl 0) rfl,
    List.take_zero, foldl_keepLast_nil]

theorem pidRuns_head {first : UInt16} (rest : List UInt16) :
    ∃ range ranges, pidRuns (first :: rest) = range :: ranges ∧ range.start = first := by
  rw [pidRuns]
  split
  · exact ⟨_, _, rfl, rfl⟩
  · split
    · exact ⟨_, _, rfl, rfl⟩
    · exact ⟨_, _, rfl, rfl⟩

theorem drop_entries (sorted : List UInt16) {n i : Nat} (long : n ≤ sorted.length)
    (inside : i < n) :
    (sorted.take n).drop i = sorted.getD i 0 :: (sorted.take n).drop (i + 1) := by
  have there : i < (sorted.take n).length := by
    rw [List.length_take]
    omega
  rw [List.drop_eq_getElem_cons there, List.getElem_take, List.getD_eq_getElem?_getD,
    List.getElem?_eq_getElem (by omega), Option.getD_some]

/-- The run at a place of the array is the first one of the entries from there on. -/
theorem pidRuns_runEnd (sorted : List UInt16) {n i : Nat} (long : n ≤ sorted.length)
    (inside : i < n) :
    runEnd sorted n i < n ∧
      pidRuns ((sorted.take n).drop i) =
        ⟨sorted.getD i 0, sorted.getD (runEnd sorted n i) 0⟩ ::
          pidRuns ((sorted.take n).drop (runEnd sorted n i + 1)) ∧
      (sorted.getD (runEnd sorted n i) 0).toNat =
        (sorted.getD i 0).toNat + (runEnd sorted n i - i) := by
  fun_induction runEnd sorted n i with
  | case1 i next ih =>
      obtain ⟨ends, runs, last⟩ := ih next.1
      have far := le_runEnd sorted n (i + 1)
      refine ⟨ends, ?_, ?_⟩
      · rw [drop_entries sorted long inside, pidRuns, runs]
        exact if_pos next.2
      · rw [last, next.2]
        omega
  | case2 i ends =>
      refine ⟨inside, ?_, by omega⟩
      rw [drop_entries sorted long inside]
      by_cases more : i + 1 < n
      · obtain ⟨range, ranges, runs, start⟩ :=
          @pidRuns_head (sorted.getD (i + 1) 0) ((sorted.take n).drop (i + 1 + 1))
        have gap : ¬ range.start.toNat = (sorted.getD i 0).toNat + 1 := by
          rw [start]
          exact fun next => ends ⟨more, next⟩
        rw [drop_entries sorted long more, pidRuns, runs]
        exact if_neg gap
      · have nothing : (sorted.take n).drop (i + 1) = [] := by
          apply List.drop_eq_nil_of_le
          rw [List.length_take]
          omega
        rw [nothing]
        rfl

/-- The entries, each with a blank behind it. -/
def entriesText (ranges : List PidRange) : CStr :=
  ranges.flatMap fun range => range.text ++ " ".toList

theorem entryText_eq (sorted : List UInt16) {i j : Nat} (ordered : i ≤ j)
    (last : (sorted.getD j 0).toNat = (sorted.getD i 0).toNat + (j - i)) :
    entryText sorted i j =
      PidRange.text ⟨sorted.getD i 0, sorted.getD j 0⟩ ++ " ".toList := by
  unfold entryText PidRange.text
  by_cases single : j = i
  · rw [if_pos single, if_pos (by rw [single])]
  · have differ : sorted.getD i 0 ≠ sorted.getD j 0 := by
      intro same
      rw [same] at last
      omega
    rw [if_neg single, if_neg differ]
    simp [List.append_assoc]

theorem length_text_le (range : PidRange) : range.text.length ≤ 13 := by
  unfold PidRange.text
  split
  · exact (by decide : 6 ≤ 13)
  · exact Nat.le_refl 13

theorem length_entriesText (ranges : List PidRange) :
    (entriesText ranges).length ≤ 14 * ranges.length := by
  induction ranges with
  | nil => exact Nat.le_refl 0
  | cons range ranges ih =>
      have entry := length_text_le range
      have blank : " ".toList.length = 1 := rfl
      rw [entriesText, List.flatMap_cons, List.length_append, List.length_append, blank,
        List.length_cons]
      unfold entriesText at ih
      omega

/-- The buffer holds the text, with its terminator behind it. -/
def Terminated (buffer : TextBuffer) (text : CStr) : Prop :=
  buffer.Holds text ∧ buffer.cells[text.length]? = some terminator

/-- The entries are appended one after the other; none is cut off. -/
theorem writeEntries_eq (sorted : List UInt16) {n i : Nat} (long : n ≤ sorted.length)
    {buffer : TextBuffer} {text : CStr} (holds : Terminated buffer text)
    (fits : text.length + (entriesText (pidRuns ((sorted.take n).drop i))).length < buffer.cap) :
    ∃ next, writeEntries sorted n i buffer = .ok next ∧
      Terminated next (text ++ entriesText (pidRuns ((sorted.take n).drop i))) := by
  obtain ⟨left, size⟩ : ∃ left, n - i = left := ⟨_, rfl⟩
  induction left using Nat.strongRecOn generalizing i buffer text with
  | ind left ih =>
      rw [writeEntries]
      by_cases inside : i < n
      · obtain ⟨ends, runs, last⟩ := pidRuns_runEnd sorted long inside
        have far := le_runEnd sorted n i
        have entry := entryText_eq sorted far last
        rw [runs, entriesText, List.flatMap_cons, ← entry] at fits ⊢
        rw [List.length_append] at fits
        obtain ⟨next, appended, nextHolds, cap, terminated⟩ :=
          @TextBuffer.Holds.append buffer text holds.1
            (entryText sorted i (runEnd sorted n i)) (by omega)
        have notFull : ¬ next.cap ≤ next.off := Nat.not_le.mpr (by
          rw [nextHolds.off]
          exact nextHolds.room)
        rw [if_pos inside, appended, ok_bind, if_neg notFull, ← List.append_assoc]
        apply ih (n - (runEnd sorted n i + 1)) (by omega) ⟨nextHolds, terminated⟩ _ rfl
        rw [List.length_append, cap]
        unfold entriesText
        omega
      · have nothing : (sorted.take n).drop i = [] := by
          apply List.drop_eq_nil_of_le
          rw [List.length_take]
          omega
        rw [if_neg inside, nothing]
        refine ⟨buffer, rfl, ?_⟩
        rw [show entriesText (pidRuns []) = [] from rfl, List.append_nil]
        exact holds

/-- The text of a filter. -/
def filterText (ranges : List PidRange) : CStr :=
  " ".toList.intercalate (ranges.map PidRange.text)

/-- With the last blank cut off, the entries are the text of the filter. -/
theorem entriesText_cons (range : PidRange) (ranges : List PidRange) :
    entriesText (range :: ranges) = filterText (range :: ranges) ++ " ".toList := by
  induction ranges generalizing range with
  | nil => simp [entriesText, filterText, List.intercalate]
  | cons second ranges ih =>
      have step : filterText (range :: second :: ranges) =
          range.text ++ " ".toList ++ filterText (second :: ranges) := by
        simp [filterText, List.intercalate]
      have more : entriesText (range :: second :: ranges) =
          range.text ++ " ".toList ++ entriesText (second :: ranges) := List.flatMap_cons
      rw [more, step, ih second, List.append_assoc _ (filterText _)]

theorem isHex_hex4 (pid : UInt16) : IsHex (hex4 pid) := by
  refine ⟨List.cons_ne_nil _ _, ?_⟩
  have bound := pid.toNat_lt
  have digit (n : Nat) (small : n < 16) : (hexDigit? (Nat.digitChar n)).isSome := by
    rw [hexDigit?_digitChar small]
    rfl
  simp only [hex4, List.forall_mem_cons, List.not_mem_nil, false_imp_iff, implies_true, and_true]
  exact ⟨digit _ (by omega), digit _ (by omega), digit _ (by omega), digit _ (by omega)⟩

theorem hexValue_hex4 (pid : UInt16) : hexValue (hex4 pid) = pid.toNat := by
  have read := hexDigits_hex4 pid
  have value := @getD_hexDigits (hex4 pid) [] (isHex_hex4 pid).2 nofun
  rw [List.append_nil, read] at value
  exact value.symm

/-- An entry is written as it should be. -/
theorem writtenToken_text {range : PidRange} (ordered : range.start ≤ range.last)
    (small : range.last ≤ 0x1FFF) : WrittenToken range.text range := by
  refine ⟨Nat.lt_of_le_of_lt (length_text_le range) (by decide), ordered, small, ?_⟩
  unfold PidRange.text
  by_cases single : range.start = range.last
  · rw [if_pos single]
    exact Or.inl ⟨hex4 range.start, isHex_hex4 _, rfl, hexValue_hex4 _, single⟩
  · rw [if_neg single]
    exact Or.inr ⟨hex4 range.start, hex4 range.last, isHex_hex4 _, isHex_hex4 _, rfl,
      hexValue_hex4 _, hexValue_hex4 _⟩

/-- The characters of an entry. -/
theorem mem_text {range : PidRange} {character : Char} (member : character ∈ range.text) :
    (hexDigit? character).isSome ∨ character = 'x' ∨ character = '-' := by
  have mark : ∀ character ∈ "0x".toList, (hexDigit? character).isSome ∨ character = 'x' ∨
      character = '-' :=
    List.forall_iff_forall_mem.mp (by decide)
  unfold PidRange.text at member
  split at member
  · rcases List.mem_append.mp member with front | digit
    · exact mark character front
    · exact Or.inl ((isHex_hex4 _).2 character digit)
  · rcases List.mem_append.mp member with first | second
    · rcases List.mem_append.mp first with front | digit
      · exact mark character front
      · exact Or.inl ((isHex_hex4 _).2 character digit)
    · rcases List.mem_cons.mp second with dash | second
      · exact Or.inr (Or.inr dash)
      · rcases List.mem_append.mp second with front | digit
        · exact mark character front
        · exact Or.inl ((isHex_hex4 _).2 character digit)

theorem isSpace_of_mem_text {range : PidRange} {character : Char}
    (member : character ∈ range.text) : CString.isSpace character = false := by
  have blanks : ∀ blank ∈ [' ', '\t', '\n', Char.ofNat 11, Char.ofNat 12, '\r'],
      ¬ ((hexDigit? blank).isSome ∨ blank = 'x' ∨ blank = '-') :=
    List.forall_iff_forall_mem.mp (by decide)
  rw [CString.isSpace, List.contains_eq_mem, decide_eq_false_iff_not]
  exact fun blank => blanks character blank (mem_text member)

theorem sortPids_eq (pids : List UInt16) : sortPids pids = pids.insertionSort (· ≤ ·) := by
  obtain ⟨perm, sorted⟩ := sortPids_perm pids
  apply List.Perm.eq_of_pairwise (fun _ _ _ _ => UInt16.le_antisymm) sorted
    (List.pairwise_insertionSort _ pids)
  exact perm.trans (List.perm_insertionSort _ pids).symm

theorem length_dropRepeats_le (pids : List UInt16) : (dropRepeats pids).length ≤ pids.length := by
  induction pids with
  | nil => exact Nat.le_refl 0
  | cons pid rest ih =>
      rw [dropRepeats]
      split
      · exact Nat.le_succ_of_le ih
      · exact Nat.succ_le_succ ih

theorem length_pidRuns_le (pids : List UInt16) : (pidRuns pids).length ≤ pids.length := by
  induction pids with
  | nil => exact Nat.le_refl 0
  | cons pid rest ih =>
      rw [pidRuns]
      split
      · exact Nat.succ_le_succ (Nat.zero_le _)
      · rename_i range ranges runs
        rw [runs] at ih
        split
        · exact Nat.le_succ_of_le ih
        · exact Nat.succ_le_succ ih

theorem length_pidFilterRanges_le (pids : List UInt16) :
    (pidFilterRanges pids).length ≤ pids.length :=
  calc (pidFilterRanges pids).length ≤ (dropRepeats (pids.insertionSort (· ≤ ·))).length :=
        length_pidRuns_le _
    _ ≤ (pids.insertionSort (· ≤ ·)).length := length_dropRepeats_le _
    _ = pids.length := List.length_insertionSort _ _

/-- No text of a filter has a terminator in it. -/
theorem terminator_not_mem_filterText (ranges : List PidRange) :
    terminator ∉ filterText ranges := by
  cases ranges with
  | nil => exact List.not_mem_nil
  | cons range ranges =>
      intro member
      have inEntries : terminator ∈ entriesText (range :: ranges) := by
        rw [entriesText_cons]
        exact List.mem_append_left _ member
      obtain ⟨entry, -, inEntry⟩ := List.mem_flatMap.mp inEntries
      rcases List.mem_append.mp inEntry with inText | blank
      · exact absurd (mem_text inText) (by decide)
      · exact absurd blank (by decide)

/-- What is left when the last blank is cut off. -/
theorem cString_trimBlank {buffer : TextBuffer} {text : CStr}
    (holds : Terminated buffer (text ++ " ".toList)) (clean : terminator ∉ text) :
    cString (trimBlank buffer) = .ok text := by
  obtain ⟨holds, -⟩ := holds
  have off : buffer.off = text.length + 1 := by
    rw [holds.off, List.length_append]
    rfl
  have room := holds.room
  have front : buffer.cells.take (text.length + 1) = text ++ " ".toList := by
    have whole := holds.text
    rwa [List.length_append] at whole
  have blank : buffer.cells.getD text.length terminator = ' ' := by
    rw [List.getD_eq_getElem?_getD, ← List.getElem?_take_of_lt (Nat.lt_succ_self _), front,
      List.getElem?_append_right (Nat.le_refl _), Nat.sub_self]
    rfl
  have trimmed : trimBlank buffer = buffer.cells.set text.length terminator := by
    rw [trimBlank, off, Nat.add_sub_cancel]
    exact if_pos ⟨Nat.succ_pos _, blank⟩
  rw [List.length_append] at room
  have cut : (⟨trimBlank buffer, text.length⟩ : TextBuffer).Holds text := by
    rw [trimmed]
    refine ⟨rfl, ?_, ?_, ?_⟩
    · rw [TextBuffer.cap, List.length_set]
      exact Nat.lt_of_le_of_lt (Nat.le_add_right _ _) room
    · rw [TextBuffer.cap, List.length_set]
      exact holds.small
    · have shorter : buffer.cells.take text.length =
          (buffer.cells.take (text.length + 1)).take text.length := by
        rw [List.take_take, Nat.min_eq_left (Nat.le_succ _)]
      dsimp only
      rw [List.take_set_of_le (Nat.le_refl _), shorter, front, List.take_left]
  apply cut.cString _ clean
  dsimp only
  rw [trimmed]
  exact List.getElem?_set_self (Nat.lt_of_le_of_lt (Nat.le_add_right _ _) room)

/-- The C string that `pid_filter_format` leaves is the text of the ranges. -/
theorem pidFilterFormat_eq {pids : List UInt16} {out : List Char} (few : pids.length ≤ 64)
    (room : 897 ≤ out.length) (small : out.length < 2 ^ 64) :
    ∃ cells, pidFilterFormat pids out = .ok cells ∧
      cString cells = .ok (filterText (pidFilterRanges pids)) := by
  obtain ⟨first, out, rfl⟩ := List.exists_cons_of_ne_nil
    (List.ne_nil_of_length_pos (Nat.lt_of_lt_of_le (by decide : 0 < 897) room))
  have inside := dedupPids_inside (sortPids pids)
  have ranges : pidRuns (((dedupPids (sortPids pids)).1.take (dedupPids (sortPids pids)).2).drop 0) =
      pidFilterRanges pids := by
    rw [List.drop_zero, dedupPids_eq, sortPids_eq, pidFilterRanges]
  have count := length_pidFilterRanges_le pids
  have size := length_entriesText (pidFilterRanges pids)
  have empty : Terminated ⟨terminator :: out, 0⟩ [] :=
    ⟨⟨rfl, Nat.zero_lt_succ _, small, rfl⟩, rfl⟩
  have fits : (entriesText (pidFilterRanges pids)).length < (⟨terminator :: out, 0⟩ : TextBuffer).cap := by
    have cap : (⟨terminator :: out, 0⟩ : TextBuffer).cap = (first :: out).length := rfl
    omega
  obtain ⟨next, written, holds⟩ := @writeEntries_eq _ _ 0 inside _ _ empty
    (by rw [ranges, List.length_nil, Nat.zero_add]; exact fits)
  rw [ranges, List.nil_append] at holds
  refine ⟨trimBlank next, ?_, ?_⟩
  · have start : store (first :: out) 0 terminator = .ok (terminator :: out) := rfl
    simp only [pidFilterFormat, List.take_of_length_le few, start, ok_bind, written]
  · cases entries : pidFilterRanges pids with
    | nil =>
        rw [entries] at holds
        have nothing : trimBlank next = next.cells := if_neg fun both => absurd both.1 (by
          rw [holds.1.off]
          exact Nat.lt_irrefl 0)
        rw [nothing]
        exact holds.1.cString holds.2 List.not_mem_nil
    | cons range ranges =>
        rw [entries, entriesText_cons] at holds
        exact cString_trimBlank holds (terminator_not_mem_filterText _)

theorem Separated.blank_cons {text : CStr} {words : List CStr} (separated : Separated text words)
    {character : Char} (blank : CString.isSpace character = true) :
    Separated (character :: text) words := by
  cases separated with
  | blanks all => exact .blanks (List.forall_mem_cons.mpr ⟨blank, all⟩)
  | @word front word rest words all some_ solid ends more =>
      rw [← List.cons_append]
      exact .word (List.forall_mem_cons.mpr ⟨blank, all⟩) some_ solid ends more

/-- The words of a filter text are its entries. -/
theorem separated_filterText (ranges : List PidRange) :
    Separated (filterText ranges) (ranges.map PidRange.text) := by
  have some_ (range : PidRange) : range.text ≠ [] := by
    unfold PidRange.text
    split <;> exact List.cons_ne_nil _ _
  induction ranges with
  | nil => exact .blanks nofun
  | cons range ranges ih =>
      cases ranges with
      | nil =>
          have alone : filterText [range] = [] ++ (range.text ++ []) := by
            simp [filterText, List.intercalate]
          rw [alone]
          exact .word nofun (some_ range) (fun _ => isSpace_of_mem_text) nofun (.blanks nofun)
      | cons second ranges =>
          have step : filterText (range :: second :: ranges) =
              [] ++ (range.text ++ ' ' :: filterText (second :: ranges)) := by
            simp [filterText, List.intercalate]
          have noFront : ∀ character ∈ ([] : CStr), CString.isSpace character = true := nofun
          rw [step]
          apply Separated.word noFront (some_ range) (fun _ => isSpace_of_mem_text) _
            (ih.blank_cons rfl)
          intro character isHead
          cases isHead
          rfl

/-- What is written is read back as the ranges. -/
theorem pidFilterParse_filterText {ranges : List PidRange} (few : ranges.length ≤ pidFilterMaxRanges)
    (ordered : ∀ range ∈ ranges, range.start ≤ range.last ∧ range.last ≤ 0x1FFF) :
    pidFilterParse (filterText ranges) = some ranges := by
  apply pidFilterParse_eq_some_iff.mpr
  refine ⟨ranges.map PidRange.text, separated_filterText ranges, ?_, ?_⟩
  · rw [List.length_map]
    exact few
  · rw [List.forall₂_map_left_iff, List.forall₂_same]
    intro range member
    exact (writtenToken_text (ordered range member).1 (ordered range member).2).scanned

/-- A run of consecutive PIDs that goes on neither before nor behind. -/
structure MaximalRun (pids : List UInt16) (run : PidRange) : Prop where
  ordered : run.start ≤ run.last
  full : ∀ pid, run.Covers pid → pid ∈ pids
  begins : ∀ pid ∈ pids, pid.toNat + 1 ≠ run.start.toNat
  ends : ∀ pid ∈ pids, pid.toNat ≠ run.last.toNat + 1

/-- The maximal runs, in ascending order. -/
structure MaximalRuns (pids : List UInt16) (runs : List PidRange) : Prop where
  mem_iff : ∀ run, run ∈ runs ↔ MaximalRun pids run
  ascending : runs.Pairwise fun first second => first.last < second.start

theorem dropRepeats_ascending {pids : List UInt16} (sorted : pids.Pairwise (· ≤ ·)) :
    (dropRepeats pids).Pairwise (· < ·) := by
  induction pids with
  | nil => exact List.Pairwise.nil
  | cons pid rest ih =>
      obtain ⟨below, restSorted⟩ := List.pairwise_cons.mp sorted
      rw [dropRepeats]
      split
      · exact ih restSorted
      · rename_i differs
        refine List.pairwise_cons.mpr ⟨?_, ih restSorted⟩
        intro other member
        rw [mem_dropRepeats] at member
        obtain ⟨first, more, rfl⟩ := List.exists_cons_of_ne_nil (List.ne_nil_of_mem member)
        have firstAbove : pid < first :=
          UInt16.lt_of_le_of_ne (below first List.mem_cons_self) fun same =>
            differs (congrArg some same.symm)
        rcases List.mem_cons.mp member with rfl | later
        · exact firstAbove
        · exact UInt16.lt_of_lt_of_le firstAbove ((List.pairwise_cons.mp restSorted).1 other later)

/-- Between two runs of ascending PIDs there is a gap. -/
theorem pidRuns_gaps {pids : List UInt16} (ascending : pids.Pairwise (· < ·)) :
    (pidRuns pids).Pairwise fun first second => first.last.toNat + 1 < second.start.toNat := by
  induction pids with
  | nil => exact List.Pairwise.nil
  | cons pid rest ih =>
      obtain ⟨above, restAscending⟩ := List.pairwise_cons.mp ascending
      have gaps := ih restAscending
      have ordered := (pidRuns_covers rest).1
      rw [pidRuns]
      split
      · exact List.pairwise_singleton _ _
      · rename_i range ranges runs
        rw [runs] at gaps ordered
        obtain ⟨later, others⟩ := List.pairwise_cons.mp gaps
        split
        · exact List.pairwise_cons.mpr ⟨later, others⟩
        · rename_i apart
          have start : pid.toNat < range.start.toNat := by
            obtain ⟨first, more, rfl⟩ : ∃ first more, rest = first :: more := by
              cases rest with
              | nil => cases runs
              | cons first more => exact ⟨first, more, rfl⟩
            obtain ⟨head, tail, is, headStart⟩ := @pidRuns_head first more
            rw [runs] at is
            cases is
            rw [headStart]
            exact UInt16.lt_iff_toNat_lt.mp (above first List.mem_cons_self)
          have rangeOrdered := UInt16.le_iff_toNat_le.mp (ordered range List.mem_cons_self)
          refine List.pairwise_cons.mpr ⟨?_, gaps⟩
          intro other member
          rcases List.mem_cons.mp member with rfl | more
          · dsimp only
            omega
          · have := later other more
            dsimp only
            omega

/-- Each PID is in one run. -/
theorem pidFilterTotalCount_pidRuns (pids : List UInt16) :
    pidFilterTotalCount (pidRuns pids) = pids.length := by
  induction pids with
  | nil => rfl
  | cons pid rest ih =>
      have ordered := (pidRuns_covers rest).1
      rw [pidRuns]
      split
      · rename_i nothing
        rw [nothing] at ih
        rw [List.length_cons, ← ih]
        simp [pidFilterTotalCount, PidRange.span]
      · rename_i range ranges runs
        rw [runs] at ih ordered
        have rangeOrdered := UInt16.le_iff_toNat_le.mp (ordered range List.mem_cons_self)
        rw [List.length_cons, ← ih]
        simp only [pidFilterTotalCount, List.map_cons, List.sum_cons]
        split
        · rename_i joins
          simp only [List.map_cons, List.sum_cons, PidRange.span]
          omega
        · simp only [List.map_cons, List.sum_cons, PidRange.span]
          omega

/-- Maximal runs with a PID in common are the same. -/
theorem MaximalRun.eq_of_covers {pids : List UInt16} {first second : PidRange}
    (one : MaximalRun pids first) (two : MaximalRun pids second) {pid : UInt16}
    (inFirst : first.Covers pid) (inSecond : second.Covers pid) : first = second := by
  have starts (one two : PidRange) (oneRun : MaximalRun pids one) (twoRun : MaximalRun pids two)
      (inOne : one.Covers pid) (inTwo : two.Covers pid) : one.start.toNat ≤ two.start.toNat := by
    by_contra later
    have bound := one.start.toNat_lt
    have before : (UInt16.ofNat (one.start.toNat - 1)).toNat = one.start.toNat - 1 := by
      rw [UInt16.toNat_ofNat']
      omega
    have startPid := UInt16.le_iff_toNat_le.mp inOne.1
    have pidLast := UInt16.le_iff_toNat_le.mp inTwo.2
    have inside : two.Covers (UInt16.ofNat (one.start.toNat - 1)) := by
      rw [PidRange.Covers, UInt16.le_iff_toNat_le, UInt16.le_iff_toNat_le, before]
      omega
    exact oneRun.begins _ (twoRun.full _ inside) (by omega)
  have ends (one two : PidRange) (oneRun : MaximalRun pids one) (twoRun : MaximalRun pids two)
      (inOne : one.Covers pid) (inTwo : two.Covers pid) : one.last.toNat ≤ two.last.toNat := by
    by_contra later
    have bound := one.last.toNat_lt
    have behind : (UInt16.ofNat (two.last.toNat + 1)).toNat = two.last.toNat + 1 := by
      rw [UInt16.toNat_ofNat']
      omega
    have startPid := UInt16.le_iff_toNat_le.mp inOne.1
    have pidLast := UInt16.le_iff_toNat_le.mp inTwo.2
    have inside : one.Covers (UInt16.ofNat (two.last.toNat + 1)) := by
      rw [PidRange.Covers, UInt16.le_iff_toNat_le, UInt16.le_iff_toNat_le, behind]
      omega
    exact twoRun.ends _ (oneRun.full _ inside) behind
  have start : first.start = second.start := UInt16.toNat_inj.mp
    (Nat.le_antisymm (starts _ _ one two inFirst inSecond) (starts _ _ two one inSecond inFirst))
  have last : first.last = second.last := UInt16.toNat_inj.mp
    (Nat.le_antisymm (ends _ _ one two inFirst inSecond) (ends _ _ two one inSecond inFirst))
  cases first
  cases second
  exact congrArg₂ PidRange.mk start last

/-- The ranges that are written are the maximal runs. -/
theorem maximalRuns_pidFilterRanges (pids : List UInt16) :
    MaximalRuns pids (pidFilterRanges pids) := by
  have covers := pidFilterRanges_covers pids
  have ordered : ∀ range ∈ pidFilterRanges pids, range.start ≤ range.last := (pidRuns_covers _).1
  have gaps : (pidFilterRanges pids).Pairwise fun first second =>
      first.last.toNat + 1 < second.start.toNat := by
    apply pidRuns_gaps
    exact dropRepeats_ascending (List.pairwise_insertionSort _ pids)
  have apart : ∀ first ∈ pidFilterRanges pids, ∀ second ∈ pidFilterRanges pids, first ≠ second →
      first.last.toNat + 1 < second.start.toNat ∨ second.last.toNat + 1 < first.start.toNat := by
    have symmetric : Std.Symm fun first second : PidRange =>
        first.last.toNat + 1 < second.start.toNat ∨ second.last.toNat + 1 < first.start.toNat :=
      ⟨fun _ _ => Or.symm⟩
    have either := gaps.imp fun {first second : PidRange} apart =>
      (Or.inl apart : _ ∨ second.last.toNat + 1 < first.start.toNat)
    exact fun first firstMem second secondMem differ =>
      either.forall firstMem secondMem differ
  have maximal : ∀ run ∈ pidFilterRanges pids, MaximalRun pids run := by
    intro run member
    have runOrdered := UInt16.le_iff_toNat_le.mp (ordered run member)
    have outside : ∀ pid ∈ pids, run.Covers pid ∨ pid.toNat + 1 < run.start.toNat ∨
        run.last.toNat + 1 < pid.toNat := by
      intro pid inPids
      obtain ⟨range, rangeMem, inRange⟩ := (covers pid).mpr inPids
      have low := UInt16.le_iff_toNat_le.mp inRange.1
      have high := UInt16.le_iff_toNat_le.mp inRange.2
      by_cases same : range = run
      · exact Or.inl (same ▸ inRange)
      · right
        rcases apart range rangeMem run member same with before | behind
        · left
          omega
        · right
          omega
    refine ⟨ordered run member, fun pid inside => (covers pid).mp ⟨run, member, inside⟩, ?_, ?_⟩
    · intro pid inPids next
      rcases outside pid inPids with inside | before | behind
      · have low := UInt16.le_iff_toNat_le.mp inside.1
        omega
      · omega
      · omega
    · intro pid inPids next
      rcases outside pid inPids with inside | before | behind
      · have high := UInt16.le_iff_toNat_le.mp inside.2
        omega
      · omega
      · omega
  refine ⟨fun run => ⟨maximal run, fun isMaximal => ?_⟩, ?_⟩
  · have inside : run.Covers run.start := ⟨UInt16.le_refl _, isMaximal.ordered⟩
    obtain ⟨range, member, also⟩ := (covers run.start).mpr (isMaximal.full _ inside)
    rw [isMaximal.eq_of_covers (maximal range member) inside also]
    exact member
  · exact gaps.imp fun apart => UInt16.lt_iff_toNat_lt.mpr (by omega)

/-- There is only one list of the maximal runs. -/
theorem MaximalRuns.unique {pids : List UInt16} {first second : List PidRange}
    (one : MaximalRuns pids first) (two : MaximalRuns pids second) : first = second := by
  have nodup {runs : List PidRange} (maximal : MaximalRuns pids runs) : runs.Nodup := by
    apply maximal.ascending.imp_of_mem
    intro run _ member _ before same
    rw [← same] at before
    exact absurd ((maximal.mem_iff run).mp member).ordered (UInt16.not_le.mpr before)
  have perm : first.Perm second := by
    rw [List.perm_ext_iff_of_nodup (nodup one) (nodup two)]
    exact fun run => (one.mem_iff run).trans (two.mem_iff run).symm
  apply List.Perm.eq_of_pairwise _ one.ascending two.ascending perm
  intro run other runMem otherMem before behind
  have runOrdered := ((one.mem_iff run).mp runMem).ordered
  have otherOrdered := ((two.mem_iff other).mp otherMem).ordered
  rw [UInt16.le_iff_toNat_le] at runOrdered otherOrdered
  rw [UInt16.lt_iff_toNat_lt] at before behind
  omega

/-- The text that is written for PIDs is accepted as their maximal runs; these
cover the PIDs and nothing else, and count each of them once.  The length of
the buffer is a `size_t`. -/
theorem pid_filter_round_trip {pids : List UInt16} {runs : List PidRange} {out : List Char}
    (few : pids.length ≤ 64) (pidsSmall : ∀ pid ∈ pids, pid ≤ 0x1FFF)
    (maximal : MaximalRuns pids runs) (fewRuns : runs.length ≤ 32) (room : 897 ≤ out.length)
    (isSize : out.length < 2 ^ 64) :
    ∃ cells text, pidFilterFormat pids out = .ok cells ∧ cString cells = .ok text ∧
      pidFilterParse text = some runs ∧
      (∀ pid, (∃ range ∈ runs, range.Covers pid) ↔ pid ∈ pids) ∧
      pidFilterTotalCount runs = pids.toFinset.card := by
  have same : runs = pidFilterRanges pids := maximal.unique (maximalRuns_pidFilterRanges pids)
  obtain ⟨cells, formatted, text⟩ := pidFilterFormat_eq few room isSize
  have covers := pidFilterRanges_covers pids
  refine ⟨cells, _, formatted, text, ?_, ?_, ?_⟩
  · rw [← same]
    apply pidFilterParse_filterText fewRuns
    intro range member
    have ordered := ((maximal.mem_iff range).mp member).ordered
    have last : range.Covers range.last := ⟨ordered, UInt16.le_refl _⟩
    exact ⟨ordered, pidsSmall _ (((maximal.mem_iff range).mp member).full _ last)⟩
  · rw [same]
    exact covers
  · have nodup : (dropRepeats (pids.insertionSort (· ≤ ·))).Nodup :=
      (dropRepeats_ascending (List.pairwise_insertionSort _ pids)).imp UInt16.ne_of_lt
    have members : (dropRepeats (pids.insertionSort (· ≤ ·))).toFinset = pids.toFinset := by
      ext pid
      rw [List.mem_toFinset, List.mem_toFinset, mem_dropRepeats, List.mem_insertionSort]
    rw [same, pidFilterRanges, pidFilterTotalCount_pidRuns, ← members,
      List.toFinset_card_of_nodup nodup]

/-- Five PIDs in any order, one of them twice, that form two runs. -/
theorem pid_filter_round_trip_two_runs :
    ∃ cells text, pidFilterFormat [0x34, 0x31, 0x30, 0x31, 0x32] (List.replicate 897 'x') = .ok cells ∧
      cString cells = .ok text ∧
      pidFilterParse text = some [⟨0x30, 0x32⟩, ⟨0x34, 0x34⟩] ∧
      (∀ pid, (∃ range ∈ [⟨0x30, 0x32⟩, ⟨0x34, 0x34⟩], PidRange.Covers range pid) ↔
        pid ∈ [0x34, 0x31, 0x30, 0x31, 0x32]) ∧
      pidFilterTotalCount [⟨0x30, 0x32⟩, ⟨0x34, 0x34⟩] =
        ([0x34, 0x31, 0x30, 0x31, 0x32] : List UInt16).toFinset.card := by
  have runs : pidFilterRanges [0x34, 0x31, 0x30, 0x31, 0x32] = [⟨0x30, 0x32⟩, ⟨0x34, 0x34⟩] := by
    decide
  have maximal := maximalRuns_pidFilterRanges [0x34, 0x31, 0x30, 0x31, 0x32]
  rw [runs] at maximal
  exact pid_filter_round_trip (by decide) (List.forall_iff_forall_mem.mp (by decide)) maximal
    (by decide) (by rw [List.length_replicate]) (by rw [List.length_replicate]; decide)

end HdhrEmu
