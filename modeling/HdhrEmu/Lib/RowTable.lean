import Mathlib.Data.List.Nodup

/-!
# Tables that are searched by a column

A table is a list of rows, and a column is a function of them.  A search by a
column returns what the first row that fits has in another one; in a column in
which nothing comes twice there is only one such row.
-/

namespace RowTable

variable {ρ κ ν : Type*} [DecidableEq κ] (column : ρ → κ) (value : ρ → ν)

/-- What the first row with this key has in the other column. -/
def search (rows : List ρ) (key : κ) : Option ν :=
  (rows.find? fun row => column row == key).map value

variable {column value}

theorem search_append (rows more : List ρ) (key : κ) :
    search column value (rows ++ more) key =
      (search column value rows key).or (search column value more key) := by
  unfold search
  rw [List.find?_append]
  cases rows.find? fun row => column row == key <;> rfl

/-- A key that is in no row is not found. -/
theorem search_eq_none {rows : List ρ} {key : κ} (missing : ∀ row ∈ rows, column row ≠ key) :
    search column value rows key = none := by
  rw [search, Option.map_eq_none_iff, List.find?_eq_none]
  intro row member
  simpa using missing row member

/-- The row with a key is found by it. -/
theorem search_of_mem {rows : List ρ} (nodup : (rows.map column).Nodup) {row : ρ}
    (member : row ∈ rows) : search column value rows (column row) = some (value row) := by
  cases found : rows.find? fun other => column other == column row with
  | none =>
      have differs := List.find?_eq_none.mp found row member
      simp at differs
  | some other =>
      have same : column other = column row := by simpa using List.find?_some found
      have row_ := List.inj_on_of_nodup_map nodup (List.mem_of_find?_eq_some found) member same
      rw [search, found, row_, Option.map_some]

/-- What is found by one column leads back by the other one. -/
theorem search_back [DecidableEq ν] {rows : List ρ} (nodup : (rows.map value).Nodup) {key : κ}
    {default : ν} (other : κ) (found : (search column value rows key).getD default ≠ default) :
    (search value column rows ((search column value rows key).getD default)).getD other = key := by
  unfold search at found ⊢
  cases first : rows.find? fun row => column row == key with
  | none =>
      rw [first] at found
      exact absurd rfl found
  | some row =>
      have same : column row = key := by simpa using List.find?_some first
      have back : search value column rows (value row) = some (column row) :=
        search_of_mem nodup (List.mem_of_find?_eq_some first)
      rw [Option.map_some, Option.getD_some]
      exact (congrArg (Option.getD · other) back).trans same

omit [DecidableEq κ] in
/-- Every key of the column is at exactly one place. -/
theorem existsUnique_place {rows : List ρ} (nodup : (rows.map column).Nodup) {row : ρ}
    (member : row ∈ rows) : ∃! place : Nat, (rows[place]?).map column = some (column row) := by
  obtain ⟨place, found⟩ := List.mem_iff_getElem?.mp member
  have here : (rows[place]?).map column = some (column row) := congrArg (Option.map column) found
  refine ⟨place, here, ?_⟩
  intro other there
  change (rows[other]?).map column = some (column row) at there
  rw [← List.getElem?_map] at here there
  exact (List.getElem?_inj (List.getElem?_eq_some_iff.mp there).1 nodup).mp (there.trans here.symm)

end RowTable
