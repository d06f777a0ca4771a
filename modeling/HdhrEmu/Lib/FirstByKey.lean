import Mathlib.Data.List.Nodup

/-!
# The first of each key

Of a list whose elements have keys, the elements whose key none before them
has, in the order of the list.
-/

namespace FirstByKey

variable {α κ : Type*} [DecidableEq κ] (key : α → κ)

def firsts : List α → List α
  | [] => []
  | a :: rest => a :: (firsts rest).filter fun b => key b ≠ key a

/-- No key comes twice. -/
theorem nodup_firsts (list : List α) : ((firsts key list).map key).Nodup := by
  induction list with
  | nil => exact List.nodup_nil
  | cons a rest ih =>
      rw [firsts, List.map_cons, List.nodup_cons]
      constructor
      · intro member
        obtain ⟨b, kept, same⟩ := List.mem_map.mp member
        exact of_decide_eq_true (List.mem_filter.mp kept).2 same
      · exact (List.filter_sublist.map key).nodup ih

/-- One more element is kept if its key is new. -/
theorem firsts_concat (list : List α) (b : α) :
    firsts key (list ++ [b]) =
      if key b ∈ list.map key then firsts key list else firsts key list ++ [b] := by
  induction list with
  | nil => rfl
  | cons a rest ih =>
      rw [List.cons_append, firsts, ih, firsts, List.map_cons]
      by_cases old : key b ∈ rest.map key
      · rw [if_pos old, if_pos (List.mem_cons_of_mem _ old)]
      · rw [if_neg old, List.filter_append]
        by_cases same : key b = key a
        · rw [if_pos (same ▸ List.mem_cons_self), List.filter_cons_of_neg (by simpa using same),
            List.filter_nil, List.append_nil]
        · have new : key b ∉ key a :: rest.map key := fun member =>
            (List.mem_cons.mp member).elim same old
          rw [if_neg new, List.filter_cons_of_pos (by simpa using same), List.filter_nil]
          rfl

end FirstByKey
