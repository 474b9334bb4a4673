import Mathlib.Data.List.Basic

namespace RadProt.Lib

universe u

variable {α : Type u}

/-- Every list is built from its pieces: nothing, a last piece without the separator, or a piece,
the separator and the rest. -/
theorem split_induction (sep : α) {motive : List α → Prop} (nil : motive [])
    (last : ∀ s, s ≠ [] → sep ∉ s → motive s)
    (piece : ∀ s rest, sep ∉ s → motive rest → motive (s ++ sep :: rest)) (s : List α) :
    motive s := by
  by_cases hmem : sep ∈ s
  · obtain ⟨front, rest, hs, hfront⟩ := List.eq_append_cons_of_mem hmem
    subst hs
    exact piece front rest hfront (split_induction sep nil last piece rest)
  · by_cases hnil : s = []
    · exact hnil ▸ nil
    · exact last s hnil hmem
termination_by s.length
decreasing_by
  rw [hs, List.length_append, List.length_cons]
  omega

section Pieces

variable [DecidableEq α]

/-- The pieces of `s` between the separators, without an empty one at the end. -/
def pieces (sep : α) (s : List α) : List (List α) :=
  if (s.splitOn sep).getLast? = some [] then (s.splitOn sep).dropLast else s.splitOn sep

variable {sep : α} {s : List α}

theorem pieces_of_notMem (hne : s ≠ []) (h : sep ∉ s) : pieces sep s = [s] := by
  rw [pieces, List.splitOn_eq_singleton h, if_neg (by simpa using hne)]

theorem pieces_append_cons (h : sep ∉ s) (rest : List α) :
    pieces sep (s ++ sep :: rest) = s :: pieces sep rest := by
  have hne : rest.splitOn sep ≠ [] := List.splitOn_ne_nil sep rest
  rw [pieces, pieces, List.splitOn_append_cons_self_of_not_mem h,
    List.getLast?_cons_of_ne_nil hne, List.dropLast_cons_of_ne_nil hne]
  split <;> rfl

end Pieces

def spans : (start : Nat) → List (List α) → List (Nat × Nat)
  | _, [] => []
  | start, s :: rest => (start, s.length) :: spans (start + s.length + 1) rest

section Spans

variable [DecidableEq α]

theorem slices_spans (sep : α) (before rest : List α) :
    (spans before.length (pieces sep rest)).map
      (fun span => ((before ++ rest).drop span.1).take span.2) = pieces sep rest := by
  induction rest using split_induction sep generalizing before with
  | nil => rfl
  | last s hne hs => rw [pieces_of_notMem hne hs]; simp [spans]
  | piece s rest hs ih =>
    have hrest := ih (before ++ s ++ [sep])
    have hlength : (before ++ s ++ [sep]).length = before.length + s.length + 1 := by
      simp [Nat.add_assoc]
    rw [hlength, List.append_assoc, List.append_assoc, List.singleton_append] at hrest
    rw [pieces_append_cons hs, spans, List.map_cons, hrest, List.drop_left, List.take_left]

end Spans

end RadProt.Lib
