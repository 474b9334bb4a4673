import RadProt.Lib.CString

namespace RadProt.Lib

def fold (s : List UInt8) : List UInt8 := s.map toLower

theorem toLower_eq_zero_iff {b : UInt8} : toLower b = 0 ↔ b = 0 := by
  unfold toLower
  split <;> grind

theorem toLower_eq_dot_iff {b : UInt8} : toLower b = 46 ↔ b = 46 := by
  unfold toLower
  split <;> grind

@[simp] theorem fold_nil : fold [] = [] := rfl

@[simp] theorem fold_cons (b : UInt8) (s : List UInt8) : fold (b :: s) = toLower b :: fold s := rfl

@[simp] theorem fold_append (s t : List UInt8) : fold (s ++ t) = fold s ++ fold t := List.map_append

@[simp] theorem length_fold (s : List UInt8) : (fold s).length = s.length := List.length_map _

@[simp] theorem fold_eq_nil_iff {s : List UInt8} : fold s = [] ↔ s = [] := List.map_eq_nil_iff

theorem fold_take (s : List UInt8) (n : Nat) : fold (s.take n) = (fold s).take n := List.map_take

theorem fold_take_of_eq {text name s : List UInt8} (h : fold text = fold name ++ s) :
    fold (text.take name.length) = fold name := by
  rw [fold_take, h, List.take_append_of_le_length (Nat.le_of_eq (length_fold _).symm),
    List.take_of_length_le (Nat.le_of_eq (length_fold _))]

@[simp] theorem zero_mem_fold_iff {s : List UInt8} : 0 ∈ fold s ↔ 0 ∈ s := by
  simp [fold, toLower_eq_zero_iff]

@[simp] theorem dot_mem_fold_iff {s : List UInt8} : 46 ∈ fold s ↔ 46 ∈ s := by
  simp [fold, toLower_eq_dot_iff]

theorem cString_fold (s : List UInt8) : cString (fold s) = fold (cString s) := by
  simp only [cString, fold, List.takeWhile_map]
  congr 2
  funext b
  simp [toLower_eq_zero_iff]

theorem strncaseEq_iff {a b : List UInt8} {n : Nat} :
    strncaseEq a b n = true ↔ (fold (cString a)).take n = (fold (cString b)).take n := by
  simp [strncaseEq, fold, List.map_take]

theorem strcaseEq_iff {a b : List UInt8} :
    strcaseEq a b = true ↔ fold (cString a) = fold (cString b) := by
  simp [strcaseEq, fold]

def dotted (labels : List (List UInt8)) : List UInt8 := List.intercalate [46] labels

@[simp] theorem dotted_nil : dotted [] = [] := rfl

@[simp] theorem dotted_singleton (label : List UInt8) : dotted [label] = label := by simp [dotted]

theorem dotted_cons {label : List UInt8} {labels : List (List UInt8)} (h : labels ≠ []) :
    dotted (label :: labels) = label ++ 46 :: dotted labels := by
  rw [dotted, List.intercalate_cons_of_ne_nil h, List.append_assoc]
  rfl

theorem fold_dotted (labels : List (List UInt8)) :
    fold (dotted labels) = dotted (labels.map fold) := by
  induction labels with
  | nil => rfl
  | cons label labels ih =>
    cases labels with
    | nil => simp
    | cons next rest =>
      have hne : (next :: rest).map fold ≠ [] := by simp
      rw [dotted_cons (List.cons_ne_nil _ _), fold_append, fold_cons, ih, List.map_cons (l := next :: rest),
        dotted_cons hne]
      rfl

theorem mem_dotted {b : UInt8} {labels : List (List UInt8)} (h : b ∈ dotted labels) (hb : b ≠ 46) :
    ∃ label ∈ labels, b ∈ label := by
  induction labels with
  | nil => exact nomatch h
  | cons label labels ih =>
    by_cases hnil : labels = []
    · subst hnil
      rw [dotted_singleton] at h
      exact ⟨label, List.mem_cons_self, h⟩
    · rw [dotted_cons hnil, List.mem_append, List.mem_cons] at h
      obtain h | h | h := h
      · exact ⟨label, List.mem_cons_self, h⟩
      · exact absurd h hb
      · obtain ⟨l, hl, hmem⟩ := ih h
        exact ⟨l, List.mem_cons_of_mem _ hl, hmem⟩

theorem dotted_inj {as bs : List (List UInt8)} (ha : ∀ l ∈ as, 46 ∉ l) (hb : ∀ l ∈ bs, 46 ∉ l)
    (hane : as ≠ []) (hbne : bs ≠ []) (h : dotted as = dotted bs) : as = bs := by
  rw [← List.splitOn_intercalate 46 ha hane, ← List.splitOn_intercalate 46 hb hbne]
  exact congrArg (List.splitOn 46) h

end RadProt.Lib
