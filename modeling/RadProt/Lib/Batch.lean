import Mathlib.Data.List.Infix

namespace RadProt.Lib.Batch

universe u

variable {α : Type u}

/-- What is kept of a batch when `size` values are asked for: one that holds more is started
again. -/
def kept (size : Nat) (batch : List α) : List α := if size < batch.length then [] else batch

/-- One more value for a batch, newest first, and the batch once it is complete. -/
def add (size : Nat) (batch : List α) (value : α) : List α × Option (List α) :=
  if (kept size batch).length + 1 = size then ([], some (value :: kept size batch))
  else (value :: kept size batch, none)

def gathered : List (Nat × α) → List α
  | [] => []
  | (size, value) :: earlier => (add size (gathered earlier) value).1

def outcomes : List (Nat × α) → List (Option (List α))
  | [] => []
  | (size, value) :: earlier => (add size (gathered earlier) value).2 :: outcomes earlier

def NeverFull (values : List (Nat × α)) : Prop :=
  ∀ size value earlier, (size, value) :: earlier <:+ values → (gathered earlier).length ≠ size

section Add

variable {size : Nat} {batch complete : List α} {value : α}

theorem kept_isPrefix : kept size batch <+: batch := by
  rw [kept]
  split
  next => exact List.nil_prefix
  next => exact List.prefix_rfl

theorem kept_of_le (h : batch.length ≤ size) : kept size batch = batch := if_neg h.not_gt

theorem length_kept_lt_iff (hsize : 0 < size) :
    (kept size batch).length < size ↔ batch.length ≠ size := by
  rw [kept]
  split
  next hgt => exact iff_of_true hsize hgt.ne'
  next hle => omega

theorem add_complete (h : (add size batch value).2 = some complete) :
    complete.length = size ∧ complete <+: value :: batch := by
  rw [add] at h
  split at h
  next hlength =>
    obtain rfl := Option.some.inj h
    exact ⟨hlength, List.cons_prefix_cons.mpr ⟨rfl, kept_isPrefix⟩⟩
  next => cases h

theorem add_of_none (h : (add size batch value).2 = none) :
    (add size batch value).1 = value :: kept size batch := by
  rw [add] at h ⊢
  split at h
  next => cases h
  next hmore => rw [if_neg hmore]

theorem add_isPrefix : (add size batch value).1 <+: value :: batch := by
  rw [add]
  split
  next => exact List.nil_prefix
  next => exact List.cons_prefix_cons.mpr ⟨rfl, kept_isPrefix⟩

theorem length_add_lt_iff (hsize : 0 < size) :
    (add size batch value).1.length < size ↔ batch.length ≠ size := by
  rw [← length_kept_lt_iff hsize, add]
  split
  next hlast => exact iff_of_true hsize (by omega)
  next hmore =>
    rw [List.length_cons]
    omega

end Add

variable {size : Nat} {value : α} {earlier window values : List (Nat × α)}

theorem gathered_isPrefix (values : List (Nat × α)) : gathered values <+: values.map Prod.snd := by
  induction values with
  | nil => exact List.nil_prefix
  | cons v earlier ih =>
    calc gathered (v :: earlier)
      _ <+: v.2 :: gathered earlier := add_isPrefix
      _ <+: v.2 :: earlier.map Prod.snd := List.cons_prefix_cons.mpr ⟨rfl, ih⟩

theorem outcome_complete {complete : List α}
    (h : (add size (gathered earlier) value).2 = some complete) :
    complete.length = size ∧ complete <+: ((size, value) :: earlier).map Prod.snd := by
  obtain ⟨hlength, hpre⟩ := add_complete h
  exact ⟨hlength, hpre.trans (List.cons_prefix_cons.mpr ⟨rfl, gathered_isPrefix earlier⟩)⟩

@[simp] theorem length_outcomes (values : List (Nat × α)) :
    (outcomes values).length = values.length := by
  induction values with
  | nil => rfl
  | cons v earlier ih => rw [outcomes, List.length_cons, List.length_cons, ih]

theorem NeverFull.suffix (h : NeverFull values) (hsuffix : earlier <:+ values) :
    NeverFull earlier :=
  fun size value rest hrest => h size value rest (hrest.trans hsuffix)

theorem NeverFull.cons (h : NeverFull earlier) (hlength : (gathered earlier).length ≠ size) :
    NeverFull ((size, value) :: earlier) := by
  intro size' value' rest hrest
  obtain heq | hrest := List.suffix_cons_iff.mp hrest
  · obtain ⟨⟨⟩, rfl⟩ := List.cons_eq_cons.mp heq
    exact hlength
  · exact h size' value' rest hrest

theorem length_le_gathered (hfull : NeverFull (window ++ earlier)) (hsize : 0 < size)
    (hsame : ∀ v ∈ window, v.1 = size)
    (hnone : ∀ o ∈ (outcomes (window ++ earlier)).take window.length, o = none) :
    window.length ≤ (gathered (window ++ earlier)).length := by
  induction window with
  | nil => exact Nat.zero_le _
  | cons v window ih =>
    obtain ⟨size', value⟩ := v
    obtain rfl : size' = size := hsame _ List.mem_cons_self
    have hrest : NeverFull (window ++ earlier) := hfull.suffix (List.suffix_cons _ _)
    have hle : window.length ≤ (gathered (window ++ earlier)).length :=
      ih hrest (fun v hv => hsame v (List.mem_cons_of_mem _ hv))
        fun o ho => hnone o (List.mem_cons_of_mem _ ho)
    have hlast : (gathered ((size', value) :: window ++ earlier)).length =
        (kept size' (gathered (window ++ earlier))).length + 1 :=
      congrArg List.length (add_of_none (hnone _ List.mem_cons_self))
    rw [hlast, List.length_cons]
    cases window with
    | nil => exact Nat.succ_le_succ (Nat.zero_le _)
    | cons w window =>
      -- The value before this one left the batch below its size, so this one does not restart it.
      have hbelow : (gathered (w :: window ++ earlier)).length < size' := by
        obtain ⟨size, value⟩ := w
        obtain rfl : size = size' := hsame _ (List.mem_cons_of_mem _ List.mem_cons_self)
        exact (length_add_lt_iff hsize).mpr (hrest _ _ _ List.suffix_rfl)
      rw [kept_of_le hbelow.le]
      exact Nat.succ_le_succ hle

theorem exists_complete (hfull : NeverFull (window ++ earlier)) (hwindow : window ≠ [])
    (hsame : ∀ v ∈ window, v.1 = window.length) :
    ∃ o ∈ (outcomes (window ++ earlier)).take window.length, o ≠ none := by
  by_contra hnone
  push Not at hnone
  have hpos : 0 < window.length := List.length_pos_of_ne_nil hwindow
  have hle := length_le_gathered hfull hpos hsame hnone
  cases window with
  | nil => exact hwindow rfl
  | cons v window =>
    obtain ⟨size, value⟩ := v
    obtain rfl : size = window.length + 1 := hsame _ List.mem_cons_self
    exact absurd ((length_add_lt_iff hpos).mpr (hfull _ _ _ List.suffix_rfl)) hle.not_gt

end RadProt.Lib.Batch
