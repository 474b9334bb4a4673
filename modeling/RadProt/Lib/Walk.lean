import Mathlib.Order.Preorder.Finite

namespace RadProt.Lib

universe u

variable {α : Type u} {step : α → Option α} {a b : α}

/-- Where a walk from `a` is after `n` steps; `none` once it has ended. -/
def walk (step : α → Option α) : Nat → α → Option α
  | 0, a => some a
  | n + 1, a => (step a).bind (walk step n)

def Ends (step : α → Option α) (a : α) : Prop := ∃ n, walk step n a = none

def Revisits (step : α → Option α) (a : α) : Prop :=
  ∃ m n, m < n ∧ ∃ b, walk step m a = some b ∧ walk step n a = some b

theorem walk_add (m n : Nat) (a : α) :
    walk step (m + n) a = (walk step m a).bind (walk step n) := by
  induction m generalizing a with
  | zero => rw [Nat.zero_add]; rfl
  | succ m ih =>
    rw [Nat.succ_add]
    simp only [walk, Option.bind_assoc]
    apply congrArg
    funext b
    exact ih b

theorem walk_eq_none_of_le {m n : Nat} (h : walk step m a = none) (hmn : m ≤ n) :
    walk step n a = none := by
  obtain ⟨k, rfl⟩ := Nat.exists_eq_add_of_le hmn
  rw [walk_add, h, Option.bind_none]

theorem walk_mul {p : Nat} (h : walk step p b = some b) (k : Nat) :
    walk step (k * p) b = some b := by
  induction k with
  | zero => rw [Nat.zero_mul]; rfl
  | succ k ih => rw [Nat.succ_mul, walk_add, ih, Option.bind_some, h]

theorem ends_of_step_eq_none (h : step a = none) : Ends step a := ⟨1, by rw [walk, h]; rfl⟩

theorem Ends.of_step (h : step a = some b) (hb : Ends step b) : Ends step a := by
  obtain ⟨n, hn⟩ := hb
  exact ⟨n + 1, by rw [walk, h, Option.bind_some, hn]⟩

theorem Revisits.not_ends (h : Revisits step a) : ¬ Ends step a := by
  obtain ⟨m, n, hmn, b, hm, hn⟩ := h
  rintro ⟨k, hk⟩
  have hloop : walk step (n - m) b = some b := by
    rw [← hn, ← Nat.add_sub_cancel' (Nat.le_of_lt hmn), walk_add, hm, Option.bind_some,
      Nat.add_sub_cancel_left]
  have hle : k ≤ m + k * (n - m) := by
    calc k = k * 1 := (Nat.mul_one k).symm
      _ ≤ k * (n - m) := Nat.mul_le_mul_left k (Nat.sub_pos_of_lt hmn)
      _ ≤ m + k * (n - m) := Nat.le_add_left _ _
  have hnone := walk_eq_none_of_le hk hle
  rw [walk_add, hm, Option.bind_some, walk_mul hloop] at hnone
  exact nomatch hnone

theorem walk_mem {s : Set α} (hstep : ∀ a b, step a = some b → b ∈ s) (ha : a ∈ s) {n : Nat}
    (h : walk step n a = some b) : b ∈ s := by
  induction n generalizing a with
  | zero => exact Option.some.inj h ▸ ha
  | succ n ih =>
    obtain ⟨c, hc, hrest⟩ := Option.bind_eq_some_iff.mp h
    exact ih (hstep a c hc) hrest

/-- Over finitely many positions, a walk ends exactly when it never comes back to one. -/
theorem ends_iff_not_revisits {s : Set α} (hs : s.Finite)
    (hstep : ∀ a b, step a = some b → b ∈ s) (ha : a ∈ s) :
    Ends step a ↔ ¬ Revisits step a := by
  constructor
  · intro hends hrevisits
    exact hrevisits.not_ends hends
  · intro hfresh
    by_contra hends
    have hgoes : ∀ n, ∃ b, walk step n a = some b :=
      fun n => Option.ne_none_iff_exists'.mp fun hnone => hends ⟨n, hnone⟩
    choose f hf using hgoes
    obtain ⟨m, n, hmn, heq⟩ := hs.exists_lt_map_eq_of_forall_mem
      fun n => walk_mem hstep ha (hf n)
    exact hfresh ⟨m, n, hmn, f m, hf m, by rw [hf n, heq]⟩

end RadProt.Lib
