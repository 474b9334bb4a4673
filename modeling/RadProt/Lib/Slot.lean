import Mathlib.Logic.Function.Basic
import RadProt.Lib.Run

namespace RadProt.Lib

universe u

variable {κ : Type u}

/-- Sessions that share one slot, made of numbered calls: call `first x` puts the session `x` into
the slot, and call `last x` empties the slot. -/
structure Sessions (κ : Type u) where
  first : κ → Nat
  last : κ → Nat
  first_le_last : ∀ x, first x ≤ last x

structure Slot (κ : Type u) where
  calls : κ → Nat
  holder : Option κ

namespace Sessions

def start : Slot κ where
  calls _ := 0
  holder := none

section Holder

variable (S : Sessions κ) (t : Slot κ) (x : κ)

def holding : Option κ := if t.calls x = S.first x then some x else t.holder

def Open : Prop := S.first x < t.calls x ∧ t.calls x ≤ S.last x

instance : Decidable (S.Open t x) := inferInstanceAs (Decidable (_ ∧ _))

def Held : Prop := ∀ x, S.Open t x → t.holder = some x

variable {S t x}

theorem Held.holding (h : S.Held t) (hlast : t.calls x = S.last x) : S.holding t x = some x := by
  by_cases hfirst : t.calls x = S.first x
  · rw [Sessions.holding, if_pos hfirst]
  · rw [Sessions.holding, if_neg hfirst]
    exact h x ⟨Nat.lt_of_le_of_ne (hlast ▸ S.first_le_last x) (Ne.symm hfirst),
      Nat.le_of_eq hlast⟩

end Holder

variable [DecidableEq κ] (S : Sessions κ) (t : Slot κ) (order : List κ) (x : κ)

def call : Slot κ where
  calls := Function.update t.calls x (t.calls x + 1)
  holder := if t.calls x = S.last x then none else S.holding t x

def Keeps : Prop :=
  Feasible (fun t z => z = x → t.calls x = S.last x → S.holding t x = some x) S.call t order

instance : Decidable (S.Keeps t order x) := inferInstanceAs (Decidable (Feasible ..))

def Kept : Prop := ∀ x, S.Keeps t order x

/-- No session takes the slot while another one is open. -/
def Apart : Prop :=
  Feasible (fun t x => t.calls x = S.first x → ∀ y, y ≠ x → ¬ S.Open t y) S.call t order

def Completes : Prop := ∀ x, t.calls x + order.count x = S.last x + 1

variable {S t order x} {y : κ}

@[simp] theorem calls_call_self : (S.call t x).calls x = t.calls x + 1 := Function.update_self ..

theorem calls_call_of_ne (h : y ≠ x) : (S.call t x).calls y = t.calls y :=
  Function.update_of_ne h ..

theorem Completes.call (h : S.Completes t (x :: order)) : S.Completes (S.call t x) order := by
  intro y
  have hy := h y
  by_cases hyx : y = x
  · subst hyx
    rw [List.count_cons_self] at hy
    rw [calls_call_self, Nat.add_assoc, Nat.add_comm 1]
    exact hy
  · rw [List.count_cons_of_ne (Ne.symm hyx)] at hy
    rw [calls_call_of_ne hyx]
    exact hy

theorem Held.call (h : S.Held t) (hapart : t.calls x = S.first x → ∀ y, y ≠ x → ¬ S.Open t y) :
    S.Held (S.call t x) := by
  intro y hopen
  by_cases hyx : y = x
  · subst hyx
    rw [Open, calls_call_self] at hopen
    have hlast : t.calls y ≠ S.last y := Nat.ne_of_lt hopen.2
    simp only [Sessions.call, if_neg hlast, Sessions.holding]
    split
    next => rfl
    next hfirst => exact h y ⟨Nat.lt_of_le_of_ne (Nat.le_of_lt_succ hopen.1) (Ne.symm hfirst),
      Nat.le_of_succ_le hopen.2⟩
  · rw [Open, calls_call_of_ne hyx] at hopen
    have hholder := h y hopen
    have hfirst : t.calls x ≠ S.first x := fun hfirst => hapart hfirst y hyx hopen
    have hlast : t.calls x ≠ S.last x := by
      intro hlast
      have hx := h.holding hlast
      rw [Sessions.holding, if_neg hfirst, hholder] at hx
      exact hyx (Option.some.inj hx)
    simp only [Sessions.call, if_neg hlast, Sessions.holding, if_neg hfirst]
    exact hholder

theorem Held.kept (h : S.Held t) (hapart : S.Apart t order) : S.Kept t order := by
  intro y
  induction order generalizing t with
  | nil => trivial
  | cons x order ih => exact ⟨fun _ => h.holding, ih (h.call hapart.1) hapart.2⟩

theorem keeps_of_notMem (h : x ∉ order) : S.Keeps t order x := by
  induction order generalizing t with
  | nil => trivial
  | cons z order ih =>
    rw [List.mem_cons, not_or] at h
    exact ⟨fun hz => absurd hz.symm h.1, ih h.2⟩

theorem Kept.cons_inv (h : S.Kept t (x :: order)) :
    (t.calls x = S.last x → S.holding t x = some x) ∧ S.Kept (S.call t x) order :=
  ⟨(h x).1 rfl, fun y => (h y).2⟩

theorem not_kept_of_lost (hopen : S.Open t y) (hlost : t.holder ≠ some y)
    (hall : S.Completes t order) : ¬ S.Kept t order := by
  induction order generalizing t with
  | nil =>
    intro
    have hy := hall y
    rw [List.count_nil, Nat.add_zero] at hy
    exact absurd hopen.2 (by rw [hy]; exact Nat.not_succ_le_self _)
  | cons x order ih =>
    intro h
    obtain ⟨hholding, hkept⟩ := h.cons_inv
    by_cases hyx : y = x
    · subst hyx
      have hfirst : t.calls y ≠ S.first y := Nat.ne_of_gt hopen.1
      have hlast : t.calls y ≠ S.last y := by
        intro hlast
        have hholder := hholding hlast
        rw [holding, if_neg hfirst] at hholder
        exact hlost hholder
      refine ih ⟨?_, ?_⟩ ?_ hall.call hkept
      · rw [calls_call_self]
        exact Nat.lt_succ_of_lt hopen.1
      · rw [calls_call_self]
        exact Nat.lt_of_le_of_ne hopen.2 hlast
      · simpa only [call, if_neg hlast, holding, if_neg hfirst] using hlost
    · refine ih ?_ ?_ hall.call hkept
      · rwa [Open, calls_call_of_ne hyx]
      · simp only [call, holding]
        split
        · exact (Option.some_ne_none y).symm
        · split
          · exact fun h => hyx (Option.some.inj h).symm
          · exact hlost

theorem Kept.apart (h : S.Kept t order) (hall : S.Completes t order) : S.Apart t order := by
  induction order generalizing t with
  | nil => trivial
  | cons x order ih =>
    refine ⟨fun hfirst y hyx hopen => ?_, ih h.cons_inv.2 hall.call⟩
    have hlost : (S.call t x).holder ≠ some y := by
      simp only [call, holding, if_pos hfirst]
      split
      · exact (Option.some_ne_none y).symm
      · exact fun h => hyx (Option.some.inj h).symm
    have hopen' : S.Open (S.call t x) y := by rwa [Open, calls_call_of_ne hyx]
    exact not_kept_of_lost hopen' hlost hall.call h.cons_inv.2

/-- Complete sessions all keep the slot if and only if they stay apart. -/
theorem kept_iff_apart (hall : S.Completes start order) :
    S.Kept start order ↔ S.Apart start order := by
  have hheld : S.Held (start : Slot κ) := fun _ hopen => absurd hopen.1 (Nat.not_lt_zero _)
  exact ⟨fun h => h.apart hall, hheld.kept⟩

end Sessions

end RadProt.Lib
