import Mathlib.Data.Set.Insert
import RadProt.Lib.Run

namespace RadProt.Lib

universe u

inductive Use (ι : Type u)
  | acquire (i : ι)
  | touch (i : ι)
  | release (i : ι)
  deriving DecidableEq

variable {ι : Type u}

/-- A resource is acquired while it is not held, and touched and released while it is. -/
inductive Use.Step : Set ι → Use ι → Set ι → Prop
  | acquire {held : Set ι} {i : ι} : i ∉ held → Use.Step held (.acquire i) (insert i held)
  | touch {held : Set ι} {i : ι} : i ∈ held → Use.Step held (.touch i) held
  | release {held : Set ι} {i : ι} : i ∈ held → Use.Step held (.release i) (held \ {i})

def Use.hold [DecidableEq ι] (held : List ι) : Use ι → List ι
  | .acquire i => i :: held
  | .touch _ => held
  | .release i => held.filter (· ≠ i)

def Use.outstanding [DecidableEq ι] (us : List (Use ι)) : List ι := us.foldl Use.hold []

theorem Use.Step.mem_hold_iff [DecidableEq ι] {held held' : Set ι} {u : Use ι}
    (h : Use.Step held u held') {list : List ι} (hlist : ∀ i, i ∈ held ↔ i ∈ list) (i : ι) :
    i ∈ held' ↔ i ∈ Use.hold list u := by
  cases h with
  | acquire => simp [hold, hlist]
  | touch => exact hlist i
  | release => simp [hold, hlist]

theorem Use.Step.mem_of_use {held held' : Set ι} {u : Use ι} {i : ι} (h : Use.Step held u held')
    (hu : u = .touch i ∨ u = .release i) : i ∈ held := by
  cases h with
  | acquire => simp at hu
  | touch hi =>
    obtain rfl : _ = i := by simpa using hu
    exact hi
  | release hi =>
    obtain rfl : _ = i := by simpa using hu
    exact hi

theorem Use.Step.mem_or_acquire {held held' : Set ι} {u : Use ι} {us : List (Use ι)} {i : ι}
    (h : Use.Step held u held') (hi : i ∈ held' ∨ .acquire i ∈ us) :
    i ∈ held ∨ .acquire i ∈ u :: us := by
  obtain hi | hmem := hi
  · cases h with
    | acquire =>
      obtain rfl | hi := hi
      · exact .inr List.mem_cons_self
      · exact .inl hi
    | touch => exact .inl hi
    | release => exact .inl hi.1
  · exact .inr (List.mem_cons_of_mem _ hmem)

/-- The uses are sound one after the other, and leave the resources of `held` to be released. -/
def Ledger (us : List (Use ι)) (held : Set ι) : Prop := Run Use.Step ∅ us held

namespace Ledger

variable {us : List (Use ι)} {held : Set ι} {i : ι}

theorem nil : Ledger ([] : List (Use ι)) ∅ := Run.nil

theorem acquire (h : Ledger us held) (hi : i ∉ held) : Ledger (us ++ [.acquire i]) (insert i held) :=
  Run.append h (.single (.acquire hi))

theorem touch (h : Ledger us held) (hi : i ∈ held) : Ledger (us ++ [.touch i]) held :=
  Run.append h (.single (.touch hi))

theorem release (h : Ledger us held) (hi : i ∈ held) : Ledger (us ++ [.release i]) (held \ {i}) :=
  Run.append h (.single (.release hi))

theorem mem_run_iff [DecidableEq ι] {held₀ : Set ι} {list : List ι}
    (h : Run Use.Step held₀ us held) (hlist : ∀ i, i ∈ held₀ ↔ i ∈ list) (i : ι) :
    i ∈ held ↔ i ∈ us.foldl Use.hold list := by
  induction h generalizing list with
  | nil => exact hlist i
  | cons hstep _ ih => exact ih (hstep.mem_hold_iff hlist)

theorem mem_iff_outstanding [DecidableEq ι] (h : Ledger us held) :
    i ∈ held ↔ i ∈ Use.outstanding us := mem_run_iff h (fun i => by simp) i

open Classical in
theorem count_run [DecidableEq ι] {held₀ : Set ι} (h : Run Use.Step held₀ us held) (i : ι) :
    (us.count (.acquire i) + if i ∈ held₀ then 1 else 0) =
      us.count (.release i) + if i ∈ held then 1 else 0 := by
  induction h with
  | nil => simp
  | cons hstep _ ih =>
    cases hstep with
    | @acquire j hj =>
      by_cases hij : j = i
      · subst hij
        simp [hj] at ih ⊢
        omega
      · simpa [hij, Ne.symm hij, List.count_cons] using ih
    | touch => simpa [List.count_cons] using ih
    | @release j hj =>
      by_cases hij : j = i
      · subst hij
        simp [hj] at ih ⊢
        omega
      · simpa [hij, Ne.symm hij, List.count_cons] using ih

theorem count_of_mem [DecidableEq ι] (h : Ledger us held) (hi : i ∈ held) :
    us.count (.acquire i) = us.count (.release i) + 1 := by
  simpa [hi] using count_run h i

theorem count_of_notMem [DecidableEq ι] (h : Ledger us held) (hi : i ∉ held) :
    us.count (.acquire i) = us.count (.release i) := by
  simpa [hi] using count_run h i

theorem acquire_of_run {held₀ : Set ι} (h : Run Use.Step held₀ us held)
    (hi : .touch i ∈ us ∨ .release i ∈ us) : i ∈ held₀ ∨ .acquire i ∈ us := by
  induction h with
  | nil => simp at hi
  | cons hstep _ ih =>
    rw [List.mem_cons, List.mem_cons] at hi
    obtain (hu | hmem) | (hu | hmem) := hi
    · exact .inl (hstep.mem_of_use (.inl hu.symm))
    · exact hstep.mem_or_acquire (ih (.inl hmem))
    · exact .inl (hstep.mem_of_use (.inr hu.symm))
    · exact hstep.mem_or_acquire (ih (.inr hmem))

theorem acquire_of_use (h : Ledger us held) (hi : .touch i ∈ us ∨ .release i ∈ us) :
    .acquire i ∈ us := (acquire_of_run h hi).resolve_left (Set.notMem_empty i)

theorem mem_acquire [DecidableEq ι] (h : Ledger us held) (hi : i ∈ held) : .acquire i ∈ us := by
  have hcount := h.count_of_mem hi
  exact List.count_pos_iff.mp (by omega)

end Ledger

end RadProt.Lib
