import Mathlib.Data.List.Basic

namespace RadProt.Lib

universe u

variable {α : Type u}

def ringRead (n : Nat) (mem : Nat → α) (p length : Nat) : List α :=
  (List.range length).map fun i => mem ((p + i) % n)

def ringWrite (n : Nat) (mem : Nat → α) (p : Nat) (xs : List α) : Nat → α :=
  fun a => (xs[(a + (n - p % n)) % n]?).getD (mem a)

section Ring

variable {n p q d : Nat} {mem : Nat → α} {xs : List α}

@[simp]
theorem length_ringRead (n : Nat) (mem : Nat → α) (p length : Nat) :
    (ringRead n mem p length).length = length := by
  simp [ringRead]

theorem ringRead_mod (n : Nat) (mem : Nat → α) (p length : Nat) :
    ringRead n mem (p % n) length = ringRead n mem p length := by
  simp only [ringRead, Nat.mod_add_mod]

theorem ringWrite_mod (n : Nat) (mem : Nat → α) (p : Nat) (xs : List α) :
    ringWrite n mem (p % n) xs = ringWrite n mem p xs := by
  funext a
  simp only [ringWrite, Nat.mod_mod]

theorem ringRead_add (n : Nat) (mem : Nat → α) (p k l : Nat) :
    ringRead n mem p (k + l) = ringRead n mem p k ++ ringRead n mem (p + k) l := by
  simp only [ringRead, List.range_add, List.map_append, List.map_map, Function.comp_def,
    Nat.add_assoc]

theorem ring_offset (h : d < n) (p : Nat) : ((p + d) % n + (n - p % n)) % n = d := by
  have hdiv : p % n + n * (p / n) = p := Nat.mod_add_div p n
  have hp : p % n < n := Nat.mod_lt p (Nat.zero_lt_of_lt h)
  have hturns : p + d + (n - p % n) = d + n * (p / n + 1) := by
    rw [Nat.mul_add, Nat.mul_one]
    omega
  rw [Nat.mod_add_mod, hturns, Nat.add_mul_mod_self_left, Nat.mod_eq_of_lt h]

theorem ringWrite_apply (h : d < n) : ringWrite n mem p xs ((p + d) % n) =
    (xs[d]?).getD (mem ((p + d) % n)) := by
  rw [ringWrite, ring_offset h]

/-- `mem'` is `mem` with `xs` put into it, from the cell at `p` on. -/
def Written (n : Nat) (mem : Nat → α) (p : Nat) (xs : List α) (mem' : Nat → α) : Prop :=
  ∀ d < n, mem' ((p + d) % n) = (xs[d]?).getD (mem ((p + d) % n))

variable {mem' : Nat → α} {ys : List α}

theorem written_nil (n : Nat) (mem : Nat → α) (p : Nat) : Written n mem p [] mem := fun _ _ => rfl

theorem Written.append (h : Written n mem p xs mem') (hround : xs.length + ys.length ≤ n) :
    Written n mem p (xs ++ ys) (ringWrite n mem' (p + xs.length) ys) := by
  intro d hd
  by_cases hbehind : xs.length ≤ d
  · have hcell : p + d = p + xs.length + (d - xs.length) := by omega
    have hmem := h d hd
    rw [List.getElem?_eq_none hbehind, Option.getD_none] at hmem
    rw [hcell, ringWrite_apply (by omega), ← hcell, hmem, List.getElem?_append_right hbehind]
  · have hcell : (p + d) % n = (p + xs.length + (d + n - xs.length)) % n := by
      rw [Nat.add_assoc, Nat.add_sub_cancel' (by omega), ← Nat.add_assoc, Nat.add_mod_right]
    rw [hcell, ringWrite_apply (by omega), ← hcell, List.getElem?_eq_none (by omega),
      Option.getD_none, h d hd, List.getElem?_append_left (by omega)]

theorem Written.read (h : Written n mem p xs mem') (hlength : xs.length ≤ n) :
    ringRead n mem' p xs.length = xs := by
  refine List.ext_getElem (length_ringRead _ _ _ _) fun i _ hi => ?_
  simp only [ringRead, List.getElem_map, List.getElem_range]
  rw [h i (Nat.lt_of_lt_of_le hi hlength), List.getElem?_eq_getElem hi, Option.getD_some]

theorem Written.outside (h : Written n mem p xs mem') (hd : d < n) (hlength : xs.length ≤ d) :
    mem' ((p + d) % n) = mem ((p + d) % n) := by
  rw [h d hd, List.getElem?_eq_none hlength, Option.getD_none]

theorem written_ringWrite (n : Nat) (mem : Nat → α) (p : Nat) (xs : List α) :
    Written n mem p xs (ringWrite n mem p xs) := fun _ hd => ringWrite_apply hd

theorem ringRead_ringWrite_self (h : xs.length ≤ n) :
    ringRead n (ringWrite n mem p xs) p xs.length = xs :=
  (written_ringWrite n mem p xs).read h

theorem ringRead_ringWrite_of_le {length : Nat} (h : p + length ≤ q)
    (hround : q + xs.length ≤ p + n) :
    ringRead n (ringWrite n mem q xs) p length = ringRead n mem p length := by
  rw [ringRead, ringRead]
  apply List.map_congr_left
  intro i hi
  have hi := List.mem_range.mp hi
  have hcell : (p + i) % n = (q + (p + i + n - q)) % n := by
    rw [Nat.add_sub_cancel' (by omega), Nat.add_mod_right]
  rw [hcell]
  exact (written_ringWrite n mem q xs).outside (by omega) (by omega)

end Ring

end RadProt.Lib
