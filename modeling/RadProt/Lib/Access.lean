import Mathlib.Data.List.Basic
import Mathlib.Logic.Function.Basic

namespace RadProt.Lib

/-- What a computation over a byte-addressed memory leaves: its value, the memory, and the
addresses it read or wrote. -/
structure Trace (α : Type) where
  value : α
  memory : Nat → UInt8
  touched : List Nat

def Access (α : Type) : Type := (Nat → UInt8) → Trace α

namespace Access

variable {α β : Type}

instance : Monad Access where
  pure a := fun m => ⟨a, m, []⟩
  bind x f := fun m =>
    ⟨(f (x m).value (x m).memory).value, (f (x m).value (x m).memory).memory,
      (x m).touched ++ (f (x m).value (x m).memory).touched⟩

def load (a : Nat) : Access UInt8 := fun m => ⟨m a, m, [a]⟩

def store (a : Nat) (b : UInt8) : Access Unit := fun m => ⟨(), Function.update m a b, [a]⟩

def view (a n : Nat) : Access (List UInt8) := fun m => ⟨(List.range n).map fun i => m (a + i), m, []⟩

theorem pure_apply (a : α) (m : Nat → UInt8) : (pure a : Access α) m = ⟨a, m, []⟩ := rfl

theorem bind_apply (x : Access α) (f : α → Access β) (m : Nat → UInt8) :
    (x >>= f) m =
      ⟨(f (x m).value (x m).memory).value, (f (x m).value (x m).memory).memory,
        (x m).touched ++ (f (x m).value (x m).memory).touched⟩ := rfl

theorem load_apply (a : Nat) (m : Nat → UInt8) : load a m = ⟨m a, m, [a]⟩ := rfl

theorem store_apply (a : Nat) (b : UInt8) (m : Nat → UInt8) :
    store a b m = ⟨(), Function.update m a b, [a]⟩ := rfl

theorem view_apply (a n : Nat) (m : Nat → UInt8) :
    view a n m = ⟨(List.range n).map fun i => m (a + i), m, []⟩ := rfl

/-- From `m`, `x` computes `v`, writes nothing, and touches addresses of `P` only. -/
structure Reads (P : Nat → Prop) (m : Nat → UInt8) (x : Access α) (v : α) : Prop where
  value : (x m).value = v
  memory : (x m).memory = m
  touched : ∀ a ∈ (x m).touched, P a

def Within (P : Nat → Prop) (m : Nat → UInt8) (x : Access α) : Prop := ∀ a ∈ (x m).touched, P a

namespace Reads

variable {P : Nat → Prop} {m : Nat → UInt8} {x : Access α} {f : α → Access β} {v : α} {w : β}

theorem pure (v : α) : Reads P m (pure v) v := ⟨rfl, rfl, fun _ h => nomatch h⟩

theorem load {a : Nat} (h : P a) : Reads P m (load a) (m a) := by
  refine ⟨rfl, rfl, fun b hb => ?_⟩
  rw [load_apply, List.mem_singleton] at hb
  exact hb ▸ h

theorem bind (hx : Reads P m x v) (hf : Reads P m (f v) w) : Reads P m (x >>= f) w := by
  refine ⟨?_, ?_, fun a ha => ?_⟩
  · rw [bind_apply, hx.value, hx.memory, hf.value]
  · rw [bind_apply, hx.value, hx.memory, hf.memory]
  · rw [bind_apply, hx.value, hx.memory, List.mem_append] at ha
    exact ha.elim (hx.touched a) (hf.touched a)

theorem mono {Q : Nat → Prop} (hPQ : ∀ a, P a → Q a) (h : Reads P m x v) : Reads Q m x v :=
  ⟨h.value, h.memory, fun a ha => hPQ a (h.touched a ha)⟩

end Reads

/-- From `m`, `x` does what `y` does, after reading addresses of `P`. -/
structure After (P : Nat → Prop) (m : Nat → UInt8) (x y : Access α) : Prop where
  value : (x m).value = (y m).value
  memory : (x m).memory = (y m).memory
  within : Within P m x ↔ Within P m y

namespace After

variable {P : Nat → Prop} {m : Nat → UInt8} {x y z : Access α}

theorem refl (x : Access α) : After P m x x := ⟨rfl, rfl, Iff.rfl⟩

theorem trans (hxy : After P m x y) (hyz : After P m y z) : After P m x z :=
  ⟨hxy.value.trans hyz.value, hxy.memory.trans hyz.memory, hxy.within.trans hyz.within⟩

theorem reads {v : α} (hxy : After P m x y) (hy : Reads P m y v) : Reads P m x v :=
  ⟨hxy.value.trans hy.value, hxy.memory.trans hy.memory, hxy.within.mpr hy.touched⟩

end After

theorem Reads.after_bind {P : Nat → Prop} {m : Nat → UInt8} {x : Access α} {f : α → Access β}
    {v : α} (h : Reads P m x v) : After P m (x >>= f) (f v) := by
  refine ⟨?_, ?_, ?_⟩
  · rw [bind_apply, h.value, h.memory]
  · rw [bind_apply, h.value, h.memory]
  · simp only [Within, bind_apply, h.value, h.memory, List.mem_append]
    exact ⟨fun ha a hf => ha a (.inr hf), fun ha a hxf => hxf.elim (h.touched a) (ha a)⟩

theorem within_bind_iff {P : Nat → Prop} {m : Nat → UInt8} {x : Access α} {f : α → Access β} :
    Within P m (x >>= f) ↔ Within P m x ∧ Within P (x m).memory (f (x m).value) := by
  simp only [Within, bind_apply, List.mem_append]
  exact ⟨fun h => ⟨fun a ha => h a (.inl ha), fun a ha => h a (.inr ha)⟩,
    fun h a ha => ha.elim (h.1 a) (h.2 a)⟩

theorem within_load_iff {P : Nat → Prop} {m : Nat → UInt8} {a : Nat} :
    Within P m (load a) ↔ P a := by simp [Within, load_apply]

theorem within_store_iff {P : Nat → Prop} {m : Nat → UInt8} {a : Nat} {b : UInt8} :
    Within P m (store a b) ↔ P a := by simp [Within, store_apply]

theorem Within.pure {P : Nat → Prop} {m : Nat → UInt8} (v : α) : Within P m (pure v) :=
  fun _ h => nomatch h

def startsWith (a : Nat) : List UInt8 → Access Bool
  | [] => return true
  | c :: text => do
    if (← load a) = c then startsWith (a + 1) text else return false

/-- `strstr`; the memory reaches `n` bytes from `a` on. -/
def strstr (text : List UInt8) (a : Nat) : Nat → Access (Option Nat)
  | 0 => return none
  | n + 1 => do
    if ← startsWith a text then return some a
    else if (← load a) = 0 then return none
    else strstr text (a + 1) n

def strchr (c : UInt8) (a : Nat) : Nat → Access (Option Nat)
  | 0 => return none
  | n + 1 => do
    if (← load a) = c then return some a
    else if (← load a) = 0 then return none
    else strchr c (a + 1) n

def loadBytes (a : Nat) : Nat → Access (List UInt8)
  | 0 => return []
  | n + 1 => do return (← load a) :: (← loadBytes (a + 1) n)

def Holds (m : Nat → UInt8) (a : Nat) (s : List UInt8) : Prop :=
  ∀ i, (h : i < s.length) → m (a + i) = s.get ⟨i, h⟩

section Holds

variable {m : Nat → UInt8} {a : Nat} {b : UInt8} {s t : List UInt8}

theorem holds_nil : Holds m a [] := fun _ h => nomatch h

theorem holds_cons_iff : Holds m a (b :: s) ↔ m a = b ∧ Holds m (a + 1) s := by
  constructor
  · intro h
    refine ⟨h 0 (Nat.succ_pos _), fun i hi => ?_⟩
    rw [Nat.add_assoc, Nat.add_comm 1 i]
    exact h (i + 1) (Nat.succ_lt_succ hi)
  · rintro ⟨rfl, h⟩ i hi
    cases i with
    | zero => rfl
    | succ i =>
      rw [← Nat.add_assoc, Nat.add_right_comm]
      exact h i (Nat.lt_of_succ_lt_succ hi)

theorem holds_append_iff : Holds m a (s ++ t) ↔ Holds m a s ∧ Holds m (a + s.length) t := by
  induction s generalizing a with
  | nil => simp [holds_nil]
  | cons c s ih =>
    simp only [List.cons_append, holds_cons_iff, ih, and_assoc, List.length_cons]
    rw [Nat.add_assoc, Nat.add_comm 1]

theorem Holds.drop (h : Holds m a s) (k : Nat) : Holds m (a + min k s.length) (s.drop k) := by
  rw [← List.take_append_drop k s, holds_append_iff, List.length_take] at h
  exact h.2

theorem startsWith_reads (m : Nat → UInt8) (text : List UInt8) (a : Nat) :
    ∃ v, Reads (fun _ => True) m (startsWith a text) v ∧ (Holds m a text → v = true) := by
  induction text generalizing a with
  | nil => exact ⟨true, .pure _, fun _ => rfl⟩
  | cons c text ih =>
    obtain ⟨v, hv, hfound⟩ := ih (a + 1)
    by_cases hc : m a = c
    · refine ⟨v, (Reads.load trivial).bind ?_, fun h => hfound (holds_cons_iff.mp h).2⟩
      rw [if_pos hc]
      exact hv
    · refine ⟨false, (Reads.load trivial).bind ?_, fun h => absurd (holds_cons_iff.mp h).1 hc⟩
      rw [if_neg hc]
      exact .pure _

theorem strstr_reads {text pre post : List UInt8} {n : Nat} (h : Holds m a (pre ++ text ++ post))
    (h0 : 0 ∉ pre) (hn : pre.length < n) :
    ∃ p, Reads (fun _ => True) m (strstr text a n) (some p) ∧ a ≤ p ∧ p ≤ a + pre.length := by
  induction n generalizing a pre with
  | zero => exact absurd hn (Nat.not_lt_zero _)
  | succ n ih =>
    obtain ⟨v, hv, hfound⟩ := startsWith_reads m text a
    cases v with
    | true => exact ⟨a, hv.bind (.pure _), Nat.le_refl _, Nat.le_add_right _ _⟩
    | false =>
      cases pre with
      | nil =>
        rw [List.nil_append, holds_append_iff] at h
        exact absurd (hfound h.1) (by decide)
      | cons c pre =>
        rw [List.cons_append, List.cons_append, holds_cons_iff] at h
        obtain ⟨hc, h⟩ := h
        obtain ⟨p, hp, hle, hlt⟩ := ih h (fun hz => h0 (List.mem_cons_of_mem _ hz))
          (Nat.lt_of_succ_lt_succ hn)
        have hne : m a ≠ 0 := fun hz => h0 (hz ▸ hc ▸ List.mem_cons_self)
        refine ⟨p, hv.bind ((Reads.load trivial).bind ?_), by omega, by rw [List.length_cons]; omega⟩
        rw [if_neg hne]
        exact hp

theorem strchr_reads {c : UInt8} {n : Nat} (h : Holds m a s) (h0 : 0 ∉ s) (hc : c ∈ s)
    (hn : s.length ≤ n) : ∃ p, Reads (fun _ => True) m (strchr c a n) (some p) := by
  induction s generalizing a n with
  | nil => exact absurd hc List.not_mem_nil
  | cons b s ih =>
    obtain ⟨rfl, hs⟩ := holds_cons_iff.mp h
    cases n with
    | zero => exact absurd hn (by simp)
    | succ n =>
      by_cases heq : m a = c
      · refine ⟨a, (Reads.load trivial).bind ?_⟩
        rw [if_pos heq]
        exact .pure _
      · have hne : m a ≠ 0 := fun hz => h0 (hz ▸ List.mem_cons_self)
        have htail : c ∈ s := (List.mem_cons.mp hc).resolve_left fun hz => heq hz.symm
        obtain ⟨p, hp⟩ := ih hs (fun hz => h0 (List.mem_cons_of_mem _ hz)) htail
          (Nat.le_of_succ_le_succ hn)
        refine ⟨p, (Reads.load trivial).bind ?_⟩
        rw [if_neg heq]
        apply (Reads.load trivial).bind
        rw [if_neg hne]
        exact hp

theorem loadBytes_reads (m : Nat → UInt8) (a n : Nat) :
    ∃ v, Reads (fun _ => True) m (loadBytes a n) v := by
  induction n generalizing a with
  | zero => exact ⟨[], .pure _⟩
  | succ n ih =>
    obtain ⟨v, hv⟩ := ih (a + 1)
    exact ⟨m a :: v, (Reads.load trivial).bind (hv.bind (.pure _))⟩

end Holds

end Access

end RadProt.Lib
