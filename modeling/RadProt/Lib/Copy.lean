import RadProt.Lib.Scan
import Mathlib.Data.List.GetD

namespace RadProt.Lib.Access

/-! Writes of several bytes. -/

structure Leaves {α : Type} (P : Nat → Prop) (m : Nat → UInt8) (x : Access α) (v : α)
    (m' : Nat → UInt8) : Prop where
  value : (x m).value = v
  memory : (x m).memory = m'
  touched : ∀ a ∈ (x m).touched, P a

def overwrite (m : Nat → UInt8) (a : Nat) (s : List UInt8) : Nat → UInt8 := fun b =>
  if a ≤ b ∧ b < a + s.length then s.getD (b - a) 0 else m b

def storeBytes (a : Nat) : List UInt8 → Access Unit
  | [] => return ()
  | b :: s => do
    store a b
    storeBytes (a + 1) s

def memset (a : Nat) (b : UInt8) (n : Nat) : Access Unit := storeBytes a (.replicate n b)

def memcpy (dest src n : Nat) : Access Unit := do storeBytes dest (← loadBytes src n)

/-- The string at `a`, as a function of the C library reads it; the memory reaches `n` bytes from
there on. -/
def loadString (a : Nat) : Nat → Access (List UInt8)
  | 0 => return []
  | n + 1 => do
    let b ← load a
    if b = 0 then return [] else return b :: (← loadString (a + 1) n)

section Compose

variable {α β : Type} {P : Nat → Prop} {m m' m'' : Nat → UInt8}

theorem Reads.leaves {x : Access α} {v : α} (h : Reads P m x v) : Leaves P m x v m :=
  ⟨h.value, h.memory, h.touched⟩

namespace Leaves

variable {x : Access α} {f : α → Access β} {v : α} {w : β}

theorem pure (v : α) : Leaves P m (pure v) v m := (Reads.pure v).leaves

theorem store {a : Nat} {b : UInt8} (h : P a) : Leaves P m (store a b) () (overwrite m a [b]) := by
  refine ⟨rfl, ?_, fun c hc => ?_⟩
  · funext c
    by_cases hc : c = a
    · subst hc
      rw [store_apply, overwrite, if_pos ⟨le_rfl, Nat.lt_succ_self c⟩, Nat.sub_self]
      exact Function.update_self ..
    · rw [store_apply, overwrite, if_neg (by rw [List.length_singleton]; omega)]
      exact Function.update_of_ne hc ..
  · rw [store_apply, List.mem_singleton] at hc
    exact hc ▸ h

theorem bind (hx : Leaves P m x v m') (hf : Leaves P m' (f v) w m'') :
    Leaves P m (x >>= f) w m'' := by
  refine ⟨?_, ?_, fun a ha => ?_⟩
  · rw [bind_apply, hx.value, hx.memory, hf.value]
  · rw [bind_apply, hx.value, hx.memory, hf.memory]
  · rw [bind_apply, hx.value, hx.memory, List.mem_append] at ha
    exact ha.elim (hx.touched a) (hf.touched a)

end Leaves

end Compose

section Overwrite

variable {P : Nat → Prop} {m : Nat → UInt8} {a b n : Nat} {s t : List UInt8}

theorem holds_overwrite (m : Nat → UInt8) (a : Nat) (s : List UInt8) :
    Holds (overwrite m a s) a s := by
  intro i hi
  rw [overwrite, if_pos ⟨Nat.le_add_right _ _, Nat.add_lt_add_left hi a⟩, Nat.add_sub_cancel_left,
    List.getD_eq_getElem _ _ hi]
  rfl

theorem Holds.view (h : Holds m a s) : (view a s.length m).value = s := by
  apply List.ext_getElem (by simp [view_apply])
  intro i hi hs
  simpa [view_apply] using h i hs

theorem Holds.of_isPrefix (h : Holds m a t) (hs : s <+: t) : Holds m a s := by
  obtain ⟨rest, rfl⟩ := hs
  exact (holds_append_iff.mp h).1

theorem Holds.overwrite (h : Holds m b t) (hapart : b + t.length ≤ a ∨ a + s.length ≤ b) :
    Holds (overwrite m a s) b t := by
  intro i hi
  rw [Access.overwrite, if_neg (by omega)]
  exact h i hi

theorem overwrite_nil (m : Nat → UInt8) (a : Nat) : overwrite m a [] = m := by
  funext b
  rw [overwrite, if_neg (by rw [List.length_nil]; omega)]

theorem overwrite_append (m : Nat → UInt8) (a : Nat) (s t : List UInt8) :
    overwrite (overwrite m a s) (a + s.length) t = overwrite m a (s ++ t) := by
  funext b
  simp only [overwrite, List.length_append]
  by_cases ht : a + s.length ≤ b ∧ b < a + s.length + t.length
  · rw [if_pos ht, if_pos (by omega), List.getD_append_right _ _ _ _ (by omega)]
    congr 1
    omega
  · rw [if_neg ht]
    by_cases hs : a ≤ b ∧ b < a + s.length
    · rw [if_pos hs, if_pos (by omega), List.getD_append _ _ _ _ (by omega)]
    · rw [if_neg hs, if_neg (by omega)]

theorem storeBytes_leaves (h : ∀ c, Span a s.length c → P c) :
    Leaves P m (storeBytes a s) () (overwrite m a s) := by
  induction s generalizing a m with
  | nil =>
    rw [overwrite_nil]
    exact .pure _
  | cons b s ih =>
    rw [List.length_cons] at h
    rw [show overwrite m a (b :: s) = overwrite (overwrite m a [b]) (a + 1) s from
      (overwrite_append m a [b] s).symm]
    exact (Leaves.store (h a ⟨le_rfl, by omega⟩)).bind
      (ih fun c hc => h c ⟨by have := hc.1; omega, by have := hc.2; omega⟩)

theorem memset_leaves (b : UInt8) (h : ∀ c, Span a n c → P c) :
    Leaves P m (memset a b n) () (overwrite m a (.replicate n b)) :=
  storeBytes_leaves fun c hc => h c (by rwa [List.length_replicate] at hc)

theorem memcpy_leaves (h : Holds m b s) (hsrc : ∀ c, Span b s.length c → P c)
    (hdest : ∀ c, Span a s.length c → P c) :
    Leaves P m (memcpy a b s.length) () (overwrite m a s) := by
  have hload : Reads P m (loadBytes b s.length) s := by
    have hspan := (loadBytes_span h le_rfl).mono hsrc
    rwa [List.take_length] at hspan
  exact hload.leaves.bind (storeBytes_leaves hdest)

theorem cString_terminated_isPrefix (s : List UInt8) : cString s ++ [0] <+: s ++ [0] := by
  by_cases h0 : 0 ∈ s
  · obtain ⟨rest, hrest⟩ := exists_of_zero_mem h0
    refine ⟨rest ++ [0], ?_⟩
    conv_rhs => rw [hrest]
    simp
  · exact ⟨[], by rw [cString_eq_self h0, List.append_nil]⟩

theorem loadString_span (h : Holds m a (s ++ [0])) (h0 : 0 ∉ s) (hn : s.length < n) :
    Reads (Span a (s.length + 1)) m (loadString a n) s := by
  induction n generalizing a s with
  | zero => exact absurd hn (Nat.not_lt_zero _)
  | succ n ih =>
    cases s with
    | nil =>
      have hz : m a = 0 := (holds_cons_iff.mp h).1
      refine Reads.bind (v := 0) (hz ▸ .load ⟨le_rfl, Nat.lt_succ_self _⟩) ?_
      rw [if_pos rfl]
      exact .pure _
    | cons b s =>
      obtain ⟨hb, hs⟩ := holds_cons_iff.mp h
      have hne : b ≠ 0 := fun hz => h0 (hz ▸ List.mem_cons_self)
      rw [List.length_cons] at hn ⊢
      refine Reads.bind (v := b) (hb ▸ .load ⟨le_rfl, by omega⟩) ?_
      rw [if_neg hne]
      exact ((ih hs (fun hz => h0 (List.mem_cons_of_mem _ hz)) (Nat.lt_of_succ_lt_succ hn)).span
        (Nat.le_succ _) (by omega)).bind (.pure _)

end Overwrite

end RadProt.Lib.Access
