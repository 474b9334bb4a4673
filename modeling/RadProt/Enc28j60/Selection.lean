import RadProt.Enc28j60.Banks
import RadProt.Lib.Bits

namespace RadProt.Enc28j60

open RadProt.Lib

def Agree (k : Bsel) (x y : UInt8) : Prop := x &&& k.mask = y &&& k.mask

def Low (x : UInt8) : Prop := x &&& econ1Bsel = x

theorem low_and (x : UInt8) : Low (x &&& econ1Bsel) :=
  forall_byte (P := fun x => Low (x &&& econ1Bsel)) (by unfold Low; decide +kernel) x

theorem low_bankOf (addr : UInt8) : Low (bankOf addr) :=
  forall_byte (P := fun x => Low (bankOf x)) (by unfold Low; decide +kernel) addr

theorem Low.eq_or {x : UInt8} (h : Low x) : x = x &&& Bsel.bsel0.mask ||| x &&& Bsel.bsel1.mask := by
  have hbits : x &&& econ1Bsel = x &&& Bsel.bsel0.mask ||| x &&& Bsel.bsel1.mask :=
    forall_byte (P := fun x => x &&& econ1Bsel = x &&& Bsel.bsel0.mask ||| x &&& Bsel.bsel1.mask)
      (by decide +kernel) x
  exact h.symm.trans hbits

theorem Low.ext {x y : UInt8} (hx : Low x) (hy : Low y) (h : ∀ k, Agree k x y) : x = y := by
  rw [hx.eq_or, hy.eq_or, h .bsel0, h .bsel1]

theorem and_mask_of_ne_zero {k : Bsel} {x : UInt8} (h : x &&& k.mask ≠ 0) :
    x &&& k.mask = k.mask := by
  have hbit : ∀ x : UInt8, x &&& k.mask ≠ 0 → x &&& k.mask = k.mask :=
    forall_byte (P := fun x => x &&& k.mask ≠ 0 → x &&& k.mask = k.mask)
      (by cases k <;> decide +kernel)
  exact hbit x h

theorem or_mask_and (k : Bsel) (x : UInt8) : (x ||| k.mask) &&& econ1Bsel &&& k.mask = k.mask :=
  forall_byte (P := fun x => (x ||| k.mask) &&& econ1Bsel &&& k.mask = k.mask)
    (by cases k <;> decide +kernel) x

theorem clear_mask_and (k : Bsel) (x : UInt8) : (x &&& ~~~k.mask) &&& econ1Bsel &&& k.mask = 0 :=
  forall_byte (P := fun x => (x &&& ~~~k.mask) &&& econ1Bsel &&& k.mask = 0)
    (by cases k <;> decide +kernel) x

theorem agree_or_mask {j k : Bsel} (h : j ≠ k) (x : UInt8) :
    Agree j ((x ||| k.mask) &&& econ1Bsel) (x &&& econ1Bsel) :=
  forall_byte (P := fun x => Agree j ((x ||| k.mask) &&& econ1Bsel) (x &&& econ1Bsel))
    (by unfold Agree; revert h; cases j <;> cases k <;> decide +kernel) x

theorem agree_clear_mask {j k : Bsel} (h : j ≠ k) (x : UInt8) :
    Agree j ((x &&& ~~~k.mask) &&& econ1Bsel) (x &&& econ1Bsel) :=
  forall_byte (P := fun x => Agree j ((x &&& ~~~k.mask) &&& econ1Bsel) (x &&& econ1Bsel))
    (by unfold Agree; revert h; cases j <;> cases k <;> decide +kernel) x

/-- The bank that the rest of a call is on the way to, from the first test of `set_bank` until the
access. -/
def window : List Op → Option UInt8
  | .select addr .bsel1 :: _ => some (bankOf addr)
  | .setCurrent addr :: _ => some (bankOf addr)
  | .spi _ addr _ :: _ => if isCommon addr then none else some (bankOf addr)
  | _ => none

def entering : List Op → Option UInt8
  | .select addr .bsel0 :: _ => some (bankOf addr)
  | _ => none

def Unlocked (ops : List Op) : Prop := .unlock ∉ ops

instance (ops : List Op) : Decidable (Unlocked ops) := inferInstanceAs (Decidable (¬ _))

def Ready (bank current : UInt8) : List Op → Prop
  | .select addr .bsel1 :: _ => Agree .bsel0 bank (bankOf addr)
  | .setCurrent addr :: _ => bank = bankOf addr
  | .spi _ addr _ :: _ => isCommon addr = false → bank = bankOf addr ∧ current = bankOf addr
  | _ => True

def Toward (b bank current : UInt8) : Prop := ∀ k, Agree k bank current ∨ Agree k bank b

def Shaped : List Op → Prop
  | [] => True
  | .select addr .bsel0 :: ops => ops.head? = some (.select addr .bsel1) ∧ Shaped ops
  | .select addr .bsel1 :: ops => ops.head? = some (.setCurrent addr) ∧ Shaped ops
  | .setCurrent addr :: ops => (∃ op data, ops.head? = some (.spi op addr data)) ∧ Shaped ops
  | _ :: ops => window ops = none ∧ Shaped ops

def Locking : Nat → List Op → Prop
  | depth, [] => depth = 0
  | depth, .lock :: ops => Locking (depth + 1) ops
  | depth, .unlock :: ops => 0 < depth ∧ Locking (depth - 1) ops
  | depth, _ :: ops => (0 < depth ∨ Unlocked ops) ∧ Locking depth ops

theorem shaped_ops (c : Call) : window c.ops = none ∧ Shaped c.ops := by
  cases c with
  | regbRead reg =>
    simp only [Call.ops, regbRead, setBank]
    cases h : isCommon reg <;> simp [window, Shaped, h]
  | regbWrite addr data =>
    simp only [Call.ops, regbWrite, setBank]
    cases h : isCommon addr <;> simp [window, Shaped, h]
  | regwWrite addr data =>
    simp only [Call.ops, regwWrite, regbWrite, setBank]
    cases h : isCommon addr <;> cases h' : isCommon (addr + 1) <;> simp [window, Shaped, h, h']
  | regBfset addr mask =>
    simp only [Call.ops, regBfset, setBank]
    cases h : isCommon addr <;> simp [window, Shaped, h]
  | regBfclr addr mask =>
    simp only [Call.ops, regBfclr, setBank]
    cases h : isCommon addr <;> simp [window, Shaped, h]

theorem locking_ops (c : Call) : Locking 0 c.ops := by
  cases c with
  | regbRead reg =>
    simp only [Call.ops, regbRead, setBank]
    cases isCommon reg <;> simp [Locking]
  | regbWrite addr data =>
    simp only [Call.ops, regbWrite, setBank]
    cases isCommon addr <;> simp [Locking]
  | regwWrite addr data =>
    simp only [Call.ops, regwWrite, regbWrite, setBank]
    cases isCommon addr <;> cases isCommon (addr + 1) <;> simp [Locking]
  | regBfset addr mask =>
    simp only [Call.ops, regBfset, setBank]
    cases isCommon addr <;> simp [Locking, Unlocked]
  | regBfclr addr mask =>
    simp only [Call.ops, regBfclr, setBank]
    cases isCommon addr <;> simp [Locking, Unlocked]

section Coherent

variable {b bank bank' current current' : UInt8} {op : Op} {p q ops : List Op}

theorem ready_of_window_none (h : window q = none) : Ready bank current q := by
  match q, h with
  | [], _ => trivial
  | .lock :: _, _ => trivial
  | .unlock :: _, _ => trivial
  | .select _ .bsel0 :: _, _ => trivial
  | .spi _ addr _ :: _, h =>
    intro hcommon
    simp [window, hcommon] at h

theorem Ready.mono (h : Ready bank current q) (hwindow : window q = some b)
    (hlow : Low bank') (hagree : ∀ k, Agree k bank b → Agree k bank' b)
    (hcurrent : current' = current ∨ current' = b) : Ready bank' current' q := by
  have heq : ∀ addr, bankOf addr = b → bank = bankOf addr → bank' = bankOf addr := by
    rintro addr rfl rfl
    exact hlow.ext (low_bankOf addr) fun k => hagree k rfl
  match q, h, hwindow with
  | .select addr .bsel1 :: _, h, hwindow =>
    obtain rfl := Option.some.inj hwindow
    exact hagree .bsel0 h
  | .setCurrent addr :: _, h, hwindow => exact heq addr (Option.some.inj hwindow) h
  | .spi _ addr _ :: _, h, hwindow =>
    intro hcommon
    simp only [window, hcommon, Bool.false_eq_true, if_false, Option.some.injEq] at hwindow
    obtain ⟨hbank, hcur⟩ := h hcommon
    refine ⟨heq addr hwindow hbank, ?_⟩
    obtain rfl | rfl := hcurrent
    · exact hcur
    · exact hwindow.symm

structure Coherent (bank current : UInt8) (p q : List Op) : Prop where
  ready_left : Ready bank current p
  ready_right : Ready bank current q
  toward_left : ∀ b, window p = some b → Toward b bank current
  toward_right : ∀ b, window q = some b → Toward b bank current
  agree : ∀ b b', window p = some b → window q = some b' → b = b'
  settled : window p = none → window q = none → bank = current

theorem Coherent.symm (h : Coherent bank current p q) : Coherent bank current q p where
  ready_left := h.ready_right
  ready_right := h.ready_left
  toward_left := h.toward_right
  toward_right := h.toward_left
  agree := fun b b' hq hp => (h.agree b' b hp hq).symm
  settled := fun hq hp => h.settled hp hq

theorem Coherent.quiet (h : Coherent bank current p q) (hops : window ops = none)
    (hp : window p = none ∨ bank = current) : Coherent bank current ops q where
  ready_left := ready_of_window_none hops
  ready_right := h.ready_right
  toward_left := fun _ hb => nomatch hops.symm.trans hb
  toward_right := h.toward_right
  agree := fun _ _ hb => nomatch hops.symm.trans hb
  settled := fun _ hq => hp.elim (fun hp => h.settled hp hq) id

theorem Coherent.toward (h : Coherent bank current p q) (hp : window p = none)
    (hq : ∀ b', window q = some b' → b = b') : Toward b bank current := by
  cases hwindow : window q with
  | none =>
    intro k
    exact .inl (congrArg (· &&& k.mask) (h.settled hp hwindow))
  | some b' =>
    obtain rfl := hq b' hwindow
    exact h.toward_right b hwindow

theorem Coherent.select (h : Coherent bank current p q) (hlow : Low bank')
    (hops : window ops = some b) (hq : ∀ b', window q = some b' → b = b')
    (hagree : ∀ k, Agree k bank b → Agree k bank' b) (htoward : Toward b bank' current)
    (hready : Ready bank' current ops) : Coherent bank' current ops q where
  ready_left := hready
  ready_right := by
    cases hwindow : window q with
    | none => exact ready_of_window_none hwindow
    | some b' =>
      obtain rfl := hq b' hwindow
      exact h.ready_right.mono hwindow hlow hagree (.inl rfl)
  toward_left := by
    rintro b' hb'
    obtain rfl := Option.some.inj (hops.symm.trans hb')
    exact htoward
  toward_right := by
    rintro b' hb'
    obtain rfl := hq b' hb'
    exact htoward
  agree := by
    rintro b' b'' hb' hb''
    obtain rfl := Option.some.inj (hops.symm.trans hb')
    exact hq b'' hb''
  settled := fun hnone => nomatch hops.symm.trans hnone

theorem Coherent.setCurrent (h : Coherent b current p q) (hlow : Low b)
    (hp : window p = some b) (hops : ∀ b', window ops = some b' → b' = b)
    (hready : Ready b b ops) : Coherent b b ops q where
  ready_left := hready
  ready_right := by
    cases hwindow : window q with
    | none => exact ready_of_window_none hwindow
    | some b' =>
      obtain rfl := h.agree b b' hp hwindow
      exact h.ready_right.mono hwindow hlow (fun _ => id) (.inr rfl)
  toward_left := fun _ _ _ => .inl rfl
  toward_right := fun _ _ _ => .inl rfl
  agree := by
    rintro b' b'' hb' hb''
    obtain rfl := hops b' hb'
    exact h.agree _ b'' hp hb''
  settled := fun _ _ => rfl

end Coherent

end RadProt.Enc28j60
