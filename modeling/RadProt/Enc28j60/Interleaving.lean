import Mathlib.Data.List.ReduceOption
import RadProt.Enc28j60.Selection

namespace RadProt.Enc28j60

open RadProt.Lib

theorem Task.other_ne (t : Task) : t.other ≠ t := by cases t <;> decide

@[simp]
theorem Task.other_other (t : Task) : t.other.other = t := by cases t <;> rfl

theorem Task.eq_or_eq_other (t t' : Task) : t' = t ∨ t' = t.other := by
  cases t <;> cases t' <;> decide

structure Consistent (s : State) : Prop where
  low : Low s.currentRegisterBank
  coherent : ∀ t, Coherent s.chip.bank s.currentRegisterBank (s.todo t) (s.todo t.other)
  shaped : ∀ t, Shaped (s.todo t)
  locking : ∀ t, Locking (s.depth t) (s.todo t)
  right : ∀ a ∈ s.log, a.Right

variable {s s' : State} {t : Task} {addr : UInt8} {k : Bsel} {b : UInt8} {op : Op}
  {op' : SpiOp} {ops : List Op}

theorem coherent_update {bank current : UInt8}
    (h : Coherent bank current ops (s.todo t.other)) (t' : Task) :
    Coherent bank current (Function.update s.todo t ops t')
      (Function.update s.todo t ops t'.other) := by
  obtain rfl | rfl := Task.eq_or_eq_other t t'
  · rw [Function.update_self, Function.update_of_ne t'.other_ne]
    exact h
  · rw [Task.other_other, Function.update_self, Function.update_of_ne t.other_ne]
    exact h.symm

theorem update_forall {P : Task → List Op → Prop} (hops : P t ops)
    (hother : P t.other (s.todo t.other)) (t' : Task) :
    P t' (Function.update s.todo t ops t') := by
  obtain rfl | rfl := Task.eq_or_eq_other t t'
  · rwa [Function.update_self]
  · rwa [Function.update_of_ne t.other_ne]

@[simp]
theorem bank_transact_econ1 (t : Task) (op : SpiOp) (data : UInt8) :
    (s.transact t op econ1 data).chip.bank = s.chip.operated op econ1 data &&& econ1Bsel := by
  rw [State.transact, Chip.transact, Chip.selected_econ1, Chip.bank_write_econ1]

theorem select_agree (hdiffers : s.differs addr k = true) :
    Agree k (s.select t addr k).chip.bank (bankOf addr) ∧
      ∀ j, j ≠ k → Agree j (s.select t addr k).chip.bank s.chip.bank := by
  rw [State.select, if_pos hdiffers]
  by_cases hbit : bankOf addr &&& k.mask = 0
  · rw [if_neg (by simp [hbit]), bank_transact_econ1]
    refine ⟨?_, fun j hj => agree_clear_mask hj _⟩
    exact (clear_mask_and k _).trans hbit.symm
  · rw [if_pos (by simp [hbit]), bank_transact_econ1]
    refine ⟨?_, fun j hj => agree_or_mask hj _⟩
    exact (or_mask_and k _).trans (and_mask_of_ne_zero hbit).symm

@[simp]
theorem currentRegisterBank_select (t : Task) (addr : UInt8) (k : Bsel) :
    (s.select t addr k).currentRegisterBank = s.currentRegisterBank := by
  rw [State.select]
  split
  · split <;> rfl
  · rfl

@[simp]
theorem todo_select (t : Task) (addr : UInt8) (k : Bsel) : (s.select t addr k).todo = s.todo := by
  rw [State.select]
  split
  · split <;> rfl
  · rfl

@[simp]
theorem mutex_select (t : Task) (addr : UInt8) (k : Bsel) :
    (s.select t addr k).mutex = s.mutex := by
  rw [State.select]
  split
  · split <;> rfl
  · rfl

theorem select_toward (h : Toward (bankOf addr) s.chip.bank s.currentRegisterBank) :
    Agree k (s.select t addr k).chip.bank (bankOf addr) ∧
      (∀ j, Agree j s.chip.bank (bankOf addr) →
        Agree j (s.select t addr k).chip.bank (bankOf addr)) ∧
      Toward (bankOf addr) (s.select t addr k).chip.bank s.currentRegisterBank := by
  cases hdiffers : s.differs addr k with
  | true =>
    obtain ⟨hk, hj⟩ := select_agree (t := t) hdiffers
    refine ⟨hk, fun j hagree => ?_, fun j => ?_⟩
    · by_cases hjk : j = k
      · rwa [hjk]
      · exact (hj j hjk).trans hagree
    · by_cases hjk : j = k
      · exact .inr (by rwa [hjk])
      · exact (h j).imp (hj j hjk).trans (hj j hjk).trans
  | false =>
    have hsame : s.select t addr k = s := by rw [State.select, hdiffers]; rfl
    have hcurrent : Agree k s.currentRegisterBank (bankOf addr) := by
      simp only [State.differs, bne_eq_false_iff_eq] at hdiffers
      exact hdiffers.symm
    rw [hsame]
    exact ⟨(h k).elim (·.trans hcurrent) id, fun _ => id, h⟩

theorem bank_write_hardware {register value : UInt8}
    (h : register = econ1 → value &&& econ1Bsel = s.chip.bank) :
    (s.chip.write register value).bank = s.chip.bank := by
  by_cases hregister : register = econ1
  · rw [hregister, Chip.bank_write_econ1, h hregister]
  · exact Chip.bank_write_ne hregister value

theorem depth_other_of_free (h : s.Free t) : s.depth t.other = 0 := by
  rw [State.Free] at h
  rw [State.depth]
  split at h
  next => rfl
  next owner n => exact if_neg (h ▸ t.other_ne.symm)

theorem depth_other_of_pos (h : 0 < s.depth t) : s.depth t.other = 0 := by
  apply depth_other_of_free
  rw [State.depth] at h
  rw [State.Free]
  split at h
  next => exact absurd h (Nat.lt_irrefl 0)
  next owner n =>
    by_contra hne
    rw [if_neg hne] at h
    exact absurd h (Nat.lt_irrefl 0)

theorem Locking.pos {depth : Nat} {p : List Op} (h : Locking depth p)
    (hp : (entering p).isSome ∨ (window p).isSome) (hunlock : ¬ Unlocked p) : 0 < depth := by
  match p, h, hp with
  | [], _, hp => simp [entering, window] at hp
  | .lock :: _, _, hp => simp [entering, window] at hp
  | .unlock :: _, h, _ => exact h.1
  | .select _ _ :: _, h, _ =>
    exact h.1.resolve_right fun hops => hunlock (by simpa [Unlocked] using hops)
  | .setCurrent _ :: _, h, _ =>
    exact h.1.resolve_right fun hops => hunlock (by simpa [Unlocked] using hops)
  | .spi _ _ _ :: _, h, _ =>
    exact h.1.resolve_right fun hops => hunlock (by simpa [Unlocked] using hops)

theorem Consistent.unlocked {b' : UInt8} (h : Consistent s) (hentering : entering (s.todo t) = some b)
    (hwindow : window (s.todo t.other) = some b') :
    Unlocked (s.todo t) ∨ Unlocked (s.todo t.other) := by
  by_contra hlocked
  obtain ⟨ht, hother⟩ := not_or.mp hlocked
  have hpos := (h.locking t).pos (.inl (by rw [hentering]; rfl)) ht
  have hpos' := (h.locking t.other).pos (.inr (by rw [hwindow]; rfl)) hother
  rw [depth_other_of_pos hpos] at hpos'
  exact absurd hpos' (Nat.lt_irrefl 0)

def KeepsBank (s : State) : Op → Prop
  | .spi op addr data => (s.chip.transact op addr data).bank = s.chip.bank
  | _ => True

instance (s : State) : (op : Op) → Decidable (KeepsBank s op)
  | .lock => inferInstanceAs (Decidable True)
  | .unlock => inferInstanceAs (Decidable True)
  | .select .. => inferInstanceAs (Decidable True)
  | .setCurrent _ => inferInstanceAs (Decidable True)
  | .spi .. => inferInstanceAs (Decidable (_ = _))

/-- No call sets out for a bank while the other, one of the two not holding the mutex, is on the
way to another bank, and none changes the bank bits by its access. -/
def Undisturbed (s : State) : Event → Prop
  | .step t =>
    (∀ b ∈ entering (s.todo t), ∀ b' ∈ window (s.todo t.other),
      Unlocked (s.todo t) ∨ Unlocked (s.todo t.other) → b = b') ∧
      ∀ op ∈ (s.todo t).head?, KeepsBank s op
  | _ => True

instance (s : State) : (e : Event) → Decidable (Undisturbed s e)
  | .call .. => inferInstanceAs (Decidable True)
  | .step _ => inferInstanceAs (Decidable (_ ∧ _))
  | .hardware .. => inferInstanceAs (Decidable True)

theorem Consistent.init (regs : UInt8 → UInt8) : Consistent (.init regs) where
  low := low_and 0
  coherent := fun _ =>
    { ready_left := trivial
      ready_right := trivial
      toward_left := fun _ hb => nomatch hb
      toward_right := fun _ hb => nomatch hb
      agree := fun _ _ hb => nomatch hb
      settled := fun _ _ => Chip.bank_write_econ1 0 }
  shaped := fun _ => trivial
  locking := fun _ => rfl
  right := fun _ ha => nomatch ha

theorem isCommon_not_banked (h : isCommon addr = true) : ¬ Banked addr := by
  have hcommon : ∀ addr : UInt8, isCommon addr = true → ¬ Banked addr :=
    forall_byte (P := fun addr => isCommon addr = true → ¬ Banked addr) (by decide +kernel)
  exact hcommon addr h

theorem right_of_common {bank value : UInt8} (h : ¬ Banked addr) (op : SpiOp) :
    Access.Right ⟨t, op, addr, bank, registerIn bank addr, value⟩ :=
  ⟨registerIn_common h _ _, fun hbanked => absurd hbanked h⟩

theorem right_select (h : ∀ a ∈ s.log, a.Right) : ∀ a ∈ (s.select t addr k).log, a.Right := by
  have hecon1 : ¬ Banked econ1 := isCommon_not_banked rfl
  have htransact : ∀ op data, ∀ a ∈ (s.transact t op econ1 data).log, a.Right := by
    intro op data a ha
    obtain ha | ha := List.mem_append.mp ha
    · exact h a ha
    · obtain rfl := List.mem_singleton.mp ha
      exact right_of_common hecon1 op
  rw [State.select]
  split
  · split
    · exact htransact _ _
    · exact htransact _ _
  · exact h

theorem right_spi {data : UInt8} (h : ∀ a ∈ s.log, a.Right)
    (hready : Ready s.chip.bank s.currentRegisterBank (.spi op' addr data :: ops)) :
    ∀ a ∈ (s.transact t op' addr data).log, a.Right := by
  intro a ha
  obtain ha | ha := List.mem_append.mp ha
  · exact h a ha
  · obtain rfl := List.mem_singleton.mp ha
    cases hcommon : isCommon addr with
    | true => exact right_of_common (isCommon_not_banked hcommon) op'
    | false =>
      have hbank := (hready hcommon).1
      refine ⟨?_, fun _ => hbank⟩
      exact congrArg (registerIn · addr) hbank

theorem Consistent.opStep (h : Consistent s) (s₁ : State) (htodo : s₁.todo = s.todo)
    (hlow : Low s₁.currentRegisterBank)
    (hcoherent : Coherent s₁.chip.bank s₁.currentRegisterBank ops (s.todo t.other))
    (hshaped : Shaped ops) (hlocking : Locking (s₁.depth t) ops)
    (hother : s₁.depth t.other = s.depth t.other) (hright : ∀ a ∈ s₁.log, a.Right) :
    Consistent { s₁ with todo := Function.update s₁.todo t ops } where
  low := hlow
  coherent := by
    rw [htodo]
    exact coherent_update hcoherent
  shaped := by
    rw [htodo]
    exact update_forall (P := fun _ => Shaped) hshaped (h.shaped _)
  locking := by
    rw [htodo]
    refine update_forall (P := fun t' ops => Locking (s₁.depth t') ops) hlocking ?_
    rw [hother]
    exact h.locking _
  right := hright

theorem depth_of_mutex {s' : State} (h : s'.mutex = s.mutex) (t : Task) : s'.depth t = s.depth t := by
  rw [State.depth, h, State.depth]

@[simp]
theorem depth_lock (s : State) (t : Task) (n : Nat) :
    State.depth { s with mutex := some (t, n) } t = n := if_pos rfl

theorem depth_other_lock (s : State) (t : Task) (n : Nat) :
    State.depth { s with mutex := some (t, n) } t.other = 0 := if_neg t.other_ne.symm

theorem depth_unlock (s : State) (t : Task) :
    (s.opStep t .unlock).depth t = s.depth t - 1 ∧ (s.opStep t .unlock).depth t.other = 0 := by
  rw [State.opStep]
  split
  next hle => exact ⟨(Nat.sub_eq_zero_of_le hle).symm, rfl⟩
  next => exact ⟨depth_lock s t _, depth_other_lock s t _⟩

theorem Consistent.lock (h : Consistent s) (htodo : s.todo t = .lock :: ops)
    (hfree : s.Free t) :
    Consistent { s.opStep t .lock with todo := Function.update s.todo t ops } := by
  have hcoherent := h.coherent t
  have hshaped := h.shaped t
  have hlocking := h.locking t
  rw [htodo] at hcoherent hshaped hlocking
  refine h.opStep (s.opStep t .lock) rfl h.low (hcoherent.quiet hshaped.1 (.inl rfl))
    hshaped.2 ?_ ?_ h.right
  · exact (depth_lock s t _).symm ▸ hlocking
  · exact (depth_other_lock s t _).trans (depth_other_of_free hfree).symm

theorem Consistent.unlock (h : Consistent s) (htodo : s.todo t = .unlock :: ops) :
    Consistent { s.opStep t .unlock with todo := Function.update s.todo t ops } := by
  have hcoherent := h.coherent t
  have hshaped := h.shaped t
  have hlocking := h.locking t
  rw [htodo] at hcoherent hshaped hlocking
  obtain ⟨hdepth, hother⟩ := depth_unlock s t
  refine h.opStep (s.opStep t .unlock) rfl h.low (hcoherent.quiet hshaped.1 (.inl rfl))
    hshaped.2 ?_ ?_ h.right
  · exact hdepth.symm ▸ hlocking.2
  · exact hother.trans (depth_other_of_pos hlocking.1).symm

theorem Consistent.select (h : Consistent s) (htodo : s.todo t = .select addr k :: ops)
    (htoward : Toward (bankOf addr) s.chip.bank s.currentRegisterBank)
    (hother : ∀ b', window (s.todo t.other) = some b' → bankOf addr = b')
    (hops : window ops = some (bankOf addr)) (hshaped : Shaped ops)
    (hready : Ready (s.select t addr k).chip.bank s.currentRegisterBank ops) :
    Consistent { s.opStep t (.select addr k) with todo := Function.update s.todo t ops } := by
  have hcoherent := h.coherent t
  have hlocking := h.locking t
  rw [htodo] at hcoherent hlocking
  obtain ⟨-, hagree, htoward'⟩ := select_toward (k := k) (t := t) htoward
  have hdepth := depth_of_mutex (mutex_select (s := s) t addr k)
  have hcoherent' : Coherent (s.select t addr k).chip.bank
      (s.select t addr k).currentRegisterBank ops (s.todo t.other) := by
    rw [currentRegisterBank_select]
    exact hcoherent.select (low_and _) hops hother hagree htoward' hready
  have hlow : Low (s.select t addr k).currentRegisterBank := by
    rw [currentRegisterBank_select]
    exact h.low
  have hlocking' : Locking ((s.select t addr k).depth t) ops := by
    rw [hdepth]
    exact hlocking.2
  have := h.opStep (s.select t addr k) (todo_select t addr k) hlow hcoherent' hshaped hlocking'
    (hdepth _) (right_select h.right)
  rwa [todo_select] at this

theorem Consistent.select_bsel0 (h : Consistent s) (htodo : s.todo t = .select addr .bsel0 :: ops)
    (hguard : ∀ b', window (s.todo t.other) = some b' → bankOf addr = b') :
    Consistent { s.opStep t (.select addr .bsel0) with todo := Function.update s.todo t ops } := by
  have hcoherent := h.coherent t
  have hshaped := h.shaped t
  rw [htodo] at hcoherent hshaped
  obtain ⟨rest, rfl⟩ := List.head?_eq_some_iff.mp hshaped.1
  have htoward := hcoherent.toward rfl hguard
  exact h.select htodo htoward hguard rfl hshaped.2 (select_toward htoward).1

theorem Consistent.select_bsel1 (h : Consistent s) (htodo : s.todo t = .select addr .bsel1 :: ops) :
    Consistent { s.opStep t (.select addr .bsel1) with todo := Function.update s.todo t ops } := by
  have hcoherent := h.coherent t
  have hshaped := h.shaped t
  rw [htodo] at hcoherent hshaped
  obtain ⟨rest, rfl⟩ := List.head?_eq_some_iff.mp hshaped.1
  have htoward := hcoherent.toward_left _ rfl
  obtain ⟨hbsel1, hagree, -⟩ := select_toward (k := .bsel1) (t := t) htoward
  refine h.select htodo htoward (hcoherent.agree _ · rfl) rfl hshaped.2 ?_
  refine Low.ext (low_and _) (low_bankOf addr) fun j => ?_
  cases j with
  | bsel0 => exact hagree .bsel0 hcoherent.ready_left
  | bsel1 => exact hbsel1

theorem Consistent.setCurrent (h : Consistent s) (htodo : s.todo t = .setCurrent addr :: ops) :
    Consistent { s.opStep t (.setCurrent addr) with todo := Function.update s.todo t ops } := by
  have hcoherent := h.coherent t
  have hshaped := h.shaped t
  have hlocking := h.locking t
  rw [htodo] at hcoherent hshaped hlocking
  obtain ⟨op, data, hhead⟩ := hshaped.1
  obtain ⟨rest, rfl⟩ := List.head?_eq_some_iff.mp hhead
  have hbank : s.chip.bank = bankOf addr := hcoherent.ready_left
  refine h.opStep (s.opStep t (.setCurrent addr)) rfl (low_bankOf addr) ?_ hshaped.2
    hlocking.2 rfl h.right
  rw [hbank] at hcoherent
  change Coherent s.chip.bank _ _ _
  rw [hbank]
  refine hcoherent.setCurrent (low_bankOf addr) rfl ?_ fun _ => ⟨rfl, rfl⟩
  intro b' hb'
  rw [window] at hb'
  split at hb'
  · cases hb'
  · exact (Option.some.inj hb').symm

theorem Consistent.spi {data : UInt8} (h : Consistent s) (htodo : s.todo t = .spi op' addr data :: ops)
    (hkeeps : KeepsBank s (.spi op' addr data)) :
    Consistent { s.opStep t (.spi op' addr data) with todo := Function.update s.todo t ops } := by
  have hcoherent := h.coherent t
  have hshaped := h.shaped t
  have hlocking := h.locking t
  rw [htodo] at hcoherent hshaped hlocking
  have hready := hcoherent.ready_left
  refine h.opStep (s.opStep t (.spi op' addr data)) rfl h.low ?_ hshaped.2 hlocking.2 rfl
    (right_spi h.right hready)
  change Coherent (s.chip.transact op' addr data).bank _ _ _
  rw [hkeeps]
  apply hcoherent.quiet hshaped.1
  cases hcommon : isCommon addr with
  | true => exact .inl (by simp [window, hcommon])
  | false =>
    obtain ⟨hbank, hcurrent⟩ := hready hcommon
    exact .inr (hbank.trans hcurrent.symm)

theorem Consistent.call (h : Consistent s) (hidle : s.todo t = []) (c : Call) :
    Consistent { s with todo := Function.update s.todo t c.ops } := by
  have hcoherent := h.coherent t
  have hlocking := h.locking t
  rw [hidle] at hcoherent hlocking
  obtain ⟨hwindow, hshaped⟩ := shaped_ops c
  refine h.opStep s rfl h.low (hcoherent.quiet hwindow (.inl rfl)) hshaped ?_ rfl h.right
  have hdepth : s.depth t = 0 := hlocking
  rw [hdepth]
  exact locking_ops c

theorem Consistent.step {e : Event} (h : Consistent s) (hguard : Undisturbed s e)
    (hstep : Step s e s') : Consistent s' := by
  obtain ⟨henabled, rfl⟩ := hstep
  cases e with
  | call t c => exact h.call henabled c
  | hardware register value =>
    have hbank := bank_write_hardware henabled
    refine ⟨h.low, ?_, h.shaped, h.locking, h.right⟩
    change ∀ t, Coherent (s.chip.write register value).bank _ _ _
    rw [hbank]
    exact h.coherent
  | step t =>
    obtain ⟨op, hop, hopEnabled⟩ := henabled
    obtain ⟨ops, htodo⟩ := List.head?_eq_some_iff.mp hop
    obtain ⟨hentering, hkeeps⟩ := hguard
    rw [htodo] at hentering
    simp only [driverStep, htodo]
    cases op with
    | lock => exact h.lock htodo hopEnabled
    | unlock => exact h.unlock htodo
    | select addr bsel =>
      cases bsel with
      | bsel0 =>
        refine h.select_bsel0 htodo fun b' hb' => ?_
        have hunlocked := h.unlocked (b := bankOf addr) (by rw [htodo]; rfl) hb'
        rw [htodo] at hunlocked
        exact hentering _ rfl b' hb' hunlocked
      | bsel1 => exact h.select_bsel1 htodo
    | setCurrent addr => exact h.setCurrent htodo
    | spi op addr data => exact h.spi htodo (hkeeps _ hop)

theorem Consistent.settled (h : Consistent s) (hidle : Idle s) :
    s.currentRegisterBank = s.chip.bank := by
  have hwindow : ∀ t, window (s.todo t) = none := fun t => by rw [hidle t]; rfl
  exact ((h.coherent .irqLoop).settled (hwindow _) (hwindow _)).symm

variable {es : List Event} {regs : UInt8 → UInt8}

theorem right_of_undisturbed (hrun : Run (Guarded Undisturbed Step) (.init regs) es s) :
    (∀ a ∈ s.log, a.Right) ∧ (Idle s → s.currentRegisterBank = s.chip.bank) := by
  have h : Consistent s := hrun.invariant Consistent
    (fun _ _ _ h hstep => h.step hstep.1 hstep.2) (.init regs)
  exact ⟨h.right, h.settled⟩

/-- A call as the tasks of the driver make them: a bit field call of a common register, none that
touches the bank bits. -/
def Call.Orderly : Call → Prop
  | .regbRead _ => True
  | .regbWrite addr _ => addr &&& addrMask ≠ econ1
  | .regwWrite addr _ => addr &&& addrMask ≠ econ1 ∧ (addr + 1) &&& addrMask ≠ econ1
  | .regBfset addr mask => isCommon addr = true ∧ (addr = econ1 → mask &&& econ1Bsel = 0)
  | .regBfclr addr mask => isCommon addr = true ∧ (addr = econ1 → mask &&& econ1Bsel = 0)

def Orderly : List Op → Prop
  | [] => True
  | op :: ops =>
    (Unlocked (op :: ops) → entering (op :: ops) = none ∧ window (op :: ops) = none) ∧
      (∀ s, KeepsBank s op) ∧ Orderly ops

theorem orderly_ops {c : Call} (h : c.Orderly) : Orderly c.ops := by
  cases c with
  | regbRead reg =>
    rw [Call.ops, regbRead, setBank]
    cases isCommon reg <;> simp [Orderly, Unlocked, KeepsBank, Chip.bank_transact_read]
  | regbWrite addr data =>
    rw [Call.ops, regbWrite, setBank]
    cases isCommon addr <;> simp [Orderly, Unlocked, KeepsBank, Chip.bank_transact_ne h]
  | regwWrite addr data =>
    rw [Call.ops, regwWrite, regbWrite, regbWrite, setBank, setBank]
    cases isCommon addr <;> cases isCommon (addr + 1) <;>
      simp [Orderly, Unlocked, KeepsBank, Chip.bank_transact_ne h.1, Chip.bank_transact_ne h.2]
  | regBfset addr mask =>
    rw [Call.ops, regBfset, setBank, h.1]
    simp [Orderly, Unlocked, KeepsBank, entering, window, h.1,
      Chip.bank_transact_bitField (.inl rfl) h.1 h.2]
  | regBfclr addr mask =>
    rw [Call.ops, regBfclr, setBank, h.1]
    simp [Orderly, Unlocked, KeepsBank, entering, window, h.1,
      Chip.bank_transact_bitField (.inr rfl) h.1 h.2]

theorem Orderly.unlocked (h : Orderly ops) (hunlocked : Unlocked ops) :
    entering ops = none ∧ window ops = none := by
  cases ops with
  | nil => exact ⟨rfl, rfl⟩
  | cons op ops => exact h.1 hunlocked

theorem undisturbed_of_orderly {e : Event} (h : ∀ t, Orderly (s.todo t)) : Undisturbed s e := by
  cases e with
  | step t =>
    refine ⟨fun b hb b' hb' hunlocked => ?_, fun op hop => ?_⟩
    · obtain ht | hother := hunlocked
      · exact nomatch ((h t).unlocked ht).1.symm.trans hb
      · exact nomatch ((h t.other).unlocked hother).2.symm.trans hb'
    · obtain ⟨ops, htodo⟩ := List.head?_eq_some_iff.mp hop
      have hops := h t
      rw [htodo] at hops
      exact hops.2.1 s
  | call t c => trivial
  | hardware register value => trivial

def Event.Orderly : Event → Prop
  | .call _ c => c.Orderly
  | _ => True

theorem orderly_step {e : Event} (h : ∀ t, Orderly (s.todo t)) (he : e.Orderly)
    (hstep : Step s e s') : ∀ t, Orderly (s'.todo t) := by
  obtain ⟨henabled, rfl⟩ := hstep
  cases e with
  | call t c => exact update_forall (P := fun _ => Orderly) (orderly_ops he) (h _)
  | hardware register value => exact h
  | step t =>
    obtain ⟨op, hop, -⟩ := henabled
    obtain ⟨ops, htodo⟩ := List.head?_eq_some_iff.mp hop
    have hops := h t
    rw [htodo] at hops
    simp only [driverStep, htodo]
    exact update_forall (P := fun _ => Orderly) hops.2.2 (h _)

def Call.OfInit : Call → Prop
  | .regBfset addr mask => addr &&& addrMask ≠ econ1 ∨ Call.Orderly (.regBfset addr mask)
  | .regBfclr addr mask => addr &&& addrMask ≠ econ1 ∨ Call.Orderly (.regBfclr addr mask)
  | c => c.Orderly

theorem keepsBank_ops {c : Call} (h : c.OfInit) : ∀ op ∈ c.ops, ∀ s, KeepsBank s op := by
  cases c with
  | regbRead reg =>
    rw [Call.ops, regbRead, setBank]
    cases isCommon reg <;> simp [KeepsBank, Chip.bank_transact_read]
  | regbWrite addr data =>
    rw [Call.ops, regbWrite, setBank]
    cases isCommon addr <;> simp [KeepsBank, Chip.bank_transact_ne h]
  | regwWrite addr data =>
    rw [Call.ops, regwWrite, regbWrite, regbWrite, setBank, setBank]
    cases isCommon addr <;> cases isCommon (addr + 1) <;>
      simp [KeepsBank, Chip.bank_transact_ne h.1, Chip.bank_transact_ne h.2]
  | regBfset addr mask =>
    have hbank : ∀ c : Chip, (c.transact .bitFieldSet addr mask).bank = c.bank := fun c =>
      h.elim (fun h => Chip.bank_transact_ne h _ _)
        fun h => Chip.bank_transact_bitField (.inl rfl) h.1 h.2
    rw [Call.ops, regBfset, setBank]
    cases isCommon addr <;> simp [KeepsBank, hbank]
  | regBfclr addr mask =>
    have hbank : ∀ c : Chip, (c.transact .bitFieldClr addr mask).bank = c.bank := fun c =>
      h.elim (fun h => Chip.bank_transact_ne h _ _)
        fun h => Chip.bank_transact_bitField (.inr rfl) h.1 h.2
    rw [Call.ops, regBfclr, setBank]
    cases isCommon addr <;> simp [KeepsBank, hbank]

def Event.OfInit : Event → Prop
  | .call t c => t = .tcpip ∧ c.OfInit
  | _ => True

/-- The driver at work: `init` runs to its end before the task of the interrupt is created, and the
calls of the two tasks come in any order then. -/
inductive DriverStep : Bool × State → Option Event → Bool × State → Prop
  | starting {s s' : State} {e : Event} : e.OfInit → Step s e s' →
    DriverStep (false, s) (some e) (false, s')
  | started {s : State} : Idle s → DriverStep (false, s) none (true, s)
  | running {s s' : State} {e : Event} : e.Orderly → Step s e s' →
    DriverStep (true, s) (some e) (true, s')

def Remains (d : Bool × State) : Prop :=
  if d.1 then ∀ t, Orderly (d.2.todo t)
  else d.2.todo .irqLoop = [] ∧ ∀ op ∈ d.2.todo .tcpip, ∀ s, KeepsBank s op

theorem Remains.starting {e : Event} (h : Remains (false, s)) (he : e.OfInit)
    (hstep : Step s e s') : Undisturbed s e ∧ Remains (false, s') := by
  obtain ⟨hirq, hkeeps⟩ := h
  obtain ⟨henabled, rfl⟩ := hstep
  have hne : Task.irqLoop ≠ .tcpip := by decide
  cases e with
  | call t c =>
    obtain ⟨rfl, hc⟩ := he
    refine ⟨trivial, ?_, ?_⟩
    · change Function.update s.todo .tcpip c.ops .irqLoop = []
      rwa [Function.update_of_ne hne]
    · change ∀ op ∈ Function.update s.todo .tcpip c.ops .tcpip, ∀ s, KeepsBank s op
      rw [Function.update_self]
      exact keepsBank_ops hc
  | hardware register value => exact ⟨trivial, hirq, hkeeps⟩
  | step t =>
    obtain ⟨op, hop, -⟩ := henabled
    obtain ⟨ops, htodo⟩ := List.head?_eq_some_iff.mp hop
    obtain rfl : t = .tcpip := by
      cases t with
      | irqLoop => cases hirq.symm.trans htodo
      | tcpip => rfl
    rw [htodo] at hkeeps
    refine ⟨⟨fun b _ b' hb' => ?_, fun op' hop' => ?_⟩, ?_⟩
    · rw [Task.other, hirq] at hb'
      cases hb'
    · obtain rfl := Option.some.inj (hop.symm.trans hop')
      exact hkeeps op List.mem_cons_self s
    · simp only [driverStep, htodo]
      refine ⟨?_, ?_⟩
      · change Function.update s.todo .tcpip ops .irqLoop = []
        rwa [Function.update_of_ne hne]
      · change ∀ op ∈ Function.update s.todo .tcpip ops .tcpip, ∀ s, KeepsBank s op
        rw [Function.update_self]
        exact fun op' hop' => hkeeps op' (List.mem_cons_of_mem _ hop')

theorem undisturbed_of_driver {d d' : Bool × State} {es : List (Option Event)}
    (hrun : Run DriverStep d es d') (h : Remains d) :
    Run (Guarded Undisturbed Step) d.2 es.reduceOption d'.2 := by
  induction hrun with
  | nil => exact .nil
  | cons hstep _ ih =>
    cases hstep with
    | starting he hstep =>
      obtain ⟨hguard, hremains⟩ := h.starting he hstep
      exact .cons ⟨hguard, hstep⟩ (ih hremains)
    | @started s hidle =>
      refine ih fun t => ?_
      rw [hidle t]
      trivial
    | running he hstep =>
      exact .cons ⟨undisturbed_of_orderly h, hstep⟩ (ih (orderly_step h he hstep))

/-- Every transaction of the driver acts on the register that it names, and between calls the
driver knows the selected bank. -/
theorem accesses_right {started : Bool} {es : List (Option Event)}
    (hrun : Run DriverStep (false, .init regs) es (started, s)) :
    (∀ a ∈ s.log, a.Right) ∧ (Idle s → s.currentRegisterBank = s.chip.bank) :=
  right_of_undisturbed (undisturbed_of_driver hrun ⟨rfl, fun _ hop => nomatch hop⟩)

instance : (c : Call) → Decidable c.Orderly
  | .regbRead _ => inferInstanceAs (Decidable True)
  | .regbWrite .. => inferInstanceAs (Decidable (_ ≠ _))
  | .regwWrite .. => inferInstanceAs (Decidable (_ ∧ _))
  | .regBfset .. => inferInstanceAs (Decidable (_ ∧ (_ = _ → _)))
  | .regBfclr .. => inferInstanceAs (Decidable (_ ∧ (_ = _ → _)))

instance : (c : Call) → Decidable c.OfInit
  | .regbRead _ => inferInstanceAs (Decidable True)
  | .regbWrite .. => inferInstanceAs (Decidable (_ ≠ _))
  | .regwWrite .. => inferInstanceAs (Decidable (_ ∧ _))
  | .regBfset .. => inferInstanceAs (Decidable (_ ∨ _))
  | .regBfclr .. => inferInstanceAs (Decidable (_ ∨ _))

instance : (e : Event) → Decidable e.Orderly
  | .call _ c => inferInstanceAs (Decidable c.Orderly)
  | .step _ => inferInstanceAs (Decidable True)
  | .hardware .. => inferInstanceAs (Decidable True)

instance : (e : Event) → Decidable e.OfInit
  | .call _ _ => inferInstanceAs (Decidable (_ ∧ _))
  | .step _ => inferInstanceAs (Decidable True)
  | .hardware .. => inferInstanceAs (Decidable True)

theorem starting_run (h : Feasible (fun s e => e.OfInit ∧ e.Enabled s) driverStep s es) :
    Run DriverStep (false, s) (es.map some) (false, es.foldl driverStep s) := by
  induction es generalizing s with
  | nil => exact .nil
  | cons e es ih => exact .cons (.starting h.1.1 ⟨h.1.2, rfl⟩) (ih h.2)

theorem running_run (h : Feasible (fun s e => e.Orderly ∧ e.Enabled s) driverStep s es) :
    Run DriverStep (true, s) (es.map some) (true, es.foldl driverStep s) := by
  induction es generalizing s with
  | nil => exact .nil
  | cons e es ih => exact .cons (.running h.1.1 ⟨h.1.2, rfl⟩) (ih h.2)

def starting : List Event :=
  .call .tcpip (.regBfset macon1 1) :: List.replicate 4 (.step .tcpip)

def atWork : List Event :=
  [.call .tcpip (.regbRead epktcnt), .step .tcpip, .step .tcpip, .call .irqLoop (.regBfclr eie 0x80),
    .step .tcpip, .step .tcpip, .step .tcpip, .step .tcpip, .step .irqLoop]

def worked : State := atWork.foldl driverStep (starting.foldl driverStep (.init fun _ => 0))

theorem worked_right :
    (∀ a ∈ worked.log, a.Right) ∧ (Idle worked → worked.currentRegisterBank = worked.chip.bank) := by
  have hinit : Feasible (fun s e => e.OfInit ∧ e.Enabled s) driverStep (.init fun _ => 0)
      starting := by
    decide +kernel
  have hwork : Feasible (fun s e => e.Orderly ∧ e.Enabled s) driverStep
      (starting.foldl driverStep (.init fun _ => 0)) atWork := by
    decide +kernel
  exact accesses_right ((starting_run hinit).append
    (.cons (.started (by decide +kernel)) (running_run hwork)))

end RadProt.Enc28j60
