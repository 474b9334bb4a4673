import RadProt.Enc28j60.Interleaving
import RadProt.Enc28j60.Transmit

namespace RadProt.Enc28j60

open RadProt.Lib

/-! What the driver reads from pairs of registers: the free space of the receive ring, and where the
status vector stands. -/

def erxwrpt : UInt8 := 0x0E

namespace State

def perform (s : State) (t : Task) (ops : List Op) : State := ops.foldl (fun s op => s.opStep t op) s

def lastValue (s : State) : UInt8 := (s.log.getLast?.map (·.value)).getD 0

end State

section Perform

variable {s : State} {t : Task} {addr : UInt8}

def Settled (s : State) : Prop := s.currentRegisterBank = s.chip.bank

def Keeps (s s' : State) : Prop := ∀ register ≠ econ1, s'.chip.regs register = s.chip.regs register

theorem Keeps.refl (s : State) : Keeps s s := fun _ _ => rfl

theorem Keeps.trans {s' s'' : State} (h : Keeps s s') (h' : Keeps s' s'') : Keeps s s'' :=
  fun register hne => (h' register hne).trans (h register hne)

theorem perform_append (s : State) (t : Task) (ops ops' : List Op) :
    s.perform t (ops ++ ops') = (s.perform t ops).perform t ops' := List.foldl_append

theorem keeps_select (s : State) (t : Task) (addr : UInt8) (k : Bsel) :
    Keeps s (s.select t addr k) := by
  intro register hne
  rw [State.select]
  split
  · split
    · exact Function.update_of_ne hne _ _
    · exact Function.update_of_ne hne _ _
  · rfl

theorem perform_setBank (h : Settled s) (t : Task) (addr : UInt8) :
    Settled (s.perform t (setBank addr)) ∧ Keeps s (s.perform t (setBank addr)) ∧
      (s.perform t (setBank addr)).chip.selected addr = named addr := by
  rw [setBank]
  by_cases hcommon : isCommon addr = true
  · have hbanked : ∀ addr : UInt8, isCommon addr = true → ¬ Banked addr :=
      forall_byte (P := fun addr => isCommon addr = true → ¬ Banked addr) (by decide +kernel)
    rw [if_pos hcommon]
    exact ⟨h, .refl s, registerIn_common (hbanked addr hcommon) _ _⟩
  · rw [if_neg hcommon]
    have htoward : Toward (bankOf addr) s.chip.bank s.currentRegisterBank := by
      rw [h]
      exact fun _ => .inl rfl
    obtain ⟨hfirst, -, htoward⟩ := select_toward (t := t) (k := .bsel0) htoward
    rw [← currentRegisterBank_select t addr .bsel0] at htoward
    obtain ⟨hsecond, hkept, -⟩ := select_toward (t := t) (k := .bsel1) htoward
    have hbank : ((s.select t addr .bsel0).select t addr .bsel1).chip.bank = bankOf addr := by
      refine Low.ext (low_and _) (low_bankOf addr) fun k => ?_
      cases k with
      | bsel0 => exact hkept .bsel0 hfirst
      | bsel1 => exact hsecond
    refine ⟨hbank.symm, (keeps_select s t addr .bsel0).trans (keeps_select _ t addr .bsel1), ?_⟩
    exact congrArg (registerIn · addr) hbank

theorem perform_regbRead (h : Settled s) (t : Task) (reg : UInt8) :
    Settled (s.perform t (regbRead reg)) ∧ Keeps s (s.perform t (regbRead reg)) ∧
      (named reg ≠ econ1 →
        (s.perform t (regbRead reg)).lastValue = s.chip.regs (named reg)) := by
  obtain ⟨hsettled, hkeeps, hselected⟩ := perform_setBank (s := s.opStep t .lock) h t reg
  rw [regbRead, List.cons_append, State.perform, List.foldl_cons, ← State.perform, perform_append]
  generalize (s.opStep t .lock).perform t (setBank reg) = s₁ at hsettled hkeeps hselected
  refine ⟨hsettled.trans (Chip.bank_transact_read reg 0).symm, hkeeps.trans fun register _ => ?_,
    fun hne => ?_⟩
  · exact congrFun (Function.update_eq_self _ _) register
  · have hlast : (s₁.perform t [.spi .readCtrlReg reg 0, .unlock]).lastValue =
        s₁.chip.operated .readCtrlReg reg 0 := by
      simp [State.perform, State.opStep, State.transact, State.lastValue]
    rw [hlast, Chip.operated, hselected]
    exact hkeeps _ hne

theorem perform_regbWrite (h : Settled s) (t : Task) (hne : addr &&& addrMask ≠ econ1)
    (data : UInt8) :
    Settled (s.perform t (regbWrite addr data)) ∧
      ∀ register ≠ econ1, (s.perform t (regbWrite addr data)).chip.regs register =
        if register = named addr then data else s.chip.regs register := by
  obtain ⟨hsettled, hkeeps, hselected⟩ := perform_setBank (s := s.opStep t .lock) h t addr
  rw [regbWrite, List.cons_append, State.perform, List.foldl_cons, ← State.perform, perform_append]
  generalize (s.opStep t .lock).perform t (setBank addr) = s₁ at hsettled hkeeps hselected
  refine ⟨hsettled.trans (Chip.bank_transact_ne hne _ data).symm, fun register hregister => ?_⟩
  have hregs : (s₁.perform t [.spi .writeCtrlReg addr data, .unlock]).chip.regs =
      Function.update s₁.chip.regs (s₁.chip.selected addr) data := rfl
  rw [hregs, hselected, Function.update_apply]
  split
  · rfl
  · exact hkeeps register hregister

theorem perform_regwWrite (h : Settled s) (t : Task) {data : UInt16}
    (hc : (Call.regwWrite addr data).Orderly) :
    Settled (s.perform t (regwWrite addr data)) ∧
      ∀ register ≠ econ1, (s.perform t (regwWrite addr data)).chip.regs register =
        if register = named (addr + 1) then (data >>> 8).toUInt8
        else if register = named addr then (data &&& 0xff).toUInt8 else s.chip.regs register := by
  obtain ⟨hlow, hregs⟩ :=
    perform_regbWrite (s := s.opStep t .lock) h t hc.1 (data &&& 0xff).toUInt8
  obtain ⟨hhigh, hregs'⟩ := perform_regbWrite hlow t hc.2 (data >>> 8).toUInt8
  rw [regwWrite, List.cons_append, List.cons_append, State.perform, List.foldl_cons,
    ← State.perform, perform_append, perform_append]
  refine ⟨hhigh, fun register hne => (hregs' register hne).trans ?_⟩
  rw [hregs register hne]
  rfl

end Perform

structure Driver where
  state : State
  settled : Settled state

namespace Driver

def byte (d : Driver) (reg : UInt8) : UInt8 := d.state.chip.regs (named reg)

def pair (d : Driver) (reg : UInt8) : Nat := (d.byte reg).toNat + 256 * (d.byte (reg + 1)).toNat

def lock (t : Task) : StateM Driver Unit := fun d => ((), ⟨d.state.opStep t .lock, d.settled⟩)

def unlock (t : Task) : StateM Driver Unit := fun d =>
  ((), ⟨d.state.opStep t .unlock, d.settled⟩)

def regbRead (t : Task) (reg : UInt8) : StateM Driver UInt8 := fun d =>
  ((d.state.perform t (Enc28j60.regbRead reg)).lastValue,
    ⟨_, (perform_regbRead d.settled t reg).1⟩)

def regwWrite (t : Task) (addr : UInt8) (data : UInt16) (h : (Call.regwWrite addr data).Orderly) :
    StateM Driver Unit := fun d =>
  ((), ⟨_, (perform_regwWrite d.settled t h).1⟩)

def regwRead (t : Task) (reg : UInt8) : StateM Driver UInt16 := do
  lock t
  let low ← regbRead t reg
  let high ← regbRead t (reg + 1)
  let res : UInt8 := .ofNat (low.toNat + high.toNat <<< 8)
  unlock t
  return res.toUInt16

def pointersFree (t : Task) : StateM Driver Int := do
  let st : Int := (← regwRead t erxst).toNat
  let nd : Int := (← regwRead t erxnd).toNat
  let wr : Int := (← regwRead t erxwrpt).toNat
  let rd : Int := (← regwRead t erxrdpt).toNat
  return if wr > rd then (nd - st) - (wr - rd) else if wr = rd then nd - st else rd - wr - 1

def getFreeRxfifo (t : Task) : StateM Driver Int := do
  lock t
  let epkcnt ← regbRead t epktcnt
  let freeSpace ← if 255 ≤ epkcnt then pure (-1) else pointersFree t
  unlock t
  return freeSpace

def readTsv (t : Task) : StateM Driver (Nat × Nat) := do
  let endptr ← regwRead t etxnd
  regwWrite t erdpt (endptr + 1) ⟨by decide, by decide⟩
  return ((← get).pair erdpt, tsvSize)

section Reads

variable {α β : Type} {d : Driver} {x : StateM Driver α} {f : α → StateM Driver β} {v : α} {w : β}
  {t : Task} {reg : UInt8}

/-- After whatever else was read from `d`, `x` returns `v` and changes no register. -/
def Reads (d : Driver) (x : StateM Driver α) (v : α) : Prop :=
  ∀ d', Keeps d.state d'.state → (x d').1 = v ∧ Keeps d.state (x d').2.state

theorem Reads.pure (d : Driver) (v : α) : Reads d (pure v) v := fun _ h => ⟨rfl, h⟩

theorem Reads.bind (hx : Reads d x v) (hf : Reads d (f v) w) : Reads d (x >>= f) w := by
  intro d' h
  obtain ⟨rfl, hkeeps⟩ := hx d' h
  exact hf (x d').2 hkeeps

theorem reads_lock (d : Driver) (t : Task) : Reads d (lock t) () := fun _ h => ⟨rfl, h⟩

theorem reads_unlock (d : Driver) (t : Task) : Reads d (unlock t) () := fun _ h => ⟨rfl, h⟩

theorem reads_regbRead (hne : named reg ≠ econ1) (t : Task) :
    Reads d (regbRead t reg) (d.byte reg) := by
  intro d' h
  obtain ⟨-, hkeeps, hvalue⟩ := perform_regbRead d'.settled t reg
  exact ⟨(hvalue hne).trans (h _ hne), h.trans hkeeps⟩

theorem reads_regwRead (reg : UInt8) (hlow : named reg ≠ econ1)
    (hhigh : named (reg + 1) ≠ econ1) (t : Task) :
    Reads d (regwRead t reg) (d.byte reg).toUInt16 := by
  have hres : UInt8.ofNat ((d.byte reg).toNat + (d.byte (reg + 1)).toNat <<< 8) = d.byte reg := by
    rw [← UInt8.toNat_inj, UInt8.toNat_ofNat', Nat.shiftLeft_eq]
    have hlt := (d.byte reg).toNat_lt
    omega
  refine (reads_lock d t).bind ((reads_regbRead hlow t).bind ((reads_regbRead hhigh t).bind ?_))
  rw [hres]
  exact (reads_unlock d t).bind (.pure d _)

end Reads

section Free

def freeSpace (st nd wr rd : Int) : Int :=
  if wr > rd then (nd - st) - (wr - rd) else if wr = rd then nd - st else rd - wr - 1

/-- The high bytes of the four pointers cancel in the free space. -/
def HighBytesCancel (st nd wr rd : Nat) : Prop :=
  if rd < wr then
    if rd % 256 ≤ wr % 256 then nd / 256 + rd / 256 = wr / 256 + st / 256
    else nd + 1 + 256 * (rd / 256) = st + 256 * (wr / 256)
  else if wr = rd then nd / 256 = st / 256
  else if wr % 256 < rd % 256 then wr / 256 = rd / 256
  else rd / 256 = wr / 256 + 1 ∧ nd % 256 = 255 ∧ st % 256 = 0

theorem freeSpace_low_iff (st nd wr rd : Nat) :
    freeSpace (st % 256 : Nat) (nd % 256 : Nat) (wr % 256 : Nat) (rd % 256 : Nat) =
      freeSpace st nd wr rd ↔ HighBytesCancel st nd wr rd := by
  -- The pointers compare in three ways, and so do their low bytes.
  simp only [freeSpace, HighBytesCancel]
  split_ifs <;> omega

variable {d : Driver} {t : Task}

theorem low_eq (d : Driver) (reg : UInt8) :
    (((d.byte reg).toUInt16.toNat : Nat) : Int) = (d.pair reg % 256 : Nat) := by
  have hlt := (d.byte reg).toNat_lt
  rw [UInt8.toNat_toUInt16, pair]
  omega

theorem reads_pointersFree (d : Driver) (t : Task) :
    Reads d (pointersFree t) (freeSpace (d.pair erxst % 256 : Nat) (d.pair erxnd % 256 : Nat)
      (d.pair erxwrpt % 256 : Nat) (d.pair erxrdpt % 256 : Nat)) := by
  have hread {reg : UInt8} (hlow : named reg ≠ econ1) (hhigh : named (reg + 1) ≠ econ1) :=
    reads_regwRead (d := d) reg hlow hhigh t
  simp only [← low_eq]
  rw [pointersFree]
  refine (hread (by decide) (by decide)).bind ?_
  refine (hread (by decide) (by decide)).bind ?_
  refine (hread (by decide) (by decide)).bind ?_
  exact (hread (by decide) (by decide)).bind (.pure d _)

theorem reads_getFreeRxfifo (hcount : (d.byte epktcnt).toNat < 255) (t : Task) :
    Reads d (getFreeRxfifo t) (freeSpace (d.pair erxst % 256 : Nat) (d.pair erxnd % 256 : Nat)
      (d.pair erxwrpt % 256 : Nat) (d.pair erxrdpt % 256 : Nat)) := by
  have hfew : ¬ 255 ≤ d.byte epktcnt := by
    rw [UInt8.le_iff_toNat_le]
    exact Nat.not_le.mpr hcount
  rw [getFreeRxfifo]
  refine (reads_lock d t).bind ((reads_regbRead (by decide) t).bind ?_)
  rw [if_neg hfew]
  exact (reads_pointersFree d t).bind ((reads_unlock d t).bind (.pure d _))

end Free

section Status

variable {d : Driver} {t : Task}

theorem bytes_of_word (data : UInt16) :
    (data &&& 0xff).toUInt8.toNat + 256 * (data >>> 8).toUInt8.toNat = data.toNat := by
  have hlow : (data &&& 0xff).toNat = data.toNat % 256 :=
    (UInt16.toNat_and _ _).trans (Nat.and_two_pow_sub_one_eq_mod _ 8)
  have hhigh : (data >>> 8).toNat = data.toNat / 256 :=
    (UInt16.toNat_shiftRight _ _).trans (Nat.shiftRight_eq_div_pow _ 8)
  have hlt := data.toNat_lt
  rw [UInt16.toNat_toUInt8, UInt16.toNat_toUInt8, hlow, hhigh]
  omega

theorem pair_regwWrite {addr : UInt8} {data : UInt16} (h : (Call.regwWrite addr data).Orderly)
    (hlow : named addr ≠ econ1) (hhigh : named (addr + 1) ≠ econ1)
    (hne : named addr ≠ named (addr + 1)) : (regwWrite t addr data h d).2.pair addr = data.toNat := by
  have hregs := (perform_regwWrite d.settled t h).2
  have hfirst : (regwWrite t addr data h d).2.byte addr = (data &&& 0xff).toUInt8 := by
    refine (hregs _ hlow).trans ?_
    rw [if_neg hne, if_pos rfl]
  have hsecond : (regwWrite t addr data h d).2.byte (addr + 1) = (data >>> 8).toUInt8 :=
    (hregs _ hhigh).trans (if_pos rfl)
  rw [pair, hfirst, hsecond, bytes_of_word]

theorem reads_word (reg : UInt8) (hlow : named reg ≠ econ1) (hhigh : named (reg + 1) ≠ econ1)
    (t : Task) : Reads d (regwRead t reg) (Transmitter.regwRead (.ofNat (d.pair reg))) := by
  have hword : (UInt16.ofNat (d.pair reg)).toUInt8 = d.byte reg := by
    have hlt := (d.byte reg).toNat_lt
    rw [← UInt8.toNat_inj, UInt16.toNat_toUInt8, UInt16.toNat_ofNat', pair]
    omega
  rw [Transmitter.regwRead, hword]
  exact reads_regwRead reg hlow hhigh t

theorem readTsv_word (d : Driver) (t : Task) :
    (readTsv t d).1 =
      ((Transmitter.regwRead (.ofNat (d.pair etxnd)) + 1).toNat, tsvSize) := by
  obtain ⟨hvalue, -⟩ := reads_word etxnd (by decide) (by decide) t d (.refl d.state)
  rw [← hvalue]
  exact congrArg (·, tsvSize)
    (pair_regwWrite ⟨by decide, by decide⟩ (by decide) (by decide) (by decide))

theorem readTsv_tsvAddress {s : Transmitter} (h : s.chip.etxnd = .ofNat (d.pair etxnd)) :
    (readTsv t d).1 = (s.tsvAddress.toNat, tsvSize) := by
  rw [readTsv_word, Transmitter.tsvAddress, h]

theorem readTsv_eq (d : Driver) (t : Task) :
    (readTsv t d).1 = (d.pair etxnd % 256 + 1, tsvSize) := by
  have hend : (Transmitter.regwRead (.ofNat (d.pair etxnd))).toNat = d.pair etxnd % 256 := by
    rw [Transmitter.regwRead, UInt8.toNat_toUInt16, UInt16.toNat_toUInt8, UInt16.toNat_ofNat']
    omega
  have hsum : (Transmitter.regwRead (.ofNat (d.pair etxnd)) + 1).toNat =
      d.pair etxnd % 256 + 1 := by
    have hone : (1 : UInt16).toNat = 1 := rfl
    rw [UInt16.toNat_add, hend, hone]
    omega
  rw [readTsv_word, hsum]

end Status

/-- `regw_read` loses the high byte: the free space is right exactly while the high bytes of the
pointers cancel, and the status vector is found exactly while that of `ETXND` is zero. -/
theorem words_read_iff (d : Driver) (t : Task) (hcount : (d.byte epktcnt).toNat < 255) :
    (getFreeRxfifo t d).1 =
        freeSpace (d.pair erxst) (d.pair erxnd) (d.pair erxwrpt) (d.pair erxrdpt) ∧
      (readTsv t d).1 = (d.pair etxnd + 1, tsvSize) ↔
    HighBytesCancel (d.pair erxst) (d.pair erxnd) (d.pair erxwrpt) (d.pair erxrdpt) ∧
      d.pair etxnd < 256 := by
  have htsv : (d.pair etxnd % 256 + 1, tsvSize) = (d.pair etxnd + 1, tsvSize) ↔
      d.pair etxnd < 256 := by
    rw [Prod.mk.injEq, and_iff_left rfl]
    omega
  rw [(reads_getFreeRxfifo hcount t d (.refl d.state)).1, freeSpace_low_iff, readTsv_eq, htsv]

section Samples

def init (regs : UInt8 → UInt8) : Driver where
  state := .init regs
  settled := (Chip.bank_write_econ1 0).symm

def firstPage : Driver := init fun register =>
  if register = named erxnd then 0xFF else if register = named erxwrpt then 96 else 0

theorem firstPage_read :
    (getFreeRxfifo .irqLoop firstPage).1 =
        freeSpace (firstPage.pair erxst) (firstPage.pair erxnd) (firstPage.pair erxwrpt)
          (firstPage.pair erxrdpt) ∧
      (readTsv .irqLoop firstPage).1 = (firstPage.pair etxnd + 1, tsvSize) :=
  (words_read_iff firstPage .irqLoop (by decide +kernel)).mpr
    ⟨by unfold HighBytesCancel; decide +kernel, by decide +kernel⟩

def secondPage : Driver := init fun register =>
  if register = named erxnd then 0xFF else if register = named (erxnd + 1) then 0x19
  else if register = named (erxwrpt + 1) then 1
  else if register = named etxnd then 0x40 else if register = named (etxnd + 1) then 0x1A
  else if register = named epktcnt then 1 else 0

/-- `get_free_rxfifo` returns 255 instead of 6399, and the status vector is read at `0x41` instead
of `0x1A41`. -/
theorem secondPage_misread :
    (secondPage.byte epktcnt).toNat < 255 ∧ secondPage.pair erxnd < 8192 ∧
      (secondPage.pair erxst ≤ secondPage.pair erxwrpt ∧
        secondPage.pair erxwrpt ≤ secondPage.pair erxnd) ∧
      (secondPage.pair erxst ≤ secondPage.pair erxrdpt ∧
        secondPage.pair erxrdpt ≤ secondPage.pair erxnd) ∧
      (getFreeRxfifo .irqLoop secondPage).1 ≠
        freeSpace (secondPage.pair erxst) (secondPage.pair erxnd) (secondPage.pair erxwrpt)
          (secondPage.pair erxrdpt) ∧
      (readTsv .irqLoop secondPage).1 ≠ (secondPage.pair etxnd + 1, tsvSize) := by
  decide +kernel

end Samples

end Driver

end RadProt.Enc28j60
