import Mathlib.Logic.Function.Basic
import RadProt.Lib.Bits

namespace RadProt.Enc28j60

open RadProt.Lib

def addrMask : UInt8 := 0x1F
def bankMask : UInt8 := 0x60
def eie : UInt8 := 0x1B
def eir : UInt8 := 0x1C
def estat : UInt8 := 0x1D
def econ2 : UInt8 := 0x1E
def econ1 : UInt8 := 0x1F
def erdpt : UInt8 := 0x00
def erxst : UInt8 := 0x08
def erxnd : UInt8 := 0x0A
def erxrdpt : UInt8 := 0x0C
def epktcnt : UInt8 := 0x19 ||| 0x20
def macon1 : UInt8 := 0x00 ||| 0x40 ||| 0x80

def econ1Bsel : UInt8 := 3
def econ1Rxrst : UInt8 := 0x40
def econ1Rxen : UInt8 := 0x04
def econ2Pktdec : UInt8 := 0x40
def eirRxerif : UInt8 := 0x01

def bankOf (addr : UInt8) : UInt8 := (addr &&& bankMask) >>> 5

def isCommon (addr : UInt8) : Bool := eie ≤ addr && addr ≤ econ1

/-- The register that answers to the five address bits of `addr` while `bank` is selected. -/
def registerIn (bank addr : UInt8) : UInt8 :=
  let address := addr &&& addrMask
  if eie ≤ address then address else bank <<< 5 ||| address

def named (addr : UInt8) : UInt8 := registerIn (bankOf addr) addr

def Banked (addr : UInt8) : Prop := addr &&& addrMask < eie

instance (addr : UInt8) : Decidable (Banked addr) := inferInstanceAs (Decidable (_ < _))

inductive SpiOp
  | readCtrlReg
  | writeCtrlReg
  | bitFieldSet
  | bitFieldClr
  deriving DecidableEq

/-- The control registers, a banked one at its bank and address, a common one at its address. -/
structure Chip where
  regs : UInt8 → UInt8

namespace Chip

def bank (c : Chip) : UInt8 := c.regs econ1 &&& econ1Bsel

def write (c : Chip) (register value : UInt8) : Chip where
  regs := Function.update c.regs register value

def selected (c : Chip) (addr : UInt8) : UInt8 := registerIn c.bank addr

def operated (c : Chip) (op : SpiOp) (addr data : UInt8) : UInt8 :=
  let value := c.regs (c.selected addr)
  match op with
  | .readCtrlReg => value
  | .writeCtrlReg => data
  | .bitFieldSet => value ||| data
  | .bitFieldClr => value &&& ~~~data

def transact (c : Chip) (op : SpiOp) (addr data : UInt8) : Chip :=
  c.write (c.selected addr) (c.operated op addr data)

variable {c : Chip}

@[simp]
theorem bank_write_econ1 (value : UInt8) : (c.write econ1 value).bank = value &&& econ1Bsel := by
  simp [bank, write]

theorem bank_write_ne {register : UInt8} (h : register ≠ econ1) (value : UInt8) :
    (c.write register value).bank = c.bank := by
  simp only [bank, write, Function.update_of_ne h.symm]

theorem selected_econ1 : c.selected econ1 = econ1 := rfl

end Chip

theorem registerIn_common {addr : UInt8} (h : ¬ Banked addr) (bank bank' : UInt8) :
    registerIn bank addr = registerIn bank' addr := by
  have hle : eie ≤ addr &&& addrMask := UInt8.not_lt.mp h
  rw [registerIn, registerIn, if_pos hle, if_pos hle]

theorem and_addrMask_and (addr : UInt8) : addr &&& addrMask &&& addrMask = addr &&& addrMask := by
  rw [UInt8.and_assoc, UInt8.and_self]

theorem shift_and_addrMask (bank : UInt8) : bank <<< 5 &&& addrMask = 0 :=
  forall_byte (P := fun bank => bank <<< 5 &&& addrMask = 0) (by decide +kernel) bank

theorem registerIn_and_addrMask (bank addr : UInt8) :
    registerIn bank addr &&& addrMask = addr &&& addrMask := by
  rw [registerIn]
  split
  · exact and_addrMask_and addr
  · rw [or_and_distrib_right, shift_and_addrMask, and_addrMask_and, UInt8.zero_or]

theorem registerIn_ne_econ1 {addr : UInt8} (h : addr &&& addrMask ≠ econ1) (bank : UInt8) :
    registerIn bank addr ≠ econ1 := by
  intro heq
  apply h
  rw [← registerIn_and_addrMask bank addr, heq]
  rfl

theorem and_addrMask_ne_econ1 {addr : UInt8} (hcommon : isCommon addr = true) (h : addr ≠ econ1) :
    addr &&& addrMask ≠ econ1 := by
  have hne : ∀ addr : UInt8, isCommon addr = true → addr ≠ econ1 → addr &&& addrMask ≠ econ1 :=
    forall_byte (P := fun addr => isCommon addr = true → addr ≠ econ1 → addr &&& addrMask ≠ econ1)
      (by decide +kernel)
  exact hne addr hcommon h

theorem or_and_econ1Bsel {mask : UInt8} (h : mask &&& econ1Bsel = 0) (value : UInt8) :
    (value ||| mask) &&& econ1Bsel = value &&& econ1Bsel := by
  rw [or_and_distrib_right, h, UInt8.or_zero]

theorem clear_and_econ1Bsel {mask : UInt8} (h : mask &&& econ1Bsel = 0) (value : UInt8) :
    (value &&& ~~~mask) &&& econ1Bsel = value &&& econ1Bsel := by
  have hmask : ∀ mask : UInt8, mask &&& econ1Bsel = 0 → ~~~mask &&& econ1Bsel = econ1Bsel :=
    forall_byte (P := fun mask => mask &&& econ1Bsel = 0 → ~~~mask &&& econ1Bsel = econ1Bsel)
      (by decide +kernel)
  rw [UInt8.and_assoc, hmask mask h]

namespace Chip

variable {c : Chip} {addr : UInt8}

theorem bank_transact_ne (h : addr &&& addrMask ≠ econ1) (op : SpiOp) (data : UInt8) :
    (c.transact op addr data).bank = c.bank :=
  bank_write_ne (registerIn_ne_econ1 h _) _

theorem bank_transact_read (addr data : UInt8) :
    (c.transact .readCtrlReg addr data).bank = c.bank := by
  rw [transact, operated, write, Function.update_eq_self]

theorem bank_transact_bitField {op : SpiOp} (hop : op = .bitFieldSet ∨ op = .bitFieldClr)
    {mask : UInt8} (hcommon : isCommon addr = true)
    (hmask : addr = econ1 → mask &&& econ1Bsel = 0) : (c.transact op addr mask).bank = c.bank := by
  by_cases haddr : addr = econ1
  · have hbits := hmask haddr
    rw [haddr, transact, selected_econ1, bank_write_econ1]
    obtain rfl | rfl := hop
    · exact or_and_econ1Bsel hbits _
    · exact clear_and_econ1Bsel hbits _
  · exact bank_transact_ne (and_addrMask_ne_econ1 hcommon haddr) op mask

end Chip

end RadProt.Enc28j60
