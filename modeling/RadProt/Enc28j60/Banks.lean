import RadProt.Enc28j60.Registers
import RadProt.Lib.Run

namespace RadProt.Enc28j60

open RadProt.Lib

inductive Bsel
  | bsel0
  | bsel1
  deriving DecidableEq

def Bsel.mask : Bsel → UInt8
  | .bsel0 => 0x01
  | .bsel1 => 0x02

inductive Op
  | lock
  | unlock
  /-- The test of one bank bit in `set_bank`, with its transaction where it makes one. -/
  | select (addr : UInt8) (bsel : Bsel)
  | setCurrent (addr : UInt8)
  | spi (op : SpiOp) (addr data : UInt8)
  deriving DecidableEq

def setBank (addr : UInt8) : List Op :=
  if isCommon addr then []
  else [.select addr .bsel0, .select addr .bsel1, .setCurrent addr]

def regBfset (addr mask : UInt8) : List Op := setBank addr ++ [.spi .bitFieldSet addr mask]

def regBfclr (addr mask : UInt8) : List Op := setBank addr ++ [.spi .bitFieldClr addr mask]

def regbWrite (addr data : UInt8) : List Op :=
  .lock :: setBank addr ++ [.spi .writeCtrlReg addr data, .unlock]

def regwWrite (addr : UInt8) (data : UInt16) : List Op :=
  .lock :: regbWrite addr (data &&& 0xff).toUInt8 ++
    regbWrite (addr + 1) (data >>> 8).toUInt8 ++ [.unlock]

def regbRead (reg : UInt8) : List Op :=
  .lock :: setBank reg ++ [.spi .readCtrlReg reg 0, .unlock]

inductive Call
  | regbRead (reg : UInt8)
  | regbWrite (addr data : UInt8)
  | regwWrite (addr : UInt8) (data : UInt16)
  | regBfset (addr mask : UInt8)
  | regBfclr (addr mask : UInt8)
  deriving DecidableEq

def Call.ops : Call → List Op
  | .regbRead reg => Enc28j60.regbRead reg
  | .regbWrite addr data => Enc28j60.regbWrite addr data
  | .regwWrite addr data => Enc28j60.regwWrite addr data
  | .regBfset addr mask => Enc28j60.regBfset addr mask
  | .regBfclr addr mask => Enc28j60.regBfclr addr mask

inductive Task
  | irqLoop
  | tcpip
  deriving DecidableEq

def Task.other : Task → Task
  | .irqLoop => .tcpip
  | .tcpip => .irqLoop

/-- A transaction as the chip saw it: the selected bank, the register that it acted on, and what it
left there, which is what a read returns. -/
structure Access where
  task : Task
  op : SpiOp
  addr : UInt8
  bank : UInt8
  register : UInt8
  value : UInt8
  deriving DecidableEq

def Access.Right (a : Access) : Prop :=
  a.register = named a.addr ∧ (Banked a.addr → a.bank = bankOf a.addr)

instance (a : Access) : Decidable a.Right := inferInstanceAs (Decidable (_ ∧ _))

structure State where
  chip : Chip
  currentRegisterBank : UInt8
  /-- Who holds the recursive mutex, and how many times. -/
  mutex : Option (Task × Nat)
  /-- What each task still has to do of its call. -/
  todo : Task → List Op
  log : List Access

namespace State

def init (regs : UInt8 → UInt8) : State where
  chip := .write ⟨regs⟩ econ1 0
  currentRegisterBank := 0
  mutex := none
  todo := fun _ => []
  log := []

def depth (s : State) (t : Task) : Nat :=
  match s.mutex with
  | none => 0
  | some (owner, n) => if owner = t then n else 0

def Free (s : State) (t : Task) : Prop :=
  match s.mutex with
  | none => True
  | some (owner, _) => owner = t

instance (s : State) (t : Task) : Decidable (s.Free t) :=
  match h : s.mutex with
  | none => isTrue (by rw [Free, h]; trivial)
  | some (owner, _) => decidable_of_iff (owner = t) (by rw [Free, h])

def transact (s : State) (t : Task) (op : SpiOp) (addr data : UInt8) : State :=
  { s with
    chip := s.chip.transact op addr data
    log := s.log ++ [⟨t, op, addr, s.chip.bank, s.chip.selected addr, s.chip.operated op addr data⟩] }

def differs (s : State) (addr : UInt8) (bsel : Bsel) : Bool :=
  bankOf addr &&& bsel.mask != s.currentRegisterBank &&& bsel.mask

def select (s : State) (t : Task) (addr : UInt8) (bsel : Bsel) : State :=
  if s.differs addr bsel then
    if bankOf addr &&& bsel.mask != 0 then s.transact t .bitFieldSet econ1 bsel.mask
    else s.transact t .bitFieldClr econ1 bsel.mask
  else s

def opStep (s : State) (t : Task) : Op → State
  | .lock => { s with mutex := some (t, s.depth t + 1) }
  | .unlock => { s with mutex := if s.depth t ≤ 1 then none else some (t, s.depth t - 1) }
  | .select addr bsel => s.select t addr bsel
  | .setCurrent addr => { s with currentRegisterBank := bankOf addr }
  | .spi op addr data => s.transact t op addr data

end State

def Op.Enabled (s : State) (t : Task) : Op → Prop
  | .lock => s.Free t
  | .unlock => True
  | .select addr bsel => s.differs addr bsel → s.Free t
  | .setCurrent _ => True
  | .spi .. => s.Free t

instance (s : State) (t : Task) : (op : Op) → Decidable (op.Enabled s t)
  | .lock => inferInstanceAs (Decidable (s.Free t))
  | .unlock => inferInstanceAs (Decidable True)
  | .select addr bsel => inferInstanceAs (Decidable (s.differs addr bsel → s.Free t))
  | .setCurrent _ => inferInstanceAs (Decidable True)
  | .spi .. => inferInstanceAs (Decidable (s.Free t))

inductive Event
  | call (t : Task) (c : Call)
  | step (t : Task)
  /-- The chip changes a register by itself. -/
  | hardware (register value : UInt8)

def Event.Enabled (s : State) : Event → Prop
  | .call t _ => s.todo t = []
  | .step t => ∃ op ∈ (s.todo t).head?, op.Enabled s t
  | .hardware register value => register = econ1 → value &&& econ1Bsel = s.chip.bank

instance (s : State) : (e : Event) → Decidable (e.Enabled s)
  | .call t _ => inferInstanceAs (Decidable (s.todo t = []))
  | .step t => inferInstanceAs (Decidable (∃ op ∈ (s.todo t).head?, op.Enabled s t))
  | .hardware register _ => inferInstanceAs (Decidable (register = econ1 → _ = _))

def driverStep (s : State) : Event → State
  | .call t c => { s with todo := Function.update s.todo t c.ops }
  | .step t =>
    match s.todo t with
    | [] => s
    | op :: ops => { s.opStep t op with todo := Function.update s.todo t ops }
  | .hardware register value => { s with chip := s.chip.write register value }

def Step (s : State) (e : Event) (t : State) : Prop := e.Enabled s ∧ t = driverStep s e

def Idle (s : State) : Prop := ∀ t, s.todo t = []

instance (s : State) : Decidable (Idle s) :=
  decidable_of_iff (s.todo .irqLoop = [] ∧ s.todo .tcpip = [])
    ⟨fun h t => t.casesOn h.1 h.2, fun h => ⟨h _, h _⟩⟩

end RadProt.Enc28j60
