import RadProt.Enc28j60.Receive
import RadProt.Lib.Ring

namespace RadProt.Enc28j60

open RadProt.Lib

def rxSize : Nat := 6656

/-- A frame that the chip keeps, with the two bytes of its status vector. -/
structure Frame where
  data : List UInt8
  statusLow : UInt8
  statusHigh : UInt8
  deriving DecidableEq

namespace Frame

def receivedOk (f : Frame) : Bool := f.statusLow &&& 0x80 != 0

def size (f : Frame) : Nat :=
  let length := 6 + f.data.length
  length + length % 2

def header (f : Frame) (next : Nat) : List UInt8 :=
  [.ofNat next, .ofNat (next / 256), .ofNat f.data.length, .ofNat (f.data.length / 256),
    f.statusLow, f.statusHigh]

def info (f : Frame) (next : Nat) : PacketMetaInfo where
  nextPacketPointer := .ofNat next
  byteCount := .ofNat f.data.length
  receivedOk := f.receivedOk

end Frame

def le16 (low high : UInt8) : UInt16 := .ofNat (low.toNat + 256 * high.toNat)

def PacketMetaInfo.ofBytes (bytes : List UInt8) : PacketMetaInfo where
  nextPacketPointer := le16 (bytes.getD 0 0) (bytes.getD 1 0)
  byteCount := le16 (bytes.getD 2 0) (bytes.getD 3 0)
  receivedOk := bytes.getD 4 0 &&& 0x80 != 0

def Command.isPktdec : Command → Bool
  | .reg (.regBfset addr mask) => addr == econ2 && mask &&& econ2Pktdec != 0
  | _ => false

structure RxChip where
  mem : Nat → UInt8
  erdpt : Nat
  erxrdpt : Nat
  erxwrpt : Nat
  epktcnt : Nat

namespace RxChip

def free (c : RxChip) : Nat := (c.erxrdpt + rxSize - c.erxwrpt - 1) % rxSize

def write (c : RxChip) (bytes : List UInt8) : RxChip :=
  { c with mem := ringWrite rxSize c.mem c.erxwrpt bytes }

def store (c : RxChip) (f : Frame) : RxChip :=
  let next := (c.erxwrpt + f.size) % rxSize
  { c.write (f.header next ++ f.data) with erxwrpt := next, epktcnt := c.epktcnt + 1 }

def read (c : RxChip) (length : Nat) : List UInt8 := ringRead rxSize c.mem c.erdpt length

def regwWrite (c : RxChip) (addr : UInt8) (data : UInt16) : RxChip :=
  if addr = Enc28j60.erdpt then { c with erdpt := data.toNat }
  else if addr = Enc28j60.erxrdpt then { c with erxrdpt := data.toNat }
  else if addr = erxst then { c with erxwrpt := data.toNat }
  else c

def exec (c : RxChip) : Command → RxChip
  | .reg (.regwWrite addr data) => c.regwWrite addr data
  | .reg call =>
    if (Command.reg call).isPktdec then { c with epktcnt := c.epktcnt - 1 } else c
  | .readBuff length => { c with erdpt := (c.erdpt + length) % rxSize }

end RxChip

inductive Pc
  | idle
  /-- At the test of the loop. -/
  | loop (pkCounter : Nat)
  /-- In `get_incoming_packet_info`, with `ERDPT` set. -/
  | info (pkCounter : Nat)
  | alloc (pkCounter : Nat) (info : PacketMetaInfo)
  /-- In `get_incoming_packet`, with the commands that are still to be given. -/
  | packet (pkCounter : Nat) (info : PacketMetaInfo) (dst : Option (List UInt8))
    (commands : List Command)
  | input (pkCounter : Nat) (payload : List UInt8)
  deriving DecidableEq

def Pc.waits : Pc → Bool
  | .idle => true
  | .alloc .. => true
  | _ => false

/-- `rx_interrupt` and the chip, with the frames that were stored, the number of those that the
driver moved past, of its `PKTDEC` pulses, and what it handed to `netif.input`. -/
structure Reception where
  chip : RxChip
  nextPacketPointer : UInt16
  pc : Pc
  stored : List Frame
  moved : Nat
  pulses : Nat
  delivered : List (List UInt8)

namespace Reception

def init (mem : Nat → UInt8) : Reception where
  chip := Receiver.init.commands.foldl RxChip.exec ⟨mem, 0, 0, 0, 0⟩
  nextPacketPointer := Receiver.init.nextPacketPointer
  pc := .idle
  stored := []
  moved := 0
  pulses := 0
  delivered := []

def getIncomingPacket (s : Reception) (pkCounter : Nat) (info : PacketMetaInfo)
    (dst : Option (List UInt8)) : Reception :=
  let r := Receiver.getIncomingPacket ⟨s.nextPacketPointer, []⟩ info
    (dst.map fun _ => info.byteCount.toNat)
  { s with
    nextPacketPointer := r.nextPacketPointer
    pc := .packet pkCounter info dst r.commands
    moved := if info.nextPacketPointer > rxendInit then s.moved else s.moved + 1 }

/-- One command of `get_incoming_packet`. A `read_buff` is one step: the chip writes before it or
after it. -/
def command (s : Reception) (pkCounter : Nat) (info : PacketMetaInfo) (dst : Option (List UInt8))
    (c : Command) (commands : List Command) : Reception :=
  let dst := match c with
    | .readBuff length => some (s.chip.read length)
    | .reg _ => dst
  { s with
    chip := s.chip.exec c
    pc := .packet pkCounter info dst commands
    pulses := if c.isPktdec then s.pulses + 1 else s.pulses }

def driverStep (s : Reception) : Reception :=
  match s.pc with
  | .idle => s
  | .loop 0 => { s with pc := .idle }
  | .loop (pkCounter + 1) =>
    { s with
      chip := s.chip.exec (.reg (.regwWrite erdpt s.nextPacketPointer))
      pc := .info pkCounter }
  | .info pkCounter =>
    let info := PacketMetaInfo.ofBytes (s.chip.read 6)
    let s := { s with chip := s.chip.exec (.readBuff 6) }
    if info.receivedOk then { s with pc := .alloc pkCounter info }
    else s.getIncomingPacket pkCounter info none
  | .alloc .. => s
  | .packet pkCounter info dst (c :: commands) => s.command pkCounter info dst c commands
  | .packet pkCounter _ none [] => { s with pc := .loop pkCounter }
  | .packet pkCounter _ (some payload) [] => { s with pc := .input pkCounter payload }
  | .input pkCounter payload =>
    { s with delivered := s.delivered ++ [payload], pc := .loop pkCounter }

inductive Event
  /-- The interrupt task calls `rx_interrupt`. -/
  | interrupt
  | driver
  /-- `pbuf_alloc` returns. -/
  | alloc (buffer : Option (List UInt8))
  /-- The bytes of a frame come in, which may be dropped later. -/
  | receive (bytes : List UInt8)
  | store (f : Frame)

def Allocates (buffer : Option (List UInt8)) : Pc → Prop
  | .alloc _ info => ∀ b ∈ buffer, b.length = info.byteCount.toNat
  | _ => False

instance (buffer : Option (List UInt8)) : (pc : Pc) → Decidable (Allocates buffer pc)
  | .alloc .. => inferInstanceAs (Decidable (∀ b ∈ buffer, _ = _))
  | .idle | .loop _ | .info _ | .packet .. | .input .. => inferInstanceAs (Decidable False)

def Event.Enabled (s : Reception) : Event → Prop
  | .interrupt => s.pc = .idle
  | .driver => s.pc.waits = false
  | .alloc buffer => Allocates buffer s.pc
  | .receive bytes => bytes.length ≤ s.chip.free
  | .store f => f.size ≤ s.chip.free ∧ s.chip.epktcnt < 255

instance (s : Reception) : (e : Event) → Decidable (e.Enabled s)
  | .interrupt => inferInstanceAs (Decidable (_ = _))
  | .driver => inferInstanceAs (Decidable (_ = _))
  | .alloc buffer => inferInstanceAs (Decidable (Allocates buffer s.pc))
  | .receive _ => inferInstanceAs (Decidable (_ ≤ _))
  | .store _ => inferInstanceAs (Decidable (_ ∧ _))

def allocStep (s : Reception) (buffer : Option (List UInt8)) : Reception :=
  match s.pc, buffer with
  | .alloc pkCounter _, none => { s with pc := .loop pkCounter }
  | .alloc pkCounter info, some b => s.getIncomingPacket pkCounter info (some b)
  | _, _ => s

def receptionStep (s : Reception) : Event → Reception
  | .interrupt => { s with pc := .loop s.chip.epktcnt }
  | .driver => s.driverStep
  | .alloc buffer => s.allocStep buffer
  | .receive bytes => { s with chip := s.chip.write bytes }
  | .store f => { s with chip := s.chip.store f, stored := s.stored ++ [f] }

def Step (s : Reception) (e : Event) (t : Reception) : Prop :=
  e.Enabled s ∧ t = s.receptionStep e

end Reception

end RadProt.Enc28j60
