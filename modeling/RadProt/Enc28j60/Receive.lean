import RadProt.Enc28j60.Banks

namespace RadProt.Enc28j60

open RadProt.Lib

def rxstartInit : UInt16 := 0x0
def rxendInit : UInt16 := 0x19FF

def erxrdptWorkaround (nextPacketPtr start stop : UInt16) : UInt16 :=
  let previous : Int := nextPacketPtr.toNat - 1
  if previous < start.toNat ∨ previous > stop.toNat then stop else nextPacketPtr - 1

structure PacketMetaInfo where
  nextPacketPointer : UInt16
  byteCount : UInt16
  receivedOk : Bool
  deriving DecidableEq

inductive Command
  | reg (call : Call)
  | readBuff (length : Nat)
  deriving DecidableEq

structure Receiver where
  nextPacketPointer : UInt16
  commands : List Command

namespace Receiver

def reg (r : Receiver) (call : Call) : Receiver := { r with commands := r.commands ++ [.reg call] }

def readBuff (r : Receiver) (length : Nat) : Receiver :=
  { r with commands := r.commands ++ [.readBuff length] }

def rxfifoInit (r : Receiver) (start stop : UInt16) : Receiver :=
  if start > 0x1FFF ∨ stop > 0x1FFF ∨ start > stop then r
  else
    let r := { r with nextPacketPointer := start }
    let r := r.reg (.regwWrite erxst rxstartInit)
    let r := r.reg (.regwWrite erxrdpt (erxrdptWorkaround r.nextPacketPointer start stop))
    r.reg (.regwWrite erxnd stop)

def resetRxLogic (r : Receiver) : Receiver :=
  let r := r.reg (.regBfclr econ1 econ1Rxen)
  let r := r.reg (.regBfset econ1 econ1Rxrst)
  let r := r.reg (.regBfclr econ1 econ1Rxrst)
  let r := r.rxfifoInit rxstartInit rxendInit
  let r := r.reg (.regBfclr eir eirRxerif)
  r.reg (.regBfset econ1 econ1Rxen)

/-- `dst` is the length to read, where there is a buffer for the frame. -/
def getIncomingPacket (r : Receiver) (info : PacketMetaInfo) (dst : Option Nat) : Receiver :=
  if info.nextPacketPointer > rxendInit then r.resetRxLogic
  else
    let r := { r with nextPacketPointer := info.nextPacketPointer }
    let r := r.reg (.regwWrite erxrdpt info.nextPacketPointer)
    let r := match dst with
      | some length => r.readBuff length
      | none => r
    r.reg (.regBfset econ2 econ2Pktdec)

def getIncomingPacketInfo (r : Receiver) : Receiver :=
  (r.reg (.regwWrite erdpt r.nextPacketPointer)).readBuff 6

def rxTurn (r : Receiver) (info : PacketMetaInfo) (allocated : Bool) : Receiver :=
  let r := r.getIncomingPacketInfo
  if info.receivedOk then
    if allocated then r.getIncomingPacket info (some info.byteCount.toNat) else r
  else r.getIncomingPacket info none

def init : Receiver := rxfifoInit ⟨0, []⟩ rxstartInit rxendInit

end Receiver

def Command.erxrdptWrite : Command → Option UInt16
  | .reg (.regwWrite addr data) => if addr = erxrdpt then some data else none
  | _ => none

def Receiver.erxrdptWrites (r : Receiver) : List UInt16 := r.commands.filterMap (·.erxrdptWrite)

/-- What the errata ask of a value of `ERXRDPT`. -/
def OddInRing (value : UInt16) : Prop :=
  value.toNat % 2 = 1 ∧ rxstartInit ≤ value ∧ value ≤ rxendInit

instance (value : UInt16) : Decidable (OddInRing value) := inferInstanceAs (Decidable (_ ∧ _))

inductive RxEvent
  | frame (info : PacketMetaInfo) (allocated : Bool)
  | reset

namespace RxEvent

def Enabled : RxEvent → Prop
  | .frame info _ => info.nextPacketPointer.toNat % 2 = 0 ∧ info.nextPacketPointer ≤ rxendInit
  | .reset => True

instance : (e : RxEvent) → Decidable e.Enabled
  | .frame .. => inferInstanceAs (Decidable (_ ∧ _))
  | .reset => inferInstanceAs (Decidable True)

def TakesFrame : RxEvent → Prop
  | .frame info allocated => info.receivedOk = true → allocated = true
  | .reset => False

instance : (e : RxEvent) → Decidable e.TakesFrame
  | .frame .. => inferInstanceAs (Decidable (_ → _))
  | .reset => inferInstanceAs (Decidable False)

end RxEvent

namespace Receiver

def rxStep (r : Receiver) : RxEvent → Receiver
  | .frame info allocated => r.rxTurn info allocated
  | .reset => r.resetRxLogic

def Step (r : Receiver) (e : RxEvent) (r' : Receiver) : Prop := e.Enabled ∧ r' = r.rxStep e

variable {r r' : Receiver} {e : RxEvent} {es : List RxEvent} {info : PacketMetaInfo}

@[simp]
theorem nextPacketPointer_reg (r : Receiver) (call : Call) :
    (r.reg call).nextPacketPointer = r.nextPacketPointer := rfl

@[simp]
theorem erxrdptWrites_reg (r : Receiver) (call : Call) :
    (r.reg call).erxrdptWrites = r.erxrdptWrites ++ (Command.erxrdptWrite (.reg call)).toList := by
  rw [erxrdptWrites, reg, List.filterMap_append, erxrdptWrites]
  congr 1

@[simp]
theorem erxrdptWrites_readBuff (r : Receiver) (length : Nat) :
    (r.readBuff length).erxrdptWrites = r.erxrdptWrites := by
  simp [erxrdptWrites, readBuff, Command.erxrdptWrite]

@[simp]
theorem erxrdptWrites_nextPacketPointer (r : Receiver) (next : UInt16) :
    erxrdptWrites { r with nextPacketPointer := next } = r.erxrdptWrites := rfl

@[simp]
theorem erxrdptWrites_rxfifoInit (r : Receiver) :
    (r.rxfifoInit rxstartInit rxendInit).erxrdptWrites = r.erxrdptWrites ++ [rxendInit] := by
  have hworkaround : erxrdptWorkaround rxstartInit rxstartInit rxendInit = rxendInit := by decide
  rw [rxfifoInit, if_neg (by decide)]
  simp [Command.erxrdptWrite, hworkaround, erxst, erxnd, erxrdpt]

@[simp]
theorem erxrdptWrites_resetRxLogic (r : Receiver) :
    r.resetRxLogic.erxrdptWrites = r.erxrdptWrites ++ [rxendInit] := by
  simp [resetRxLogic, Command.erxrdptWrite]

@[simp]
theorem erxrdptWrites_getIncomingPacketInfo (r : Receiver) :
    r.getIncomingPacketInfo.erxrdptWrites = r.erxrdptWrites := by
  simp [getIncomingPacketInfo, Command.erxrdptWrite, erxrdpt, erdpt]

theorem erxrdptWrites_getIncomingPacket (h : info.nextPacketPointer ≤ rxendInit)
    (dst : Option Nat) : (r.getIncomingPacket info dst).erxrdptWrites =
      r.erxrdptWrites ++ [info.nextPacketPointer] := by
  rw [getIncomingPacket, if_neg (UInt16.not_lt.mpr h)]
  cases dst <;> simp [Command.erxrdptWrite]

theorem erxrdptWrites_rxTurn (h : info.nextPacketPointer ≤ rxendInit) {allocated : Bool}
    (htakes : (RxEvent.frame info allocated).TakesFrame) :
    (r.rxTurn info allocated).erxrdptWrites = r.erxrdptWrites ++ [info.nextPacketPointer] := by
  rw [rxTurn]
  split
  next hok =>
    rw [if_pos (htakes hok), erxrdptWrites_getIncomingPacket h,
      erxrdptWrites_getIncomingPacketInfo]
  next =>
    rw [erxrdptWrites_getIncomingPacket h, erxrdptWrites_getIncomingPacketInfo]

theorem erxrdptWrites_step_left (hstep : Step r e r') (h : ¬ e.TakesFrame) :
    ∀ value ∈ r'.erxrdptWrites, value ∈ r.erxrdptWrites ∨ value = rxendInit := by
  obtain ⟨-, rfl⟩ := hstep
  intro value hvalue
  cases e with
  | frame info allocated =>
    obtain ⟨hok, hnull⟩ := Classical.not_imp.mp h
    rw [rxStep, rxTurn, if_pos hok, if_neg hnull, erxrdptWrites_getIncomingPacketInfo] at hvalue
    exact .inl hvalue
  | reset =>
    rw [rxStep, erxrdptWrites_resetRxLogic] at hvalue
    exact (List.mem_append.mp hvalue).imp_right List.mem_singleton.mp

theorem erxrdptWrites_subset (hstep : Step r e r') : r.erxrdptWrites ⊆ r'.erxrdptWrites := by
  obtain ⟨henabled, rfl⟩ := hstep
  cases e with
  | frame info allocated =>
    by_cases htakes : (RxEvent.frame info allocated).TakesFrame
    · rw [rxStep, erxrdptWrites_rxTurn henabled.2 htakes]
      exact List.subset_append_left _ _
    · obtain ⟨hok, hnull⟩ := Classical.not_imp.mp htakes
      rw [rxStep, rxTurn, if_pos hok, if_neg hnull, erxrdptWrites_getIncomingPacketInfo]
      exact List.Subset.refl _
  | reset =>
    rw [rxStep, erxrdptWrites_resetRxLogic]
    exact List.subset_append_left _ _

def Violated (r : Receiver) : Prop := ∃ value ∈ r.erxrdptWrites, ¬ OddInRing value

theorem Violated.step (h : Violated r) (hstep : Step r e r') : Violated r' := by
  obtain ⟨value, hmem, hvalue⟩ := h
  exact ⟨value, erxrdptWrites_subset hstep hmem, hvalue⟩

theorem violated_of_takesFrame (hstep : Step r e r') (h : e.TakesFrame) : Violated r' := by
  obtain ⟨henabled, rfl⟩ := hstep
  cases e with
  | frame info allocated =>
    refine ⟨info.nextPacketPointer, ?_, fun hodd => ?_⟩
    · rw [rxStep, erxrdptWrites_rxTurn henabled.2 h]
      exact List.mem_append_right _ List.mem_cons_self
    · exact absurd (henabled.1.symm.trans hodd.1) Nat.zero_ne_one
  | reset => exact h.elim

theorem oddInRing_rxendInit : OddInRing rxendInit := by decide

/-- The errata are kept exactly by the runs that take no frame out of the ring. -/
theorem oddInRing_iff (hrun : Run Step init es r) :
    (∀ value ∈ r.erxrdptWrites, OddInRing value) ↔ ∀ e ∈ es, ¬ e.TakesFrame := by
  constructor
  · intro hodd e he htakes
    obtain ⟨value, hmem, hvalue⟩ : Violated r :=
      hrun.latched (G := fun e => ¬ e.TakesFrame) (fun _ => True) Violated (fun _ _ _ _ _ => trivial)
        (fun _ _ _ _ h hstep => h.step hstep)
        (fun _ _ _ _ h hstep => violated_of_takesFrame hstep (Classical.not_not.mp h)) trivial
        (.inr ⟨e, he, not_not_intro htakes⟩)
    exact hvalue (hodd value hmem)
  · intro hleft
    have hinit : ∀ value ∈ init.erxrdptWrites, OddInRing value := by
      intro value hvalue
      obtain rfl : value = rxendInit := List.mem_singleton.mp hvalue
      exact oddInRing_rxendInit
    refine (hrun.guarded hleft).invariant (fun r => ∀ value ∈ r.erxrdptWrites, OddInRing value)
      ?_ hinit
    rintro s e t hodd ⟨hleft, hstep⟩ value hvalue
    obtain hmem | rfl := erxrdptWrites_step_left hstep hleft value hvalue
    · exact hodd value hmem
    · exact oddInRing_rxendInit

def firstFrame (allocated : Bool) : RxEvent :=
  .frame { nextPacketPointer := 0x46, byteCount := 64, receivedOk := true } allocated

/-- The first frame moves `ERXRDPT` to 0x46. -/
theorem firstFrame_even :
    Step init (firstFrame true) (init.rxStep (firstFrame true)) ∧
      (init.rxStep (firstFrame true)).erxrdptWrites = [0x19FF, 0x46] ∧
      ¬ ∀ value ∈ (init.rxStep (firstFrame true)).erxrdptWrites, OddInRing value :=
  ⟨⟨by decide, rfl⟩, by decide, fun h => absurd (h 0x46 (by decide)) (by decide)⟩

theorem reset_odd :
    ∃ r, Run Step init [.reset, firstFrame false] r ∧
      ∀ value ∈ r.erxrdptWrites, OddInRing value := by
  have hrun : Run Step init [.reset, firstFrame false]
      ([.reset, firstFrame false].foldl rxStep init) :=
    .of_feasible (by decide : Feasible (fun _ e => RxEvent.Enabled e) rxStep _ _)
  refine ⟨_, hrun, (oddInRing_iff hrun).mpr fun e he => ?_⟩
  rcases List.mem_cons.mp he with rfl | he
  · exact id
  · rw [List.mem_singleton.mp he]
    decide

end Receiver

end RadProt.Enc28j60
