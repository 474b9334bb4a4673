import RadProt.Enc28j60.Stored
import RadProt.Lib.Run

namespace RadProt.Enc28j60

open RadProt.Lib

def okData (frames : List Frame) : List (List UInt8) :=
  (frames.filter (·.receivedOk)).map (·.data)

theorem okData_append (frames more : List Frame) :
    okData (frames ++ more) = okData frames ++ okData more := by
  rw [okData, List.filter_append, List.map_append, okData, okData]

def Frame.payload (f : Frame) : Option (List UInt8) := if f.receivedOk then some f.data else none

theorem okData_take_succ {frames : List Frame} {k : Nat} {f : Frame} (h : frames[k]? = some f) :
    okData (frames.take (k + 1)) = okData (frames.take k) ++ f.payload.toList := by
  rw [List.take_add_one, okData_append, h, Option.toList_some]
  congr 1
  cases hok : f.receivedOk <;> simp [okData, Frame.payload, hok]

def Command.toRead : Command → Option Nat
  | .readBuff length => some length
  | .reg _ => none

def Pc.toRead : Pc → Option Nat
  | .packet _ _ _ commands => commands.head?.bind Command.toRead
  | _ => none

namespace Reception

/-- No write of the chip changes a byte of the frame that is about to be read. -/
def Spared (s : Reception) : Event → Prop
  | .receive bytes =>
    ∀ length ∈ s.pc.toRead, (s.chip.write bytes).read length = s.chip.read length
  | .store f => ∀ length ∈ s.pc.toRead, (s.chip.store f).read length = s.chip.read length
  | _ => True

instance (s : Reception) : (e : Event) → Decidable (Spared s e)
  | .receive _ => inferInstanceAs (Decidable (∀ length ∈ s.pc.toRead, _ = _))
  | .store _ => inferInstanceAs (Decidable (∀ length ∈ s.pc.toRead, _ = _))
  | .interrupt | .driver | .alloc _ => inferInstanceAs (Decidable True)

/-- How far the driver is with the frames: its calls of `ERXRDPT`, of `PKTDEC` and of `netif.input`
for the frames before `released`, `pulsed` and `handed`. -/
structure Ledger (s : Reception) (released pulsed handed : Nat) : Prop where
  moved_le : s.moved ≤ s.stored.length
  released_le : released ≤ s.moved
  handed_le : handed ≤ s.moved
  pointer : s.nextPacketPointer.toNat = extent (s.stored.take s.moved) % rxSize
  stored : Stored s.chip (extent (s.stored.take released)) (s.stored.drop released)
  counter : s.chip.epktcnt + s.pulses = s.stored.length
  pulses : s.pulses = pulsed
  delivered : s.delivered = okData (s.stored.take handed)

def pktdec : Command := .reg (.regBfset econ2 econ2Pktdec)

inductive Packet (s : Reception) (k : Nat) (f : Frame) :
    Option (List UInt8) → List Command → Prop
  | release {dst} : Ledger s k k k → s.chip.erdpt = (extent (s.stored.take k) + 6) % rxSize →
      (f.receivedOk = false → dst = none) →
      Packet s k f dst (.reg (.regwWrite erxrdpt s.nextPacketPointer) ::
        (if f.receivedOk then [.readBuff f.data.length, pktdec] else [pktdec]))
  | read {dst} : Ledger s (k + 1) k k → f.receivedOk = true →
      s.chip.read f.data.length = f.data → Packet s k f dst [.readBuff f.data.length, pktdec]
  | pulse : Ledger s (k + 1) k k → Packet s k f f.payload [pktdec]
  | done : Ledger s (k + 1) (k + 1) k → Packet s k f f.payload []

structure InHand (s : Reception) (k : Nat) (f : Frame) (pkCounter : Nat) : Prop where
  moved : s.moved = k + 1
  frame : s.stored[k]? = some f
  left : s.moved + pkCounter ≤ s.stored.length

def Phase (s : Reception) : Pc → Prop
  | .idle => Ledger s s.moved s.moved s.moved
  | .loop pkCounter =>
    Ledger s s.moved s.moved s.moved ∧ s.moved + pkCounter ≤ s.stored.length
  | .info pkCounter =>
    Ledger s s.moved s.moved s.moved ∧ s.moved + pkCounter < s.stored.length ∧
      s.chip.erdpt = s.nextPacketPointer.toNat
  | .alloc pkCounter info =>
    Ledger s s.moved s.moved s.moved ∧ s.moved + pkCounter < s.stored.length ∧
      s.chip.erdpt = (extent (s.stored.take s.moved) + 6) % rxSize ∧
      ∃ f, s.stored[s.moved]? = some f ∧ f.receivedOk = true ∧
        info = f.info (extent (s.stored.take (s.moved + 1)) % rxSize)
  | .packet pkCounter _ dst commands =>
    ∃ k f, InHand s k f pkCounter ∧ Packet s k f dst commands
  | .input pkCounter payload =>
    ∃ k f, InHand s k f pkCounter ∧ Ledger s (k + 1) (k + 1) k ∧ f.payload = some payload

variable {s s' : Reception} {released pulsed handed k pkCounter : Nat} {f : Frame}
  {more : List Frame} {dst : Option (List UInt8)} {commands : List Command}

theorem Ledger.setPc (h : Ledger s released pulsed handed) (pc : Pc) :
    Ledger { s with pc } released pulsed handed :=
  ⟨h.moved_le, h.released_le, h.handed_le, h.pointer, h.stored, h.counter, h.pulses, h.delivered⟩

theorem Ledger.setErdpt (h : Ledger s released pulsed handed) (p : Nat) (pc : Pc) :
    Ledger { s with chip := { s.chip with erdpt := p }, pc } released pulsed handed :=
  ⟨h.moved_le, h.released_le, h.handed_le, h.pointer,
    ⟨h.stored.holds, h.stored.erxwrpt, h.stored.room⟩, h.counter, h.pulses, h.delivered⟩

structure Arrival (s s' : Reception) (more : List Frame) : Prop where
  pc : s'.pc = s.pc
  nextPacketPointer : s'.nextPacketPointer = s.nextPacketPointer
  moved : s'.moved = s.moved
  pulses : s'.pulses = s.pulses
  delivered : s'.delivered = s.delivered
  erdpt : s'.chip.erdpt = s.chip.erdpt
  stored : s'.stored = s.stored ++ more
  counter : s'.chip.epktcnt = s.chip.epktcnt + more.length
  keeps : ∀ p frames, Stored s.chip p frames → Stored s'.chip p (frames ++ more)

theorem Arrival.receive {bytes : List UInt8} (h : bytes.length ≤ s.chip.free) :
    Arrival s (s.receptionStep (.receive bytes)) [] where
  pc := rfl
  nextPacketPointer := rfl
  moved := rfl
  pulses := rfl
  delivered := rfl
  erdpt := rfl
  stored := (List.append_nil _).symm
  counter := rfl
  keeps := fun p frames hstored => by
    rw [List.append_nil]
    exact hstored.write h

theorem Arrival.store (h : f.size ≤ s.chip.free) :
    Arrival s (s.receptionStep (.store f)) [f] where
  pc := rfl
  nextPacketPointer := rfl
  moved := rfl
  pulses := rfl
  delivered := rfl
  erdpt := rfl
  stored := rfl
  counter := rfl
  keeps := fun _ _ hstored => hstored.store h

theorem Arrival.take (h : Arrival s s' more) (hk : k ≤ s.stored.length) :
    s'.stored.take k = s.stored.take k := by
  rw [h.stored, List.take_append_of_le_length hk]

theorem Arrival.getElem? (h : Arrival s s' more) (hf : s.stored[k]? = some f) :
    s'.stored[k]? = some f := by
  obtain ⟨hk, -⟩ := List.getElem?_eq_some_iff.mp hf
  rw [h.stored, List.getElem?_append_left hk, hf]

theorem Arrival.length (h : Arrival s s' more) :
    s'.stored.length = s.stored.length + more.length := by
  rw [h.stored, List.length_append]

theorem Ledger.arrival (h : Ledger s released pulsed handed) (ha : Arrival s s' more) :
    Ledger s' released pulsed handed where
  moved_le := by
    rw [ha.moved, ha.length]
    exact Nat.le_add_right_of_le h.moved_le
  released_le := by
    rw [ha.moved]
    exact h.released_le
  handed_le := by
    rw [ha.moved]
    exact h.handed_le
  pointer := by
    rw [ha.nextPacketPointer, ha.moved, ha.take h.moved_le]
    exact h.pointer
  stored := by
    have hreleased := Nat.le_trans h.released_le h.moved_le
    rw [ha.take hreleased, ha.stored, List.drop_append_of_le_length hreleased]
    exact ha.keeps _ _ h.stored
  counter := by
    rw [ha.counter, ha.pulses, ha.length, ← h.counter, Nat.add_right_comm]
  pulses := by
    rw [ha.pulses]
    exact h.pulses
  delivered := by
    rw [ha.delivered, ha.take (Nat.le_trans h.handed_le h.moved_le)]
    exact h.delivered

theorem InHand.arrival (h : InHand s k f pkCounter) (ha : Arrival s s' more) :
    InHand s' k f pkCounter where
  moved := ha.moved.trans h.moved
  frame := ha.getElem? h.frame
  left := by
    rw [ha.moved, ha.length]
    exact Nat.le_add_right_of_le h.left

theorem Packet.arrival (h : Packet s k f dst commands) (ha : Arrival s s' more)
    (hread : ∀ length ∈ (commands.head?).bind Command.toRead,
      s'.chip.read length = s.chip.read length) : Packet s' k f dst commands := by
  cases h with
  | release hledger herdpt hdst =>
    have hk := Nat.le_trans hledger.released_le hledger.moved_le
    rw [← ha.nextPacketPointer]
    refine .release (hledger.arrival ha) ?_ hdst
    rw [ha.erdpt, ha.take hk]
    exact herdpt
  | read hledger hok hdata =>
    exact .read (hledger.arrival ha) hok ((hread _ rfl).trans hdata)
  | pulse hledger => exact .pulse (hledger.arrival ha)
  | done hledger => exact .done (hledger.arrival ha)

theorem Phase.arrival (h : Phase s s.pc) (ha : Arrival s s' more)
    (hread : ∀ length ∈ s.pc.toRead, s'.chip.read length = s.chip.read length) :
    Phase s' s'.pc := by
  have hmore : s.stored.length ≤ s'.stored.length := by
    rw [ha.length]
    exact Nat.le_add_right _ _
  rw [ha.pc]
  cases hpc : s.pc with
  | idle =>
    rw [hpc] at h
    rw [Phase, ha.moved]
    exact Ledger.arrival h ha
  | loop pkCounter =>
    rw [hpc] at h
    rw [Phase, ha.moved]
    exact ⟨h.1.arrival ha, Nat.le_trans h.2 hmore⟩
  | info pkCounter =>
    rw [hpc] at h
    rw [Phase, ha.moved, ha.erdpt, ha.nextPacketPointer]
    exact ⟨h.1.arrival ha, Nat.lt_of_lt_of_le h.2.1 hmore, h.2.2⟩
  | alloc pkCounter info =>
    rw [hpc] at h
    obtain ⟨hledger, hleft, herdpt, f, hf, hok, hinfo⟩ := h
    have hsucc := Nat.succ_le_of_lt (Nat.lt_of_le_of_lt (Nat.le_add_right _ _) hleft)
    rw [Phase, ha.moved, ha.erdpt, ha.take hledger.moved_le, ha.take hsucc]
    exact ⟨hledger.arrival ha, Nat.lt_of_lt_of_le hleft hmore, herdpt, f, ha.getElem? hf, hok,
      hinfo⟩
  | packet pkCounter info dst commands =>
    rw [hpc] at h hread
    obtain ⟨k, f, hhand, hpacket⟩ := h
    exact ⟨k, f, hhand.arrival ha, hpacket.arrival ha hread⟩
  | input pkCounter payload =>
    rw [hpc] at h
    obtain ⟨k, f, hhand, hledger, hpayload⟩ := h
    exact ⟨k, f, hhand.arrival ha, hledger.arrival ha, hpayload⟩

theorem getIncomingPacket_eq {info : PacketMetaInfo} (h : info.nextPacketPointer ≤ rxendInit)
    (dst : Option (List UInt8)) :
    s.getIncomingPacket pkCounter info dst =
      { s with
        nextPacketPointer := info.nextPacketPointer
        pc := .packet pkCounter info dst (.reg (.regwWrite erxrdpt info.nextPacketPointer) ::
          (if dst.isSome then [.readBuff info.byteCount.toNat, pktdec] else [pktdec]))
        moved := s.moved + 1 } := by
  have hle : ¬ info.nextPacketPointer > rxendInit := UInt16.not_lt.mpr h
  cases dst with
  | none =>
    simp only [getIncomingPacket, Receiver.getIncomingPacket, if_neg hle]
    rfl
  | some buffer =>
    simp only [getIncomingPacket, Receiver.getIncomingPacket, if_neg hle]
    rfl

theorem Ledger.frame (h : Ledger s k k k) (hk : k < s.stored.length) :
    ∃ f, s.stored[k]? = some f ∧ Stored s.chip (extent (s.stored.take k))
      (f :: s.stored.drop (k + 1)) := by
  refine ⟨s.stored[k], List.getElem?_eq_getElem hk, ?_⟩
  rw [← List.drop_eq_getElem_cons hk]
  exact h.stored

theorem toNat_nextPacketPointer (f : Frame) (p : Nat) :
    (f.info (p % rxSize)).nextPacketPointer.toNat = p % rxSize := by
  have hlt : p % rxSize < rxSize := Nat.mod_lt p (by decide)
  rw [Frame.info, UInt16.toNat_ofNat']
  exact Nat.mod_eq_of_lt (Nat.lt_trans hlt (by decide))

theorem nextPacketPointer_le (f : Frame) (p : Nat) :
    (f.info (p % rxSize)).nextPacketPointer ≤ rxendInit := by
  have hlt : p % rxSize < rxSize := Nat.mod_lt p (by decide)
  rw [UInt16.le_iff_toNat_le, toNat_nextPacketPointer]
  exact Nat.le_of_lt_succ hlt

theorem Phase.getIncomingPacket (h : Ledger s s.moved s.moved s.moved)
    (hleft : s.moved + pkCounter < s.stored.length)
    (herdpt : s.chip.erdpt = (extent (s.stored.take s.moved) + 6) % rxSize)
    (hf : s.stored[s.moved]? = some f) (hdst : dst.isSome = f.receivedOk)
    (s' : Reception) (hs' : s' = s.getIncomingPacket pkCounter
      (f.info (extent (s.stored.take (s.moved + 1)) % rxSize)) dst) : Phase s' s'.pc := by
  have hmoved : s.moved < s.stored.length := Nat.lt_of_le_of_lt (Nat.le_add_right _ _) hleft
  obtain ⟨g, hg, hstored⟩ := h.frame hmoved
  obtain rfl := Option.some.inj (hg.symm.trans hf)
  rw [getIncomingPacket_eq (nextPacketPointer_le g _)] at hs'
  subst hs'
  refine ⟨s.moved, g, ⟨rfl, hf, ?_⟩, ?_⟩
  · rw [Nat.add_right_comm]
    exact hleft
  · have hcount : (g.info (extent (s.stored.take (s.moved + 1)) % rxSize)).byteCount.toNat =
        g.data.length := by
      rw [Frame.info, UInt16.toNat_ofNat']
      exact Nat.mod_eq_of_lt hstored.data_length
    rw [hdst, hcount]
    refine .release ⟨hmoved, Nat.le_succ _, Nat.le_succ _, toNat_nextPacketPointer g _, h.stored,
      h.counter, h.pulses, h.delivered⟩ herdpt fun hok => ?_
    rw [hok] at hdst
    exact Option.isSome_eq_false_iff.mp hdst |> Option.isNone_iff_eq_none.mp

theorem Phase.info (h : Phase s (.info pkCounter)) (hpc : s.pc = .info pkCounter) :
    Phase s.driverStep s.driverStep.pc := by
  obtain ⟨hledger, hleft, herdpt⟩ := h
  have hmoved : s.moved < s.stored.length := Nat.lt_of_le_of_lt (Nat.le_add_right _ _) hleft
  obtain ⟨f, hf, hstored⟩ := hledger.frame hmoved
  have hinfo : PacketMetaInfo.ofBytes (s.chip.read 6) =
      f.info (extent (s.stored.take (s.moved + 1)) % rxSize) := by
    rw [RxChip.read, herdpt, hledger.pointer, ringRead_mod, hstored.holds.header.1,
      f.ofBytes_header, extent_take_succ hf]
  have herdpt' : (s.chip.erdpt + 6) % rxSize = (extent (s.stored.take s.moved) + 6) % rxSize := by
    rw [herdpt, hledger.pointer, Nat.mod_add_mod]
  simp only [driverStep, hpc, hinfo]
  split
  next hok => exact ⟨hledger.setErdpt _ _, hleft, herdpt', f, hf, hok, rfl⟩
  next hok =>
    refine Phase.getIncomingPacket (s := { s with chip := s.chip.exec (.readBuff 6) })
      (hledger.setErdpt _ s.pc) hleft herdpt' hf ?_ _ rfl
    exact ((Bool.not_eq_true _).mp hok).symm

theorem Ledger.release (h : Ledger s k k k) (hhand : InHand s k f pkCounter) (pc : Pc) :
    Ledger { s with chip := { s.chip with erxrdpt := s.nextPacketPointer.toNat }, pc }
      (k + 1) k k := by
  obtain ⟨g, hg, hstored⟩ := h.frame (List.getElem?_eq_some_iff.mp hhand.frame).1
  have hextent := extent_take_succ hg
  refine ⟨h.moved_le, Nat.le_of_eq hhand.moved.symm, h.handed_le, h.pointer, ?_, h.counter,
    h.pulses, h.delivered⟩
  rw [hextent]
  refine hstored.release ?_ rfl rfl
  rw [← hextent, ← hhand.moved]
  exact h.pointer

theorem Ledger.pulse (h : Ledger s (k + 1) k k) (hhand : InHand s k f pkCounter) (pc : Pc) :
    Ledger { s with
      chip := { s.chip with epktcnt := s.chip.epktcnt - 1 }, pc, pulses := s.pulses + 1 }
      (k + 1) (k + 1) k := by
  have hlt : k < s.stored.length := (List.getElem?_eq_some_iff.mp hhand.frame).1
  have hcounter := h.counter
  have hpulses := h.pulses
  refine ⟨h.moved_le, h.released_le, h.handed_le, h.pointer,
    ⟨h.stored.holds, h.stored.erxwrpt, h.stored.room⟩, ?_, congrArg (· + 1) hpulses, h.delivered⟩
  change s.chip.epktcnt - 1 + (s.pulses + 1) = s.stored.length
  omega

theorem Ledger.deliver (h : Ledger s (k + 1) (k + 1) k) (hhand : InHand s k f pkCounter)
    {delivered : List (List UInt8)} (hdelivered : delivered = s.delivered ++ f.payload.toList)
    (pc : Pc) : Ledger { s with delivered, pc } s.moved s.moved s.moved := by
  refine ⟨h.moved_le, Nat.le_refl _, Nat.le_refl _, h.pointer, ?_, h.counter,
    h.pulses.trans hhand.moved.symm, ?_⟩
  · change Stored s.chip (extent (s.stored.take s.moved)) (s.stored.drop s.moved)
    rw [hhand.moved]
    exact h.stored
  · change delivered = okData (s.stored.take s.moved)
    rw [hdelivered, hhand.moved, okData_take_succ hhand.frame, h.delivered]

theorem InHand.keep (h : InHand s k f pkCounter) (hmoved : s'.moved = s.moved)
    (hstored : s'.stored = s.stored) : InHand s' k f pkCounter where
  moved := hmoved.trans h.moved
  frame := hstored ▸ h.frame
  left := by
    rw [hmoved, hstored]
    exact h.left

theorem Packet.release_step {info : PacketMetaInfo} (hhand : InHand s k f pkCounter)
    (hledger : Ledger s k k k) (herdpt : s.chip.erdpt = (extent (s.stored.take k) + 6) % rxSize)
    (hdst : f.receivedOk = false → dst = none)
    (hpc : s.pc = .packet pkCounter info dst (.reg (.regwWrite erxrdpt s.nextPacketPointer) ::
      commands))
    (hcommands : commands =
      if f.receivedOk then [.readBuff f.data.length, pktdec] else [pktdec]) :
    Phase s.driverStep s.driverStep.pc := by
  obtain ⟨g, hg, hstored⟩ := hledger.frame (List.getElem?_eq_some_iff.mp hhand.frame).1
  obtain rfl := Option.some.inj (hg.symm.trans hhand.frame)
  have hstep : s.driverStep = { s with
      chip := { s.chip with erxrdpt := s.nextPacketPointer.toNat }
      pc := .packet pkCounter info dst commands } := by
    simp only [driverStep, hpc]
    rfl
  rw [hstep]
  refine ⟨k, g, ⟨hhand.moved, hg, hhand.left⟩, ?_⟩
  have hreleased := hledger.release hhand (.packet pkCounter info dst commands)
  cases hok : g.receivedOk with
  | true =>
    rw [hok, if_pos rfl] at hcommands
    subst hcommands
    refine .read hreleased hok ?_
    change ringRead rxSize s.chip.mem s.chip.erdpt g.data.length = g.data
    rw [herdpt, ringRead_mod]
    exact hstored.holds.header.2
  | false =>
    rw [hok, if_neg Bool.false_ne_true] at hcommands
    subst hcommands
    have hnone : dst = g.payload := by rw [hdst hok, Frame.payload, hok]; rfl
    rw [hnone] at hreleased ⊢
    exact .pulse hreleased

theorem Packet.driverStep {info : PacketMetaInfo} (h : Packet s k f dst commands)
    (hhand : InHand s k f pkCounter) (hpc : s.pc = .packet pkCounter info dst commands) :
    Phase s.driverStep s.driverStep.pc := by
  cases h with
  | release hledger herdpt hdst => exact Packet.release_step hhand hledger herdpt hdst hpc rfl
  | read hledger hok hdata =>
    have hpayload : f.payload = some (s.chip.read f.data.length) := by
      rw [hdata, Frame.payload, if_pos hok]
    simp only [Reception.driverStep, hpc, command]
    refine ⟨k, f, hhand.keep rfl rfl, ?_⟩
    rw [← hpayload]
    exact .pulse (hledger.setErdpt _ _)
  | pulse hledger =>
    simp only [Reception.driverStep, hpc, command]
    exact ⟨k, f, hhand.keep rfl rfl, .done (hledger.pulse hhand _)⟩
  | done hledger =>
    cases hpayload : f.payload with
    | none =>
      rw [hpayload] at hpc
      simp only [Reception.driverStep, hpc]
      refine ⟨hledger.deliver hhand ?_ _, hhand.left⟩
      rw [hpayload]
      exact (List.append_nil _).symm
    | some payload =>
      rw [hpayload] at hpc
      simp only [Reception.driverStep, hpc]
      exact ⟨k, f, hhand.keep rfl rfl, hledger.setPc _, hpayload⟩

theorem Phase.input {payload : List UInt8} (h : Phase s (.input pkCounter payload))
    (hpc : s.pc = .input pkCounter payload) : Phase s.driverStep s.driverStep.pc := by
  obtain ⟨k, f, hhand, hledger, hpayload⟩ := h
  simp only [driverStep, hpc]
  refine ⟨hledger.deliver hhand ?_ _, hhand.left⟩
  rw [hpayload]
  rfl

theorem Phase.driverStep (h : Phase s s.pc) (hwaits : s.pc.waits = false) :
    Phase s.driverStep s.driverStep.pc := by
  cases hpc : s.pc with
  | idle => rw [hpc] at hwaits; cases hwaits
  | alloc pkCounter info => rw [hpc] at hwaits; cases hwaits
  | loop pkCounter =>
    rw [hpc] at h
    obtain ⟨hledger, hleft⟩ := h
    cases pkCounter with
    | zero =>
      simp only [Reception.driverStep, hpc]
      exact hledger.setPc .idle
    | succ pkCounter =>
      simp only [Reception.driverStep, hpc]
      exact ⟨hledger.setErdpt _ _, hleft, rfl⟩
  | info pkCounter =>
    rw [hpc] at h
    exact h.info hpc
  | packet pkCounter info dst commands =>
    rw [hpc] at h
    obtain ⟨k, f, hhand, hpacket⟩ := h
    exact hpacket.driverStep hhand hpc
  | input pkCounter payload =>
    rw [hpc] at h
    exact h.input hpc

theorem Phase.alloc {buffer : Option (List UInt8)} (h : Phase s s.pc)
    (hbuffer : Allocates buffer s.pc) : Phase (s.allocStep buffer) (s.allocStep buffer).pc := by
  cases hpc : s.pc with
  | alloc pkCounter info =>
    rw [hpc] at h
    obtain ⟨hledger, hleft, herdpt, f, hf, hok, rfl⟩ := h
    cases buffer with
    | none =>
      simp only [allocStep, hpc]
      exact ⟨hledger.setPc _, Nat.le_of_lt hleft⟩
    | some buffer =>
      simp only [allocStep, hpc]
      refine Phase.getIncomingPacket hledger hleft herdpt hf ?_ _ rfl
      exact hok.symm
  | _ => rw [hpc] at hbuffer; exact hbuffer.elim

theorem Phase.step {e : Event} (h : Phase s s.pc) (hspared : Spared s e) (hstep : Step s e s') :
    Phase s' s'.pc := by
  obtain ⟨henabled, rfl⟩ := hstep
  cases e with
  | interrupt =>
    have hidle : s.pc = .idle := henabled
    rw [hidle] at h
    have hledger : Ledger s s.moved s.moved s.moved := h
    refine ⟨hledger.setPc _, ?_⟩
    have hcounter := hledger.counter
    rw [hledger.pulses, Nat.add_comm] at hcounter
    exact Nat.le_of_eq hcounter
  | driver => exact h.driverStep henabled
  | alloc buffer => exact h.alloc henabled
  | receive bytes => exact h.arrival (.receive henabled) hspared
  | store f => exact h.arrival (.store henabled.1) hspared

theorem init_chip (mem : Nat → UInt8) :
    (init mem).chip = ⟨mem, 0, rxendInit.toNat, rxstartInit.toNat, 0⟩ := rfl

theorem Phase.init (mem : Nat → UInt8) : Phase (init mem) (init mem).pc := by
  have hpointer : Receiver.init.nextPacketPointer.toNat = extent [] % rxSize := by decide
  have herxwrpt : rxstartInit.toNat = (extent [] + extent []) % rxSize := by decide
  have herxrdpt : rxendInit.toNat = (extent [] + rxSize - 1) % rxSize := by decide
  have hroom : extent [] + 1 + 1 ≤ rxSize := by decide
  have hstored : Stored (Reception.init mem).chip (extent []) [] := by
    rw [init_chip]
    exact ⟨trivial, herxwrpt, 1, Nat.le_refl 1, herxrdpt, hroom⟩
  exact ⟨Nat.le_refl 0, Nat.le_refl 0, Nat.le_refl 0, hpointer, hstored, rfl, rfl, rfl⟩

def Pc.passing : Pc → Bool
  | .packet _ _ _ commands => commands ≠ []
  | _ => false

/-- The pointer and the counter are in step, and what `netif.input` got are the good frames, in
order and with their bytes. -/
structure InStep (s : Reception) : Prop where
  pointer : s.nextPacketPointer.toNat = extent (s.stored.take s.moved) % rxSize
  pulses : s.moved = s.pulses + if Pc.passing s.pc then 1 else 0
  counter : s.chip.epktcnt + s.pulses = s.stored.length
  delivered : s.delivered <+: okData s.stored

theorem okData_take (frames : List Frame) (k : Nat) :
    okData (frames.take k) <+: okData frames := by
  refine ⟨okData (frames.drop k), ?_⟩
  rw [← okData_append, List.take_append_drop]

theorem Ledger.inStep (h : Ledger s released pulsed handed)
    (hpulsed : s.moved = pulsed + if Pc.passing s.pc then 1 else 0) : InStep s where
  pointer := h.pointer
  pulses := by rw [h.pulses, ← hpulsed]
  counter := h.counter
  delivered := by
    rw [h.delivered]
    exact okData_take _ _

theorem Phase.inStep (h : Phase s s.pc) : InStep s := by
  cases hpc : s.pc with
  | idle =>
    rw [hpc] at h
    exact Ledger.inStep h (by rw [hpc]; rfl)
  | loop pkCounter =>
    rw [hpc] at h
    exact h.1.inStep (by rw [hpc]; rfl)
  | info pkCounter =>
    rw [hpc] at h
    exact h.1.inStep (by rw [hpc]; rfl)
  | alloc pkCounter info =>
    rw [hpc] at h
    exact h.1.inStep (by rw [hpc]; rfl)
  | packet pkCounter info dst commands =>
    rw [hpc] at h
    obtain ⟨k, f, hhand, hpacket⟩ := h
    cases hpacket with
    | release hledger _ _ => exact hledger.inStep (by rw [hpc, hhand.moved]; rfl)
    | read hledger _ _ => exact hledger.inStep (by rw [hpc, hhand.moved]; rfl)
    | pulse hledger => exact hledger.inStep (by rw [hpc, hhand.moved]; rfl)
    | done hledger => exact hledger.inStep (by rw [hpc, hhand.moved]; rfl)
  | input pkCounter payload =>
    rw [hpc] at h
    obtain ⟨k, f, hhand, hledger, -⟩ := h
    exact hledger.inStep (by rw [hpc, hhand.moved]; rfl)

variable {mem : Nat → UInt8} {es : List Event}

theorem inStep_of_spared (hrun : Run (Guarded Spared Step) (init mem) es s) : InStep s :=
  Phase.inStep (hrun.invariant (fun s => Phase s s.pc)
    (fun _ _ _ h hstep => h.step hstep.1 hstep.2) (.init mem))

def goodFrame (data : List UInt8) : Frame where
  data
  statusLow := 0x80
  statusHigh := 0

def takeFirst (length : Nat) (f : Frame) : List Event :=
  [.interrupt, .driver, .driver, .alloc (some (List.replicate length 0)), .driver, .store f] ++
    List.replicate 4 .driver

def crowded : List Event :=
  .store (goodFrame (List.replicate 64 1)) ::
    List.replicate 4 (.store (goodFrame (List.replicate 1518 2))) ++
    takeFirst 64 (goodFrame (List.replicate 552 3))

def quiet : List Event :=
  .store (goodFrame [1, 2, 3, 4]) :: takeFirst 4 (goodFrame [5, 6, 7, 8])

def receptionRun (es : List Event) : Reception := es.foldl receptionStep (init fun _ => 0)

theorem quiet_inStep : (receptionRun quiet).delivered = [[1, 2, 3, 4]] ∧
    InStep (receptionRun quiet) :=
  ⟨by decide +kernel, inStep_of_spared (.guarded_of_feasible (by decide +kernel))⟩

/-- The frame that arrives while the first is being read overwrites it. -/
theorem crowded_not_inStep :
    Run Step (init fun _ => 0) crowded (receptionRun crowded) ∧
      (receptionRun crowded).delivered = [List.replicate 62 3 ++ [1, 1]] ∧
      ¬ InStep (receptionRun crowded) := by
  have hdelivered : (receptionRun crowded).delivered = [List.replicate 62 3 ++ [1, 1]] := by
    decide +kernel
  refine ⟨.of_feasible (by decide +kernel), hdelivered, fun h => ?_⟩
  have hdata := h.delivered
  revert hdata
  decide +kernel

end Reception

end RadProt.Enc28j60
