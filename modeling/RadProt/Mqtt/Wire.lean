import RadProt.Lib.Countdown
import RadProt.Mqtt.Delivery

namespace RadProt.Mqtt

open RadProt.Lib

inductive WriteTurn
  /-- The socket is invalid, or its timeout cannot be set. -/
  | unusable
  /-- `lwip_send` fails, or takes at most so many bytes; then the tick count is read. -/
  | send (room : Option Nat) (tick : Nat)

def WriteTurn.tick? : WriteTurn → Option Nat
  | unusable => none
  | send _ tick => some tick

/-- A tick is a millisecond; `vTaskSetTimeOutState` reads it. -/
def timerCountdownMs (timeoutMs tick : Nat) : Countdown := ⟨timeoutMs, tick⟩

/-- A turn of the loop of `sendPacket`: the ticks at which the timer is checked, its rest is asked
for and `FreeRTOS_write` is entered, and the turns of that. -/
structure SendTurn where
  checked : Nat
  left : Nat
  entered : Nat
  turns : List WriteTurn

def SendTurn.ticks (t : SendTurn) : List Nat :=
  t.checked :: t.left :: t.entered :: t.turns.filterMap WriteTurn.tick?

structure Sent where
  sent : Int
  wire : List UInt8
  writes : List Int
  deriving DecidableEq

def Sent.rc (s : Sent) (length : Nat) : Int := if s.sent = length then 0 else -1

theorem Sent.rc_eq_zero_iff {s : Sent} {length : Nat} : s.rc length = 0 ↔ s.sent = length := by
  rw [Sent.rc]
  split
  next h => exact iff_of_true rfl h
  next h => exact iff_of_false (by decide) h

theorem length_slice (buf : Nat → UInt8) (start length : Nat) :
    (slice buf start length).length = length := by
  rw [slice, List.length_map, List.length_range]

section Timers

variable [TimeOutCheck]

/-- By `xTaskCheckForTimeOut`, as is `timerLeftMs`. -/
def timerIsExpired (timer : Countdown) (tick : Nat) : Bool × Countdown := timer.check tick

def timerLeftMs (timer : Countdown) (tick : Nat) : Nat × Countdown :=
  ((timer.check tick).2.ticksToWait, (timer.check tick).2)

def writeLoop (sentLen : Nat) (bytes : List UInt8) (timer : Countdown) :
    List WriteTurn → Option (Int × List UInt8)
  | [] => none
  | .unusable :: _ => some (-1, [])
  | .send none _ :: _ => some (-1, [])
  | .send (some room) tick :: turns =>
    let k := min room bytes.length
    if k < bytes.length ∧ (timerIsExpired timer tick).1 = false then
      (writeLoop (sentLen + k) (bytes.drop k) (timerIsExpired timer tick).2 turns).map fun w =>
        (w.1, bytes.take k ++ w.2)
    else some (sentLen + k, bytes.take k)

def freeRtosWrite (bytes : List UInt8) (timeoutMs tick : Nat) (turns : List WriteTurn) :
    Option (Int × List UInt8) :=
  writeLoop 0 bytes (timerCountdownMs timeoutMs tick) turns

/-- The loop of `sendPacket`, which hands `length` bytes to each `mqttwrite`. -/
def sendPacketLoop (buf : Nat → UInt8) (length sent : Nat) (timer : Countdown) :
    List SendTurn → Option Sent
  | [] => if sent < length then none else some ⟨sent, [], []⟩
  | t :: ts =>
    if sent < length ∧ (timerIsExpired timer t.checked).1 = false then
      let (left, timer) := timerLeftMs (timerIsExpired timer t.checked).2 t.left
      (freeRtosWrite (slice buf sent length) left t.entered t.turns).bind fun w =>
        if w.1 < 0 then some ⟨sent, w.2, [w.1]⟩
        else (sendPacketLoop buf length (sent + w.1.toNat) timer ts).map fun s =>
          ⟨s.sent, w.2 ++ s.wire, w.1 :: s.writes⟩
    else some ⟨sent, [], []⟩

section Write

variable {sentLen : Nat} {bytes wire : List UInt8} {timer : Countdown} {turns : List WriteTurn}
  {rc : Int}

theorem writeLoop_spec (hbytes : bytes ≠ [])
    (hticks : (timer.entered :: turns.filterMap WriteTurn.tick?).Pairwise (· ≤ ·))
    (h : writeLoop sentLen bytes timer turns = some (rc, wire)) :
    wire <+: bytes ∧ (rc < 0 ∧ wire ≠ bytes ∨ rc = (sentLen + wire.length : Nat) ∧
      (wire ≠ bytes → ∃ tick ∈ turns.filterMap WriteTurn.tick?, timer.deadline ≤ tick)) := by
  induction turns generalizing sentLen bytes timer rc wire with
  | nil => cases h
  | cons t turns ih =>
    cases t with
    | unusable =>
      obtain ⟨rfl, rfl⟩ := Prod.mk.inj (Option.some.inj h)
      exact ⟨List.nil_prefix, .inl ⟨by decide, hbytes.symm⟩⟩
    | send room tick =>
      have hentered : timer.entered ≤ tick := List.rel_of_pairwise_cons hticks List.mem_cons_self
      cases room with
      | none =>
        obtain ⟨rfl, rfl⟩ := Prod.mk.inj (Option.some.inj h)
        exact ⟨List.nil_prefix, .inl ⟨by decide, hbytes.symm⟩⟩
      | some room =>
        rw [writeLoop] at h
        generalize hk : min room bytes.length = k at h
        by_cases hmore : k < bytes.length ∧ (timerIsExpired timer tick).1 = false
        · rw [if_pos hmore] at h
          obtain ⟨w, hw, heq⟩ := Option.map_eq_some_iff.mp h
          obtain ⟨rfl, rfl⟩ := Prod.mk.inj heq
          obtain ⟨hdeadline, hnow⟩ := Countdown.deadline_check hentered hmore.2
          have hdrop : bytes.drop k ≠ [] := by
            rw [Ne, List.drop_eq_nil_iff]
            exact Nat.not_le.mpr hmore.1
          obtain ⟨hfront, hcases⟩ := @ih (sentLen + k) (bytes.drop k) w.2
            (timerIsExpired timer tick).2 w.1 hdrop
              (by rw [timerIsExpired, hnow]; exact hticks.tail)
            hw
          have hsplit : bytes.take k ++ w.2 = bytes ↔ w.2 = bytes.drop k := by
            refine Iff.trans ?_ (List.append_right_inj (bytes.take k))
            rw [List.take_append_drop]
          have hlength : (bytes.take k).length = k :=
            List.length_take_of_le (Nat.le_of_lt hmore.1)
          refine ⟨?_, hcases.imp (And.imp_right (mt hsplit.mp)) ?_⟩
          · have happend := (List.prefix_append_right_inj (bytes.take k)).mpr hfront
            rwa [List.take_append_drop] at happend
          · rintro ⟨hrc, hover⟩
            refine ⟨by rw [hrc, List.length_append, hlength, Nat.add_assoc], fun hwire => ?_⟩
            obtain ⟨late, hlate, hle⟩ := hover (mt hsplit.mpr hwire)
            exact ⟨late, List.mem_cons_of_mem _ hlate, hdeadline ▸ hle⟩
        · rw [if_neg hmore] at h
          obtain ⟨rfl, rfl⟩ := Prod.mk.inj (Option.some.inj h)
          have hk' : k ≤ bytes.length := hk ▸ Nat.min_le_right _ _
          refine ⟨List.take_prefix _ _,
            .inr ⟨by rw [List.length_take_of_le hk']; rfl, fun hwire => ?_⟩⟩
          have hlt : k < bytes.length := by
            refine Nat.lt_of_le_of_ne hk' fun heq => hwire ?_
            rw [heq, List.take_length]
          have hexpired : (timer.check tick).1 = true := by
            rw [← Bool.not_eq_false]
            exact fun hfalse => hmore ⟨hlt, hfalse⟩
          exact ⟨tick, List.mem_cons_self, (Countdown.check_iff hentered).mp hexpired⟩

end Write

section Send

variable {buf : Nat → UInt8} {length sent : Nat} {timer : Countdown} {ts : List SendTurn} {s : Sent}

theorem sendPacketLoop_of_le (h : length ≤ sent) :
    sendPacketLoop buf length sent timer ts = some ⟨sent, [], []⟩ := by
  cases ts with
  | nil => rw [sendPacketLoop, if_neg (Nat.not_lt.mpr h)]
  | cons t ts => rw [sendPacketLoop, if_neg fun hand => Nat.not_lt.mpr h hand.1]

theorem sendLoop_writes (h : sendPacketLoop buf length sent timer ts = some s) :
    sendLoop length sent s.writes = s.sent := by
  induction ts generalizing sent timer s with
  | nil =>
    rw [sendPacketLoop] at h
    split at h
    · cases h
    · rw [← Option.some.inj h]
      rfl
  | cons t ts ih =>
    rw [sendPacketLoop] at h
    split at h
    next hand =>
      obtain ⟨w, -, h⟩ := Option.bind_eq_some_iff.mp h
      have hlt : (sent : Int) < length := Int.ofNat_lt.mpr hand.1
      by_cases hneg : w.1 < 0
      · rw [if_pos hneg] at h
        rw [← Option.some.inj h, sendLoop, if_pos hlt, if_pos hneg]
      · rw [if_neg hneg] at h
        obtain ⟨s', hs', rfl⟩ := Option.map_eq_some_iff.mp h
        have hsum : ((sent + w.1.toNat : Nat) : Int) = sent + w.1 := by omega
        rw [sendLoop, if_pos hlt, if_neg hneg, ← hsum, ih hs']
    next =>
      rw [← Option.some.inj h]
      rfl

theorem sendPacket_writes (h : sendPacketLoop buf length 0 timer ts = some s) :
    s.rc length = sendPacket length s.writes := by
  rw [Sent.rc, sendPacket, ← sendLoop_writes h]
  rfl

theorem sendPacketLoop_over (hentered : ∀ tick ∈ ts.flatMap SendTurn.ticks, timer.entered ≤ tick)
    (hover : ∀ tick ∈ ts.flatMap SendTurn.ticks, timer.deadline ≤ tick)
    (h : sendPacketLoop buf length sent timer ts = some s) : s = ⟨sent, [], []⟩ := by
  cases ts with
  | nil =>
    rw [sendPacketLoop] at h
    split at h
    · cases h
    · exact (Option.some.inj h).symm
  | cons t ts =>
    have hmem : t.checked ∈ (t :: ts).flatMap SendTurn.ticks := by simp [SendTurn.ticks]
    have hexpired := (Countdown.check_iff (hentered _ hmem)).mpr (hover _ hmem)
    rw [sendPacketLoop, if_neg fun hand => by simp [timerIsExpired, hexpired] at hand] at h
    exact (Option.some.inj h).symm

theorem wire_prefix
    (hticks : (timer.entered :: ts.flatMap SendTurn.ticks).Pairwise (· ≤ ·))
    (h : sendPacketLoop buf length 0 timer ts = some s) :
    s.wire <+: slice buf 0 length ∧ (s.sent = length ↔ s.wire = slice buf 0 length) := by
  obtain rfl | hpos := Nat.eq_zero_or_pos length
  · rw [sendPacketLoop_of_le (Nat.le_refl _)] at h
    rw [← Option.some.inj h]
    exact ⟨List.nil_prefix, iff_of_true rfl rfl⟩
  have hne : slice buf 0 length ≠ [] := by
    rw [← List.length_pos_iff, length_slice]
    exact hpos
  cases ts with
  | nil =>
    rw [sendPacketLoop, if_pos hpos] at h
    cases h
  | cons t ts =>
    rw [sendPacketLoop] at h
    split at h
    next hand =>
      obtain ⟨w, hw, h⟩ := Option.bind_eq_some_iff.mp h
      simp only [List.flatMap_cons, SendTurn.ticks, List.cons_append, List.pairwise_cons,
        List.pairwise_append, List.mem_cons, List.mem_append] at hticks
      obtain ⟨hentered, hchecked, hleft, hwritten, hturns, -, hlater⟩ := hticks
      obtain ⟨-, hnow⟩ := Countdown.deadline_check (hentered _ (.inl rfl)) hand.2
      -- The timer after its two checks: its deadline is not behind that of `FreeRTOS_write`.
      have hleast : (timerIsExpired timer t.checked).2.entered ≤ t.left :=
        (Nat.le_of_eq hnow).trans (hchecked _ (.inl rfl))
      have hentered₂ := Countdown.entered_check_le hleast
      have hdeadline₂ := (Countdown.deadline_check_le hleast).trans
        (Nat.add_le_add_right (hleft _ (.inl rfl)) _)
      obtain ⟨hfront, hcases⟩ := writeLoop_spec hne
        (List.pairwise_cons.mpr ⟨fun tick htick => hwritten _ (.inl htick), hturns⟩) hw
      obtain ⟨hneg, hwire⟩ | ⟨hrc, hover⟩ := hcases
      · rw [if_pos hneg] at h
        rw [← Option.some.inj h]
        exact ⟨hfront, iff_of_false (by dsimp only; omega) hwire⟩
      · rw [if_neg (by omega)] at h
        obtain ⟨s', hs', rfl⟩ := Option.map_eq_some_iff.mp h
        have hcount : 0 + w.1.toNat = w.2.length := by omega
        rw [hcount] at hs'
        have hend : s' = ⟨w.2.length, [], []⟩ := by
          by_cases hwire : w.2 = slice buf 0 length
          · have hle : length ≤ w.2.length := by rw [hwire, length_slice]
            rw [sendPacketLoop_of_le hle] at hs'
            exact (Option.some.inj hs').symm
          · obtain ⟨late, hlate, hle⟩ := hover hwire
            refine sendPacketLoop_over (fun tick htick => ?_) (fun tick htick => ?_) hs'
            · exact hentered₂.trans (hleft _ (.inr (.inr htick)))
            · exact (hdeadline₂.trans hle).trans (hlater _ hlate _ htick)
        rw [hend, List.append_nil, Int.ofNat_inj]
        refine ⟨hfront, fun heq => hfront.eq_of_length ?_, fun (heq : w.2 = _) => ?_⟩
        · rw [heq, length_slice]
        · rw [heq, length_slice]
    next hand =>
      rw [← Option.some.inj h]
      exact ⟨List.nil_prefix, iff_of_false (by dsimp only; omega) hne.symm⟩

/-- On a clock that does not go back, `sendPacket` puts a front of the packet on the wire and
nothing from behind it, and it succeeds exactly if that is the whole packet. -/
theorem packet_sent_iff
    (hticks : (timer.entered :: ts.flatMap SendTurn.ticks).Pairwise (· ≤ ·))
    (h : sendPacketLoop buf length 0 timer ts = some s) :
    s.wire <+: slice buf 0 length ∧ s.rc length = sendPacket length s.writes ∧
      (sendPacket length s.writes = 0 ↔ s.wire = slice buf 0 length) := by
  obtain ⟨hfront, hsent⟩ := wire_prefix hticks h
  exact ⟨hfront, sendPacket_writes h, by
    rw [← sendPacket_writes h, Sent.rc_eq_zero_iff, hsent]⟩

end Send

end Timers

section Sample

attribute [local instance] TimeOutCheck.subtracting

theorem half_packet_sent : ∃ s,
    sendPacketLoop (fun i => .ofNat (i + 1)) 4 0 ⟨10, 0⟩
      [⟨0, 1, 1, [.send (some 2) 11]⟩, ⟨11, 12, 12, []⟩] = some s ∧
    s.wire = [1, 2] ∧ s.wire <+: [1, 2, 3, 4] ∧ ¬ s.rc 4 = 0 := by
  refine ⟨⟨2, [1, 2], [2]⟩, by decide, rfl, ?_⟩
  obtain ⟨hfront, hrc, hiff⟩ := @packet_sent_iff _ (fun i => .ofNat (i + 1)) 4 ⟨10, 0⟩
    [⟨0, 1, 1, [.send (some 2) 11]⟩, ⟨11, 12, 12, []⟩] ⟨2, [1, 2], [2]⟩ (by decide) (by decide)
  exact ⟨hfront, by rw [hrc, hiff]; decide⟩

end Sample

end RadProt.Mqtt
