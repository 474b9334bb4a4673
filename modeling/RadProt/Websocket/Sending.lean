import RadProt.Lib.Copy
import RadProt.Websocket.Sockets
import Mathlib.Algebra.Group.Nat.Defs

namespace RadProt.Websocket

open RadProt.Lib RadProt.Lib.Access

/-! `send_message` on the memory that holds `send_buf` and the message. -/

inductive MsgType
  | string | bin
  deriving DecidableEq

def MsgType.byte : MsgType → UInt8
  | .string => typeText
  | .bin => typeBinary

structure SendBuffer where
  address : Nat
  fits : address + sendBufferSize ≤ 2 ^ 32

/-- `websocket_message`; its payload lies somewhere beside `send_buf`. -/
structure WebsocketMessage (buffer : SendBuffer) where
  message : Nat
  msgSize : UInt32
  msgType : MsgType
  fits : message + msgSize.toNat ≤ 2 ^ 32
  apart : message + msgSize.toNat ≤ buffer.address ∨ buffer.address + sendBufferSize ≤ message

namespace SendBuffer

def setSizeToFrame (size : UInt32) (outFrame : Nat) : Access Nat := do
  if size < 126 then
    store outFrame size.toUInt8
    return outFrame + 1
  else if size < 65536 then
    store outFrame 126
    store (outFrame + 1) ((size >>> 8) &&& 0xFF).toUInt8
    store (outFrame + 2) (size &&& 0xFF).toUInt8
    return outFrame + 3
  else
    store outFrame 127
    memset (outFrame + 1) 0 6
    store (outFrame + 7) ((size >>> 8) &&& 0xFF).toUInt8
    store (outFrame + 8) (size &&& 0xFF).toUInt8
    return outFrame + 9

def setDataToFrame (data : Nat) (size : UInt32) (outFrame : Nat) : Access Nat := do
  memcpy outFrame data size.toNat
  return outFrame + size.toNat

def sendMessage (buffer : SendBuffer) (client : Client) (msg : WebsocketMessage buffer) :
    Access (List SocketEvent) := do
  if sendBufferSize.toUInt32 < msg.msgSize + 10 then return []
  else if !client.established then return []
  else
    memset buffer.address 0 sendBufferSize
    store buffer.address (msg.msgType.byte ||| finFlag)
    let outbufPtr ← setSizeToFrame msg.msgSize (buffer.address + 1)
    let outbufPtr ← setDataToFrame msg.message msg.msgSize outbufPtr
    let packet ← loadBytes buffer.address (outbufPtr - buffer.address)
    return [.setsockopt client.socket, .send client.socket packet]

end SendBuffer

def WebsocketMessage.payload {buffer : SendBuffer} (msg : WebsocketMessage buffer)
    (m : Nat → UInt8) : List UInt8 := (view msg.message msg.msgSize.toNat m).value

def frame (type : UInt8) (payload : List UInt8) : List UInt8 :=
  (type ||| finFlag) :: (setSizeToFrame payload.length ++ payload)

/-- Wherever it stands, `packet` is one frame, final and not masked, out of which the server's
own decoders take the payload. -/
structure SingleFrame (type : UInt8) (payload packet : List UInt8) (m : Nat → UInt8) (a : Nat) :
    Prop where
  fin : (isFinMsg a m).value = true
  unmasked : (isMaskedMsg a m).value = false
  opcode : opcode m a = type
  messageLen : (getMessageLen a m).value = payload.length
  payload : ∃ i, (getPayloadPtr a m).value = a + i ∧ Holds m (a + i) payload ∧
    i + payload.length = packet.length

def Carries (type : UInt8) (payload packet : List UInt8) : Prop :=
  packet.length ≤ sendBufferSize ∧
    ∀ m a, Holds m a packet → SingleFrame type payload packet m a

section Decode

variable {m : Nat → UInt8} {a : Nat} {type : UInt8} {payload : List UInt8}

theorem length_frame (type : UInt8) (payload : List UInt8) :
    (frame type payload).length = 1 + (setSizeToFrame payload.length).length + payload.length := by
  simp only [frame, List.length_cons, List.length_append]
  omega

theorem short_byte {n : Nat} (h : n < 126) :
    n.toUInt8 &&& 0x7F = n.toUInt8 ∧ n.toUInt8 &&& maskedFlag = 0 := by
  have hall : ∀ k < 126, k.toUInt8 &&& 0x7F = k.toUInt8 ∧ k.toUInt8 &&& maskedFlag = 0 := by decide
  exact hall n h

theorem setSizeToFrame_header {n : Nat} (hn : n < 65536) (h : Holds m (a + 1) (setSizeToFrame n)) :
    ¬ Masked m a ∧ lenEnd m a = 1 + (setSizeToFrame n).length ∧ messageLen m a = n := by
  by_cases hshort : n < 126
  · rw [setSizeToFrame, if_pos hshort] at h ⊢
    obtain ⟨heq, hmask⟩ := short_byte hshort
    have hbyte : m (a + 1) = n.toUInt8 := (holds_cons_iff.mp h).1
    refine ⟨?_, length_narrow hshort ?_⟩
    · rw [Masked, hbyte]
      exact not_not_intro hmask
    · rw [lenByte, hbyte, heq]
  · rw [setSizeToFrame, if_neg hshort, if_pos hn] at h ⊢
    rw [holds_cons_iff, holds_cons_iff, holds_cons_iff] at h
    refine ⟨?_, length_wide hn ?_ h.2.1 h.2.2.1⟩
    · rw [Masked, h.1]
      decide
    · rw [lenByte, h.1]
      decide

theorem type_frame (type : MsgType) : (type.byte ||| finFlag) &&& typeMask = type.byte ∧
    (type.byte ||| finFlag) &&& finFlag ≠ 0 := by
  cases type <;> decide

theorem singleFrame_of_holds (type : MsgType) (hlength : payload.length < 65536)
    (h : Holds m a (frame type.byte payload)) :
    SingleFrame type.byte payload (frame type.byte payload) m a := by
  have hparts := h
  rw [frame, holds_cons_iff, holds_append_iff] at hparts
  obtain ⟨htype, hsize, hpayload⟩ := hparts
  obtain ⟨hmask, hlenEnd, hlen⟩ := setSizeToFrame_header hlength hsize
  obtain ⟨hopcode, hfin⟩ := type_frame type
  have hheader : headerLen m a = 1 + (setSizeToFrame payload.length).length := by
    rw [headerLen, if_neg hmask, hlenEnd, Nat.add_zero]
  constructor
  case fin =>
    rw [(isFinMsg_reads (P := fun _ => True) trivial).value]
    refine decide_eq_true ?_
    change m a &&& finFlag ≠ 0
    rwa [htype]
  case unmasked =>
    rw [(isMaskedMsg_reads (P := fun _ => True) trivial).value]
    exact decide_eq_false hmask
  case opcode => rw [opcode, htype, hopcode]
  case messageLen =>
    rw [(getMessageLen_reads (P := fun _ => True) fun _ _ => trivial).value, hlen]
  case payload =>
    refine ⟨headerLen m a, (getPayloadPtr_reads (P := fun _ => True) trivial).value, ?_, ?_⟩
    · rw [hheader, ← Nat.add_assoc]
      exact hpayload
    · rw [hheader, length_frame]

end Decode

section Encode

variable {P : Nat → Prop} {m : Nat → UInt8} {a : Nat}

theorem toUInt8_high (size : UInt32) :
    ((size >>> 8) &&& 0xFF).toUInt8 = (size.toNat / 256).toUInt8 := by
  apply UInt8.toNat_inj.mp
  simp only [UInt32.toNat_toUInt8, UInt32.toNat_and, UInt32.toNat_shiftRight, Nat.toUInt8,
    UInt8.toNat_ofNat']
  have hmask : UInt32.toNat 0xFF = 2 ^ 8 - 1 := rfl
  rw [hmask, Nat.and_two_pow_sub_one_eq_mod, Nat.mod_mod, Nat.shiftRight_eq_div_pow]
  rfl

theorem toUInt8_low (size : UInt32) : (size &&& 0xFF).toUInt8 = size.toNat.toUInt8 := by
  apply UInt8.toNat_inj.mp
  simp only [UInt32.toNat_toUInt8, UInt32.toNat_and, Nat.toUInt8, UInt8.toNat_ofNat']
  have hmask : UInt32.toNat 0xFF = 2 ^ 8 - 1 := rfl
  rw [hmask, Nat.and_two_pow_sub_one_eq_mod, Nat.mod_mod]

theorem store_behind {s : List UInt8} {b : UInt8} {k : Nat} (hk : k = s.length)
    (h : P (a + k)) : Leaves P (overwrite m a s) (store (a + k) b) () (overwrite m a (s ++ [b])) := by
  subst hk
  rw [← overwrite_append]
  exact .store h

theorem setSizeToFrame_leaves (size : UInt32)
    (h : ∀ b, Span a (setSizeToFrame size.toNat).length b → P b) :
    Leaves P m (SendBuffer.setSizeToFrame size a) (a + (setSizeToFrame size.toNat).length)
      (overwrite m a (setSizeToFrame size.toNat)) := by
  have hP : ∀ k < (setSizeToFrame size.toNat).length, P (a + k) := fun k hk =>
    h _ ⟨Nat.le_add_right _ _, Nat.add_lt_add_left hk a⟩
  have hhigh := toUInt8_high size
  have hlow := toUInt8_low size
  by_cases h126 : size < 126
  · have hsize : setSizeToFrame size.toNat = [size.toNat.toUInt8] := if_pos h126
    rw [hsize] at hP ⊢
    have hP : ∀ k < 1, P (a + k) := hP
    rw [SendBuffer.setSizeToFrame, if_pos h126]
    exact (Leaves.store (hP 0 (by decide))).bind (.pure _)
  by_cases h65536 : size < 65536
  · have hsize : setSizeToFrame size.toNat =
        [126, (size.toNat / 256).toUInt8, size.toNat.toUInt8] := (if_neg h126).trans (if_pos h65536)
    rw [hsize] at hP ⊢
    have hP : ∀ k < 3, P (a + k) := hP
    rw [SendBuffer.setSizeToFrame, if_neg h126, if_pos h65536, hhigh, hlow]
    exact (Leaves.store (hP 0 (by decide))).bind
      ((store_behind (s := [126]) rfl (hP 1 (by decide))).bind
        ((store_behind (s := [126, _]) rfl (hP 2 (by decide))).bind (.pure _)))
  · have hsize : setSizeToFrame size.toNat =
        [127, 0, 0, 0, 0, 0, 0, (size.toNat / 256).toUInt8, size.toNat.toUInt8] :=
      (if_neg h126).trans (if_neg h65536)
    rw [hsize] at hP ⊢
    have hP : ∀ k < 9, P (a + k) := hP
    have hzeros : ∀ b, Span (a + 1) 6 b → P b := by
      rintro b ⟨hle, hlt⟩
      obtain ⟨k, rfl⟩ := Nat.exists_eq_add_of_le (Nat.le_of_succ_le hle)
      exact hP k (by omega)
    have hmemset := memset_leaves (m := overwrite m a [127]) 0 hzeros
    rw [show overwrite (overwrite m a [127]) (a + 1) (.replicate 6 0) =
      overwrite m a [127, 0, 0, 0, 0, 0, 0] from overwrite_append m a [127] _] at hmemset
    rw [SendBuffer.setSizeToFrame, if_neg h126, if_neg h65536, hhigh, hlow]
    exact (Leaves.store (hP 0 (by decide))).bind (hmemset.bind
      ((store_behind (s := [127, 0, 0, 0, 0, 0, 0]) rfl (hP 7 (by decide))).bind
        ((store_behind (s := [127, 0, 0, 0, 0, 0, 0, _]) rfl (hP 8 (by decide))).bind (.pure _))))

end Encode

section Send

variable {buffer : SendBuffer} (msg : WebsocketMessage buffer) (client : Client) (m : Nat → UInt8)

@[simp] theorem length_payload : (msg.payload m).length = msg.msgSize.toNat := by
  simp [WebsocketMessage.payload, view_apply]

theorem holds_payload : Holds m msg.message (msg.payload m) := by
  intro i hi
  simp [WebsocketMessage.payload, view_apply]

theorem WebsocketMessage.tooLarge_iff :
    sendBufferSize.toUInt32 < msg.msgSize + 10 ↔ sendBufferSize < msg.msgSize.toNat + 10 := by
  have hfits := msg.fits
  have hbuffer := buffer.fits
  have hroom : msg.msgSize.toNat + sendBufferSize ≤ 2 ^ 32 := by
    rcases msg.apart with hbefore | hbehind <;> omega
  have hten : UInt32.toNat 10 = 10 := rfl
  have hsum : (msg.msgSize + 10).toNat = msg.msgSize.toNat + 10 := by
    rw [UInt32.toNat_add, hten]
    exact Nat.mod_eq_of_lt (by simp only [sendBufferSize] at hroom; omega)
  rw [UInt32.lt_iff_toNat_lt, hsum]
  rfl

def WebsocketMessage.Reach (b : Nat) : Prop :=
  Span buffer.address sendBufferSize b ∨ Span msg.message msg.msgSize.toNat b

theorem frame_fits {type : UInt8} {payload : List UInt8}
    (h : payload.length + 10 ≤ sendBufferSize) : (frame type payload).length ≤ sendBufferSize := by
  rw [length_frame]
  simp only [setSizeToFrame, sendBufferSize] at h ⊢
  split
  · simp only [List.length_cons, List.length_nil]
    omega
  · rw [if_pos (by omega)]
    simp only [List.length_cons, List.length_nil]
    omega

variable {msg} in
theorem WebsocketMessage.reach_sendBuf {a n : Nat} (ha : buffer.address ≤ a)
    (hn : a + n ≤ buffer.address + sendBufferSize) (b : Nat) (hb : Span a n b) : msg.Reach b :=
  .inl ⟨ha.trans hb.1, hb.2.trans_le hn⟩

variable {msg m} in
theorem WebsocketMessage.holds_overwrite {m' : Nat → UInt8} {a : Nat} {s : List UInt8}
    (h : Holds m' msg.message (msg.payload m)) (ha : buffer.address ≤ a)
    (hs : a + s.length ≤ buffer.address + sendBufferSize) :
    Holds (overwrite m' a s) msg.message (msg.payload m) :=
  h.overwrite (by rw [length_payload]; have := msg.apart; omega)

theorem overwrite_frame (m : Nat → UInt8) (a : Nat) (type : UInt8) (payload : List UInt8) :
    overwrite (overwrite (overwrite m a [type ||| finFlag]) (a + 1) (setSizeToFrame payload.length))
        (a + 1 + (setSizeToFrame payload.length).length) payload =
      overwrite m a (frame type payload) := by
  rw [overwrite_append, frame]
  exact overwrite_append m a [_] _

theorem sendMessage_leaves : ∃ m',
    Leaves msg.Reach m (buffer.sendMessage client msg)
      (if sendBufferSize < msg.msgSize.toNat + 10 ∨ client.established = false then []
        else [.setsockopt client.socket,
          .send client.socket (frame msg.msgType.byte (msg.payload m))]) m' := by
  by_cases hlarge : sendBufferSize < msg.msgSize.toNat + 10
  · rw [if_pos (.inl hlarge), SendBuffer.sendMessage, if_pos (msg.tooLarge_iff.mpr hlarge)]
    exact ⟨m, .pure _⟩
  cases hclient : client.established with
  | false =>
    rw [if_pos (.inr rfl), SendBuffer.sendMessage, if_neg (mt msg.tooLarge_iff.mp hlarge), hclient]
    exact ⟨m, .pure _⟩
  | true =>
    rw [if_neg (by simpa using hlarge), SendBuffer.sendMessage,
      if_neg (mt msg.tooLarge_iff.mp hlarge), hclient]
    have hlength := length_payload msg m
    have hfits : (frame msg.msgType.byte (msg.payload m)).length ≤ sendBufferSize :=
      frame_fits (by omega)
    have hframe := length_frame msg.msgType.byte (msg.payload m)
    rw [hlength] at hframe
    obtain ⟨m₀, hcleared, hstands⟩ : ∃ m₀,
        Leaves msg.Reach m (memset buffer.address 0 sendBufferSize) () m₀ ∧
          Holds m₀ msg.message (msg.payload m) :=
      ⟨_, memset_leaves 0 (WebsocketMessage.reach_sendBuf le_rfl le_rfl),
        WebsocketMessage.holds_overwrite (holds_payload msg m) le_rfl (by simp)⟩
    have htype : Leaves msg.Reach m₀ (store buffer.address (msg.msgType.byte ||| finFlag)) () _ :=
      .store (.inl ⟨le_rfl, Nat.lt_add_of_pos_right (by decide)⟩)
    have hstands := WebsocketMessage.holds_overwrite hstands (s := [msg.msgType.byte ||| finFlag])
      le_rfl (by rw [List.length_singleton]; omega)
    have hsize := setSizeToFrame_leaves (P := msg.Reach)
      (m := overwrite m₀ buffer.address [msg.msgType.byte ||| finFlag]) msg.msgSize
      (WebsocketMessage.reach_sendBuf (a := buffer.address + 1) (Nat.le_succ _) (by omega))
    have hstands := WebsocketMessage.holds_overwrite hstands (a := buffer.address + 1)
      (s := setSizeToFrame msg.msgSize.toNat) (Nat.le_succ _) (by omega)
    have hdata := memcpy_leaves (P := msg.Reach) hstands (fun b hb => .inr (by rwa [hlength] at hb))
      (WebsocketMessage.reach_sendBuf
        (a := buffer.address + 1 + (setSizeToFrame msg.msgSize.toNat).length) (by omega) (by omega))
    have hwritten := overwrite_frame m₀ buffer.address msg.msgType.byte (msg.payload m)
    rw [hlength] at hwritten hdata
    rw [hwritten] at hdata
    have hdata : Leaves msg.Reach _ (SendBuffer.setDataToFrame msg.message msg.msgSize _)
        (buffer.address + 1 + (setSizeToFrame msg.msgSize.toNat).length + msg.msgSize.toNat) _ :=
      hdata.bind (.pure _)
    have hload := loadBytes_span (holds_overwrite m₀ buffer.address
      (frame msg.msgType.byte (msg.payload m))) le_rfl
    rw [List.take_length] at hload
    have hpacket : buffer.address + 1 + (setSizeToFrame msg.msgSize.toNat).length +
        msg.msgSize.toNat - buffer.address = (frame msg.msgType.byte (msg.payload m)).length := by
      omega
    have hload : Leaves msg.Reach _ _ _ _ :=
      (hload.mono (WebsocketMessage.reach_sendBuf le_rfl (by omega))).leaves
    rw [← hpacket] at hload
    exact ⟨_, hcleared.bind (htype.bind (hsize.bind (hdata.bind (hload.bind (.pure _)))))⟩

theorem frame_carries {payload : List UInt8} (type : MsgType)
    (h : payload.length + 10 ≤ sendBufferSize) :
    Carries type.byte payload (frame type.byte payload) :=
  ⟨frame_fits h, fun _ _ => singleFrame_of_holds type
    (Nat.lt_of_le_of_lt (Nat.le_of_add_right_le h) (by decide))⟩

theorem sendMessage_sound : Within msg.Reach m (buffer.sendMessage client msg) ∧
    ((buffer.sendMessage client msg m).value = [] ∨
      ∃ packet, (buffer.sendMessage client msg m).value =
          [.setsockopt client.socket, .send client.socket packet] ∧
        Carries msg.msgType.byte (msg.payload m) packet) := by
  obtain ⟨m', hleaves⟩ := sendMessage_leaves msg client m
  refine ⟨hleaves.touched, ?_⟩
  rw [hleaves.value]
  split
  next => exact .inl rfl
  next h =>
    have hlength := length_payload msg m
    exact .inr ⟨_, rfl, frame_carries _ (by omega)⟩

theorem sendMessage_string (hstring : msg.msgType = .string) :
    (buffer.sendMessage client msg m).value = sendMessage client (msg.payload m) := by
  obtain ⟨m', hleaves⟩ := sendMessage_leaves msg client m
  rw [hleaves.value, sendMessage, frame, length_payload, hstring, ite_or]
  cases client.established <;> rfl

end Send

end RadProt.Websocket
