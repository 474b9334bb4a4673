import RadProt.Lib.Access

namespace RadProt.Websocket

open RadProt.Lib RadProt.Lib.Access

def finFlag : UInt8 := (1 : UInt8) <<< 7
def maskedFlag : UInt8 := (1 : UInt8) <<< 7
def typeMask : UInt8 := 0xF
def typeText : UInt8 := 0x01
def typeBinary : UInt8 := 0x02
def typeClose : UInt8 := 0x08
def typePing : UInt8 := 0x09
def typePong : UInt8 := 0x0A
def recvBufferSize : Nat := 512
def sendBufferSize : Nat := 512

structure Client where
  socket : Int
  established : Bool
  deriving DecidableEq

/-- What the server does on the socket, and the calls of `msg_handler`. A call is given the
address and the length of the payload; `data` is what stands there at that moment. -/
inductive Effect
  | send (socket : Int) (bytes : List UInt8)
  | close (socket : Int)
  | message (payload len : Nat) (type : UInt8) (data : List UInt8)
  deriving DecidableEq

/-- `recv_buf`, at address 0, once it is cleared and `bytes` are received into it. -/
def received (bytes : List UInt8) (m : Nat → UInt8) : Nat → UInt8 := fun i =>
  if i < bytes.length then bytes.getD i 0 else if i < recvBufferSize then 0 else m i

def getMessageLen (msg : Nat) : Access Nat := do
  if (← load (msg + 1)) &&& 0x7F = 126 then
    return ((← load (msg + 2)).toNat <<< 8) ||| (← load (msg + 3)).toNat
  else if (← load (msg + 1)) &&& 0x7F = 127 then
    return 0
  else
    return ((← load (msg + 1)) &&& 0x7F).toNat

def isMaskedMsg (msg : Nat) : Access Bool := do
  return (← load (msg + 1)) &&& maskedFlag ≠ 0

def isFinMsg (msg : Nat) : Access Bool := do
  return (← load msg) &&& finFlag ≠ 0

def getMask (msg : Nat) : Access Nat := do
  if (← load (msg + 1)) &&& 0x7F = 126 then
    return msg + 4
  else if (← load (msg + 1)) &&& 0x7F = 127 then
    return msg + 10
  else
    return msg + 2

def getPayloadPtr (msg : Nat) : Access Nat := do
  let p ← (do
    if (← load (msg + 1)) &&& 0x7F = 126 then
      return msg + 4
    else if (← load (msg + 1)) &&& 0x7F = 127 then
      return msg + 10
    else
      return msg + 2)
  if ← isMaskedMsg msg then return p + 4 else return p

def unmaskFrom (pld mask i : Nat) : Nat → Access Unit
  | 0 => pure ()
  | n + 1 => do
    let k ← load (mask + i % 4)
    let b ← load (pld + i)
    store (pld + i) (k ^^^ b)
    unmaskFrom pld mask (i + 1) n

def unmaskMessagePayload (pld len mask : Nat) : Access Unit := unmaskFrom pld mask 0 len

def handleDataFrame (msgHandler : Bool) (client : Client) (buffer : Nat) :
    Access (Client × List Effect) := do
  if ← isFinMsg buffer then
    let len ← getMessageLen buffer
    let payload ← getPayloadPtr buffer
    if ← isMaskedMsg buffer then
      unmaskMessagePayload payload len (← getMask buffer)
    if msgHandler then
      let type := (← load buffer) &&& typeMask
      return (client, [.message payload len type (← view payload len)])
    else
      return (client, [])
  else
    return (client, [])

def handleCheckedFrame (msgHandler : Bool) (client : Client) (buffer : Nat) :
    Access (Client × List Effect) := do
  if (← load buffer) &&& typeMask = typePing then
    return (client, [.send client.socket [finFlag ||| typePong, 0]])
  if (← load buffer) &&& typeMask = typePong then
    return (client, [])
  if (← load buffer) &&& typeMask = typeClose then
    return ({ socket := -1, established := false },
      [.send client.socket [finFlag ||| typeClose, 0], .close client.socket])
  handleDataFrame msgHandler client buffer

def handleFrame (msgHandler : Bool) (client : Client) (buffer length : Nat) :
    Access (Client × List Effect) := do
  if length < 2 then
    return (client, [])
  let lenByte := (← load (buffer + 1)) &&& 0x7F
  let required := if lenByte = 126 then 4 else if lenByte = 127 then 10 else 2
  let required := if ← isMaskedMsg buffer then required + 4 else required
  if length < required then
    return (client, [])
  handleCheckedFrame msgHandler client buffer

section Header

variable (m : Nat → UInt8) (msg : Nat)

def lenByte : UInt8 := m (msg + 1) &&& 0x7F

def Masked : Prop := m (msg + 1) &&& maskedFlag ≠ 0

def Fin : Prop := m msg &&& finFlag ≠ 0

def opcode : UInt8 := m msg &&& typeMask

def lenEnd : Nat := if lenByte m msg = 126 then 4 else if lenByte m msg = 127 then 10 else 2

instance : Decidable (Masked m msg) := inferInstanceAs (Decidable (_ ≠ _))

instance : Decidable (Fin m msg) := inferInstanceAs (Decidable (_ ≠ _))

def headerLen : Nat := lenEnd m msg + if Masked m msg then 4 else 0

def messageLen : Nat :=
  if lenByte m msg = 126 then (m (msg + 2)).toNat <<< 8 ||| (m (msg + 3)).toNat
  else if lenByte m msg = 127 then 0
  else (lenByte m msg).toNat

end Header

variable {P : Nat → Prop} {m : Nat → UInt8} {msg : Nat}

theorem two_le_lenEnd : 2 ≤ lenEnd m msg := by
  unfold lenEnd
  split
  · decide
  · split <;> decide

theorem lenEnd_le_headerLen : lenEnd m msg ≤ headerLen m msg := Nat.le_add_right _ _

theorem length_narrow {n : Nat} (hn : n < 126) (h : lenByte m msg = n.toUInt8) :
    lenEnd m msg = 2 ∧ messageLen m msg = n := by
  have hbyte : ∀ k < 126, k.toUInt8 ≠ 126 ∧ k.toUInt8 ≠ 127 := by decide
  obtain ⟨h126, h127⟩ := hbyte n hn
  constructor
  · rw [lenEnd, h, if_neg h126, if_neg h127]
  · rw [messageLen, h, if_neg h126, if_neg h127]
    simp only [Nat.toUInt8, UInt8.toNat_ofNat']
    omega

theorem length_wide {n : Nat} (hn : n < 65536) (h : lenByte m msg = 126)
    (hhigh : m (msg + 2) = (n / 256).toUInt8) (hlow : m (msg + 3) = n.toUInt8) :
    lenEnd m msg = 4 ∧ messageLen m msg = n := by
  refine ⟨if_pos h, ?_⟩
  rw [messageLen, if_pos h, hhigh, hlow]
  simp only [Nat.toUInt8, UInt8.toNat_ofNat']
  have hlt : n % 2 ^ 8 < 2 ^ 8 := Nat.mod_lt _ (by decide)
  rw [← Nat.shiftLeft_add_eq_or_of_lt hlt, Nat.shiftLeft_eq]
  omega

theorem isMaskedMsg_reads (h : P (msg + 1)) :
    Reads P m (isMaskedMsg msg) (decide (Masked m msg)) :=
  (Reads.load h).bind (.pure _)

theorem isFinMsg_reads (h : P msg) : Reads P m (isFinMsg msg) (decide (Fin m msg)) :=
  (Reads.load h).bind (.pure _)

theorem getMask_reads (h : P (msg + 1)) : Reads P m (getMask msg) (msg + lenEnd m msg) := by
  apply (Reads.load h).bind
  unfold lenEnd lenByte
  split
  · exact .pure _
  · apply (Reads.load h).bind
    split <;> exact .pure _

theorem getPayloadPtr_reads (h : P (msg + 1)) :
    Reads P m (getPayloadPtr msg) (msg + headerLen m msg) := by
  apply (getMask_reads h).bind
  apply (isMaskedMsg_reads h).bind
  unfold headerLen
  by_cases hmask : Masked m msg
  · simpa [hmask, Nat.add_assoc] using Reads.pure (msg + lenEnd m msg + 4)
  · simpa [hmask] using Reads.pure (msg + lenEnd m msg)

theorem getMessageLen_reads (h : ∀ i < lenEnd m msg, P (msg + i)) :
    Reads P m (getMessageLen msg) (messageLen m msg) := by
  have h1 : P (msg + 1) := h 1 two_le_lenEnd
  apply (Reads.load h1).bind
  unfold messageLen lenByte
  split
  next h126 =>
    have h4 : lenEnd m msg = 4 := if_pos h126
    apply (Reads.load (h 2 (by omega))).bind
    apply (Reads.load (h 3 (by omega))).bind
    exact .pure _
  next =>
    apply (Reads.load h1).bind
    split
    · exact .pure _
    · apply (Reads.load h1).bind
      exact .pure _

theorem unmaskFrom_memory {pld mask : Nat} (hkey : mask + 4 ≤ pld) (n i j : Nat) :
    (unmaskFrom pld mask i n m).memory j =
      if pld + i ≤ j ∧ j < pld + i + n then m (mask + (j - pld) % 4) ^^^ m j else m j := by
  induction n generalizing i m with
  | zero =>
    rw [if_neg (by omega)]
    rfl
  | succ n ih =>
    have hkeep : ∀ k, mask + k % 4 ≠ pld + i := fun k => by omega
    simp only [unmaskFrom, bind_apply, load_apply, store_apply, ih, Function.update_apply,
      if_neg (hkeep _)]
    rcases Nat.lt_trichotomy j (pld + i) with hj | rfl | hj
    · rw [if_neg (by omega), if_neg (by omega), if_neg (by omega)]
    · rw [if_neg (by omega), if_pos rfl, if_pos (by omega), Nat.add_sub_cancel_left]
    · rw [if_neg (by omega : ¬ j = pld + i)]
      exact if_congr (by omega) rfl rfl

theorem unmaskFrom_within_iff {pld mask : Nat} (hkey : ∀ k < 4, P (mask + k)) (n i : Nat) :
    Within P m (unmaskFrom pld mask i n) ↔ ∀ k < n, P (pld + (i + k)) := by
  induction n generalizing i m with
  | zero => simp [unmaskFrom, Within.pure]
  | succ n ih =>
    have hk : P (mask + i % 4) := hkey _ (Nat.mod_lt _ (by decide))
    simp only [unmaskFrom, within_bind_iff, within_load_iff, within_store_iff, ih]
    constructor
    · rintro ⟨-, h0, -, hrest⟩ k hlt
      cases k with
      | zero => exact h0
      | succ k => simpa [Nat.add_assoc, Nat.add_comm 1 k] using hrest k (by omega)
    · intro h
      have h0 : P (pld + i) := h 0 (by omega)
      exact ⟨hk, h0, h0, fun k hlt => by
        simpa [Nat.add_assoc, Nat.add_comm 1 k] using h (k + 1) (by omega)⟩

end RadProt.Websocket
