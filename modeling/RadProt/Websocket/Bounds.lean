import RadProt.Websocket.Frame

namespace RadProt.Websocket

open RadProt.Lib RadProt.Lib.Access

variable {P : Nat → Prop} {m : Nat → UInt8} {msgHandler : Bool} {client : Client}
  {buffer length : Nat}

def IsControl (type : UInt8) : Prop := type = typePing ∨ type = typePong ∨ type = typeClose

instance (type : UInt8) : Decidable (IsControl type) := inferInstanceAs (Decidable (_ ∨ _))

def controlResult (client : Client) (type : UInt8) : Client × List Effect :=
  if type = typePing then (client, [.send client.socket [finFlag ||| typePong, 0]])
  else if type = typePong then (client, [])
  else ({ socket := -1, established := false },
    [.send client.socket [finFlag ||| typeClose, 0], .close client.socket])

theorem required_eq (m : Nat → UInt8) (buffer : Nat) :
    (if decide (Masked m buffer) = true then
      (if m (buffer + 1) &&& 0x7F = 126 then 4 else if m (buffer + 1) &&& 0x7F = 127 then 10 else 2) + 4
    else if m (buffer + 1) &&& 0x7F = 126 then 4 else if m (buffer + 1) &&& 0x7F = 127 then 10
      else 2) = headerLen m buffer := by
  by_cases hmask : Masked m buffer <;> simp only [headerLen, lenEnd, lenByte, hmask] <;> rfl

theorem handleFrame_after (h1 : 2 ≤ length) (hP : P (buffer + 1)) :
    After P m (handleFrame msgHandler client buffer length)
      (if length < headerLen m buffer then pure (client, [])
        else handleCheckedFrame msgHandler client buffer) := by
  unfold handleFrame
  rw [if_neg (by omega)]
  apply (Reads.load hP).after_bind.trans
  apply (isMaskedMsg_reads hP).after_bind.trans
  rw [required_eq]
  exact .refl _

theorem handleFrame_short (hP : ∀ i < length, P (buffer + i))
    (hshort : length < headerLen m buffer) :
    Reads P m (handleFrame msgHandler client buffer length) (client, []) := by
  by_cases h2 : 2 ≤ length
  · apply (handleFrame_after h2 (hP 1 (by omega))).reads
    rw [if_pos hshort]
    exact .pure _
  · rw [handleFrame, if_pos (by omega)]
    exact .pure _

theorem handleFrame_complete (hP : ∀ i < length, P (buffer + i))
    (hlen : headerLen m buffer ≤ length) :
    After P m (handleFrame msgHandler client buffer length)
      (handleCheckedFrame msgHandler client buffer) := by
  have h2 : 2 ≤ length := Nat.le_trans two_le_lenEnd (Nat.le_trans lenEnd_le_headerLen hlen)
  apply (handleFrame_after h2 (hP 1 (by omega))).trans
  rw [if_neg (by omega)]
  exact .refl _

theorem handleCheckedFrame_control (hP : P buffer) (hctl : IsControl (opcode m buffer)) :
    Reads P m (handleCheckedFrame msgHandler client buffer)
      (controlResult client (opcode m buffer)) := by
  unfold IsControl at hctl
  unfold controlResult
  generalize htype : opcode m buffer = type at *
  apply (Reads.load hP).bind
  rw [show m buffer &&& typeMask = type from htype]
  by_cases hping : type = typePing
  · rw [if_pos hping, if_pos hping]
    exact .pure _
  · rw [if_neg hping, if_neg hping]
    apply (Reads.load hP).bind
    rw [show m buffer &&& typeMask = type from htype]
    by_cases hpong : type = typePong
    · rw [if_pos hpong, if_pos hpong]
      exact .pure _
    · have hclose : type = typeClose := (hctl.resolve_left hping).resolve_left hpong
      rw [if_neg hpong, if_neg hpong]
      apply (Reads.load hP).bind
      rw [show m buffer &&& typeMask = type from htype, if_pos hclose]
      exact .pure _

theorem handleCheckedFrame_data (hP : P buffer) (hctl : ¬ IsControl (opcode m buffer)) :
    After P m (handleCheckedFrame msgHandler client buffer)
      (handleDataFrame msgHandler client buffer) := by
  unfold IsControl opcode at hctl
  push Not at hctl
  apply (Reads.load hP).after_bind.trans
  rw [if_neg hctl.1]
  apply (Reads.load hP).after_bind.trans
  rw [if_neg hctl.2.1]
  apply (Reads.load hP).after_bind.trans
  rw [if_neg hctl.2.2]
  exact .refl _

theorem handleDataFrame_continued (hP : P buffer) (hfin : ¬ Fin m buffer) :
    Reads P m (handleDataFrame msgHandler client buffer) (client, []) := by
  apply (isFinMsg_reads hP).bind
  rw [if_neg (by simpa using hfin)]
  exact .pure _

def deliver (msgHandler : Bool) (client : Client) (buffer payload len : Nat) :
    Access (Client × List Effect) := do
  if msgHandler then
    let type := (← load buffer) &&& typeMask
    return (client, [.message payload len type (← view payload len)])
  else
    return (client, [])

theorem handleDataFrame_fin (hP : ∀ i < headerLen m buffer, P (buffer + i)) (hfin : Fin m buffer) :
    After P m (handleDataFrame msgHandler client buffer)
      (if Masked m buffer then
        unmaskMessagePayload (buffer + headerLen m buffer) (messageLen m buffer)
            (buffer + lenEnd m buffer) >>= fun _ =>
          deliver msgHandler client buffer (buffer + headerLen m buffer) (messageLen m buffer)
      else deliver msgHandler client buffer (buffer + headerLen m buffer) (messageLen m buffer)) := by
  have h2 : 2 ≤ headerLen m buffer := Nat.le_trans two_le_lenEnd lenEnd_le_headerLen
  have h1 : P (buffer + 1) := hP 1 (by omega)
  have hlen : ∀ i < lenEnd m buffer, P (buffer + i) :=
    fun i hi => hP i (Nat.lt_of_lt_of_le hi lenEnd_le_headerLen)
  apply (isFinMsg_reads (hP 0 (by omega))).after_bind.trans
  rw [if_pos (by simpa using hfin)]
  apply (getMessageLen_reads hlen).after_bind.trans
  apply (getPayloadPtr_reads h1).after_bind.trans
  apply (isMaskedMsg_reads h1).after_bind.trans
  by_cases hmask : Masked m buffer
  · rw [if_pos hmask, if_pos (by simpa using hmask)]
    apply (getMask_reads h1).after_bind.trans
    exact .refl _
  · rw [if_neg hmask, if_neg (by simpa using hmask)]
    exact .refl _

def InBuffer (buffer length a : Nat) : Prop := buffer ≤ a ∧ a < buffer + length

/-- From `m`, `x` touches received bytes only, and so do the payloads it hands out. -/
structure Inside (buffer length : Nat) (m : Nat → UInt8) (x : Access (Client × List Effect)) :
    Prop where
  accesses : Within (InBuffer buffer length) m x
  messages : ∀ payload len type data, .message payload len type data ∈ (x m).value.2 →
    buffer ≤ payload ∧ payload + len ≤ buffer + length

def Fits (msgHandler : Bool) (m : Nat → UInt8) (buffer length : Nat) : Prop :=
  length < headerLen m buffer ∨ IsControl (opcode m buffer) ∨ ¬ Fin m buffer ∨
    headerLen m buffer + messageLen m buffer ≤ length ∨ ¬ Masked m buffer ∧ msgHandler = false

instance (m : Nat → UInt8) : Decidable (Fits msgHandler m buffer length) :=
  inferInstanceAs (Decidable (_ ∨ _))

namespace Inside

variable {x y : Access (Client × List Effect)}

theorem iff_of_after (h : After (InBuffer buffer length) m x y) :
    Inside buffer length m x ↔ Inside buffer length m y := by
  constructor
  · rintro ⟨ha, hm⟩
    exact ⟨h.within.mp ha, h.value ▸ hm⟩
  · rintro ⟨ha, hm⟩
    exact ⟨h.within.mpr ha, h.value ▸ hm⟩

theorem of_reads {r : Client × List Effect} (h : Reads (InBuffer buffer length) m x r)
    (hr : ∀ payload len type data, .message payload len type data ∉ r.2) :
    Inside buffer length m x :=
  ⟨h.touched, fun _ _ _ _ hmem => (hr _ _ _ _ (h.value ▸ hmem)).elim⟩

end Inside

theorem message_notMem_controlResult (type : UInt8) (payload len : Nat) (t : UInt8)
    (data : List UInt8) : .message payload len t data ∉ (controlResult client type).2 := by
  unfold controlResult
  split
  · simp
  · split <;> simp

theorem deliver_inside_iff {payload len : Nat} (hP : InBuffer buffer length buffer) :
    Inside buffer length m (deliver msgHandler client buffer payload len) ↔
      (msgHandler = true → buffer ≤ payload ∧ payload + len ≤ buffer + length) := by
  cases msgHandler with
  | false =>
    exact iff_of_true (Inside.of_reads (Reads.pure (client, [])) fun _ _ _ _ => List.not_mem_nil)
      fun h => nomatch h
  | true =>
    constructor
    · intro h _
      exact h.messages payload len (m buffer &&& typeMask) _ List.mem_cons_self
    · intro h
      refine ⟨within_bind_iff.mpr ⟨within_load_iff.mpr hP, fun _ ha => nomatch ha⟩, ?_⟩
      intro p n type data hmem
      obtain ⟨rfl, rfl, -, -⟩ := Effect.message.inj (List.mem_singleton.mp hmem)
      exact h rfl

theorem unmask_within_iff (m : Nat → UInt8) (len : Nat) {pld mask : Nat}
    (hkey : ∀ k < 4, InBuffer buffer length (mask + k))
    (hpld : pld = mask + 4) :
    Within (InBuffer buffer length) m (unmaskMessagePayload pld len mask) ↔
      pld + len ≤ buffer + length := by
  have h3 := hkey 3 (by decide)
  rw [unmaskMessagePayload, unmaskFrom_within_iff hkey]
  unfold InBuffer at *
  constructor
  · intro h
    cases len with
    | zero => omega
    | succ n =>
      have := h n (by omega)
      omega
  · intro h k hk
    omega

theorem handleDataFrame_inside_iff (hlen : headerLen m buffer ≤ length) (hfin : Fin m buffer) :
    Inside buffer length m (handleDataFrame msgHandler client buffer) ↔
      headerLen m buffer + messageLen m buffer ≤ length ∨ ¬ Masked m buffer ∧ msgHandler = false := by
  have h2 : 2 ≤ headerLen m buffer := Nat.le_trans two_le_lenEnd lenEnd_le_headerLen
  have hP : ∀ i < headerLen m buffer, InBuffer buffer length (buffer + i) :=
    fun i hi => ⟨by omega, by omega⟩
  have h0 : InBuffer buffer length buffer := hP 0 (by omega)
  rw [Inside.iff_of_after (handleDataFrame_fin hP hfin)]
  by_cases hmask : Masked m buffer
  · have hend : headerLen m buffer = lenEnd m buffer + 4 := by rw [headerLen, if_pos hmask]
    have hkey : ∀ k < 4, InBuffer buffer length (buffer + lenEnd m buffer + k) := by
      intro k hk
      rw [Nat.add_assoc]
      exact hP _ (by omega)
    have hunmask := unmask_within_iff m (messageLen m buffer) hkey
      (show buffer + headerLen m buffer = _ by omega)
    rw [if_pos hmask, iff_false_intro (not_and_of_not_left _ (not_not_intro hmask)), or_false]
    constructor
    · intro h
      have := hunmask.mp (within_bind_iff.mp h.accesses).1
      omega
    · intro h
      have hdeliver : ∀ m', Inside buffer length m' (deliver msgHandler client buffer
          (buffer + headerLen m buffer) (messageLen m buffer)) :=
        fun m' => (deliver_inside_iff h0).mpr fun _ => by omega
      exact ⟨within_bind_iff.mpr ⟨hunmask.mpr (by omega), (hdeliver _).accesses⟩,
        (hdeliver _).messages⟩
  · rw [if_neg hmask, deliver_inside_iff h0]
    cases msgHandler <;> simp [hmask]
    omega

/-- `handle_frame` stays inside what was received exactly when the payload length that the
header declares does, or goes unused. -/
theorem handleFrame_inside_iff (msgHandler : Bool) (client : Client) (m : Nat → UInt8)
    (buffer length : Nat) :
    Inside buffer length m (handleFrame msgHandler client buffer length) ↔
      Fits msgHandler m buffer length := by
  have hP : ∀ i < length, InBuffer buffer length (buffer + i) :=
    fun i hi => ⟨by omega, by omega⟩
  unfold Fits
  by_cases hlen : headerLen m buffer ≤ length
  · have h2 : 2 ≤ headerLen m buffer := Nat.le_trans two_le_lenEnd lenEnd_le_headerLen
    have h0 : InBuffer buffer length buffer := hP 0 (by omega)
    rw [Inside.iff_of_after (handleFrame_complete hP hlen),
      iff_false_intro (Nat.not_lt.mpr hlen), false_or]
    by_cases hctl : IsControl (opcode m buffer)
    · exact iff_of_true (Inside.of_reads (handleCheckedFrame_control h0 hctl)
        (message_notMem_controlResult _)) (.inl hctl)
    · rw [Inside.iff_of_after (handleCheckedFrame_data h0 hctl), iff_false_intro hctl, false_or]
      by_cases hfin : Fin m buffer
      · rw [handleDataFrame_inside_iff hlen hfin, iff_false_intro (not_not_intro hfin), false_or]
      · exact iff_of_true (Inside.of_reads (handleDataFrame_continued h0 hfin)
          fun _ _ _ _ => List.not_mem_nil) (.inl hfin)
  · exact iff_of_true (Inside.of_reads (handleFrame_short hP (Nat.not_le.mp hlen))
      fun _ _ _ _ => List.not_mem_nil) (.inl (Nat.not_le.mp hlen))

/-- A masked text frame that declares one payload byte, received up to its key: the byte after
the received ones is read and written. -/
theorem handleFrame_past_received :
    ¬ Inside 0 6 (received [0x81, 0x81, 1, 2, 3, 4] fun _ => 0)
      (handleFrame true { socket := 5, established := true } 0 6) := by
  intro h
  have hpast : InBuffer 0 6 6 := h.accesses 6 (by decide)
  exact absurd hpast.2 (by decide)

end RadProt.Websocket
