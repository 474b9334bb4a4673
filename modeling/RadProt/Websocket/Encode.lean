import RadProt.Websocket.Bounds

namespace RadProt.Websocket

open RadProt.Lib RadProt.Lib.Access

structure ClientFrame where
  fin : Bool
  type : UInt8
  payload : List UInt8
  key : Vector UInt8 4
  wide : Bool
  type_lt : type < 16
  narrow_le : wide = false → payload.length ≤ 125
  wide_lt : payload.length < 65536

namespace ClientFrame

def typeByte (f : ClientFrame) : UInt8 := if f.fin then finFlag ||| f.type else f.type

def lengthBytes (f : ClientFrame) : List UInt8 :=
  if f.wide then
    [maskedFlag ||| 126, (f.payload.length / 256).toUInt8, (f.payload.length % 256).toUInt8]
  else [maskedFlag ||| f.payload.length.toUInt8]

def keyByte (f : ClientFrame) (i : Nat) : UInt8 := f.key.get ⟨i % 4, Nat.mod_lt _ (by decide)⟩

def maskedPayload (f : ClientFrame) : List UInt8 :=
  f.payload.mapIdx fun i b => f.keyByte i ^^^ b

def encode (f : ClientFrame) : List UInt8 :=
  f.typeByte :: f.lengthBytes ++ f.key.toList ++ f.maskedPayload

variable {f : ClientFrame} {m : Nat → UInt8} {a : Nat}

@[simp] theorem length_maskedPayload (f : ClientFrame) :
    f.maskedPayload.length = f.payload.length := by simp [maskedPayload]

theorem of_toNat_lt {p : UInt8 → Prop} {n : Nat} (h : ∀ k < n, p k.toUInt8) {b : UInt8}
    (hb : b.toNat < n) : p b := by
  simpa using h b.toNat hb

theorem type_typeByte (f : ClientFrame) : f.typeByte &&& typeMask = f.type := by
  have hset : ∀ k < 16, (finFlag ||| k.toUInt8) &&& typeMask = k.toUInt8 := by decide
  have hclear : ∀ k < 16, k.toUInt8 &&& typeMask = k.toUInt8 := by decide
  unfold typeByte
  cases f.fin with
  | true => exact of_toNat_lt (p := fun b => (finFlag ||| b) &&& typeMask = b) hset f.type_lt
  | false => exact of_toNat_lt (p := fun b => b &&& typeMask = b) hclear f.type_lt

theorem fin_typeByte (f : ClientFrame) : f.typeByte &&& finFlag ≠ 0 ↔ f.fin = true := by
  have hset : ∀ k < 16, (finFlag ||| k.toUInt8) &&& finFlag ≠ 0 := by decide
  have hclear : ∀ k < 16, k.toUInt8 &&& finFlag = 0 := by decide
  unfold typeByte
  cases f.fin with
  | true =>
    exact iff_of_true (of_toNat_lt (p := fun b => (finFlag ||| b) &&& finFlag ≠ 0) hset f.type_lt) rfl
  | false =>
    exact iff_of_false
      (not_not_intro (of_toNat_lt (p := fun b => b &&& finFlag = 0) hclear f.type_lt)) (by decide)

structure Stands (f : ClientFrame) (m : Nat → UInt8) (a : Nat) : Prop where
  opcode : opcode m a = f.type
  fin : Fin m a ↔ f.fin = true
  masked : Masked m a
  messageLen : messageLen m a = f.payload.length
  key : ∀ k < 4, m (a + lenEnd m a + k) = f.keyByte k
  payload : Holds m (a + headerLen m a) f.maskedPayload
  header : headerLen m a + f.payload.length = f.encode.length

theorem lengthBytes_wide (hw : f.wide = true) :
    f.lengthBytes = [maskedFlag ||| 126, (f.payload.length / 256).toUInt8,
      (f.payload.length % 256).toUInt8] := if_pos hw

theorem lengthBytes_narrow (hw : f.wide = false) :
    f.lengthBytes = [maskedFlag ||| f.payload.length.toUInt8] := if_neg (by simp [hw])

theorem narrow_byte {n : Nat} (h : n ≤ 125) :
    (maskedFlag ||| n.toUInt8) &&& 0x7F = n.toUInt8 ∧
      (maskedFlag ||| n.toUInt8) &&& maskedFlag ≠ 0 := by
  have hall : ∀ k < 126, (maskedFlag ||| k.toUInt8) &&& 0x7F = k.toUInt8 ∧
    (maskedFlag ||| k.toUInt8) &&& maskedFlag ≠ 0 := by decide
  exact hall n (Nat.lt_succ_of_le h)

theorem masked_of_holds (h : Holds m (a + 1) f.lengthBytes) : Masked m a := by
  cases hw : f.wide with
  | true =>
    rw [lengthBytes_wide hw] at h
    rw [Masked, (holds_cons_iff.mp h).1]
    decide
  | false =>
    rw [lengthBytes_narrow hw] at h
    rw [Masked, (holds_cons_iff.mp h).1]
    exact (narrow_byte (f.narrow_le hw)).2

theorem length_of_holds (h : Holds m (a + 1) f.lengthBytes) :
    lenEnd m a = 1 + f.lengthBytes.length ∧ messageLen m a = f.payload.length := by
  cases hw : f.wide with
  | true =>
    rw [lengthBytes_wide hw] at h ⊢
    rw [holds_cons_iff, holds_cons_iff, holds_cons_iff] at h
    have hlen : lenByte m a = 126 := by rw [lenByte, h.1]; decide
    have hlow : (f.payload.length % 256).toUInt8 = f.payload.length.toUInt8 := by
      apply UInt8.toNat_inj.mp
      simp [Nat.toUInt8]
    exact length_wide f.wide_lt hlen h.2.1 (h.2.2.1.trans hlow)
  | false =>
    rw [lengthBytes_narrow hw] at h ⊢
    have hle := f.narrow_le hw
    refine length_narrow (Nat.lt_succ_of_le hle) ?_
    rw [lenByte, (holds_cons_iff.mp h).1]
    exact (narrow_byte hle).1

theorem stands (h : Holds m a f.encode) : f.Stands m a := by
  rw [encode, List.append_assoc, List.cons_append, holds_cons_iff, holds_append_iff,
    holds_append_iff] at h
  obtain ⟨htype, hlength, hkey, hpayload⟩ := h
  have hmasked := masked_of_holds hlength
  obtain ⟨hlenEnd, hlen⟩ := length_of_holds hlength
  have hheader : headerLen m a = 1 + f.lengthBytes.length + 4 := by
    rw [headerLen, if_pos hmasked, hlenEnd]
  constructor
  case opcode => rw [opcode, htype, type_typeByte]
  case fin => rw [Fin, htype, fin_typeByte]
  case masked => exact hmasked
  case messageLen => exact hlen
  case key =>
    intro k hk
    rw [hlenEnd, ← Nat.add_assoc a, hkey k (by simpa using hk)]
    simp [keyByte, Nat.mod_eq_of_lt hk, Vector.get]
  case payload =>
    rw [hheader]
    simpa [Nat.add_assoc] using hpayload
  case header => simp [encode, hheader]; omega

theorem getElem_maskedPayload {i : Nat} (h : i < f.payload.length) :
    f.maskedPayload.get ⟨i, by simpa using h⟩ = f.keyByte i ^^^ f.payload.get ⟨i, h⟩ := by
  simp [maskedPayload]

theorem Stands.unmasked (h : f.Stands m a) :
    Holds (unmaskMessagePayload (a + headerLen m a) f.payload.length (a + lenEnd m a) m).memory
      (a + headerLen m a) f.payload := by
  have hend : headerLen m a = lenEnd m a + 4 := by rw [headerLen, if_pos h.masked]
  intro i hi
  rw [unmaskMessagePayload, unmaskFrom_memory (by omega), if_pos (by omega),
    h.payload i (by simpa using hi), getElem_maskedPayload hi, Nat.add_sub_cancel_left,
    h.key _ (Nat.mod_lt _ (by decide)), ← UInt8.xor_assoc]
  simp [keyByte]

theorem Stands.handleFrame_after (h : f.Stands m a) (hdata : ¬ IsControl f.type)
    (msgHandler : Bool) (client : Client) :
    After (fun _ => True) m (handleFrame msgHandler client a f.encode.length)
      (handleDataFrame msgHandler client a) := by
  have hlen : headerLen m a ≤ f.encode.length := h.header ▸ Nat.le_add_right _ _
  apply (handleFrame_complete (fun _ _ => trivial) hlen).trans
  exact handleCheckedFrame_data trivial (by rwa [h.opcode])

theorem handleFrame_value (client : Client) (h : f.Stands m a) (hfin : f.fin = true)
    (hdata : ¬ IsControl f.type) :
    (handleFrame true client a f.encode.length m).value =
      (client, [.message (a + headerLen m a) f.payload.length f.type f.payload]) := by
  have hend : headerLen m a = lenEnd m a + 4 := by rw [headerLen, if_pos h.masked]
  have hdeliver : (handleDataFrame true client a m).value = _ :=
    (handleDataFrame_fin (P := fun _ => True) (fun _ _ => trivial) (h.fin.mpr hfin)).value
  have hkept : (unmaskMessagePayload (a + headerLen m a) f.payload.length (a + lenEnd m a) m).memory a
      = m a := by
    rw [unmaskMessagePayload, unmaskFrom_memory (by omega)]
    exact if_neg (by omega)
  have hview : (List.range f.payload.length).map (fun i =>
      (unmaskMessagePayload (a + headerLen m a) f.payload.length (a + lenEnd m a) m).memory
        (a + headerLen m a + i)) = f.payload := by
    apply List.ext_getElem (by simp)
    intro i hi hi'
    simpa using h.unmasked i hi'
  rw [(h.handleFrame_after hdata true client).value, hdeliver, if_pos h.masked, h.messageLen,
    bind_apply]
  simp only [deliver, if_true, bind_apply, load_apply, view_apply, pure_apply, hkept, hview]
  rw [← h.opcode, opcode]

end ClientFrame

end RadProt.Websocket
