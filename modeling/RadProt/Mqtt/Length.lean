import Mathlib.Algebra.Group.Nat.Defs
import RadProt.Lib.Access
import RadProt.Mqtt.Packet

namespace RadProt.Mqtt

open RadProt.Lib

/-! The remaining length of a packet: seven bits a byte, the lowest first. -/

section Decode

variable {σ : Type}

/-- `MQTTPacket_decode` with the characters of `getchar`, and `decodePacket`, which has a loop of
its own; `none` from `getchar` is a result other than 1. In `fuel` more turns, the characters asked
for and the value. -/
def decodeLoop (getchar : StateT σ Option (Option UInt8)) :
    (fuel len value multiplier : Nat) → StateT σ Option (Nat × Nat)
  | 0, len, value, _ => return (len + 1, value)
  | fuel + 1, len, value, multiplier => do
    let c ← getchar
    c.elim (return (len + 1, value)) fun c =>
      let value := value + (c &&& 127).toNat * multiplier
      if c &&& 128 = 0 then return (len + 1, value)
      else decodeLoop getchar fuel (len + 1) value (multiplier * 128)

def maxNoOfRemainingLengthBytes : Nat := 4

def mqttPacketDecode (getchar : StateT σ Option (Option UInt8)) : StateT σ Option (Nat × Nat) :=
  decodeLoop getchar maxNoOfRemainingLengthBytes 0 0 1

inductive Supplies (getchar : StateT σ Option (Option UInt8)) : σ → List UInt8 → σ → Prop
  | nil {s} : Supplies getchar s [] s
  | cons {s t u c cs} : getchar s = some (some c, t) → Supplies getchar t cs u →
      Supplies getchar s (c :: cs) u

theorem Supplies.append {getchar : StateT σ Option (Option UInt8)} {s t u : σ}
    {cs ds : List UInt8} (h : Supplies getchar s cs t) (k : Supplies getchar t ds u) :
    Supplies getchar s (cs ++ ds) u := by
  induction h with
  | nil => exact k
  | cons hc _ ih => exact .cons hc (ih k)

end Decode

section Digits

theorem low_last {n : Nat} (h : n < 128) :
    (UInt8.ofNat n &&& 127).toNat = n ∧ UInt8.ofNat n &&& 128 = 0 := by
  have hall : ∀ k : Fin 128, (UInt8.ofNat k &&& 127).toNat = k ∧ UInt8.ofNat k &&& 128 = 0 := by
    decide
  exact hall ⟨n, h⟩

theorem low_continued {n : Nat} (h : n < 128) :
    (UInt8.ofNat (n + 128) &&& 127).toNat = n ∧ UInt8.ofNat (n + 128) &&& 128 ≠ 0 := by
  have hall : ∀ k : Fin 128, (UInt8.ofNat (k + 128) &&& 127).toNat = k ∧
      UInt8.ofNat (k + 128) &&& 128 ≠ 0 := by
    decide
  exact hall ⟨n, h⟩

theorem mqttPacketEncode_of_lt {n : Nat} (h : n < 128) : mqttPacketEncode n = [.ofNat n] := by
  rw [mqttPacketEncode, if_pos (Nat.div_eq_of_lt h), Nat.mod_eq_of_lt h]

theorem mqttPacketEncode_of_le {n : Nat} (h : 128 ≤ n) :
    mqttPacketEncode n = .ofNat (n % 128 + 128) :: mqttPacketEncode (n / 128) := by
  have hne : n / 128 ≠ 0 := Nat.ne_of_gt (Nat.div_pos h (by decide))
  rw [mqttPacketEncode, if_neg hne]

theorem mqttPacketEncode_ne_nil (n : Nat) : mqttPacketEncode n ≠ [] := by
  rw [mqttPacketEncode]
  split <;> exact List.cons_ne_nil _ _

theorem length_mqttPacketEncode_eq_one_iff {n : Nat} :
    (mqttPacketEncode n).length = 1 ↔ n < 128 := by
  by_cases hn : n < 128
  · rw [mqttPacketEncode_of_lt hn]
    exact iff_of_true rfl hn
  · rw [mqttPacketEncode_of_le (Nat.not_lt.mp hn), List.length_cons]
    have hpos := List.length_pos_iff.mpr (mqttPacketEncode_ne_nil (n / 128))
    exact iff_of_false (by omega) hn

variable {σ : Type} {getchar : StateT σ Option (Option UInt8)} {s s' : σ}

theorem decodeLoop_encode {fuel n : Nat} (hpos : 0 < fuel) (h : n < 128 ^ fuel)
    (hs : Supplies getchar s (mqttPacketEncode n) s') (len value multiplier : Nat) :
    decodeLoop getchar fuel len value multiplier s =
      some ((len + (mqttPacketEncode n).length, value + n * multiplier), s') := by
  induction fuel generalizing n s len value multiplier with
  | zero => exact absurd hpos (Nat.lt_irrefl 0)
  | succ fuel ih =>
    by_cases hn : n < 128
    · obtain ⟨hlow, hlast⟩ := low_last hn
      rw [mqttPacketEncode_of_lt hn] at hs ⊢
      cases hs with
      | cons hc hrest =>
        cases hrest
        simp only [decodeLoop, bind, StateT.bind, hc, Option.bind_some, Option.elim_some, hlow,
          hlast, if_true]
        rfl
    · have hle := Nat.not_lt.mp hn
      obtain ⟨hlow, hmore⟩ := low_continued (Nat.mod_lt n (by decide : 0 < 128))
      rw [mqttPacketEncode_of_le hle] at hs ⊢
      cases hs with
      | cons hc hrest =>
        have hfuel : 0 < fuel := by
          refine Nat.pos_of_ne_zero fun hzero => hn ?_
          rw [hzero] at h
          exact h
        have hdiv : n / 128 < 128 ^ fuel :=
          Nat.div_lt_of_lt_mul (by rwa [Nat.mul_comm, ← Nat.pow_succ])
        have hvalue : n % 128 * multiplier + n / 128 * (multiplier * 128) = n * multiplier := by
          rw [← Nat.mul_assoc, Nat.mul_right_comm, ← Nat.add_mul, Nat.add_comm, Nat.mul_comm _ 128,
            Nat.div_add_mod]
        simp only [decodeLoop, bind, StateT.bind, hc, Option.bind_some, Option.elim_some, hlow,
          hmore, if_false]
        rw [ih hfuel hdiv hrest, List.length_cons, Nat.add_assoc value, hvalue, Nat.add_assoc,
          Nat.add_comm 1]

theorem mqttPacketDecode_encode {n : Nat} (h : n < 128 ^ 4)
    (hs : Supplies getchar s (mqttPacketEncode n) s') :
    mqttPacketDecode getchar s = some (((mqttPacketEncode n).length, n), s') := by
  rw [mqttPacketDecode, maxNoOfRemainingLengthBytes, decodeLoop_encode (by decide) h hs,
    Nat.zero_add, Nat.zero_add, Nat.mul_one]

end Digits

section Buffer

def bufchar (buf : Nat → UInt8) : StateT Nat Option (Option UInt8) := fun p =>
  some (some (buf p), p + 1)

def mqttPacketDecodeBuf (buf : Nat → UInt8) (p : Nat) : Option (Nat × Nat) :=
  (mqttPacketDecode (bufchar buf) p).map Prod.fst

theorem supplies_bufchar {buf : Nat → UInt8} {p : Nat} {cs : List UInt8}
    (h : Access.Holds buf p cs) : Supplies (bufchar buf) p cs (p + cs.length) := by
  induction cs generalizing p with
  | nil => exact .nil
  | cons c cs ih =>
    obtain ⟨hc, hcs⟩ := Access.holds_cons_iff.mp h
    refine .cons (by rw [bufchar, hc]) ?_
    rw [List.length_cons, Nat.add_comm cs.length, ← Nat.add_assoc]
    exact ih hcs

theorem mqttPacketDecodeBuf_encode {buf : Nat → UInt8} {p n : Nat} (hn : n < 128 ^ 4)
    (h : Access.Holds buf p (mqttPacketEncode n)) :
    mqttPacketDecodeBuf buf p = some ((mqttPacketEncode n).length, n) := by
  rw [mqttPacketDecodeBuf, mqttPacketDecode_encode hn (supplies_bufchar h), Option.map_some]

end Buffer

end RadProt.Mqtt
