import RadProt.Enc28j60.Receive
import RadProt.Enc28j60.Transmit

namespace RadProt.Enc28j60

open RadProt.Lib

/-! The transmit area: a frame has room in it if its status vector has. -/

/-- When a transmission is over, the chip writes its status vector behind `ETXND`. -/
def TxChip.writeTsv (c : TxChip) (tsv : List UInt8) : TxChip :=
  { c with mem := ringWrite memorySize c.mem (c.etxnd.toNat + 1) tsv }

/-- `p` stands in the transmit area behind its control byte, and so will its status vector; the
receive ring is left alone. -/
structure InArea (before after : TxChip) (p : List (List UInt8)) : Prop where
  written : ringRead memorySize after.mem txstartInit.toNat (p.flatten.length + 1) = 0 :: p.flatten
  last : after.etxnd.toNat = txstartInit.toNat + p.flatten.length
  fits : after.etxnd.toNat + tsvSize ≤ txendInit.toNat
  ring : ∀ tsv : List UInt8, tsv.length = tsvSize → ∀ a ≤ rxendInit.toNat,
    (after.writeTsv tsv).mem a = before.mem a

namespace Transmitter

section Area

variable {s : Transmitter} {p : List (List UInt8)}

theorem written_writeTsv (haccepts : Accepts p) (polls : Nat) {tsv : List UInt8}
    (htsv : tsv.length = tsvSize) :
    Written memorySize s.chip.mem txstartInit.toNat (0 :: p.flatten ++ tsv)
      ((s.sendPbuf polls p).chip.writeTsv tsv).mem := by
  obtain ⟨chip, hsent, -, hetxnd, hwritten⟩ := exists_sendPbuf (s := s) haccepts polls
  have hlength : p.flatten.length ≤ 1535 := Nat.le_of_add_le_add_left haccepts
  have hfits : (0 :: p.flatten).length + tsv.length ≤ memorySize := by
    rw [htsv, List.length_cons, tsvSize, memorySize]
    omega
  have hbehind : chip.etxnd.toNat + 1 = txstartInit.toNat + (0 :: p.flatten).length := by
    rw [hetxnd, List.length_cons, Nat.add_assoc]
  rw [hsent, TxChip.writeTsv, hbehind]
  exact hwritten.append hfits

theorem inArea_of_le (haccepts : Accepts p) (hle : p.flatten.length ≤ 1528) (polls : Nat) :
    InArea s.chip (s.sendPbuf polls p).chip p := by
  have hstart : txstartInit.toNat = 6656 := rfl
  have hend : txendInit.toNat = 8191 := rfl
  have hring : rxendInit.toNat = 6655 := rfl
  have hmemory : memorySize = 8192 := rfl
  obtain ⟨chip, hsent, -, hetxnd, hwritten⟩ := exists_sendPbuf (s := s) haccepts polls
  have hchip : (s.sendPbuf polls p).chip = chip := by rw [hsent]
  refine ⟨?_, hchip ▸ hetxnd, ?_, fun tsv htsv a ha => ?_⟩
  · rw [hchip]
    refine hwritten.read ?_
    rw [List.length_cons]
    omega
  · rw [hchip, hetxnd, tsvSize]
    omega
  · -- The receive ring stands behind the transmit area, on the way round.
    have hcell : a = (txstartInit.toNat + (a + 1536)) % memorySize := by
      rw [hstart, hmemory]
      omega
    have hlength : (0 :: p.flatten ++ tsv).length ≤ a + 1536 := by
      rw [List.length_append, List.length_cons, htsv, tsvSize]
      omega
    rw [hcell]
    exact (written_writeTsv haccepts polls htsv).outside (by omega) hlength

/-- `send_pbuf` keeps to the transmit area exactly for the chains with room for a status vector, and
for those that it refuses. -/
theorem sendPbuf_inArea_iff (s : Transmitter) (polls : Nat) (p : List (List UInt8)) :
    (Accepts p → InArea s.chip (s.sendPbuf polls p).chip p) ∧
        (¬ Accepts p → s.sendPbuf polls p = s) ↔
      p.flatten.length ≤ 1528 ∨ 1535 < p.flatten.length := by
  have hstart : txstartInit.toNat = 6656 := rfl
  have hend : txendInit.toNat = 8191 := rfl
  have haccepts : Accepts p ↔ p.flatten.length ≤ 1535 := by
    rw [Accepts]
    omega
  constructor
  · rintro ⟨harea, -⟩
    by_cases hle : p.flatten.length ≤ 1535
    · have h := harea (haccepts.mpr hle)
      have hfits := h.fits
      rw [h.last, tsvSize] at hfits
      exact .inl (by omega)
    · exact .inr (Nat.lt_of_not_le hle)
  · rintro (hle | hlt)
    · have hok := haccepts.mpr (Nat.le_trans hle (by decide))
      exact ⟨fun _ => inArea_of_le hok hle polls, fun hrefused => absurd hok hrefused⟩
    · have hrefused : ¬ Accepts p := fun hok => absurd (haccepts.mp hok) (Nat.not_le.mpr hlt)
      exact ⟨fun hok => absurd hok hrefused, fun _ => if_neg hrefused⟩

/-- A frame of 1529 bytes is accepted, and the last byte of its status vector is the first one of
the receive ring. -/
theorem longFrame_overwrites :
    Accepts [List.replicate 1529 0] ∧
      ¬ InArea (init fun _ => 0).chip ((init fun _ => 0).sendPbuf 1 [List.replicate 1529 0]).chip
        [List.replicate 1529 0] ∧
      (((init fun _ => 0).sendPbuf 1 [List.replicate 1529 0]).chip.writeTsv
        (List.replicate tsvSize 1)).mem 0 = 1 := by
  have haccepts : Accepts [List.replicate 1529 0] := by
    rw [Accepts, List.flatten_singleton, List.length_replicate]
    decide
  refine ⟨haccepts, fun h => ?_, ?_⟩
  · have hfits := h.fits
    rw [h.last, List.flatten_singleton, List.length_replicate] at hfits
    exact absurd hfits (by decide)
  · have hwritten := @written_writeTsv (init fun _ => 0) _ haccepts 1 (List.replicate tsvSize 1)
      List.length_replicate
    have hlast : (0 :: [List.replicate 1529 0].flatten ++ List.replicate tsvSize (1 : UInt8))[1536]? =
        some 1 := by decide +kernel
    have hcell := hwritten 1536 (by decide)
    rw [hlast, Option.getD_some] at hcell
    exact hcell

end Area

end Transmitter

end RadProt.Enc28j60
