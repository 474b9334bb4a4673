import Mathlib.Data.List.Basic

namespace RadProt.Lib

theorem forall_byte {P : UInt8 → Prop} (h : ∀ n : Fin 256, P (UInt8.ofFin n)) (x : UInt8) :
    P x := by
  have := h x.toFin
  rwa [UInt8.ofFin_toFin] at this

theorem or_and_distrib_right (x y z : UInt8) : (x ||| y) &&& z = x &&& z ||| y &&& z :=
  UInt8.toBitVec_inj.mp BitVec.and_or_distrib_right

end RadProt.Lib
