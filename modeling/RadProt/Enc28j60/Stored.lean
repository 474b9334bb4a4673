import RadProt.Enc28j60.Reception

namespace RadProt.Enc28j60

open RadProt.Lib

def extent : List Frame → Nat
  | [] => 0
  | f :: frames => f.size + extent frames

@[simp]
theorem extent_append (frames more : List Frame) :
    extent (frames ++ more) = extent frames + extent more := by
  induction frames with
  | nil => exact (Nat.zero_add _).symm
  | cons f frames ih => rw [List.cons_append, extent, ih, extent, Nat.add_assoc]

theorem extent_take_succ {frames : List Frame} {k : Nat} {f : Frame} (h : frames[k]? = some f) :
    extent (frames.take (k + 1)) = extent (frames.take k) + f.size := by
  rw [List.take_add_one, extent_append, h]
  rfl

theorem Frame.le_size (f : Frame) : 6 + f.data.length ≤ f.size := Nat.le_add_right _ _

def Holds (mem : Nat → UInt8) : Nat → List Frame → Prop
  | _, [] => True
  | p, f :: frames =>
    ringRead rxSize mem p (6 + f.data.length) = f.header ((p + f.size) % rxSize) ++ f.data ∧
      Holds mem (p + f.size) frames

structure Stored (c : RxChip) (p : Nat) (frames : List Frame) : Prop where
  holds : Holds c.mem p frames
  erxwrpt : c.erxwrpt = (p + extent frames) % rxSize
  /-- `ERXRDPT` is where they start, or, at first, one byte before. -/
  room : ∃ gap, gap ≤ 1 ∧ c.erxrdpt = (p + rxSize - gap) % rxSize ∧
    extent frames + gap + 1 ≤ rxSize

variable {c c' : RxChip} {p q : Nat} {f : Frame} {frames : List Frame} {bytes : List UInt8}
  {mem : Nat → UInt8}

theorem Holds.write (h : Holds mem p frames) (hbehind : p + extent frames ≤ q)
    (hround : q + bytes.length ≤ p + rxSize) :
    Holds (ringWrite rxSize mem q bytes) p frames := by
  induction frames generalizing p with
  | nil => trivial
  | cons f frames ih =>
    have hsize := f.le_size
    rw [extent] at hbehind
    refine ⟨?_, ih h.2 (by omega) (by omega)⟩
    rw [ringRead_ringWrite_of_le (by omega) hround]
    exact h.1

theorem Holds.append (h : Holds mem p frames)
    (hf : ringRead rxSize mem (p + extent frames) (6 + f.data.length) =
      f.header ((p + extent frames + f.size) % rxSize) ++ f.data) : Holds mem p (frames ++ [f]) := by
  induction frames generalizing p with
  | nil => exact ⟨hf, trivial⟩
  | cons g frames ih =>
    rw [extent, ← Nat.add_assoc] at hf
    exact ⟨h.1, ih h.2 hf⟩

theorem Stored.free (h : Stored c p frames) : ∃ gap, gap ≤ 1 ∧
    c.erxrdpt = (p + rxSize - gap) % rxSize ∧ c.free + extent frames + gap + 1 = rxSize := by
  obtain ⟨gap, hgap, herxrdpt, hroom⟩ := h.room
  refine ⟨gap, hgap, herxrdpt, ?_⟩
  have herxwrpt := h.erxwrpt
  rw [RxChip.free]
  simp only [rxSize] at *
  omega

theorem Stored.write (h : Stored c p frames) (hfree : bytes.length ≤ c.free) :
    Stored (c.write bytes) p frames where
  holds := by
    obtain ⟨gap, -, -, hspace⟩ := h.free
    rw [RxChip.write, h.erxwrpt, ringWrite_mod]
    exact h.holds.write (Nat.le_refl _) (by omega)
  erxwrpt := h.erxwrpt
  room := h.room

theorem Frame.length_image (f : Frame) (next : Nat) :
    (f.header next ++ f.data).length = 6 + f.data.length := by
  rw [List.length_append]
  rfl

theorem Stored.store (h : Stored c p frames) (hfree : f.size ≤ c.free) :
    Stored (c.store f) p (frames ++ [f]) := by
  obtain ⟨gap, hgap, herxrdpt, hspace⟩ := h.free
  have hsize := f.le_size
  have hlength := f.length_image ((c.erxwrpt + f.size) % rxSize)
  have hwrite : Stored (c.write (f.header ((c.erxwrpt + f.size) % rxSize) ++ f.data)) p frames :=
    h.write (by omega)
  refine ⟨hwrite.holds.append ?_, ?_, gap, hgap, herxrdpt, ?_⟩
  · rw [RxChip.write, h.erxwrpt, ringWrite_mod, Nat.mod_add_mod, ← f.length_image,
      ringRead_ringWrite_self]
    rw [f.length_image]
    omega
  · rw [RxChip.store, extent_append, ← Nat.add_assoc, h.erxwrpt, Nat.mod_add_mod]
    rfl
  · rw [extent_append, extent, extent, Nat.add_zero]
    omega

theorem Stored.release (h : Stored c p (f :: frames))
    (herxrdpt : c'.erxrdpt = (p + f.size) % rxSize) (hmem : c'.mem = c.mem)
    (herxwrpt : c'.erxwrpt = c.erxwrpt) : Stored c' (p + f.size) frames where
  holds := by
    rw [hmem]
    exact h.holds.2
  erxwrpt := by rw [herxwrpt, h.erxwrpt, extent, Nat.add_assoc]
  room := by
    obtain ⟨gap, hgap, -, hroom⟩ := h.room
    have hsize := f.le_size
    rw [extent] at hroom
    refine ⟨0, Nat.zero_le 1, ?_, by omega⟩
    rw [herxrdpt, Nat.sub_zero, Nat.add_mod_right]

theorem Holds.header (h : Holds mem p (f :: frames)) :
    ringRead rxSize mem p 6 = f.header ((p + f.size) % rxSize) ∧
      ringRead rxSize mem (p + 6) f.data.length = f.data := by
  have himage := h.1
  rw [ringRead_add] at himage
  exact List.append_inj himage (length_ringRead _ _ _ _)

theorem le16_ofNat (n : Nat) : le16 (.ofNat n) (.ofNat (n / 256)) = .ofNat n := by
  apply UInt16.toNat_inj.mp
  rw [le16, UInt16.toNat_ofNat', UInt16.toNat_ofNat', UInt8.toNat_ofNat', UInt8.toNat_ofNat']
  omega

theorem Frame.ofBytes_header (f : Frame) (next : Nat) :
    PacketMetaInfo.ofBytes (f.header next) = f.info next := by
  rw [PacketMetaInfo.ofBytes, Frame.info]
  congr 1
  · exact le16_ofNat next
  · exact le16_ofNat f.data.length

theorem Stored.data_length (h : Stored c p (f :: frames)) : f.data.length < 65536 := by
  obtain ⟨gap, -, -, hroom⟩ := h.room
  have hsize := f.le_size
  rw [extent, rxSize] at hroom
  omega

end RadProt.Enc28j60
