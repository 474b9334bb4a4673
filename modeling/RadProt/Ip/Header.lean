import RadProt.Lib.InternetChecksum
import RadProt.Settings.Record

namespace RadProt.Ip

open RadProt.Lib.InternetChecksum RadProt.Settings

def ipHlen : Nat := 20

def ipProtoIcmp : UInt8 := 1
def ipProtoTcp : UInt8 := 6
def ipProtoUdp : UInt8 := 17

def load16 (bytes : List UInt8) (i : Nat) : UInt16 :=
  .ofNat ((bytes.getD i 0).toNat + 256 * (bytes.getD (i + 1) 0).toNat)

def load32 (bytes : List UInt8) (i : Nat) : UInt32 :=
  .ofNat ((load16 bytes i).toNat + 65536 * (load16 bytes (i + 2)).toNat)

def lwipHtons (w : UInt16) : UInt16 := .ofNat (w.toNat % 256 * 256 + w.toNat / 256)

structure IpHdr where
  vHl : UInt8
  tos : UInt8
  len : UInt16
  id : UInt16
  offset : UInt16
  ttl : UInt8
  proto : UInt8
  chksum : UInt16
  src : UInt32
  dest : UInt32

namespace IpHdr

def bytes (h : IpHdr) : List UInt8 :=
  [h.vHl, h.tos] ++ le16 h.len ++ le16 h.id ++ le16 h.offset ++ [h.ttl, h.proto] ++
    le16 h.chksum ++ le32 h.src ++ le32 h.dest

def ofBytes (bytes : List UInt8) : IpHdr where
  vHl := bytes.getD 0 0
  tos := bytes.getD 1 0
  len := load16 bytes 2
  id := load16 bytes 4
  offset := load16 bytes 6
  ttl := bytes.getD 8 0
  proto := bytes.getD 9 0
  chksum := load16 bytes 10
  src := load32 bytes 12
  dest := load32 bytes 16

def version (h : IpHdr) : Nat := h.vHl.toNat / 16

def hlBytes (h : IpHdr) : Nat := h.vHl.toNat % 16 * 4

def totalLen (h : IpHdr) : Nat := (lwipHtons h.len).toNat

def fragment (h : IpHdr) : Nat := (lwipHtons h.offset).toNat % 16384

end IpHdr

theorem toNat_lwipHtons (w : UInt16) :
    (lwipHtons w).toNat = w.toNat % 256 * 256 + w.toNat / 256 := by
  have := w.toNat_lt
  rw [lwipHtons, UInt16.toNat_ofNat', Nat.mod_eq_of_lt (by omega)]

@[simp] theorem lwipHtons_lwipHtons (w : UInt16) : lwipHtons (lwipHtons w) = w := by
  have := w.toNat_lt
  apply UInt16.toNat_inj.mp
  rw [toNat_lwipHtons, toNat_lwipHtons]
  omega

theorem toNat_load16 (b b' : UInt8) (rest : List UInt8) :
    (load16 (b :: b' :: rest) 0).toNat = b.toNat + 256 * b'.toNat := by
  have := b.toNat_lt
  have := b'.toNat_lt
  rw [load16, UInt16.toNat_ofNat']
  simp only [List.getD_cons_zero, List.getD_cons_succ]
  omega

theorem le16_eq (w : UInt16) : le16 w = [.ofNat w.toNat, .ofNat (w.toNat / 256)] := by
  have hlow : w.toUInt8 = .ofNat w.toNat := UInt8.toNat_inj.mp (by simp)
  have hhigh : (w >>> 8).toUInt8 = .ofNat (w.toNat / 256) :=
    UInt8.toNat_inj.mp (by simp [Nat.shiftRight_eq_div_pow])
  rw [le16, hlow, hhigh]

theorem le32_eq (w : UInt32) :
    le32 w = le16 (.ofNat w.toNat) ++ le16 (.ofNat (w.toNat / 65536)) := by
  have hw := w.toNat_lt
  have hbyte : ∀ (k : UInt32) (n : Nat), k.toNat < 32 → w.toNat / 2 ^ k.toNat % 256 = n % 256 →
      (w >>> k).toUInt8 = .ofNat n := by
    intro k n hk hn
    apply UInt8.toNat_inj.mp
    rw [UInt32.toNat_toUInt8, UInt32.toNat_shiftRight, Nat.shiftRight_eq_div_pow,
      Nat.mod_eq_of_lt hk, UInt8.toNat_ofNat', hn]
  have hlow : w.toUInt8 = .ofNat (UInt16.ofNat w.toNat).toNat := by
    apply UInt8.toNat_inj.mp
    rw [UInt32.toNat_toUInt8, UInt8.toNat_ofNat', UInt16.toNat_ofNat']
    omega
  rw [le32, le16_eq, le16_eq, hlow, hbyte 8 _ (by decide) _, hbyte 16 _ (by decide) _,
    hbyte 24 _ (by decide) _]
  · rfl
  · rw [UInt16.toNat_ofNat', show (24 : UInt32).toNat = 24 from rfl]
    omega
  · rw [UInt16.toNat_ofNat', show (16 : UInt32).toNat = 16 from rfl]
    omega
  · rw [UInt16.toNat_ofNat', show (8 : UInt32).toNat = 8 from rfl]
    omega

theorem load16_le16 (w : UInt16) (rest : List UInt8) : load16 (le16 w ++ rest) 0 = w := by
  have hw := w.toNat_lt
  apply UInt16.toNat_inj.mp
  rw [le16_eq, List.cons_append, List.cons_append, toNat_load16, UInt8.toNat_ofNat',
    UInt8.toNat_ofNat']
  omega

theorem load32_le32 (w : UInt32) (rest : List UInt8) : load32 (le32 w ++ rest) 0 = w := by
  have hw := w.toNat_lt
  have hhigh : load16 (le32 w ++ rest) 2 = .ofNat (w.toNat / 65536) := by
    rw [le32_eq, List.append_assoc]
    exact load16_le16 _ rest
  apply UInt32.toNat_inj.mp
  rw [load32, hhigh, le32_eq, List.append_assoc, load16_le16, UInt32.toNat_ofNat',
    UInt16.toNat_ofNat', UInt16.toNat_ofNat']
  omega

@[simp] theorem IpHdr.length_bytes (h : IpHdr) : h.bytes.length = ipHlen := rfl

@[simp] theorem IpHdr.ofBytes_bytes (h : IpHdr) (rest : List UInt8) :
    IpHdr.ofBytes (h.bytes ++ rest) = h := by
  have hlen : load16 (h.bytes ++ rest) 2 = h.len :=
    load16_le16 h.len (h.bytes.drop 4 ++ rest)
  have hid : load16 (h.bytes ++ rest) 4 = h.id :=
    load16_le16 h.id (h.bytes.drop 6 ++ rest)
  have hoffset : load16 (h.bytes ++ rest) 6 = h.offset :=
    load16_le16 h.offset (h.bytes.drop 8 ++ rest)
  have hchksum : load16 (h.bytes ++ rest) 10 = h.chksum :=
    load16_le16 h.chksum (h.bytes.drop 12 ++ rest)
  have hsrc : load32 (h.bytes ++ rest) 12 = h.src :=
    load32_le32 h.src (le32 h.dest ++ rest)
  have hdest : load32 (h.bytes ++ rest) 16 = h.dest := load32_le32 h.dest rest
  rw [IpHdr.ofBytes, hlen, hid, hoffset, hchksum, hsrc, hdest]
  rfl

theorem le16_load16 (bytes : List UInt8) (i : Nat) :
    le16 (load16 bytes i) = [bytes.getD i 0, bytes.getD (i + 1) 0] := by
  have hlow := (bytes.getD i 0).toNat_lt
  have hhigh := (bytes.getD (i + 1) 0).toNat_lt
  have hload : (load16 bytes i).toNat =
      (bytes.getD i 0).toNat + 256 * (bytes.getD (i + 1) 0).toNat := by
    rw [load16, UInt16.toNat_ofNat']
    omega
  have hfirst : UInt8.ofNat (load16 bytes i).toNat = bytes.getD i 0 := by
    apply UInt8.toNat_inj.mp
    rw [UInt8.toNat_ofNat', hload]
    omega
  have hsecond : UInt8.ofNat ((load16 bytes i).toNat / 256) = bytes.getD (i + 1) 0 := by
    apply UInt8.toNat_inj.mp
    rw [UInt8.toNat_ofNat', hload]
    omega
  rw [le16_eq, hfirst, hsecond]

theorem le32_load32 (bytes : List UInt8) (i : Nat) :
    le32 (load32 bytes i) = le16 (load16 bytes i) ++ le16 (load16 bytes (i + 2)) := by
  have hlow := (load16 bytes i).toNat_lt
  have hhigh := (load16 bytes (i + 2)).toNat_lt
  have hload : (load32 bytes i).toNat =
      (load16 bytes i).toNat + 65536 * (load16 bytes (i + 2)).toNat := by
    rw [load32, UInt32.toNat_ofNat']
    omega
  have hfirst : UInt16.ofNat (load32 bytes i).toNat = load16 bytes i := by
    apply UInt16.toNat_inj.mp
    rw [UInt16.toNat_ofNat', hload]
    omega
  have hsecond : UInt16.ofNat ((load32 bytes i).toNat / 65536) = load16 bytes (i + 2) := by
    apply UInt16.toNat_inj.mp
    rw [UInt16.toNat_ofNat', hload]
    omega
  rw [le32_eq, hfirst, hsecond]

theorem IpHdr.bytes_ofBytes {bytes : List UInt8} (h : ipHlen ≤ bytes.length) :
    (IpHdr.ofBytes bytes).bytes = bytes.take ipHlen := by
  have htake : bytes.take ipHlen = (List.range ipHlen).map fun i => bytes.getD i 0 := by
    refine List.ext_getElem (by simpa using h) fun i hi hi' => ?_
    have hlt : i < bytes.length := by
      rw [List.length_take] at hi
      omega
    simp [hlt]
  rw [htake, IpHdr.bytes]
  simp only [IpHdr.ofBytes, le32_load32, le16_load16]
  rfl

theorem sum_lowWords_le16 (w : UInt16) (rest : List UInt8) :
    (lowWords (le16 w ++ rest)).sum = w.toNat + (lowWords rest).sum := by
  have hw := w.toNat_lt
  rw [le16_eq, List.cons_append, List.cons_append, List.nil_append, lowWords, List.sum_cons,
    UInt8.toNat_ofNat', UInt8.toNat_ofNat']
  omega

theorem sum_lowWords_le32 (w : UInt32) (rest : List UInt8) :
    (lowWords (le32 w ++ rest)).sum = w.toNat % 65536 + w.toNat / 65536 + (lowWords rest).sum := by
  have hw := w.toNat_lt
  rw [le32_eq, List.append_assoc, sum_lowWords_le16, sum_lowWords_le16, UInt16.toNat_ofNat',
    UInt16.toNat_ofNat']
  omega

theorem IpHdr.sum_lowWords_bytes (h : IpHdr) :
    (lowWords h.bytes).sum = h.vHl.toNat + 256 * h.tos.toNat + h.len.toNat + h.id.toNat +
      h.offset.toNat + (h.ttl.toNat + 256 * h.proto.toNat) + h.chksum.toNat +
      (h.src.toNat % 65536 + h.src.toNat / 65536) +
      (h.dest.toNat % 65536 + h.dest.toNat / 65536) := by
  have hcons : ∀ (b b' : UInt8) (rest : List UInt8),
      (lowWords ([b, b'] ++ rest)).sum = b.toNat + 256 * b'.toNat + (lowWords rest).sum :=
    fun _ _ _ => List.sum_cons
  rw [IpHdr.bytes, ← List.append_nil (le32 h.dest)]
  simp only [List.append_assoc, hcons, sum_lowWords_le16, sum_lowWords_le32, lowWords,
    List.sum_nil]
  omega

end RadProt.Ip
