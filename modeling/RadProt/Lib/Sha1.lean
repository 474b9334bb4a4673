import Mathlib.Algebra.Group.Nat.Defs
import Mathlib.Data.List.Basic

namespace RadProt.Lib.Sha1

/-! SHA-1 of a message of bytes, from its definition. -/

def bigEndian (k n : Nat) : List UInt8 := (List.range k).reverse.map fun i => .ofNat (n / 256 ^ i)

def ofBigEndian (bytes : List UInt8) : Nat := bytes.foldl (fun n b => 256 * n + b.toNat) 0

/-- The message, a one bit, as few zero bits as make whole blocks of 64 bytes, and its length in
bits. -/
def pad (m : List UInt8) : List UInt8 :=
  m ++ 0x80 :: List.replicate ((119 - m.length % 64) % 64) 0 ++ bigEndian 8 (8 * m.length)

def rotl (x : UInt32) (n : Nat) : UInt32 := ⟨x.toBitVec.rotateLeft n⟩

def ch (x y z : UInt32) : UInt32 := (x &&& y) ^^^ (~~~x &&& z)

def parity (x y z : UInt32) : UInt32 := x ^^^ y ^^^ z

def maj (x y z : UInt32) : UInt32 := (x &&& y) ^^^ (x &&& z) ^^^ (y &&& z)

def f (t : Nat) : UInt32 → UInt32 → UInt32 → UInt32 :=
  if t < 20 then ch else if t < 40 then parity else if t < 60 then maj else parity

def k (t : Nat) : UInt32 :=
  if t < 20 then 0x5A827999 else if t < 40 then 0x6ED9EBA1
  else if t < 60 then 0x8F1BBCDC else 0xCA62C1D6

def word (block : List UInt8) (t : Nat) : UInt32 :=
  .ofNat (ofBigEndian ((block.drop (4 * t)).take 4))

def schedule (block : List UInt8) (t : Nat) : UInt32 :=
  if t < 16 then word block t
  else rotl (schedule block (t - 3) ^^^ schedule block (t - 8) ^^^ schedule block (t - 14) ^^^
    schedule block (t - 16)) 1

def round (w : Nat → UInt32) (s : Vector UInt32 5) (t : Nat) : Vector UInt32 5 :=
  #v[rotl (s.get 0) 5 + f t (s.get 1) (s.get 2) (s.get 3) + s.get 4 + k t + w t, s.get 0,
    rotl (s.get 1) 30, s.get 2, s.get 3]

def compress (h : Vector UInt32 5) (block : List UInt8) : Vector UInt32 5 :=
  h.zipWith (· + ·) ((List.range 80).foldl (round (schedule block)) h)

def hashBlocks (h : Vector UInt32 5) (m : List UInt8) : Vector UInt32 5 :=
  (List.range (m.length / 64)).foldl (fun h i => compress h ((m.drop (64 * i)).take 64)) h

def initial : Vector UInt32 5 :=
  #[0x67452301, 0xEFCDAB89, 0x98BADCFE, 0x10325476, 0xC3D2E1F0].toVector

def digest (m : List UInt8) : List UInt8 :=
  (hashBlocks initial (pad m)).toList.flatMap fun x => bigEndian 4 x.toNat

section Blocks

variable {h : Vector UInt32 5} {block m : List UInt8}

theorem hashBlocks_nil (h : Vector UInt32 5) : hashBlocks h [] = h := rfl

theorem hashBlocks_cons (hblock : block.length = 64) :
    hashBlocks h (block ++ m) = hashBlocks (compress h block) m := by
  have hcount : (block ++ m).length / 64 = m.length / 64 + 1 := by
    rw [List.length_append, hblock]
    omega
  have hfirst : ((block ++ m).drop (64 * 0)).take 64 = block := by
    rw [Nat.mul_zero, List.drop_zero, List.take_left' hblock]
  have hrest : ∀ i, ((block ++ m).drop (64 * (i + 1))).take 64 = (m.drop (64 * i)).take 64 := by
    intro i
    have hindex : 64 * (i + 1) = block.length + 64 * i := by omega
    rw [hindex, List.drop_length_add_append]
  rw [hashBlocks, hcount, List.range_succ_eq_map, List.foldl_cons, List.foldl_map, hfirst]
  simp only [Nat.succ_eq_add_one, hrest]
  rfl

theorem hashBlocks_append {n : Nat} {before : List UInt8} (hbefore : before.length = 64 * n) :
    hashBlocks h (before ++ m) = hashBlocks (hashBlocks h before) m := by
  induction n generalizing h before with
  | zero =>
    obtain rfl := List.eq_nil_of_length_eq_zero hbefore
    rfl
  | succ n ih =>
    have hblock : (before.take 64).length = 64 := by
      rw [List.length_take]
      omega
    have hrest : (before.drop 64).length = 64 * n := by
      rw [List.length_drop]
      omega
    rw [← List.take_append_drop 64 before, List.append_assoc, hashBlocks_cons hblock,
      hashBlocks_cons hblock, ih hrest]

theorem hashBlocks_block (hblock : block.length = 64) : hashBlocks h block = compress h block := by
  rw [← List.append_nil block, hashBlocks_cons hblock, List.append_nil, hashBlocks_nil]

end Blocks

@[simp] theorem length_bigEndian (k n : Nat) : (bigEndian k n).length = k := by simp [bigEndian]

theorem length_digest (m : List UInt8) : (digest m).length = 20 := by
  simp [digest, List.length_flatMap]

end RadProt.Lib.Sha1
