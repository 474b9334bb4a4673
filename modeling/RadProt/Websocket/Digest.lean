import RadProt.Lib.Base64
import RadProt.Lib.Bits
import RadProt.Lib.Sha1
import RadProt.Websocket.Crypto

namespace RadProt.Websocket

open RadProt.Lib

/-! `crypto.cpp` computes the digest and the encoding that the standards define. -/

section Transform

variable {block : List UInt8}

theorem or_eq_add {a b k : Nat} (hb : b < 2 ^ k) : a * 2 ^ k ||| b = a * 2 ^ k + b := by
  rw [Nat.mul_comm, Nat.two_pow_add_eq_or_of_lt hb]

theorem toNat_byte_shiftLeft (x : UInt8) {k : Nat} (hk : k ≤ 24) :
    (x.toUInt32 <<< UInt32.ofNat k).toNat = x.toNat * 2 ^ k := by
  have hlt : x.toNat * 2 ^ k < 2 ^ 32 :=
    calc x.toNat * 2 ^ k
      _ < 2 ^ 8 * 2 ^ k := Nat.mul_lt_mul_of_pos_right x.toNat_lt (Nat.two_pow_pos k)
      _ ≤ 2 ^ 8 * 2 ^ 24 := Nat.mul_le_mul_left _ (Nat.pow_le_pow_right (by decide) hk)
  have hshift : (UInt32.ofNat k).toNat % 32 = k := by
    rw [UInt32.toNat_ofNat_of_lt' (Nat.lt_of_le_of_lt hk (by decide))]
    omega
  rw [UInt32.toNat_shiftLeft, hshift, Nat.shiftLeft_eq, UInt8.toNat_toUInt32,
    Nat.mod_eq_of_lt hlt]

theorem bigEndian_word (x y z w : UInt8) :
    (x.toUInt32 <<< 24) ||| (y.toUInt32 <<< 16) ||| (z.toUInt32 <<< 8) ||| w.toUInt32 =
      .ofNat (Sha1.ofBigEndian [x, y, z, w]) := by
  have hx := x.toNat_lt
  have hy := y.toNat_lt
  have hz := z.toNat_lt
  have hw := w.toNat_lt
  have hnat : x.toNat * 2 ^ 24 ||| y.toNat * 2 ^ 16 ||| z.toNat * 2 ^ 8 ||| w.toNat =
      Sha1.ofBigEndian [x, y, z, w] := by
    have hxy : x.toNat * 2 ^ 24 ||| y.toNat * 2 ^ 16 = (256 * x.toNat + y.toNat) * 2 ^ 16 := by
      rw [or_eq_add (by omega)]
      omega
    have hxyz : (256 * x.toNat + y.toNat) * 2 ^ 16 ||| z.toNat * 2 ^ 8 =
        (256 * (256 * x.toNat + y.toNat) + z.toNat) * 2 ^ 8 := by
      rw [or_eq_add (by omega)]
      omega
    rw [hxy, hxyz, or_eq_add (by omega)]
    simp only [Sha1.ofBigEndian, List.foldl_cons, List.foldl_nil]
    omega
  have hlt : Sha1.ofBigEndian [x, y, z, w] < 2 ^ 32 := by
    simp only [Sha1.ofBigEndian, List.foldl_cons, List.foldl_nil]
    omega
  rw [← UInt32.toNat_inj, UInt32.toNat_ofNat_of_lt' hlt, ← hnat]
  rw [UInt32.toNat_or, UInt32.toNat_or, UInt32.toNat_or, UInt8.toNat_toUInt32]
  exact congrArg (· ||| w.toNat) <| congrArg₂ (· ||| ·)
    (congrArg₂ (· ||| ·) (toNat_byte_shiftLeft x (by decide)) (toNat_byte_shiftLeft y (by decide)))
    (toNat_byte_shiftLeft z (by decide))

theorem sha1Word_eq (hblock : block.length = 64) {t : Nat} (ht : t < 16) :
    sha1Word block t = Sha1.word block t := by
  have hget : ∀ i, (h : i < block.length) → block.getD i 0 = block.get ⟨i, h⟩ := by
    intro i h
    rw [List.getD_eq_getElem?_getD, List.getElem?_eq_getElem h]
    rfl
  have hbytes : (block.drop (4 * t)).take 4 = [block.getD (t * 4) 0, block.getD (t * 4 + 1) 0,
      block.getD (t * 4 + 2) 0, block.getD (t * 4 + 3) 0] := by
    rw [Nat.mul_comm 4 t, List.drop_eq_getElem_cons (by omega),
      List.drop_eq_getElem_cons (by omega), List.drop_eq_getElem_cons (by omega),
      List.drop_eq_getElem_cons (by omega)]
    simp only [List.take_succ_cons, List.take_zero]
    rw [hget _ (by omega), hget _ (by omega), hget _ (by omega), hget _ (by omega)]
    rfl
  rw [sha1Word, bigEndian_word, Sha1.word, hbytes]

theorem rotl_one (x : UInt32) : rotl x 1 = Sha1.rotl x 1 := rfl

theorem sha1Schedule_eq (hblock : block.length = 64) (n : Nat) :
    sha1Schedule block n = (List.range (16 + n)).map (Sha1.schedule block) := by
  induction n with
  | zero =>
    refine List.map_congr_left fun t ht => ?_
    have ht := List.mem_range.mp ht
    rw [sha1Word_eq hblock ht, Sha1.schedule, if_pos ht]
  | succ n ih =>
    have hget : ∀ k, 0 < k → k ≤ 16 →
        ((List.range (16 + n)).map (Sha1.schedule block)).getD (n + 16 - k) 0 =
          Sha1.schedule block (16 + n - k) := by
      intro k hpos hle
      rw [List.getD_eq_getElem?_getD, List.getElem?_map, List.getElem?_range (by omega),
        Nat.add_comm n 16]
      rfl
    have hlast : Sha1.schedule block (16 + n) =
        Sha1.rotl (Sha1.schedule block (16 + n - 3) ^^^ Sha1.schedule block (16 + n - 8) ^^^
          Sha1.schedule block (16 + n - 14) ^^^ Sha1.schedule block (16 + n - 16)) 1 := by
      rw [Sha1.schedule, if_neg (by omega)]
    rw [sha1Schedule, ih, ← Nat.add_assoc, List.range_succ, List.map_append, List.map_singleton,
      hlast, ← rotl_one]
    dsimp only
    rw [hget 3 (by decide) (by decide), hget 8 (by decide) (by decide),
      hget 14 (by decide) (by decide), hget 16 (by decide) (by decide)]

theorem or_eq_xor_ch (x y z : UInt32) : (x &&& y) ||| (~~~x &&& z) = Sha1.ch x y z := by
  rw [← UInt32.toBitVec_inj]
  ext i hi
  simp only [Sha1.ch, UInt32.toBitVec_or, UInt32.toBitVec_and, UInt32.toBitVec_not,
    UInt32.toBitVec_xor, BitVec.getElem_or, BitVec.getElem_and, BitVec.getElem_not,
    BitVec.getElem_xor]
  cases x.toBitVec[i] <;> simp

theorem or_eq_xor_maj (x y z : UInt32) :
    (x &&& y) ||| (x &&& z) ||| (y &&& z) = Sha1.maj x y z := by
  rw [← UInt32.toBitVec_inj]
  ext i hi
  simp only [Sha1.maj, UInt32.toBitVec_or, UInt32.toBitVec_and, UInt32.toBitVec_xor,
    BitVec.getElem_or, BitVec.getElem_and, BitVec.getElem_xor]
  cases x.toBitVec[i] <;> cases y.toBitVec[i] <;> cases z.toBitVec[i] <;> rfl

theorem sha1Round_function (t : Nat) (b c d : UInt32) :
    (if t < 20 then ((b &&& c) ||| (~~~ b &&& d), 0x5A827999)
      else if t < 40 then (b ^^^ c ^^^ d, 0x6ED9EBA1)
      else if t < 60 then ((b &&& c) ||| (b &&& d) ||| (c &&& d), 0x8F1BBCDC)
      else (b ^^^ c ^^^ d, 0xCA62C1D6)) = (Sha1.f t b c d, Sha1.k t) := by
  rw [Sha1.f, Sha1.k]
  by_cases h20 : t < 20
  · rw [if_pos h20, if_pos h20, if_pos h20, or_eq_xor_ch]
  · rw [if_neg h20, if_neg h20, if_neg h20]
    by_cases h40 : t < 40
    · rw [if_pos h40, if_pos h40, if_pos h40, Sha1.parity]
    · rw [if_neg h40, if_neg h40, if_neg h40]
      by_cases h60 : t < 60
      · rw [if_pos h60, if_pos h60, if_pos h60, or_eq_xor_maj]
      · rw [if_neg h60, if_neg h60, if_neg h60, Sha1.parity]

theorem sha1Round_eq (w : Nat → UInt32) (s : Vector UInt32 5) (t : Nat) :
    sha1Round t (w t) s = Sha1.round w s t := by
  rw [sha1Round]
  dsimp only
  rw [sha1Round_function, Sha1.round]
  rfl

theorem sha1Transform_eq (h : Vector UInt32 5) (hblock : block.length = 64) :
    sha1Transform h block = Sha1.compress h block := by
  have hzip : (sha1Schedule block 64).zipIdx =
      (List.range 80).map fun t => (Sha1.schedule block t, t) := by
    rw [sha1Schedule_eq hblock]
    refine List.ext_getElem (by simp) fun i _ _ => ?_
    simp
  rw [sha1Transform, Sha1.compress, hzip, List.foldl_map]
  simp only [sha1Round_eq]

end Transform

structure Absorbed (h : Vector UInt32 5) (buf m : List UInt8) : Prop where
  buf_lt : buf.length < 64
  hashed : ∃ before n, m = before ++ buf ∧ before.length = 64 * n ∧
    h = Sha1.hashBlocks Sha1.initial before

section Update

variable {ctx : Sha1Ctx} {h : Vector UInt32 5} {buf m data : List UInt8}

theorem absorbed_init : Absorbed sha1Init.h sha1Init.buf [] :=
  ⟨by decide, [], 0, rfl, rfl, rfl⟩

theorem Absorbed.append (hctx : Absorbed h buf m) (hlt : (buf ++ data).length < 64) :
    Absorbed h (buf ++ data) (m ++ data) := by
  obtain ⟨before, n, rfl, hbefore, rfl⟩ := hctx.hashed
  exact ⟨hlt, before, n, List.append_assoc _ _ _, hbefore, rfl⟩

theorem Absorbed.append_block (hctx : Absorbed h buf m) (hlength : (buf ++ data).length = 64) :
    Absorbed (sha1Transform h (buf ++ data)) [] (m ++ data) := by
  obtain ⟨before, n, rfl, hbefore, rfl⟩ := hctx.hashed
  refine ⟨by decide, before ++ (buf ++ data), n + 1, ?_, ?_, ?_⟩
  · rw [List.append_nil, List.append_assoc]
  · rw [List.length_append, hbefore, hlength]
    omega
  · rw [Sha1.hashBlocks_append hbefore, Sha1.hashBlocks_block hlength, sha1Transform_eq _ hlength]

theorem sha1Copy_absorbed {fuel : Nat} (hctx : Absorbed ctx.h ctx.buf m)
    (hfuel : data.length ≤ fuel) :
    Absorbed (sha1Copy ctx data fuel).h (sha1Copy ctx data fuel).buf (m ++ data) ∧
      (sha1Copy ctx data fuel).len = ctx.len := by
  induction fuel generalizing ctx m data with
  | zero =>
    obtain rfl := List.eq_nil_of_length_eq_zero (Nat.le_zero.mp hfuel)
    rw [List.append_nil]
    exact ⟨hctx, rfl⟩
  | succ fuel ih =>
    rw [sha1Copy]
    by_cases hnil : data = []
    · rw [if_pos hnil, hnil, List.append_nil]
      exact ⟨hctx, rfl⟩
    · rw [if_neg hnil]
      have hpos := List.length_pos_of_ne_nil hnil
      have hbuf := hctx.buf_lt
      generalize hcopy : min (64 - ctx.buf.length) data.length = toCopy
      have hsplit : m ++ data = m ++ data.take toCopy ++ data.drop toCopy := by
        rw [List.append_assoc, List.take_append_drop]
      have htake : (data.take toCopy).length = toCopy := by
        rw [List.length_take]
        omega
      have hrest : (data.drop toCopy).length ≤ fuel := by
        rw [List.length_drop]
        omega
      rw [hsplit]
      dsimp only
      split
      next hfull => exact ih (hctx.append_block hfull) hrest
      next hpart =>
        have hlt : (ctx.buf ++ data.take toCopy).length < 64 := by
          rw [List.length_append] at hpart ⊢
          omega
        exact ih (hctx.append hlt) hrest

def bitLength (m : List UInt8) : UInt64 := .ofNat (8 * m.length)

theorem bitLength_append (m : List UInt8) (hdata : data.length < 2 ^ 29) :
    bitLength m + (UInt32.ofNat data.length * 8).toUInt64 = bitLength (m ++ data) := by
  have height : UInt32.toNat 8 = 8 := rfl
  have hbits : (UInt32.ofNat data.length * 8).toNat = 8 * data.length := by
    rw [UInt32.toNat_mul, UInt32.toNat_ofNat', height]
    omega
  have hwide : (UInt32.ofNat data.length * 8).toUInt64 = .ofNat (8 * data.length) := by
    rw [← UInt64.toNat_inj, UInt32.toNat_toUInt64, hbits, UInt64.toNat_ofNat']
    omega
  rw [hwide, bitLength, bitLength, List.length_append, Nat.mul_add, UInt64.ofNat_add]

theorem sha1Update_absorbed (hdata : data.length < 2 ^ 29) (hctx : Absorbed ctx.h ctx.buf m)
    (hlen : ctx.len = bitLength m) :
    Absorbed (sha1Update ctx data).h (sha1Update ctx data).buf (m ++ data) ∧
      (sha1Update ctx data).len = bitLength (m ++ data) := by
  obtain ⟨habsorbed, hsame⟩ := @sha1Copy_absorbed
    { ctx with len := ctx.len + (UInt32.ofNat data.length * 8).toUInt64 } m data data.length hctx
    le_rfl
  refine ⟨habsorbed, hsame.trans ?_⟩
  rw [← bitLength_append m hdata, hlen]

end Update

section Final

variable {ctx : Sha1Ctx} {m : List UInt8}

theorem lenBytes_eq (m : List UInt8) :
    ((List.range 8).reverse.map fun i => (bitLength m >>> (i * 8).toUInt64).toUInt8) =
      Sha1.bigEndian 8 (8 * m.length) := by
  refine List.map_congr_left fun i hi => ?_
  have hi : i < 8 := List.mem_range.mp (List.mem_reverse.mp hi)
  have hshift : (i * 8).toUInt64.toNat % 64 = 8 * i := by
    have hlt : i * 8 < UInt64.size :=
      Nat.lt_trans (Nat.mul_lt_mul_of_pos_right hi (by decide)) (by decide)
    rw [Nat.toUInt64_eq, UInt64.toNat_ofNat_of_lt' hlt]
    omega
  have hpow : 2 ^ 64 = 2 ^ (8 * i) * 2 ^ (64 - 8 * i) := by
    rw [← Nat.pow_add]
    exact congrArg _ (by omega)
  rw [← UInt8.toNat_inj, UInt64.toNat_toUInt8, UInt64.toNat_shiftRight, hshift,
    Nat.shiftRight_eq_div_pow, bitLength, UInt64.toNat_ofNat', hpow, Nat.mod_mul_right_div_self,
    Nat.mod_mod_of_dvd _ (Nat.pow_dvd_pow 2 (by omega)), Nat.pow_mul]
  rfl

theorem wordBytes_eq (x : UInt32) :
    [(x >>> 24).toUInt8, (x >>> 16).toUInt8, (x >>> 8).toUInt8, x.toUInt8] =
      Sha1.bigEndian 4 x.toNat := by
  have hbyte : ∀ k : Nat, k < 32 → (x >>> UInt32.ofNat k).toUInt8 = .ofNat (x.toNat / 2 ^ k) := by
    intro k hk
    have hshift : (UInt32.ofNat k).toNat % 32 = k := by
      rw [UInt32.toNat_ofNat_of_lt' (Nat.lt_trans hk (by decide)), Nat.mod_eq_of_lt hk]
    rw [← UInt8.toNat_inj, UInt32.toNat_toUInt8, UInt32.toNat_shiftRight, hshift,
      Nat.shiftRight_eq_div_pow]
    rfl
  have h24 : (x >>> 24).toUInt8 = .ofNat (x.toNat / 2 ^ 24) := hbyte 24 (by decide)
  have h16 : (x >>> 16).toUInt8 = .ofNat (x.toNat / 2 ^ 16) := hbyte 16 (by decide)
  have h8 : (x >>> 8).toUInt8 = .ofNat (x.toNat / 2 ^ 8) := hbyte 8 (by decide)
  have h0 : x.toUInt8 = .ofNat (x.toNat / 2 ^ 0) := by
    rw [Nat.pow_zero, Nat.div_one]
    rfl
  rw [h24, h16, h8, h0]
  rfl

theorem pad_eq {before buf zeros rest : List UInt8} {n : Nat} (hm : m = before ++ buf)
    (hbefore : before.length = 64 * n)
    (hzeros : List.replicate ((119 - buf.length % 64) % 64) 0 = zeros ++ rest) :
    Sha1.pad m =
      before ++ ((buf ++ [0x80] ++ zeros) ++ (rest ++ Sha1.bigEndian 8 (8 * m.length))) := by
  have hmod : m.length % 64 = buf.length % 64 := by
    rw [hm, List.length_append, hbefore]
    omega
  rw [Sha1.pad, hmod, hzeros, hm]
  simp only [List.append_assoc, List.cons_append, List.nil_append]

theorem sha1Final_eq (hctx : Absorbed ctx.h ctx.buf m) (hlen : ctx.len = bitLength m) :
    sha1Final ctx = Sha1.digest m := by
  obtain ⟨before, n, hm, hbefore, hh⟩ := hctx.hashed
  have hbuf := hctx.buf_lt
  have hlength : (Sha1.bigEndian 8 (8 * m.length)).length = 8 := Sha1.length_bigEndian _ _
  have hone : (ctx.buf ++ [0x80]).length = ctx.buf.length + 1 := List.length_append
  simp only [sha1Final, hlen, lenBytes_eq, wordBytes_eq, Sha1.digest]
  by_cases hroom : 56 < (ctx.buf ++ [0x80]).length
  · -- The length has no room behind the message, and gets a block of its own.
    have hzeros : List.replicate ((119 - ctx.buf.length % 64) % 64) (0 : UInt8) =
        List.replicate (64 - (ctx.buf ++ [0x80]).length) 0 ++ List.replicate 56 (0 : UInt8) := by
      rw [List.replicate_append_replicate]
      exact congrArg (List.replicate · 0) (by omega)
    have hfirst : (ctx.buf ++ [(0x80 : UInt8)] ++
        List.replicate (64 - (ctx.buf ++ [0x80]).length) 0).length = 64 := by
      rw [List.length_append, List.length_replicate]
      omega
    have hlast : (List.replicate 56 0 ++ Sha1.bigEndian 8 (8 * m.length)).length = 64 := by
      rw [List.length_append, List.length_replicate, hlength]
    rw [if_pos hroom, pad_eq hm hbefore hzeros, Sha1.hashBlocks_append hbefore, ← hh,
      Sha1.hashBlocks_cons hfirst, Sha1.hashBlocks_block hlast, ← sha1Transform_eq _ hfirst,
      ← sha1Transform_eq _ hlast]
    rfl
  · have hzeros : List.replicate ((119 - ctx.buf.length % 64) % 64) (0 : UInt8) =
        List.replicate (56 - (ctx.buf ++ [0x80]).length) 0 ++ [] := by
      rw [List.append_nil]
      exact congrArg (List.replicate · 0) (by omega)
    have hblock : (ctx.buf ++ [(0x80 : UInt8)] ++
        List.replicate (56 - (ctx.buf ++ [0x80]).length) 0 ++
        Sha1.bigEndian 8 (8 * m.length)).length = 64 := by
      rw [List.length_append, List.length_append, List.length_replicate, hlength]
      omega
    rw [if_neg hroom, pad_eq hm hbefore hzeros, List.nil_append, Sha1.hashBlocks_append hbefore,
      ← hh, Sha1.hashBlocks_block hblock, ← sha1Transform_eq _ hblock]

theorem length_sha1Final (ctx : Sha1Ctx) : (sha1Final ctx).length = 20 := by
  simp [sha1Final, List.length_flatMap]

theorem sha1_eq (hm : m.length < 2 ^ 29) : sha1Final (sha1Update sha1Init m) = Sha1.digest m := by
  obtain ⟨habsorbed, hlen⟩ := sha1Update_absorbed hm absorbed_init rfl
  exact sha1Final_eq habsorbed hlen

end Final

section Base64

theorem b64At_eq {v : UInt8} {n : Nat} (hv : v.toNat = n) (hn : n < 64) :
    b64At v = Base64.char n := by
  have htable : ∀ n < 64, b64Table.getD n 0 = Base64.char n := by decide +kernel
  rw [b64At, hv, htable n hn]

theorem base64_first (x y z : UInt8) :
    b64At (x >>> 2) = Base64.char ((65536 * x.toNat + 256 * y.toNat + z.toNat) / 2 ^ 18) := by
  have hhigh := forall_byte (P := fun x => (x >>> 2).toNat = x.toNat / 4) (by decide +kernel) x
  have hx := x.toNat_lt
  have hy := y.toNat_lt
  have hz := z.toNat_lt
  exact b64At_eq (by omega) (by omega)

theorem base64_second (x y z : UInt8) :
    b64At (((x &&& 0x3) <<< 4) ||| (y >>> 4)) =
      Base64.char ((65536 * x.toNat + 256 * y.toNat + z.toNat) / 2 ^ 12 % 64) := by
  have hlow := forall_byte
    (P := fun x => ((x &&& 0x3) <<< 4).toNat = x.toNat % 4 * 2 ^ 4) (by decide +kernel) x
  have hhigh := forall_byte (P := fun y => (y >>> 4).toNat = y.toNat / 16) (by decide +kernel) y
  have hy := y.toNat_lt
  have hz := z.toNat_lt
  refine b64At_eq ?_ (Nat.mod_lt _ (by decide))
  rw [UInt8.toNat_or, hlow, hhigh, or_eq_add (by omega)]
  omega

theorem base64_third (x y z : UInt8) :
    b64At (((y &&& 0xF) <<< 2) ||| (z >>> 6)) =
      Base64.char ((65536 * x.toNat + 256 * y.toNat + z.toNat) / 2 ^ 6 % 64) := by
  have hlow := forall_byte
    (P := fun y => ((y &&& 0xF) <<< 2).toNat = y.toNat % 16 * 2 ^ 2) (by decide +kernel) y
  have hhigh := forall_byte (P := fun z => (z >>> 6).toNat = z.toNat / 64) (by decide +kernel) z
  have hz := z.toNat_lt
  refine b64At_eq ?_ (Nat.mod_lt _ (by decide))
  rw [UInt8.toNat_or, hlow, hhigh, or_eq_add (by omega)]
  omega

theorem base64_fourth (x y z : UInt8) :
    b64At (z &&& 0x3F) =
      Base64.char ((65536 * x.toNat + 256 * y.toNat + z.toNat) % 64) := by
  have hlow := forall_byte (P := fun z => (z &&& 0x3F).toNat = z.toNat % 64) (by decide +kernel) z
  exact b64At_eq (by omega) (Nat.mod_lt _ (by decide))

theorem base64Encode_eq (s : List UInt8) : base64Encode s = Base64.encode s := by
  fun_induction Base64.encode s with
  | case1 x y z rest ih =>
    rw [base64Encode, ih, base64_first x y z, base64_second x y z, base64_third x y z,
      base64_fourth x y z]
    rfl
  | case2 x y =>
    have hlast : b64At ((y &&& 0xF) <<< 2) = b64At (((y &&& 0xF) <<< 2) ||| ((0 : UInt8) >>> 6)) :=
      congrArg b64At (by simp)
    rw [base64Encode, hlast, base64_first x y 0, base64_second x y 0, base64_third x y 0]
    rfl
  | case3 x =>
    have hlast : b64At ((x &&& 0x3) <<< 4) = b64At (((x &&& 0x3) <<< 4) ||| ((0 : UInt8) >>> 4)) :=
      congrArg b64At (by simp)
    rw [base64Encode, hlast, base64_first x 0 0, base64_second x 0 0]
    rfl
  | case4 => rfl

end Base64

end RadProt.Websocket
