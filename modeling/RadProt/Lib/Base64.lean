import Mathlib.Algebra.Group.Nat.Defs
import Mathlib.Data.List.Basic

namespace RadProt.Lib.Base64

/-! Base64 with its standard alphabet, padded. -/

def char (n : Nat) : UInt8 :=
  if n < 26 then .ofNat (65 + n)
  else if n < 52 then .ofNat (97 + (n - 26))
  else if n < 62 then .ofNat (48 + (n - 52))
  else if n = 62 then 43
  else 47

def sextets (x y z : UInt8) : List Nat :=
  let n := 65536 * x.toNat + 256 * y.toNat + z.toNat
  [n / 2 ^ 18, n / 2 ^ 12 % 64, n / 2 ^ 6 % 64, n % 64]

/-- A last group of less than three bytes is filled up with zero bits; `=` stands for the
characters that carry none of its bits. -/
def encode : List UInt8 → List UInt8
  | x :: y :: z :: rest => (sextets x y z).map char ++ encode rest
  | [x, y] => ((sextets x y 0).take 3).map char ++ [61]
  | [x] => ((sextets x 0 0).take 2).map char ++ [61, 61]
  | [] => []

def value (c : UInt8) : Option Nat :=
  if 65 ≤ c ∧ c ≤ 90 then some (c.toNat - 65)
  else if 97 ≤ c ∧ c ≤ 122 then some (c.toNat - 97 + 26)
  else if 48 ≤ c ∧ c ≤ 57 then some (c.toNat - 48 + 52)
  else if c = 43 then some 62
  else if c = 47 then some 63
  else none

def octets (a b c d : Nat) : List UInt8 :=
  let n := 2 ^ 18 * a + 2 ^ 12 * b + 2 ^ 6 * c + d
  [.ofNat (n / 65536), .ofNat (n / 256), .ofNat n]

/-- Only the last four characters may end with one or two `=`. -/
def decode : List UInt8 → Option (List UInt8)
  | a :: b :: c :: d :: rest =>
    if d = 61 ∧ rest = [] then
      if c = 61 then return (octets (← value a) (← value b) 0 0).take 1
      else return (octets (← value a) (← value b) (← value c) 0).take 2
    else do
      let group := octets (← value a) (← value b) (← value c) (← value d)
      return group ++ (← decode rest)
  | [] => some []
  | _ => none

theorem length_encode (s : List UInt8) : (encode s).length = 4 * ((s.length + 2) / 3) := by
  fun_induction encode s with
  | case1 x y z rest ih =>
    rw [List.length_append, ih, List.length_map]
    simp only [sextets, List.length_cons, List.length_nil]
    omega
  | case2 x y => simp [sextets]
  | case3 x => simp [sextets]
  | case4 => rfl

theorem char_ne_zero {n : Nat} (hn : n < 64) : char n ≠ 0 := by
  have hall : ∀ n < 64, char n ≠ 0 := by decide
  exact hall n hn

theorem sextets_lt (x y z : UInt8) : ∀ n ∈ sextets x y z, n < 64 := by
  have hx := x.toNat_lt
  have hy := y.toNat_lt
  have hz := z.toNat_lt
  simp only [sextets, List.mem_cons, List.not_mem_nil, or_false]
  rintro n (rfl | rfl | rfl | rfl) <;> omega

theorem zero_notMem_encode (s : List UInt8) : 0 ∉ encode s := by
  have hgroup : ∀ (x y z : UInt8) (k : Nat), 0 ∉ ((sextets x y z).take k).map char := by
    intro x y z k hzero
    obtain ⟨n, hn, hchar⟩ := List.mem_map.mp hzero
    exact char_ne_zero (sextets_lt x y z n (List.mem_of_mem_take hn)) hchar
  fun_induction encode s with
  | case1 x y z rest ih =>
    have hfour := hgroup x y z 4
    exact fun hzero => (List.mem_append.mp hzero).elim hfour ih
  | case2 x y => exact fun hzero => (List.mem_append.mp hzero).elim (hgroup x y 0 3) (by decide)
  | case3 x => exact fun hzero => (List.mem_append.mp hzero).elim (hgroup x 0 0 2) (by decide)
  | case4 => exact List.not_mem_nil

theorem value_char {n : Nat} (hn : n < 64) : value (char n) = some n := by
  have hall : ∀ n < 64, value (char n) = some n := by decide +kernel
  exact hall n hn

theorem char_ne_pad {n : Nat} (hn : n < 64) : char n ≠ 61 := by
  have hall : ∀ n < 64, char n ≠ 61 := by decide
  exact hall n hn

theorem octets_sextets {x y z : UInt8} {a b c d : Nat} (h : sextets x y z = [a, b, c, d]) :
    octets a b c d = [x, y, z] := by
  have hx := x.toNat_lt
  have hy := y.toNat_lt
  have hz := z.toNat_lt
  simp only [sextets, List.cons.injEq, and_true] at h
  obtain ⟨rfl, rfl, rfl, rfl⟩ := h
  generalize hn : 65536 * x.toNat + 256 * y.toNat + z.toNat = n
  have hwhole : 2 ^ 18 * (n / 2 ^ 18) + 2 ^ 12 * (n / 2 ^ 12 % 64) + 2 ^ 6 * (n / 2 ^ 6 % 64) +
      n % 64 = n := by omega
  have hfirst : UInt8.ofNat (n / 65536) = x := by
    rw [← UInt8.toNat_inj, UInt8.toNat_ofNat']
    omega
  have hsecond : UInt8.ofNat (n / 256) = y := by
    rw [← UInt8.toNat_inj, UInt8.toNat_ofNat']
    omega
  have hthird : UInt8.ofNat n = z := by
    rw [← UInt8.toNat_inj, UInt8.toNat_ofNat']
    omega
  rw [octets, hwhole, hfirst, hsecond, hthird]

theorem exists_sextets (x y z : UInt8) :
    ∃ a b c d, sextets x y z = [a, b, c, d] ∧ a < 64 ∧ b < 64 ∧ c < 64 ∧ d < 64 := by
  have hlt := sextets_lt x y z
  simp only [sextets, List.forall_mem_cons] at hlt
  obtain ⟨ha, hb, hc, hd, -⟩ := hlt
  exact ⟨_, _, _, _, rfl, ha, hb, hc, hd⟩

section Groups

variable {a b c d : Nat}

theorem decode_four (ha : a < 64) (hb : b < 64) (hc : c < 64) (hd : d < 64) (rest : List UInt8) :
    decode ([a, b, c, d].map char ++ rest) = (decode rest).map (octets a b c d ++ ·) := by
  have hwhole : ¬ (char d = 61 ∧ rest = []) := fun h => char_ne_pad hd h.1
  simp only [List.map_cons, List.map_nil, List.cons_append, List.nil_append]
  rw [decode, if_neg hwhole, value_char ha, value_char hb, value_char hc, value_char hd]
  cases decode rest <;> rfl

theorem decode_three (ha : a < 64) (hb : b < 64) (hc : c < 64) :
    decode ([a, b, c].map char ++ [61]) = some ((octets a b c 0).take 2) := by
  simp only [List.map_cons, List.map_nil, List.cons_append, List.nil_append]
  rw [decode, if_pos ⟨rfl, rfl⟩, if_neg (char_ne_pad hc), value_char ha, value_char hb,
    value_char hc]
  rfl

theorem decode_two (ha : a < 64) (hb : b < 64) :
    decode ([a, b].map char ++ [61, 61]) = some ((octets a b 0 0).take 1) := by
  simp only [List.map_cons, List.map_nil, List.cons_append, List.nil_append]
  rw [decode, if_pos ⟨rfl, rfl⟩, if_pos rfl, value_char ha, value_char hb]
  rfl

end Groups

theorem decode_encode (s : List UInt8) : decode (encode s) = some s := by
  fun_induction encode s with
  | case1 x y z rest ih =>
    obtain ⟨a, b, c, d, hs, ha, hb, hc, hd⟩ := exists_sextets x y z
    rw [hs, decode_four ha hb hc hd, ih, octets_sextets hs]
    rfl
  | case2 x y =>
    obtain ⟨a, b, c, d, hs, ha, hb, hc, -⟩ := exists_sextets x y 0
    have hd : d = 0 := by
      simp only [sextets, List.cons.injEq, and_true, UInt8.toNat_zero] at hs
      omega
    subst hd
    have htake : (sextets x y 0).take 3 = [a, b, c] := congrArg (List.take 3) hs
    rw [htake, decode_three ha hb hc, octets_sextets hs]
    rfl
  | case3 x =>
    obtain ⟨a, b, c, d, hs, ha, hb, -⟩ := exists_sextets x 0 0
    have hcd : c = 0 ∧ d = 0 := by
      simp only [sextets, List.cons.injEq, and_true, UInt8.toNat_zero] at hs
      omega
    obtain ⟨rfl, rfl⟩ := hcd
    have htake : (sextets x 0 0).take 2 = [a, b] := congrArg (List.take 2) hs
    rw [htake, decode_two ha hb, octets_sextets hs]
    rfl
  | case4 => rfl

theorem exists_encode (s : List UInt8) :
    ∃ chars : List Nat, (∀ n ∈ chars, n < 64) ∧
      encode s = chars.map char ++ .replicate ((3 - s.length % 3) % 3) 61 := by
  fun_induction encode s with
  | case1 x y z rest ih =>
    obtain ⟨chars, hlt, htext⟩ := ih
    refine ⟨sextets x y z ++ chars, fun n hn => ?_, ?_⟩
    · exact (List.mem_append.mp hn).elim (sextets_lt x y z n) (hlt n)
    · have hmod : (x :: y :: z :: rest).length % 3 = rest.length % 3 := by
        simp only [List.length_cons]
        omega
      rw [htext, hmod, List.map_append, List.append_assoc]
  | case2 x y =>
    exact ⟨_, fun n hn => sextets_lt x y 0 n (List.mem_of_mem_take hn), rfl⟩
  | case3 x =>
    exact ⟨_, fun n hn => sextets_lt x 0 0 n (List.mem_of_mem_take hn), rfl⟩
  | case4 => exact ⟨[], fun n hn => absurd hn List.not_mem_nil, rfl⟩

end RadProt.Lib.Base64
