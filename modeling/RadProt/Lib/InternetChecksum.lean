import Mathlib.Data.Nat.ModEq
import Mathlib.Tactic.Ring

namespace RadProt.Lib.InternetChecksum

/-- Addition of 16-bit words with the carry brought round. -/
def addWord (a b : Nat) : Nat := (a + b) % 65536 + (a + b) / 65536

/-- The 16-bit words of `bytes`, high byte first; a last odd byte is padded with zero. -/
def words : List UInt8 → List Nat
  | [] => []
  | [b] => [256 * b.toNat]
  | b :: b' :: bytes => (256 * b.toNat + b'.toNat) :: words bytes

def onesSum (bytes : List UInt8) : Nat := (words bytes).foldl addWord 0

def Verifies (bytes : List UInt8) : Prop := onesSum bytes = 65535

instance (bytes : List UInt8) : Decidable (Verifies bytes) := inferInstanceAs (Decidable (_ = _))

def lowWords : List UInt8 → List Nat
  | [] => []
  | [b] => [b.toNat]
  | b :: b' :: bytes => (b.toNat + 256 * b'.toNat) :: lowWords bytes

/-- What makes a sum of up to 32 bits verify: its two halves added, twice, and complemented. -/
def complement (sum : Nat) : Nat :=
  let folded := sum / 65536 + sum % 65536
  65535 - (folded / 65536 + folded) % 65536

theorem addWord_modEq (a b : Nat) : addWord a b ≡ a + b [MOD 65535] := by
  have hsplit : a + b = 65535 * ((a + b) / 65536) + addWord a b := by
    rw [addWord]
    omega
  rw [Nat.ModEq, hsplit, Nat.mul_add_mod]

theorem foldl_addWord_modEq (ws : List Nat) (a : Nat) :
    ws.foldl addWord a ≡ a + ws.sum [MOD 65535] := by
  induction ws generalizing a with
  | nil => rfl
  | cons w ws ih =>
    calc
      (w :: ws).foldl addWord a ≡ addWord a w + ws.sum [MOD 65535] := ih _
      _ ≡ a + w + ws.sum [MOD 65535] := (addWord_modEq a w).add_right _
      _ = a + (w :: ws).sum := by rw [List.sum_cons, Nat.add_assoc]

theorem words_lt {bytes : List UInt8} {w : Nat} (hw : w ∈ words bytes) : w < 65536 := by
  induction bytes using words.induct with
  | case1 => exact absurd hw List.not_mem_nil
  | case2 b =>
    obtain rfl := List.mem_singleton.mp hw
    have := b.toNat_lt
    omega
  | case3 b b' bytes ih =>
    obtain rfl | hw := List.mem_cons.mp hw
    · have := b.toNat_lt
      have := b'.toNat_lt
      omega
    · exact ih hw

/-- Only zeros add up to zero: the carry never cancels what is there. -/
theorem foldl_addWord_bounds {ws : List Nat} (hws : ∀ w ∈ ws, w < 65536) {a : Nat}
    (ha : a < 65536) :
    ws.foldl addWord a < 65536 ∧ (ws.foldl addWord a = 0 ↔ a + ws.sum = 0) := by
  induction ws generalizing a with
  | nil => exact ⟨ha, Iff.rfl⟩
  | cons w ws ih =>
    have hw := hws w List.mem_cons_self
    have hstep : addWord a w < 65536 ∧ (addWord a w = 0 ↔ a + w = 0) := by
      rw [addWord]
      omega
    obtain ⟨hlt, hzero⟩ := ih (fun w' hw' => hws w' (List.mem_cons_of_mem _ hw')) hstep.1
    refine ⟨hlt, hzero.trans ?_⟩
    rw [List.sum_cons]
    omega

theorem verifies_iff (bytes : List UInt8) :
    Verifies bytes ↔ 0 < (words bytes).sum ∧ 65535 ∣ (words bytes).sum := by
  have hmod : onesSum bytes % 65535 = (words bytes).sum % 65535 :=
    Nat.zero_add (words bytes).sum ▸ foldl_addWord_modEq (words bytes) 0
  obtain ⟨hlt, hzero⟩ : onesSum bytes < 65536 ∧ (onesSum bytes = 0 ↔ 0 + (words bytes).sum = 0) :=
    foldl_addWord_bounds (fun _ => words_lt) (Nat.zero_lt_succ 65535)
  rw [Verifies]
  omega

theorem sum_words_modEq (bytes : List UInt8) :
    (words bytes).sum ≡ 256 * (lowWords bytes).sum [MOD 65535] := by
  induction bytes using words.induct with
  | case1 => rfl
  | case2 b =>
    rw [words, lowWords, List.sum_singleton, List.sum_singleton]
  | case3 b b' bytes ih =>
    rw [words, lowWords, List.sum_cons, List.sum_cons, Nat.mul_add]
    refine Nat.ModEq.add ?_ ih
    have hswap : 256 * (b.toNat + 256 * b'.toNat) =
        65535 * b'.toNat + (256 * b.toNat + b'.toNat) := by ring
    rw [Nat.ModEq, hswap, Nat.mul_add_mod]

theorem sum_words_eq_zero_iff (bytes : List UInt8) :
    (words bytes).sum = 0 ↔ (lowWords bytes).sum = 0 := by
  induction bytes using words.induct with
  | case1 => rfl
  | case2 b =>
    rw [words, lowWords, List.sum_singleton, List.sum_singleton]
    omega
  | case3 b b' bytes ih =>
    rw [words, lowWords, List.sum_cons, List.sum_cons]
    omega

theorem verifies_iff_low (bytes : List UInt8) :
    Verifies bytes ↔ 0 < (lowWords bytes).sum ∧ 65535 ∣ (lowWords bytes).sum := by
  have hpos := sum_words_eq_zero_iff bytes
  have hdvd : 65535 ∣ (words bytes).sum ↔ 65535 ∣ (lowWords bytes).sum := by
    rw [(sum_words_modEq bytes).dvd_iff dvd_rfl]
    exact Nat.Coprime.dvd_mul_left (by decide)
  rw [verifies_iff, hdvd]
  omega

theorem lowWords_append {front : List UInt8} (h : 2 ∣ front.length) (back : List UInt8) :
    lowWords (front ++ back) = lowWords front ++ lowWords back := by
  induction front using lowWords.induct with
  | case1 => rfl
  | case2 b => exact absurd h (show ¬ 2 ∣ 1 by decide)
  | case3 b b' bytes ih =>
    rw [List.cons_append, List.cons_append, lowWords, lowWords, List.cons_append]
    rw [ih ((Nat.dvd_add_left (dvd_refl 2)).mp h)]

theorem dvd_add_complement {sum : Nat} (h : sum < 2 ^ 32) : 65535 ∣ sum + complement sum := by
  have hhigh : sum / 65536 < 65536 := by omega
  have hsum : sum = 65536 * (sum / 65536) + sum % 65536 := by omega
  have hlow : sum % 65536 < 65536 := Nat.mod_lt _ (by decide)
  simp only [complement]
  generalize sum / 65536 = high at *
  generalize sum % 65536 = low at *
  by_cases hcarry : high + low < 65536
  · rw [Nat.div_eq_of_lt hcarry, Nat.zero_add, Nat.mod_eq_of_lt hcarry]
    omega
  · have hone : (high + low) / 65536 = 1 := by omega
    have hfolded : (1 + (high + low)) % 65536 = high + low - 65535 := by omega
    rw [hone, hfolded]
    omega

/-- One word that changes, other than between all zeros and all ones, is always noticed. -/
theorem not_verifies_of_changed {front back : List UInt8} {x y x' y' : UInt8}
    (heven : 2 ∣ front.length) (h : Verifies (front ++ x :: y :: back))
    (hne : ¬ x.toNat + 256 * y.toNat ≡ x'.toNat + 256 * y'.toNat [MOD 65535]) :
    ¬ Verifies (front ++ x' :: y' :: back) := by
  intro h'
  have hsum := ((verifies_iff_low _).mp h).2
  have hsum' := ((verifies_iff_low _).mp h').2
  rw [lowWords_append heven, lowWords, List.sum_append, List.sum_cons] at hsum hsum'
  apply hne
  rw [Nat.ModEq]
  omega

end RadProt.Lib.InternetChecksum
