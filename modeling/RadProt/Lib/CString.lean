import Mathlib.Data.List.TakeWhile
import Mathlib.Data.Int.Order.Basic

namespace RadProt.Lib

/-- The NUL-terminated string that starts at the head of `bytes`. -/
def cString (bytes : List UInt8) : List UInt8 := bytes.takeWhile (· ≠ 0)

theorem zero_notMem_cString (bytes : List UInt8) : 0 ∉ cString bytes := by
  intro h
  simpa using List.mem_takeWhile_imp h

@[simp] theorem cString_eq_self {s : List UInt8} (h : 0 ∉ s) : cString s = s := by
  refine List.takeWhile_eq_self_iff.mpr fun b hb => ?_
  simpa using fun hz : b = 0 => h (hz ▸ hb)

@[simp] theorem cString_nil : cString [] = [] := rfl

@[simp] theorem cString_zero_cons (s : List UInt8) : cString (0 :: s) = [] := rfl

@[simp] theorem cString_cString (bytes : List UInt8) : cString (cString bytes) = cString bytes :=
  cString_eq_self (zero_notMem_cString bytes)

theorem cString_append {s : List UInt8} (h : 0 ∉ s) (rest : List UInt8) :
    cString (s ++ rest) = s ++ cString rest := by
  refine List.takeWhile_append_of_pos fun b hb => ?_
  simpa using fun hz : b = 0 => h (hz ▸ hb)

theorem cString_drop {bytes : List UInt8} {n : Nat} (h : n ≤ (cString bytes).length) :
    cString (bytes.drop n) = (cString bytes).drop n := by
  induction bytes generalizing n with
  | nil => simp
  | cons b bytes ih =>
    cases n with
    | zero => rfl
    | succ n =>
      have hb : b ≠ 0 := by
        rintro rfl
        exact absurd h (Nat.not_succ_le_zero n)
      have hcons : cString (b :: bytes) = b :: cString bytes :=
        List.takeWhile_cons_of_pos (by simpa using hb)
      rw [hcons, List.length_cons] at h
      rw [hcons, List.drop_succ_cons, List.drop_succ_cons, ih (Nat.le_of_succ_le_succ h)]

theorem cString_drop_length {bytes front rest : List UInt8} (h : cString bytes = front ++ rest) :
    cString (bytes.drop front.length) = rest := by
  rw [cString_drop (by rw [h, List.length_append]; omega), h, List.drop_left]

theorem exists_of_zero_mem {bytes : List UInt8} (h : 0 ∈ bytes) :
    ∃ rest, bytes = cString bytes ++ 0 :: rest := by
  induction bytes with
  | nil => exact nomatch h
  | cons b bytes ih =>
    by_cases hb : b = 0
    · subst hb
      exact ⟨bytes, rfl⟩
    · obtain ⟨rest, hrest⟩ := ih ((List.mem_cons.mp h).resolve_left (Ne.symm hb))
      refine ⟨rest, ?_⟩
      have hcons : cString (b :: bytes) = b :: cString bytes :=
        List.takeWhile_cons_of_pos (by simpa using hb)
      rw [hcons, List.cons_append, ← hrest]

theorem cString_eq_nil_iff {bytes : List UInt8} :
    cString bytes = [] ↔ bytes = [] ∨ bytes.head? = some 0 := by
  cases bytes with
  | nil => simp
  | cons b s => by_cases hb : b = 0 <;> simp [cString, hb]

/-- What `strncpy` leaves in an array of `n` bytes: the source cut to `n` bytes, then NULs.
There is no terminator when the source fills the array. -/
def strncpy (n : Nat) (src : List UInt8) : List UInt8 :=
  (cString src).take n ++ List.replicate (n - (cString src).length) 0

@[simp] theorem length_strncpy (n : Nat) (src : List UInt8) : (strncpy n src).length = n := by
  simp only [strncpy, List.length_append, List.length_take, List.length_replicate]
  omega

/-- Reading back a `strncpy` as a string runs on into what follows the array once the source
has no room for its terminator. -/
theorem cString_strncpy_append (n : Nat) (src rest : List UInt8) :
    cString (strncpy n src ++ rest) =
      if (cString src).length < n then cString src
      else (cString src).take n ++ cString rest := by
  have htake : 0 ∉ (cString src).take n :=
    fun h => zero_notMem_cString src (List.mem_of_mem_take h)
  rw [strncpy, List.append_assoc, cString_append htake]
  split
  next hlt =>
    obtain ⟨k, hk⟩ : ∃ k, n - (cString src).length = k + 1 := ⟨_, (Nat.succ_pred (by omega)).symm⟩
    rw [hk, List.replicate_succ, List.cons_append, cString_zero_cons, List.append_nil,
      List.take_of_length_le (by omega)]
  next hge => rw [show n - (cString src).length = 0 by omega, List.replicate_zero, List.nil_append]

theorem cString_strncpy_append_eq_nil_iff {n : Nat} (hn : 0 < n) (src rest : List UInt8) :
    cString (strncpy n src ++ rest) = [] ↔ cString src = [] := by
  rw [cString_strncpy_append]
  split
  next => rfl
  next hge =>
    have hne : cString src ≠ [] := fun h => by simp [h] at hge; omega
    have htake : (cString src).take n ≠ [] := by
      simp only [ne_eq, List.take_eq_nil_iff, not_or]
      exact ⟨by omega, hne⟩
    simp [htake, hne]

structure CharArray (n : Nat) where
  bytes : List UInt8
  length_bytes : bytes.length = n
  deriving DecidableEq

def CharArray.strncpy (n : Nat) (src : List UInt8) : CharArray n where
  bytes := Lib.strncpy n src
  length_bytes := length_strncpy n src

@[simp] theorem CharArray.strncpy_bytes (n : Nat) (src : List UInt8) :
    (CharArray.strncpy n src).bytes = Lib.strncpy n src := rfl

def CharArray.write {n : Nat} (array : CharArray n) (i : Nat) (s : List UInt8) : CharArray n where
  bytes := (array.bytes.take i ++ s ++ array.bytes.drop (i + s.length)).take n
  length_bytes := by
    simp only [List.length_take, List.length_append, List.length_drop, array.length_bytes]
    omega

theorem CharArray.write_bytes {n i : Nat} (array : CharArray n) {s : List UInt8}
    (h : i + s.length ≤ n) :
    (array.write i s).bytes = array.bytes.take i ++ (s ++ array.bytes.drop (i + s.length)) := by
  refine (List.take_of_length_le ?_).trans (List.append_assoc _ _ _)
  simp only [List.length_take, List.length_append, List.length_drop, array.length_bytes]
  omega

def isSpace (b : UInt8) : Bool := b = 32 || (9 ≤ b && b ≤ 13)

def isDigit (b : UInt8) : Bool := 48 ≤ b && b ≤ 57

def digitsValue (digits : List UInt8) : Nat :=
  digits.foldl (fun acc b => 10 * acc + (b.toNat - 48)) 0

/-- `atoi`: blanks, an optional sign, then decimal digits, saturating at the ends of `int`. -/
def atoi (s : List UInt8) : Int :=
  let body := (cString s).dropWhile isSpace
  let value : Int :=
    match body with
    | 45 :: rest => -(digitsValue (rest.takeWhile isDigit) : Int)
    | 43 :: rest => digitsValue (rest.takeWhile isDigit)
    | rest => digitsValue (rest.takeWhile isDigit)
  max (-2147483648) (min value 2147483647)

example : atoi [32, 45, 49, 50, 120] = -12 := by decide

theorem takeWhile_isDigit_append {digits : List UInt8} {c : UInt8} (hc : isDigit c = false)
    (rest : List UInt8) :
    (digits ++ cString (c :: rest)).takeWhile isDigit = digits.takeWhile isDigit := by
  induction digits with
  | nil =>
    rw [List.nil_append, List.takeWhile_nil]
    by_cases hzero : c = 0
    · rw [hzero, cString_zero_cons, List.takeWhile_nil]
    · have hcons : cString (c :: rest) = c :: cString rest :=
        List.takeWhile_cons_of_pos (by simpa using hzero)
      rw [hcons, List.takeWhile_cons_of_neg (by simp [hc])]
  | cons b digits ih =>
    rw [List.cons_append, List.takeWhile_cons, List.takeWhile_cons, ih]

theorem atoi_unsigned {s body : List UInt8} {b : UInt8}
    (h : (cString s).dropWhile isSpace = b :: body) (hminus : b ≠ 45) (hplus : b ≠ 43) :
    atoi s =
      max (-2147483648) (min (digitsValue ((b :: body).takeWhile isDigit) : Int) 2147483647) := by
  rw [atoi, h]
  congr 2
  split
  next heq => exact absurd (List.cons.inj heq).1 hminus
  next heq => exact absurd (List.cons.inj heq).1 hplus
  next => rfl

theorem atoi_append_cons {s : List UInt8} {c : UInt8} (hs : ∃ b ∈ s, isSpace b = false)
    (hc : isDigit c = false) (rest : List UInt8) : atoi (s ++ c :: rest) = atoi s := by
  by_cases hzero : 0 ∈ s
  · obtain ⟨more, hmore⟩ := exists_of_zero_mem hzero
    have hsame : cString (s ++ c :: rest) = cString s := by
      conv_lhs => rw [hmore, List.append_assoc, cString_append (zero_notMem_cString s)]
      rw [List.cons_append, cString_zero_cons, List.append_nil]
    rw [atoi, atoi, hsame]
  · have hne : s.dropWhile isSpace ≠ [] := by
      obtain ⟨b, hb, hspace⟩ := hs
      intro hnil
      have hall := List.dropWhile_eq_nil_iff.mp hnil b hb
      rw [hspace] at hall
      cases hall
    have hbody : (cString (s ++ c :: rest)).dropWhile isSpace =
        s.dropWhile isSpace ++ cString (c :: rest) := by
      rw [cString_append hzero, List.dropWhile_append, if_neg (by simpa using hne)]
    obtain ⟨b, body, hcons⟩ := List.exists_cons_of_ne_nil hne
    have hself : (cString s).dropWhile isSpace = b :: body := by rw [cString_eq_self hzero, hcons]
    rw [hcons, List.cons_append] at hbody
    by_cases hminus : b = 45
    · rw [atoi, atoi, hbody, hself, hminus]
      simp only [takeWhile_isDigit_append hc]
    · by_cases hplus : b = 43
      · rw [atoi, atoi, hbody, hself, hplus]
        simp only [takeWhile_isDigit_append hc]
      · rw [atoi_unsigned hbody hminus hplus, atoi_unsigned hself hminus hplus, ← List.cons_append,
          takeWhile_isDigit_append hc]

theorem atoi_blanks_append {s : List UInt8} (hs : ∀ b ∈ s, isSpace b = true)
    (rest : List UInt8) : atoi (s ++ rest) = atoi rest := by
  have hzero : 0 ∉ s := fun hmem => absurd (hs 0 hmem) (by decide)
  rw [atoi, atoi, cString_append hzero, List.dropWhile_append,
    List.dropWhile_eq_nil_iff.mpr hs, List.isEmpty_nil, if_pos rfl]

def ascii (s : String) : List UInt8 := s.toList.map fun c => c.toNat.toUInt8

def toLower (b : UInt8) : UInt8 := if 65 ≤ b ∧ b ≤ 90 then b + 32 else b

def strncaseEq (a b : List UInt8) (n : Nat) : Bool :=
  ((cString a).take n).map toLower = ((cString b).take n).map toLower

def strcaseEq (a b : List UInt8) : Bool := (cString a).map toLower = (cString b).map toLower

def strchr (s : List UInt8) (b : UInt8) : Option Nat := (cString s).findIdx? (· = b)

/-- The position of `token` within the first `n` bytes of `buffer`; the search ends at a NUL. -/
def strnstr (buffer token : List UInt8) (n : Nat) : Option Nat :=
  match buffer with
  | [] => none
  | b :: rest =>
    if b = 0 ∨ n < token.length then none
    else if token.isPrefixOf (b :: rest) then some 0
    else (strnstr rest token (n - 1)).map (· + 1)

example : strnstr (ascii "GET / HTTP") (ascii " ") 10 = some 3 := by decide

theorem strnstr_some {buffer token : List UInt8} {n i : Nat}
    (h : strnstr buffer token n = some i) :
    token <+: buffer.drop i ∧ i + token.length ≤ n ∧ 0 ∉ buffer.take i := by
  induction buffer generalizing n i with
  | nil => cases h
  | cons b rest ih =>
    rw [strnstr] at h
    split at h
    next => cases h
    next hgo =>
      have hroom : token.length ≤ n := Nat.not_lt.mp fun hlt => hgo (.inr hlt)
      split at h
      next hhere =>
        obtain rfl := Option.some.inj h
        rw [Nat.zero_add]
        exact ⟨List.isPrefixOf_iff_prefix.mp hhere, hroom, List.not_mem_nil⟩
      next hhere =>
        have hpos : 0 < token.length := List.length_pos_iff.mpr fun hnil => hhere (by rw [hnil]; rfl)
        obtain ⟨j, hj, rfl⟩ := Option.map_eq_some_iff.mp h
        obtain ⟨htoken, hbound, hzero⟩ := ih hj
        refine ⟨htoken, by omega, fun hmem => ?_⟩
        obtain hb | hmem := List.mem_cons.mp hmem
        · exact hgo (.inl hb.symm)
        · exact hzero hmem

theorem strnstr_min {buffer token : List UInt8} {n i : Nat} (h : strnstr buffer token n = some i) :
    ∀ j < i, ¬ token <+: buffer.drop j := by
  induction buffer generalizing n i with
  | nil => cases h
  | cons b rest ih =>
    rw [strnstr] at h
    split at h
    next => cases h
    next =>
      split at h
      next =>
        obtain rfl := Option.some.inj h
        exact fun j hj => absurd hj (Nat.not_lt_zero j)
      next hhere =>
        obtain ⟨k, hk, rfl⟩ := Option.map_eq_some_iff.mp h
        intro j hj
        cases j with
        | zero => exact mt List.isPrefixOf_iff_prefix.mpr hhere
        | succ j => exact ih hk j (Nat.lt_of_succ_lt_succ hj)

theorem strnstr_isSome {buffer token : List UInt8} {n i : Nat} (hzero : 0 ∉ buffer.take (i + 1))
    (htoken : token ≠ []) (hi : token <+: buffer.drop i) (hn : i + token.length ≤ n) :
    (strnstr buffer token n).isSome := by
  induction buffer generalizing n i with
  | nil =>
    rw [List.drop_nil] at hi
    exact absurd (List.prefix_nil.mp hi) htoken
  | cons b rest ih =>
    obtain ⟨hb, hrest⟩ := not_or.mp fun h => hzero (List.mem_cons.mpr h)
    rw [strnstr, if_neg (not_or.mpr ⟨Ne.symm hb, by omega⟩)]
    split
    next => rfl
    next hhere =>
      cases i with
      | zero => exact absurd (List.isPrefixOf_iff_prefix.mpr hi) hhere
      | succ i =>
        rw [Option.isSome_map]
        exact ih hrest hi (by omega)

theorem strnstr_append_isSome {before token rest : List UInt8} {n : Nat}
    (hzero : 0 ∉ before ++ token) (htoken : token ≠ []) (hn : before.length + token.length ≤ n) :
    (strnstr (before ++ (token ++ rest)) token n).isSome := by
  have hhere : token <+: (before ++ (token ++ rest)).drop before.length := by
    rw [List.drop_left]
    exact List.prefix_append _ _
  refine strnstr_isSome (fun hmem => hzero ?_) htoken hhere hn
  obtain ⟨b, token, rfl⟩ := List.exists_cons_of_ne_nil htoken
  rw [List.take_length_add_append, List.cons_append, List.take_succ_cons, List.take_zero] at hmem
  simp only [List.mem_append, List.mem_cons, List.not_mem_nil, or_false] at hmem ⊢
  exact hmem.imp_right .inl

theorem strnstr_first {before token : List UInt8} {rest : List UInt8} {n : Nat}
    (hzero : 0 ∉ before ++ token) (htoken : token ≠ [])
    (hfirst : ∀ i < before.length, ¬ token <+: (before ++ (token ++ rest)).drop i)
    (hn : before.length + token.length ≤ n) :
    strnstr (before ++ (token ++ rest)) token n = some before.length := by
  induction before generalizing n with
  | nil =>
    obtain ⟨b, token, rfl⟩ := List.exists_cons_of_ne_nil htoken
    have hb : b ≠ 0 := fun hb => hzero (by simp [hb])
    have hroom : ¬ n < (b :: token).length := by simpa using hn
    have hhere : b :: token <+: b :: (token ++ rest) := ⟨rest, rfl⟩
    rw [List.nil_append, List.cons_append, strnstr, if_neg (not_or.mpr ⟨hb, hroom⟩),
      if_pos (List.isPrefixOf_iff_prefix.mpr hhere)]
    rfl
  | cons b before ih =>
    have hb : b ≠ 0 := fun hb => hzero (by simp [hb])
    have hhere : ¬ token <+: b :: (before ++ (token ++ rest)) := hfirst 0 (Nat.zero_lt_succ _)
    rw [List.length_cons] at hn
    rw [List.cons_append, strnstr, if_neg (not_or.mpr ⟨hb, by omega⟩),
      if_neg (mt List.isPrefixOf_iff_prefix.mp hhere),
      ih (fun hmem => hzero (List.mem_cons_of_mem _ hmem)) (fun i hi => ?_) (by omega)]
    · rfl
    · exact hfirst (i + 1) (Nat.succ_lt_succ hi)

theorem isPrefixOf_append {buffer token : List UInt8} (h : token.length ≤ buffer.length)
    (more : List UInt8) : token.isPrefixOf (buffer ++ more) = token.isPrefixOf buffer := by
  rw [Bool.eq_iff_iff, List.isPrefixOf_iff_prefix, List.isPrefixOf_iff_prefix]
  refine ⟨fun hprefix => ?_, fun hprefix => hprefix.trans (List.prefix_append _ _)⟩
  exact List.prefix_of_prefix_length_le hprefix (List.prefix_append _ _) h

theorem strnstr_append {buffer token : List UInt8}
    (h : (strnstr buffer token buffer.length).isSome) (more : List UInt8) (n : Nat) :
    strnstr (buffer ++ more) token n = strnstr buffer token n := by
  induction buffer generalizing n with
  | nil => cases h
  | cons b rest ih =>
    rw [strnstr] at h
    split at h
    next => cases h
    next hgo =>
      have hroom : token.length ≤ (b :: rest).length := Nat.not_lt.mp fun hlt => hgo (.inr hlt)
      have hhere := isPrefixOf_append hroom more
      rw [List.cons_append] at hhere ⊢
      rw [strnstr, strnstr, hhere]
      split
      next => rfl
      next =>
        split
        next => rfl
        next hnot =>
          rw [if_neg hnot, Option.isSome_map] at h
          rw [ih h]

theorem strnstr_append_of_le {buffer token : List UInt8} {n : Nat} (htoken : token ≠ [])
    (hn : n ≤ buffer.length) (more : List UInt8) :
    strnstr (buffer ++ more) token n = strnstr buffer token n := by
  induction buffer generalizing n with
  | nil =>
    obtain rfl := Nat.le_zero.mp hn
    cases more with
    | nil => rfl
    | cons b more =>
      rw [List.nil_append, strnstr, strnstr]
      exact if_pos (.inr (List.length_pos_iff.mpr htoken))
  | cons b rest ih =>
    rw [List.cons_append, strnstr, strnstr]
    by_cases hgo : b = 0 ∨ n < token.length
    · rw [if_pos hgo, if_pos hgo]
    · have hroom : token.length ≤ n := Nat.not_lt.mp fun hlt => hgo (.inr hlt)
      have hhere := isPrefixOf_append (Nat.le_trans hroom hn) more
      rw [List.cons_append] at hhere
      rw [if_neg hgo, if_neg hgo, hhere, ih (Nat.sub_le_of_le_add hn)]

theorem strnstr_take {buffer token : List UInt8} {n i : Nat} (htoken : token ≠ [])
    (hn : n ≤ buffer.length) : strnstr (buffer.take n) token n = some i ↔
      strnstr buffer token buffer.length = some i ∧ i + token.length ≤ n := by
  have hpos : 0 < token.length := List.length_pos_iff.mpr htoken
  induction buffer generalizing n i with
  | nil => simp [strnstr]
  | cons b rest ih =>
    cases n with
    | zero =>
      simp only [List.take_zero, strnstr, reduceCtorEq, false_iff, not_and]
      omega
    | succ n =>
      rw [List.length_cons] at hn
      rw [List.take_succ_cons, strnstr, strnstr, List.length_cons]
      by_cases hb : b = 0
      · simp [hb]
      · by_cases hlt : n + 1 < token.length
        · rw [if_pos (.inr hlt)]
          simp only [reduceCtorEq, false_iff, not_and]
          omega
        · have hroom : ¬ rest.length + 1 < token.length := by omega
          rw [if_neg (not_or.mpr ⟨hb, hlt⟩), if_neg (not_or.mpr ⟨hb, hroom⟩)]
          have hhere : token.isPrefixOf (b :: rest.take n) = token.isPrefixOf (b :: rest) := by
            rw [Bool.eq_iff_iff, List.isPrefixOf_iff_prefix, List.isPrefixOf_iff_prefix,
              ← List.take_succ_cons, List.prefix_take_iff]
            exact and_iff_left (by omega)
          rw [hhere]
          split
          next =>
            simp only [Option.some.injEq]
            omega
          next =>
            simp only [Option.map_eq_some_iff, Nat.add_sub_cancel, ih (Nat.le_of_succ_le_succ hn)]
            constructor
            · rintro ⟨j, ⟨hj, hbound⟩, rfl⟩
              exact ⟨⟨j, hj, rfl⟩, by omega⟩
            · rintro ⟨⟨j, hj, rfl⟩, hbound⟩
              exact ⟨j, ⟨hj, by omega⟩, rfl⟩

def itoa (n : Nat) : List UInt8 := (Nat.toDigits 10 n).map fun c => c.toNat.toUInt8

theorem map_itoa (n : Nat) : (itoa n).map (fun b => Char.ofNat b.toNat) = Nat.toDigits 10 n := by
  rw [itoa, List.map_map]
  conv_rhs => rw [← List.map_id (Nat.toDigits 10 n)]
  refine List.map_congr_left fun c hc => ?_
  have hdigit := Nat.isDigit_of_mem_toDigits (by decide) (by decide) hc
  have hlt : c.toNat < 256 := Nat.lt_of_le_of_lt (Char.isDigit_iff_toNat.mp hdigit).2 (by decide)
  simp [Nat.mod_eq_of_lt hlt]

theorem itoa_injective : Function.Injective itoa := by
  intro m n h
  have hdigits : Nat.toDigits 10 m = Nat.toDigits 10 n := by rw [← map_itoa, ← map_itoa, h]
  rw [← Nat.ofDigitChars_ten_toDigits (n := m), hdigits, Nat.ofDigitChars_ten_toDigits]

end RadProt.Lib
