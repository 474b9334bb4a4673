import RadProt.Dhcp.Messages
import RadProt.Lib.Run

namespace RadProt.Dhcp

open RadProt.Lib

def DhcpServerLease.Reusable (l : DhcpServerLease) (ticks : UInt32) : Prop :=
  l.mac = macZero ∨ l.Expired ticks

instance (l : DhcpServerLease) (ticks : UInt32) : Decidable (l.Reusable ticks) :=
  inferInstanceAs (Decidable (_ ∨ _))

abbrev LeaseTable := Fin dhcpsMaxIp → DhcpServerLease

namespace LeaseTable

variable (lease : LeaseTable) (mac : Mac) (ticks : Nat → UInt32) (is : List (Fin dhcpsMaxIp))

def own : Option (Fin dhcpsMaxIp) := is.find? fun i => (lease i).mac = mac

def reusable : Option (Fin dhcpsMaxIp) :=
  (is.takeWhile fun i => (lease i).mac ≠ mac).find? fun i => (lease i).Reusable (ticks i)

def clear (yi : Option (Fin dhcpsMaxIp)) : LeaseTable :=
  yi.elim lease fun yi => Function.update lease yi { lease yi with mac := macZero }

variable {lease mac ticks is} {i : Fin dhcpsMaxIp} {yi : Option (Fin dhcpsMaxIp)}

theorem clear_of_ne (h : yi ≠ some i) : lease.clear yi i = lease i := by
  cases yi with
  | none => rfl
  | some k =>
    have hne : i ≠ k := fun hk => h (congrArg some hk.symm)
    exact Function.update_of_ne hne ..

theorem clear_self : lease.clear (some i) i = { lease i with mac := macZero } :=
  Function.update_self ..

theorem own_cons_of_eq (h : (lease i).mac = mac) : lease.own mac (i :: is) = some i :=
  List.find?_cons_of_pos (by simpa using h)

theorem own_cons_of_ne (h : (lease i).mac ≠ mac) : lease.own mac (i :: is) = lease.own mac is :=
  List.find?_cons_of_neg (by simpa using h)

theorem reusable_cons_of_eq (h : (lease i).mac = mac) :
    lease.reusable mac ticks (i :: is) = none := by
  rw [reusable, List.takeWhile_cons_of_neg (by simpa using h)]
  rfl

theorem reusable_cons_of_reusable (hne : (lease i).mac ≠ mac) (h : (lease i).Reusable (ticks i)) :
    lease.reusable mac ticks (i :: is) = some i := by
  rw [reusable, List.takeWhile_cons_of_pos (by simpa using hne)]
  exact List.find?_cons_of_pos (by simpa using h)

theorem reusable_cons_of_not (hne : (lease i).mac ≠ mac) (h : ¬ (lease i).Reusable (ticks i)) :
    lease.reusable mac ticks (i :: is) = lease.reusable mac ticks is := by
  rw [reusable, List.takeWhile_cons_of_pos (by simpa using hne)]
  exact List.find?_cons_of_neg (by simpa using h)

theorem own_some (h : lease.own mac is = some i) : (lease i).mac = mac := by
  simpa using List.find?_some h

theorem reusable_some (h : lease.reusable mac ticks is = some i) :
    (lease i).mac ≠ mac ∧ (lease i).Reusable (ticks i) :=
  ⟨by simpa using List.mem_takeWhile_imp (List.mem_of_find?_eq_some h),
    by simpa using List.find?_some h⟩

theorem own_clear (h : ∀ k ∈ yi, k ∉ is) : (lease.clear yi).own mac is = lease.own mac is := by
  induction is with
  | nil => rfl
  | cons i is ih =>
    have hi : yi ≠ some i := fun hk => h i hk List.mem_cons_self
    have hrest := ih fun k hk hmem => h k hk (List.mem_cons_of_mem _ hmem)
    by_cases hmac : (lease i).mac = mac
    · rw [own_cons_of_eq hmac, own_cons_of_eq (by rwa [clear_of_ne hi])]
    · rw [own_cons_of_ne hmac, own_cons_of_ne (by rwa [clear_of_ne hi]), hrest]

end LeaseTable

section Loop

open LeaseTable

variable {mac : Mac} {ticks : Nat → UInt32} {is : List (Fin dhcpsMaxIp)} {s : Scan}
  {i : Fin dhcpsMaxIp}

theorem turn_of_reusable (h : (s.lease i).Reusable (ticks i)) :
    s.turn i (ticks i) = { lease := clear s.lease (some i), yi := some i } := by
  rw [Scan.turn]
  split
  next => rfl
  next hexpired =>
    have hmac : (s.lease i).mac = macZero := h.resolve_right hexpired
    have hself : { s.lease i with mac := macZero } = s.lease i := by rw [← hmac]
    rw [if_pos hmac, clear, Option.elim_some, hself, Function.update_eq_self]

theorem turn_of_not (h : ¬ (s.lease i).Reusable (ticks i)) : s.turn i (ticks i) = s := by
  rw [Scan.turn, if_neg fun hexpired => h (.inr hexpired), if_neg fun hmac => h (.inl hmac)]

theorem discoverLoop_of_some (h : s.yi ≠ none) :
    discoverLoop mac ticks is s = { s with yi := (own s.lease mac is).or s.yi } := by
  induction is with
  | nil => rfl
  | cons i is ih =>
    rw [discoverLoop]
    split
    next hmac => rw [own_cons_of_eq hmac, Option.some_or]
    next hmac => rw [ih, own_cons_of_ne hmac]

theorem discoverLoop_of_none (h : s.yi = none) (hnodup : is.Nodup) :
    discoverLoop mac ticks is s =
      { lease := clear s.lease (reusable s.lease mac ticks is),
        yi := (own s.lease mac is).or (reusable s.lease mac ticks is) } := by
  induction is with
  | nil => rw [discoverLoop, own, reusable, List.takeWhile_nil, List.find?_nil, List.find?_nil,
      Option.none_or, clear, Option.elim_none, ← h]
  | cons i is ih =>
    obtain ⟨hmem, hnodup⟩ := List.nodup_cons.mp hnodup
    rw [discoverLoop]
    split
    next hmac =>
      rw [own_cons_of_eq hmac, reusable_cons_of_eq hmac]
      rfl
    next hmac =>
      rw [own_cons_of_ne hmac]
      by_cases hre : (s.lease i).Reusable (ticks i)
      · have hown : own (clear s.lease (some i)) mac is = own s.lease mac is := by
          refine own_clear fun k hk => ?_
          rw [Option.mem_some_iff.mp hk] at hmem
          exact hmem
        rw [turn_of_reusable hre, reusable_cons_of_reusable hmac hre,
          discoverLoop_of_some (Option.some_ne_none i), hown]
      · rw [turn_of_not hre, reusable_cons_of_not hmac hre, ih hnodup]

theorem discover_eq (d : DhcpServer) (mac : Mac) (ticks : Nat → UInt32) :
    discover d mac ticks =
      { lease := clear d.lease (reusable d.lease mac ticks (List.finRange dhcpsMaxIp)),
        yi := (own d.lease mac (List.finRange dhcpsMaxIp)).or
          (reusable d.lease mac ticks (List.finRange dhcpsMaxIp)) } :=
  discoverLoop_of_none rfl (List.nodup_finRange dhcpsMaxIp)

end Loop

section Expiry

theorem toInt32_neg_iff (x : UInt32) : x.toInt32 < 0 ↔ 2 ^ 31 ≤ x.toNat := by
  have hx : x.toNat < 2 ^ 32 := x.toNat_lt
  rw [Int32.lt_iff_toInt_lt, ← Int32.toInt_toBitVec, UInt32.toBitVec_toInt32,
    BitVec.toInt_eq_toNat_cond, UInt32.toNat_toBitVec]
  split
  next => simp only [Int32.toInt_zero]; omega
  next => simp only [Int32.toInt_zero]; omega

theorem toNat_expiry (e : UInt16) :
    (e.toUInt32 <<< 16 ||| 0xffff).toNat = e.toNat * 65536 + 65535 := by
  have he : e.toNat < 65536 := e.toNat_lt
  have hor := Nat.two_pow_add_eq_or_of_lt (show 65535 < 2 ^ 16 by decide) e.toNat
  have hshift : (e.toNat <<< ((16 : UInt32).toNat % 32)) % 2 ^ 32 = 2 ^ 16 * e.toNat := by
    rw [show (16 : UInt32).toNat % 32 = 16 from rfl, Nat.shiftLeft_eq,
      Nat.mod_eq_of_lt (by omega), Nat.mul_comm]
  rw [UInt32.toNat_or, UInt32.toNat_shiftLeft, UInt16.toNat_toUInt32, hshift]
  change 2 ^ 16 * e.toNat ||| 65535 = _
  rw [← hor]
  omega

def leaseMs : Nat := 24 * 60 * 60 * 1000

/-- The last millisecond of a lease that is given at `t`: the clock's low 16 bits are not kept. -/
def leaseEnd (t : Nat) : Nat := (t + leaseMs) / 65536 * 65536 + 65535

theorem toNat_newLease_expiry (mac : Mac) (t : Nat) :
    (newLease mac (UInt32.ofNat t)).expiry.toNat = (t + leaseMs) % 2 ^ 32 / 65536 := by
  rw [newLease]
  simp only [defaultLeaseTimeS, UInt32.reduceMul, UInt32.toNat_toUInt16, UInt32.toNat_shiftRight,
    UInt32.toNat_add, UInt32.toNat_ofNat', Nat.shiftRight_eq_div_pow, leaseMs]
  change ((t % 2 ^ 32 + 86400000) % 2 ^ 32 / 2 ^ 16) % 2 ^ 16 = _
  omega

theorem expired_newLease_iff (mac : Mac) (t now : Nat) :
    (newLease mac (UInt32.ofNat t)).Expired (UInt32.ofNat now) ↔
      2 ^ 31 ≤ (leaseEnd t + 2 ^ 32 - now % 2 ^ 32) % 2 ^ 32 := by
  rw [DhcpServerLease.Expired, toInt32_neg_iff, UInt32.toNat_sub, toNat_expiry,
    toNat_newLease_expiry, UInt32.toNat_ofNat', leaseEnd]
  omega

theorem not_expired_newLease {mac : Mac} {start t now : Nat} (ht : start ≤ t)
    (ht' : t ≤ start + leaseMs) (hnow : start ≤ now) (hnow' : now ≤ start + leaseMs) :
    ¬ (newLease mac (UInt32.ofNat t)).Expired (UInt32.ofNat now) := by
  rw [expired_newLease_iff, leaseEnd]
  simp only [leaseMs] at *
  omega

end Expiry

end RadProt.Dhcp
