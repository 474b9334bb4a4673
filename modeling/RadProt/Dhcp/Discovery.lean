import RadProt.Dhcp.Protocol

namespace RadProt.Dhcp

open RadProt.Lib

section Offers

variable {d d' : DhcpServer} {e : Exchange} {yi : Fin dhcpsMaxIp}

def LeaseTable.freed (lease : LeaseTable) (mac : Mac) (ticks : Nat → UInt32) :
    Option (Fin dhcpsMaxIp) :=
  lease.reusable mac ticks (List.finRange dhcpsMaxIp)

def LeaseTable.offered (lease : LeaseTable) (mac : Mac) (ticks : Nat → UInt32) :
    Option (Fin dhcpsMaxIp) :=
  (lease.own mac (List.finRange dhcpsMaxIp)).or (lease.freed mac ticks)

theorem offered_eq_none_iff {lease : LeaseTable} {mac : Mac} {ticks : Nat → UInt32} :
    lease.offered mac ticks = none ↔
      ∀ i, (lease i).mac ≠ mac ∧ ¬ (lease i).Reusable (ticks i) := by
  rw [LeaseTable.offered, Option.or_eq_none_iff, LeaseTable.own, List.find?_eq_none]
  constructor
  · rintro ⟨hown, hre⟩ i
    have hne (i : Fin dhcpsMaxIp) : (lease i).mac ≠ mac := by
      simpa using hown i (List.mem_finRange i)
    have hall : (List.finRange dhcpsMaxIp).takeWhile (fun i => decide ((lease i).mac ≠ mac)) =
        List.finRange dhcpsMaxIp :=
      List.takeWhile_eq_self_iff.mpr fun i _ => decide_eq_true (hne i)
    rw [LeaseTable.freed, LeaseTable.reusable, hall, List.find?_eq_none] at hre
    exact ⟨hne i, by simpa using hre i (List.mem_finRange i)⟩
  · intro h
    refine ⟨fun i _ => by simpa using (h i).1, ?_⟩
    rw [LeaseTable.freed, LeaseTable.reusable, List.find?_eq_none]
    intro i _
    simpa using (h i).2

theorem discover_of_serves (h : Serves d e d') (hp : dhcpMinSize ≤ e.packet.length)
    (htype : msgType e.packet = dhcpDiscover) :
    d' = { d with lease := (discover d e.mac e.ticks).lease } ∧
      e.reply = (LeaseTable.offered d.lease e.mac e.ticks).map
        (reply d (answering d (pbufCopyPartial e.stack e.packet)) dhcpOffer) := by
  rw [Serves, dhcpServerProcess, if_neg (Nat.not_lt.mpr hp)] at h
  obtain ⟨rfl, hreply⟩ := Prod.mk.inj h
  have hswitch : dhcpSwitch d e.ticks (answering d (pbufCopyPartial e.stack e.packet)) =
      ((discover d e.mac e.ticks).lease,
        (discover d e.mac e.ticks).yi.map fun yi => (dhcpOffer, yi)) := by
    rw [dhcpSwitch, type_answering hp, if_pos htype, chaddr_answering hp]
    rfl
  rw [← hreply, hswitch, discover_eq, Option.map_map]
  exact ⟨rfl, rfl⟩

/-- A `DHCPDISCOVER` is offered the client's own lease, else the first one that is free or expired.
The only lease it changes is the first free or expired one before the client's own, which it frees.
There is no offer only when all leases are other clients' and in force. -/
theorem discover_offers (h : Serves d e d') (hp : dhcpMinSize ≤ e.packet.length)
    (htype : msgType e.packet = dhcpDiscover) :
    d' = { d with lease := LeaseTable.clear d.lease (LeaseTable.freed d.lease e.mac e.ticks) } ∧
    (∀ yi, e.Gives dhcpOffer (address d.ip yi) ↔
      LeaseTable.offered d.lease e.mac e.ticks = some yi) ∧
    (e.reply = none ↔ ∀ i, (d.lease i).mac ≠ e.mac ∧ ¬ (d.lease i).Reusable (e.ticks i)) := by
  obtain ⟨rfl, hreply⟩ := discover_of_serves h hp htype
  refine ⟨by rw [discover_eq]; rfl, fun yi => ?_, ?_⟩
  · rw [Exchange.Gives, hreply]
    constructor
    · rintro ⟨q, hq, -, hip⟩
      obtain ⟨yj, hyj, rfl⟩ := Option.map_eq_some_iff.mp hq
      rw [yiaddr_reply hp] at hip
      rw [hyj, address_injective _ hip]
    · intro hyi
      exact ⟨_, by rw [hyi]; rfl, msgType_reply, yiaddr_reply hp⟩
  · rw [hreply, Option.map_eq_none_iff, offered_eq_none_iff]

theorem second_client_offered :
    (Exchange.on (sampleServer.after 5 (sampleRequest 7 16)) 1000 (sampleDiscover 8)).Gives
      dhcpOffer #v[192, 168, 4, 17] := by
  have hip : #v[192, 168, 4, 17] =
      address (sampleServer.after 5 (sampleRequest 7 16)).ip ⟨1, by decide⟩ := by decide +kernel
  obtain ⟨-, hgives, -⟩ := discover_offers
    (serves_on (sampleServer.after 5 (sampleRequest 7 16)) 1000 (sampleDiscover 8))
    (by decide +kernel) (by decide +kernel)
  rw [hip]
  exact (hgives _).mpr (by decide +kernel)

end Offers

section Lapsed

variable {d d' : DhcpServer} {e : Exchange} {yi : Fin dhcpsMaxIp} {mac : Mac} {t : Nat}

theorem expired_newLease_iff_phase {now : Nat} (ht : t ≤ now) :
    (newLease mac (UInt32.ofNat t)).Expired (UInt32.ofNat now) ↔
      leaseEnd t < now ∧ (now - leaseEnd t - 1) % 2 ^ 32 < 2 ^ 31 := by
  rw [expired_newLease_iff]
  have hend : leaseEnd t < t + 2 ^ 31 := by
    simp only [leaseEnd, leaseMs]
    omega
  omega

/-- With all other leases taken, a lease that was given at `t` and left alone since is offered to a
newcomer from its end on for half the range of the clock, and then not for the other half. -/
theorem lapsed_offered_iff (h : Serves d e d') (hp : dhcpMinSize ≤ e.packet.length)
    (htype : msgType e.packet = dhcpDiscover) (hmac : mac ≠ macZero)
    (hlease : d.lease yi = newLease mac (UInt32.ofNat t)) (ht : t ≤ e.clock yi)
    (hne : ∀ i, (d.lease i).mac ≠ e.mac)
    (hothers : ∀ i, i ≠ yi → ¬ (d.lease i).Reusable (e.ticks i)) :
    (e.Gives dhcpOffer (address d.ip yi) ↔
      leaseEnd t < e.clock yi ∧ (e.clock yi - leaseEnd t - 1) % 2 ^ 32 < 2 ^ 31) ∧
    (e.Gives dhcpOffer (address d.ip yi) ∨ e.reply = none) := by
  obtain ⟨-, hgives, hnone⟩ := discover_offers h hp htype
  have hexpired : (newLease mac (UInt32.ofNat t)).Expired (e.ticks yi) ↔ _ :=
    expired_newLease_iff_phase ht
  have hre : (d.lease yi).Reusable (e.ticks yi) ↔
      leaseEnd t < e.clock yi ∧ (e.clock yi - leaseEnd t - 1) % 2 ^ 32 < 2 ^ 31 := by
    rw [← hexpired, hlease]
    exact ⟨fun hre => hre.resolve_left hmac, .inr⟩
  have hoffered : LeaseTable.offered d.lease e.mac e.ticks = some yi ↔
      (d.lease yi).Reusable (e.ticks yi) := by
    constructor
    · intro hyi
      rcases Option.or_eq_some_iff.mp hyi with hyi | ⟨-, hyi⟩
      · exact absurd (LeaseTable.own_some hyi) (hne yi)
      · exact (LeaseTable.reusable_some hyi).2
    · intro hyi
      cases hoffer : LeaseTable.offered d.lease e.mac e.ticks with
      | none => exact absurd hyi (offered_eq_none_iff.mp hoffer yi).2
      | some yj =>
        by_contra hother
        have hne' : yj ≠ yi := fun heq => hother (congrArg some heq)
        rcases Option.or_eq_some_iff.mp hoffer with hyj | ⟨-, hyj⟩
        · exact hne yj (LeaseTable.own_some hyj)
        · exact hothers yj hne' (LeaseTable.reusable_some hyj).2
  rw [hgives, hoffered, hre]
  refine ⟨Iff.rfl, ?_⟩
  by_cases hyi : (d.lease yi).Reusable (e.ticks yi)
  · exact .inl (hre.mp hyi)
  · refine .inr (hnone.mpr fun i => ⟨hne i, ?_⟩)
    by_cases hi : i = yi
    · rwa [hi]
    · exact hothers i hi

def fullServer (now : Nat) : DhcpServer where
  ip := sampleServer.ip
  nm := sampleServer.nm
  lease i :=
    newLease #v[2, 0, 0, 0, 0, UInt8.ofNat i + 1] (UInt32.ofNat (if i.val = 0 then 0 else now))
  domainName := sampleServer.domainName

theorem lapsed_refused :
    (Exchange.on (fullServer (leaseEnd 0 + 2 ^ 31 + 1)) (leaseEnd 0 + 2 ^ 31 + 1)
      (sampleDiscover 9)).reply = none := by
  have hfirst : (fullServer (leaseEnd 0 + 2 ^ 31 + 1)).lease ⟨0, by decide⟩ =
      newLease #v[2, 0, 0, 0, 0, 1] (UInt32.ofNat 0) := rfl
  obtain ⟨hgives, hanswer⟩ := lapsed_offered_iff
    (serves_on (fullServer (leaseEnd 0 + 2 ^ 31 + 1)) (leaseEnd 0 + 2 ^ 31 + 1) (sampleDiscover 9))
    (by decide +kernel) (by decide +kernel) (by decide +kernel) hfirst (Nat.zero_le _)
    (by decide +kernel) (by decide +kernel)
  exact hanswer.resolve_left fun h => absurd (hgives.mp h) (by decide +kernel)

end Lapsed

end RadProt.Dhcp
