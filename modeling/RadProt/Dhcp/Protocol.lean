import RadProt.Dhcp.Leases
import RadProt.Dhcp.Requests

namespace RadProt.Dhcp

open RadProt.Lib

structure Exchange where
  /-- The milliseconds since the start, each time the clock is read. -/
  clock : Nat → Nat
  /-- What stands in the memory of the local message. -/
  stack : Nat → UInt8
  packet : List UInt8
  reply : Option (List UInt8)

namespace Exchange

variable (e : Exchange)

def ticks (i : Nat) : UInt32 := UInt32.ofNat (e.clock i)

def mac : Mac := clientMac e.packet

def Gives (type : UInt8) (ip : Ip4) : Prop :=
  ∃ q, e.reply = some q ∧ msgType q = type ∧ yiaddr q = ip

instance (type : UInt8) (ip : Ip4) : Decidable (e.Gives type ip) :=
  decidable_of_iff (∃ q ∈ e.reply, msgType q = type ∧ yiaddr q = ip) Iff.rfl

def Within (t : Nat) : Prop := ∀ i, t ≤ e.clock i ∧ e.clock i ≤ t + leaseMs

end Exchange

def Serves (d : DhcpServer) (e : Exchange) (d' : DhcpServer) : Prop :=
  dhcpServerProcess d e.ticks e.stack e.packet = (d', e.reply)

/-- What a packet of the client `mac` can do to the leases, and what the reply says. -/
inductive Outcome (d : DhcpServer) (ticks : Nat → UInt32) (mac : Mac) :
    LeaseTable → Option (UInt8 × Fin dhcpsMaxIp) → Prop
  | ignore : Outcome d ticks mac d.lease none
  | offer : Outcome d ticks mac (discover d mac ticks).lease
      ((discover d mac ticks).yi.map fun yi => (dhcpOffer, yi))
  | acknowledge (yi : Fin dhcpsMaxIp) (h : (d.lease yi).Open mac) :
      Outcome d ticks mac (Function.update d.lease yi (newLease mac (ticks 0))) (some (dhcpAck, yi))

theorem dhcpSwitch_outcome (d : DhcpServer) (ticks : Nat → UInt32) (msg : Nat → UInt8) :
    Outcome d ticks (chaddr msg) (dhcpSwitch d ticks msg).1 (dhcpSwitch d ticks msg).2 := by
  rw [dhcpSwitch]
  split
  next => exact .offer
  next =>
    split
    next =>
      cases hyi : requested d msg with
      | none => exact .ignore
      | some yi =>
        rw [Option.elim_some]
        split
        next hopen => exact .acknowledge yi hopen
        next => exact .ignore
    next => exact .ignore

theorem serves_cases {d d' : DhcpServer} {e : Exchange} (h : Serves d e d') :
    ∃ lease o, Outcome d e.ticks e.mac lease o ∧ d' = { d with lease } ∧
      ∀ type ip, e.Gives type ip ↔ ∃ yi, o = some (type, yi) ∧ ip = address d.ip yi := by
  rw [Serves, dhcpServerProcess] at h
  split at h
  next =>
    obtain ⟨rfl, hreply⟩ := Prod.mk.inj h
    refine ⟨d.lease, none, .ignore, rfl, fun type ip => ?_⟩
    constructor
    · rintro ⟨q, hq, -⟩
      rw [← hreply] at hq
      cases hq
    · rintro ⟨yi, ho, -⟩
      cases ho
  next hlength =>
    have hp := Nat.not_lt.mp hlength
    obtain ⟨rfl, hreply⟩ := Prod.mk.inj h
    refine ⟨_, _, chaddr_answering hp ▸ dhcpSwitch_outcome d _ _, rfl, fun type ip => ?_⟩
    rw [Exchange.Gives, ← hreply]
    constructor
    · rintro ⟨q, hq, rfl, rfl⟩
      obtain ⟨⟨type, yi⟩, ho, rfl⟩ := Option.map_eq_some_iff.mp hq
      refine ⟨yi, ?_, yiaddr_reply hp⟩
      rw [msgType_reply]
      exact ho
    · rintro ⟨yi, ho, rfl⟩
      exact ⟨_, by rw [ho]; rfl, msgType_reply, yiaddr_reply hp⟩

section Held

variable {d d' : DhcpServer} {e : Exchange} {mac : Mac} {start : Nat} {yi : Fin dhcpsMaxIp}

structure Held (mac : Mac) (start : Nat) (yi : Fin dhcpsMaxIp) (d : DhcpServer) : Prop where
  since : ∃ t, start ≤ t ∧ t ≤ start + leaseMs ∧ d.lease yi = newLease mac (UInt32.ofNat t)

theorem Held.not_reusable (h : Held mac start yi d) (hmac : mac ≠ macZero) (he : e.Within start)
    (i : Nat) : ¬ (d.lease yi).Reusable (e.ticks i) := by
  obtain ⟨t, ht, ht', hlease⟩ := h.since
  rw [hlease]
  exact fun hre => hre.elim hmac (not_expired_newLease ht ht' (he i).1 (he i).2)

theorem Held.outcome (h : Held mac start yi d) (hmac : mac ≠ macZero) (he : e.Within start)
    {lease : LeaseTable} {o : Option (UInt8 × Fin dhcpsMaxIp)}
    (ho : Outcome d e.ticks e.mac lease o) :
    Held mac start yi { d with lease } ∧ ∀ type, o = some (type, yi) → e.mac = mac := by
  obtain ⟨t, ht, ht', hlease⟩ := h.since
  have hown : (d.lease yi).mac = mac := by rw [hlease]; rfl
  cases ho with
  | ignore => exact ⟨h, fun type ho => by cases ho⟩
  | offer =>
    have hre : LeaseTable.reusable d.lease e.mac e.ticks (List.finRange dhcpsMaxIp) ≠ some yi :=
      fun hyi => h.not_reusable hmac he _ (LeaseTable.reusable_some hyi).2
    rw [discover_eq]
    refine ⟨⟨t, ht, ht', ?_⟩, fun type ho => ?_⟩
    · rw [← hlease]
      exact LeaseTable.clear_of_ne hre
    · obtain ⟨yj, hyj, heq⟩ := Option.map_eq_some_iff.mp ho
      obtain rfl : yj = yi := (Prod.mk.inj heq).2
      rcases Option.or_eq_some_iff.mp hyj with hyj | ⟨-, hyj⟩
      · rw [← hown, LeaseTable.own_some hyj]
      · exact absurd hyj hre
  | acknowledge yj hopen =>
    by_cases hyj : yj = yi
    · subst hyj
      have hmac' : e.mac = mac := by
        rw [DhcpServerLease.Open, hown] at hopen
        exact (hopen.resolve_right hmac).symm
      refine ⟨⟨e.clock 0, (he 0).1, (he 0).2, ?_⟩, fun _ _ => hmac'⟩
      rw [← hmac']
      exact Function.update_self ..
    · refine ⟨⟨t, ht, ht', ?_⟩, fun type ho => ?_⟩
      · rw [← hlease]
        exact Function.update_of_ne (Ne.symm hyj) ..
      · exact absurd (Prod.mk.inj (Option.some.inj ho)).2 hyj

end Held

section Steps

variable {d d' : DhcpServer} {e : Exchange} {mac : Mac} {start : Nat} {ip : Ip4}
  {yi : Fin dhcpsMaxIp}

theorem ip_of_serves (h : Serves d e d') : d'.ip = d.ip := by
  obtain ⟨lease, o, -, rfl, -⟩ := serves_cases h
  rfl

theorem held_of_ack (h : Serves d e d') (hack : e.Gives dhcpAck ip) (hstart : start ≤ e.clock 0)
    (hend : e.clock 0 ≤ start + leaseMs) :
    ∃ yi, ip = address d.ip yi ∧ Held e.mac start yi d' := by
  obtain ⟨lease, o, ho, rfl, hgives⟩ := serves_cases h
  obtain ⟨yi, hyi, rfl⟩ := (hgives _ _).mp hack
  refine ⟨yi, rfl, e.clock 0, hstart, hend, ?_⟩
  cases ho with
  | ignore => cases hyi
  | offer =>
    obtain ⟨yj, -, heq⟩ := Option.map_eq_some_iff.mp hyi
    exact absurd (Prod.mk.inj heq).1 (by decide)
  | acknowledge yj hopen =>
    obtain rfl := (Prod.mk.inj (Option.some.inj hyi)).2
    exact Function.update_self ..

theorem Held.serves (hheld : Held mac start yi d) (hmac : mac ≠ macZero) (he : e.Within start)
    (h : Serves d e d') : Held mac start yi d' ∧
      ∀ type, e.Gives type (address d.ip yi) → e.mac = mac := by
  obtain ⟨lease, o, ho, rfl, hgives⟩ := serves_cases h
  obtain ⟨hheld', hown⟩ := hheld.outcome hmac he ho
  refine ⟨hheld', fun type hg => ?_⟩
  obtain ⟨yj, hyj, heq⟩ := (hgives _ _).mp hg
  obtain rfl := address_injective _ heq
  exact hown type hyj

theorem Held.run {d₂ : DhcpServer} {es : List Exchange} (hheld : Held mac start yi d)
    (hmac : mac ≠ macZero) (h : Run Serves d es d₂) (hes : ∀ e ∈ es, e.Within start) :
    Held mac start yi d₂ ∧ ∀ e ∈ es, ∀ type, e.Gives type (address d.ip yi) → e.mac = mac := by
  induction h with
  | nil => exact ⟨hheld, fun _ he => absurd he List.not_mem_nil⟩
  | cons he _ ih =>
    obtain ⟨hheld', hown⟩ := hheld.serves hmac (hes _ List.mem_cons_self) he
    obtain ⟨hend, hrest⟩ := ih hheld' fun e he => hes e (List.mem_cons_of_mem _ he)
    refine ⟨hend, fun f hf => ?_⟩
    rcases List.mem_cons.mp hf with rfl | hf
    · exact hown
    · rw [← ip_of_serves he]
      exact hrest f hf

theorem open_of_offer (h : Serves d e d') (hoffer : e.Gives dhcpOffer ip) :
    ∃ yi, ip = address d.ip yi ∧ (d'.lease yi).Open e.mac := by
  obtain ⟨lease, o, ho, rfl, hgives⟩ := serves_cases h
  obtain ⟨yi, hyi, rfl⟩ := (hgives _ _).mp hoffer
  refine ⟨yi, rfl, ?_⟩
  cases ho with
  | ignore => cases hyi
  | offer =>
    obtain ⟨yj, hyj, heq⟩ := Option.map_eq_some_iff.mp hyi
    obtain rfl := (Prod.mk.inj heq).2
    rw [discover_eq] at hyj ⊢
    dsimp only at hyj ⊢
    rcases Option.or_eq_some_iff.mp hyj with hyj | ⟨-, hyj⟩
    · have hmac := LeaseTable.own_some hyj
      have hne : LeaseTable.reusable d.lease e.mac e.ticks (List.finRange dhcpsMaxIp) ≠ some yj :=
        fun hre => (LeaseTable.reusable_some hre).1 hmac
      exact .inl (by rw [LeaseTable.clear_of_ne hne, hmac])
    · rw [hyj, LeaseTable.clear_self]
      exact .inr rfl
  | acknowledge yj hopen => exact absurd (Prod.mk.inj (Option.some.inj hyi)).1 (by decide)

theorem open_of_serves (h : Serves d e d') (hopen : (d.lease yi).Open mac)
    (hack : e.Gives dhcpAck (address d.ip yi) → e.mac = mac ∨ e.mac = macZero) :
    (d'.lease yi).Open mac := by
  obtain ⟨lease, o, ho, rfl, hgives⟩ := serves_cases h
  cases ho with
  | ignore => exact hopen
  | offer =>
    rw [discover_eq]
    dsimp only
    by_cases hre : LeaseTable.reusable d.lease e.mac e.ticks (List.finRange dhcpsMaxIp) = some yi
    · rw [hre, LeaseTable.clear_self]
      exact .inr rfl
    · rwa [LeaseTable.clear_of_ne hre]
  | acknowledge yj hopen' =>
    by_cases hyj : yj = yi
    · subst hyj
      have hmac := hack ((hgives _ _).mpr ⟨yj, rfl, rfl⟩)
      dsimp only
      rw [Function.update_self]
      exact hmac
    · dsimp only
      rwa [Function.update_of_ne (Ne.symm hyj)]

theorem request_of_serves (h : Serves d e d') (hreq : IsRequest e.packet (address d.ip yi)) :
    (d.lease yi).Open e.mac ∧ e.Gives dhcpAck (address d.ip yi) ∨
      ¬ (d.lease yi).Open e.mac ∧ e.reply = none := by
  have hp := hreq.length_le
  rw [Serves, dhcpServerProcess, if_neg (Nat.not_lt.mpr hp)] at h
  have hreply : Option.map _ (dhcpSwitch d e.ticks _).2 = e.reply := (Prod.mk.inj h).2
  have htype : answering d (pbufCopyPartial e.stack e.packet) (optOffset + 2) = dhcpRequest :=
    (type_answering hp).trans hreq.msgType_eq
  rw [dhcpSwitch, htype, if_neg (by decide), if_pos rfl, hreq.requested_eq, Option.elim_some,
    chaddr_answering hp, ← Exchange.mac] at hreply
  by_cases hopen : (d.lease yi).Open e.mac
  · refine .inl ⟨hopen, reply d (answering d (pbufCopyPartial e.stack e.packet)) dhcpAck yi, ?_,
      msgType_reply, yiaddr_reply hp⟩
    rw [← hreply, if_pos hopen, Option.map_some]
  · refine .inr ⟨hopen, ?_⟩
    rw [← hreply, if_neg hopen, Option.map_none]

end Steps

section Sample

def sampleServer : DhcpServer := dhcpServerInit #v[192, 168, 4, 1] #v[255, 255, 255, 0] none

def samplePacket (n : UInt8) (options : List Tlv.Entry) : List UInt8 :=
  List.replicate chaddrOffset 0 ++ [2, 0, 0, 0, 0, n] ++ List.replicate 206 0 ++
    (Tlv.encode options ++ [dhcpOptEnd])

def sampleDiscover (n : UInt8) : List UInt8 := samplePacket n [⟨dhcpOptMsgType, [dhcpDiscover]⟩]

def sampleRequest (n last : UInt8) : List UInt8 :=
  samplePacket n [⟨dhcpOptMsgType, [dhcpRequest]⟩, ⟨dhcpOptRequestedIp, [192, 168, 4, last]⟩]

def Exchange.on (d : DhcpServer) (now : Nat) (packet : List UInt8) : Exchange where
  clock _ := now
  stack _ := 0
  packet
  reply := (dhcpServerProcess d (fun _ => UInt32.ofNat now) (fun _ => 0) packet).2

def DhcpServer.after (d : DhcpServer) (now : Nat) (packet : List UInt8) : DhcpServer :=
  (dhcpServerProcess d (fun _ => UInt32.ofNat now) (fun _ => 0) packet).1

theorem serves_on (d : DhcpServer) (now : Nat) (packet : List UInt8) :
    Serves d (Exchange.on d now packet) (d.after now packet) := rfl

theorem within_on {d : DhcpServer} {now t : Nat} {packet : List UInt8}
    (h : t ≤ now ∧ now ≤ t + leaseMs) : ∀ f ∈ [Exchange.on d now packet], f.Within t := by
  intro f hf i
  rw [List.mem_singleton.mp hf]
  exact h

theorem isRequest_sampleRequest : IsRequest (sampleRequest 7 16) #v[192, 168, 4, 16] :=
  ⟨[⟨dhcpOptRequestedIp, [192, 168, 4, 16]⟩],
    ⟨⟨(sampleRequest 7 16).take optOffset, [], by decide +kernel, by decide +kernel⟩,
      by decide, by decide⟩, rfl⟩

end Sample

section Runs

variable {d d₁ d₂ d₃ : DhcpServer} {e f : Exchange} {es : List Exchange} {ip : Ip4}

/-- While the lease time of an acknowledgement runs, the server gives the address to nobody
else. -/
theorem acknowledged_exclusive (he : Serves d e d₁) (hack : e.Gives dhcpAck ip)
    (hmac : e.mac ≠ macZero) (hes : Run Serves d₁ es d₂)
    (hclock : ∀ f ∈ es, f.Within (e.clock 0)) :
    ∀ f ∈ es, ∀ type, f.Gives type ip → f.mac = e.mac := by
  obtain ⟨yi, rfl, hheld⟩ := held_of_ack he hack le_rfl (Nat.le_add_right _ _)
  rw [← ip_of_serves he]
  exact (hheld.run hmac hes hclock).2

theorem acknowledged_not_taken :
    let taken := sampleServer.after 5 (sampleRequest 7 16)
    ∃ q, (Exchange.on taken 1000 (sampleDiscover 8)).reply = some q ∧
      yiaddr q ≠ #v[192, 168, 4, 16] := by
  obtain ⟨q, hq, -⟩ :
      (Exchange.on (sampleServer.after 5 (sampleRequest 7 16)) 1000 (sampleDiscover 8)).Gives
        dhcpOffer #v[192, 168, 4, 17] := by decide +kernel
  refine ⟨q, hq, fun hip => ?_⟩
  have hmac := acknowledged_exclusive (serves_on sampleServer 5 (sampleRequest 7 16))
    (by decide +kernel) (by decide +kernel) (.single (serves_on _ 1000 (sampleDiscover 8)))
    (within_on (by decide +kernel)) _ (List.mem_singleton_self _) (msgType q) ⟨q, hq, rfl, hip⟩
  exact absurd hmac (by decide +kernel)

theorem ip_of_run (h : Run Serves d₁ es d₂) : d₂.ip = d₁.ip :=
  h.invariant (fun t => t.ip = d₁.ip) (fun _ _ _ hs hstep => (ip_of_serves hstep).trans hs) rfl

theorem open_of_run {mac : Mac} {yi : Fin dhcpsMaxIp} (h : Run Serves d₁ es d₂)
    (hopen : (d₁.lease yi).Open mac) (hack : ∀ g ∈ es, g.Gives dhcpAck (address d₁.ip yi) →
      g.mac = mac ∨ g.mac = macZero) : (d₂.lease yi).Open mac := by
  induction h with
  | nil => exact hopen
  | cons he _ ih =>
    refine ih (open_of_serves he hopen (hack _ List.mem_cons_self)) fun g hg => ?_
    rw [ip_of_serves he]
    exact hack g (List.mem_cons_of_mem _ hg)

/-- Within the lease time after an offer, the request for the offered address is acknowledged
unless the address was acknowledged to another client before; then there is no reply. -/
theorem offered_acknowledged_iff (he : Serves d e d₁) (hoffer : e.Gives dhcpOffer ip)
    (hes : Run Serves d₁ es d₂) (hclock : ∀ g ∈ es, g.Within (e.clock 0)) (hf : Serves d₂ f d₃)
    (hmac : f.mac = e.mac) (hreq : IsRequest f.packet ip) :
    (f.Gives dhcpAck ip ↔
      ∀ g ∈ es, g.Gives dhcpAck ip → g.mac = e.mac ∨ g.mac = macZero) ∧
    (f.Gives dhcpAck ip ∨ f.reply = none) := by
  obtain ⟨yi, rfl, hopen⟩ := open_of_offer he hoffer
  have hip₁ := ip_of_serves he
  have hip₂ := ip_of_run hes
  rw [← hip₁, ← hip₂] at hreq ⊢
  have hanswer := request_of_serves hf hreq
  refine ⟨⟨fun hgives g hg hack => ?_, fun hall => ?_⟩, ?_⟩
  · by_contra hother
    rw [not_or] at hother
    obtain ⟨before, after, rfl⟩ := List.append_of_mem hg
    obtain ⟨s, hbefore, hrest⟩ := hes.append_inv
    obtain ⟨t, hstep, hafter⟩ := hrest.cons_inv
    have hg0 := hclock g hg 0
    obtain ⟨yj, heq, hheld⟩ := held_of_ack hstep hack hg0.1 hg0.2
    rw [hip₂, ip_of_run hbefore] at heq
    obtain rfl := address_injective _ heq
    -- the other client still has the lease when the request comes
    obtain ⟨k, -, -, hlease⟩ := (hheld.run hother.2 hafter fun g hg =>
      hclock g (List.mem_append_right _ (List.mem_cons_of_mem _ hg))).1.since
    have hopen₂ : (d₂.lease yi).Open e.mac := by
      rw [← hmac]
      exact (hanswer.resolve_right fun hclosed => by
        obtain ⟨q, hq, -⟩ := hgives
        rw [hclosed.2] at hq
        cases hq).1
    rw [hlease] at hopen₂
    exact hopen₂.elim hother.1 hother.2
  · have hend := open_of_run hes hopen (by rw [← hip₂]; exact hall)
    rw [hmac] at hanswer
    exact (hanswer.resolve_right fun hclosed => hclosed.1 hend).2
  · exact hanswer.imp And.right And.right

theorem offered_acknowledged :
    let offered := sampleServer.after 5 (sampleDiscover 7)
    let later := offered.after 1000 (sampleDiscover 8)
    (Exchange.on later 2000 (sampleRequest 7 16)).Gives dhcpAck #v[192, 168, 4, 16] := by
  refine (offered_acknowledged_iff (serves_on sampleServer 5 (sampleDiscover 7))
    (by decide +kernel) (.single (serves_on _ 1000 (sampleDiscover 8)))
    (within_on (by decide +kernel))
    (serves_on _ 2000 (sampleRequest 7 16)) (by decide +kernel) isRequest_sampleRequest).1.mpr fun g hg hack => ?_
  rw [List.mem_singleton.mp hg] at hack
  exact absurd hack (by decide +kernel)

end Runs

end RadProt.Dhcp
