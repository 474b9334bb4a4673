import RadProt.Dhcp.Replies
import RadProt.Dns.Reply
import RadProt.Ip.Transit

namespace RadProt.Ip

open RadProt.Lib RadProt.Lib.InternetChecksum

structure ApModeSettings where
  ip : UInt32
  nm : UInt32
  secondaryAddress : UInt32
  hostname : List UInt8
  domainName : List UInt8
  dnsIgnoresNetworkSuffix : Bool

def sSettings : ApModeSettings where
  ip := 0x017BA8C0
  nm := 0x00FFFFFF
  secondaryAddress := 0x006433C6
  hostname := ascii "config"
  domainName := ascii "radprot.net"
  dnsIgnoresNetworkSuffix := true

def octets (a : UInt32) : Dhcp.Ip4 :=
  #v[a.toUInt8, (a >>> 8).toUInt8, (a >>> 16).toUInt8, (a >>> 24).toUInt8]

/-! What `main_task` starts for the access point. -/

namespace ApModeSettings

variable (s : ApModeSettings)

def netif (num : UInt8) (mtu : UInt16) : Netif where
  num
  up := true
  linkUp := true
  broadcast := true
  ipAddr := s.ip
  netmask := s.nm
  gw := s.ip
  mtu

def dhcpServer : Dhcp.DhcpServer :=
  Dhcp.dhcpServerInit (octets s.ip) (octets s.nm) (some s.domainName)

def dnsServer : Dns.DnsServerSettings where
  primaryIp := s.ip
  secondaryIp := s.secondaryAddress
  hostName := s.hostname
  domainName := s.domainName
  ignoreNetworkSuffix := s.dnsIgnoresNetworkSuffix

def layer (netifList : List Netif) : Layer where
  netifList
  secondaryIpAddress := s.secondaryAddress

end ApModeSettings

/-- The functions of the stack do what their documentation says, and no raw protocol is bound. -/
structure Lwip.AsDocumented (lwip : Lwip) : Prop where
  chksum : ∀ bytes, lwip.inetChksum bytes = 0 ↔ Verifies bytes
  multicast : ∀ a, lwip.isMulticast a = decide (a &&& 0xF0 = 0xE0)
  broadcast : ∀ a netif, lwip.isBroadcast a netif =
    (a = 0xFFFFFFFF || a = 0 || (netif.broadcast && a ≠ netif.ipAddr &&
      a &&& netif.netmask = netif.ipAddr &&& netif.netmask && a ||| netif.netmask = 0xFFFFFFFF))
  raw : ∀ bytes netif, lwip.rawInput bytes netif = false

def clientIp (reply : List UInt8) : UInt32 := load32 (Dhcp.yiaddr reply).toList 0

theorem matchLoop_address {settings : Dns.DnsServerSettings} {buffer : Nat → UInt8}
    {size fuel i : Nat} {s : Dns.Matching} {ip : UInt32}
    (h : Dns.matchLoop settings buffer size fuel i s = some ip) :
    ip = settings.primaryIp ∨ ip = settings.secondaryIp := by
  induction fuel generalizing i s with
  | zero => cases h
  | succ fuel ih =>
    rw [Dns.matchLoop] at h
    split at h
    next => cases h
    next => exact ih h
    next =>
      obtain rfl := Option.some.inj h
      split
      next => exact Or.inl rfl
      next => exact Or.inr rfl

theorem answer_of_reply {settings : Dns.DnsServerSettings} {packet : Nat → UInt8}
    {query reply : List UInt8} {fuel : Nat} {turn : Dns.Turn}
    (hturn : Dns.serverTurn settings packet query fuel = some turn)
    (hreply : turn.reply = some reply) :
    ∃ front ip, reply = front ++ Dns.resourceRecord ip ∧
      (ip = settings.primaryIp ∨ ip = settings.secondaryIp) := by
  by_cases hok : Dns.headerOk (Dns.received packet query) query.length = true
  · obtain ⟨-, x, y, high, low, rest, hquery⟩ := Dns.exists_of_headerOk hok
    obtain ⟨ip, hip, hsent⟩ := Dns.turn_of_headerOk hok hturn
    rw [Dns.map_answered packet (Dns.resourceRecord ip) hquery, hreply] at hsent
    refine ⟨x :: y :: (high ||| 0x80) :: low :: 0 :: 1 :: 0 :: 1 :: 0 :: 0 :: 0 :: 0 ::
      (rest ++ [0xC0, 12]), ip, ?_, matchLoop_address hip⟩
    rw [Option.some.inj hsent]
    simp
  · obtain rfl := Option.some.inj ((if_neg hok).symm.trans hturn)
    cases hreply

theorem lease_usable (yi : Fin Dhcp.dhcpsMaxIp) :
    load32 (Dhcp.address (octets sSettings.ip) yi).toList 0 &&& 0xF0 ≠ 0xE0 ∧
      load32 (Dhcp.address (octets sSettings.ip) yi).toList 0 ≠ 0xFFFFFFFF ∧
      load32 (Dhcp.address (octets sSettings.ip) yi).toList 0 ≠ 0 ∧
      load32 (Dhcp.address (octets sSettings.ip) yi).toList 0 ||| sSettings.nm ≠ 0xFFFFFFFF ∧
      load32 (Dhcp.address (octets sSettings.ip) yi).toList 0 &&& sSettings.nm =
        sSettings.ip &&& sSettings.nm := by
  revert yi
  decide +kernel

section Client

variable {lwip : Lwip} {es : List Dhcp.Exchange} {d d' : Dhcp.DhcpServer} {e : Dhcp.Exchange}
  {lease : List UInt8}

theorem clientIp_of_run (hrun : Run Dhcp.Serves sSettings.dhcpServer es d) (he : Dhcp.Serves d e d')
    (hlease : e.reply = some lease) :
    ∃ yi, clientIp lease = load32 (Dhcp.address (octets sSettings.ip) yi).toList 0 := by
  obtain ⟨hp, type, yi, -, rfl⟩ := Dhcp.reply_of_serves he hlease
  refine ⟨yi, ?_⟩
  rw [clientIp, Dhcp.yiaddr_reply hp, Dhcp.ip_of_run hrun]
  rfl

theorem deliver_to_device (hlwip : lwip.AsDocumented) {netifList : List Netif} {num : UInt8}
    {mtu : UInt16} {c : Datagram} {yi : Fin Dhcp.dhcpsMaxIp} (udpDest : UInt16)
    (packet : List UInt8)
    (hsrc : c.src = load32 (Dhcp.address (octets sSettings.ip) yi).toList 0)
    (hdest : c.dest = sSettings.ip ∨ c.dest = sSettings.secondaryAddress)
    (hproto : c.proto = ipProtoUdp ∨ c.proto = ipProtoTcp ∨ c.proto = ipProtoIcmp) :
    deliver lwip (sSettings.layer netifList) (sSettings.netif num mtu) udpDest packet c =
      .passed c (sSettings.netif num mtu) := by
  have hmulticast : lwip.isMulticast c.dest = false := by
    rw [hlwip.multicast]
    obtain h | h := hdest
    · rw [h]
      decide
    · rw [h]
      decide
  have haccept : ip4InputAccept lwip (sSettings.layer netifList) c.dest
      (sSettings.netif num mtu) = true := by
    have hup : (sSettings.netif num mtu).up = true := rfl
    have hip : (sSettings.netif num mtu).ipAddr ≠ 0 := show sSettings.ip ≠ 0 by decide
    have hsecondary : (sSettings.layer netifList).secondaryIpAddress ≠ 0 :=
      show sSettings.secondaryAddress ≠ 0 by decide
    have hto : c.dest = (sSettings.netif num mtu).ipAddr ∨
        c.dest = (sSettings.layer netifList).secondaryIpAddress := hdest
    obtain h | h := hto <;> simp [ip4InputAccept, hup, hip, hsecondary, h]
  obtain ⟨hclass, hones, hzero, hhost, -⟩ := lease_usable yi
  rw [← hsrc] at hclass hones hzero hhost
  have hsource : sourceInvalid lwip true c.src (sSettings.netif num mtu) = false := by
    rw [sourceInvalid, hlwip.broadcast, hlwip.multicast]
    have hmask : (sSettings.netif num mtu).netmask = sSettings.nm := rfl
    simp [hmask, hclass, hones, hzero, hhost]
  have hfound : addressee lwip (sSettings.layer netifList) c.dest c.proto udpDest
      (sSettings.netif num mtu) = (some (sSettings.netif num mtu), true) := by
    simp [addressee, inputNetif, hmulticast, haccept]
  simp [deliver, hfound, hsource, hlwip.raw, sendUp, hproto]

theorem route_to_client {front back : List Netif} (hothers : ∀ n ∈ front, n.ipAddr = 0)
    {num : UInt8} {mtu : UInt16} (netifDefault : Option Netif) (isLoopback : UInt32 → Bool)
    (yi : Fin Dhcp.dhcpsMaxIp) :
    ip4Route (front ++ sSettings.netif num mtu :: back) netifDefault isLoopback
      (load32 (Dhcp.address (octets sSettings.ip) yi).toList 0) =
        some (sSettings.netif num mtu) := by
  obtain ⟨-, -, -, -, hnetwork⟩ := lease_usable yi
  generalize load32 (Dhcp.address (octets sSettings.ip) yi).toList 0 = a at hnetwork
  have hfront : front.find? (fun netif => netif.up && netif.linkUp && netif.ipAddr ≠ 0 &&
      (a &&& netif.netmask = netif.ipAddr &&& netif.netmask ||
        !netif.broadcast && a = netif.gw)) = none := by
    rw [List.find?_eq_none]
    intro n hn
    simp [hothers n hn]
  have hip : (sSettings.netif num mtu).ipAddr ≠ 0 := show sSettings.ip ≠ 0 by decide
  have hsame : a &&& (sSettings.netif num mtu).netmask =
      (sSettings.netif num mtu).ipAddr &&& (sSettings.netif num mtu).netmask := hnetwork
  have hup : (sSettings.netif num mtu).up = true ∧ (sSettings.netif num mtu).linkUp = true :=
    ⟨rfl, rfl⟩
  rw [ip4Route, List.find?_append, hfront, Option.none_or, List.find?_cons_of_pos, Option.some_or]
  simp [hup, hip, hsame]

end Client

/-- Whatever name a client with a lease asks for, what it sends to the address in the answer is
passed up on the access point, and what is sent back from that address goes out there. -/
theorem sign_in_reaches_device {lwip : Lwip} (hlwip : lwip.AsDocumented) {front : List Netif}
    (hothers : ∀ n ∈ front, n.ipAddr = 0) (back : List Netif) (num : UInt8) (mtu : UInt16)
    {es : List Dhcp.Exchange} {d d' : Dhcp.DhcpServer} {e : Dhcp.Exchange} {lease : List UInt8}
    (hrun : Run Dhcp.Serves sSettings.dhcpServer es d) (he : Dhcp.Serves d e d')
    (hlease : e.reply = some lease) {packet : Nat → UInt8} {query reply : List UInt8} {fuel : Nat}
    {turn : Dns.Turn} (hturn : Dns.serverTurn sSettings.dnsServer packet query fuel = some turn)
    (hreply : turn.reply = some reply) :
    ∃ head ip, reply = head ++ Dns.resourceRecord ip ∧
      ∀ c : Datagram, c.src = clientIp lease → c.dest = ip →
        (c.proto = ipProtoUdp ∨ c.proto = ipProtoTcp ∨ c.proto = ipProtoIcmp) →
        (∀ p, c.In p.bytes → p.HoldsHeader →
          ip4Input lwip (sSettings.layer (front ++ sSettings.netif num mtu :: back)) p
            (sSettings.netif num mtu) = .passed c (sSettings.netif num mtu)) ∧
        (∀ netifDefault, ip4Route (front ++ sSettings.netif num mtu :: back) netifDefault
          lwip.isLoopback c.src = some (sSettings.netif num mtu)) ∧
        ∀ a : Datagram, a.src = c.dest → a.dest = c.src → ∀ p ipId ttl tos,
          p.bytes = a.payload → ipHlen ≤ p.room → a.payload.length + ipHlen < 65536 →
          (mtu = 0 ∨ a.payload.length + ipHlen ≤ mtu.toNat) →
          ∃ q h, ip4OutputIf ipId p (some a.src) (some a.dest) ttl tos a.proto
              (sSettings.netif num mtu) = (.output q a.dest, ipId + 1) ∧
            a.CarriedBy h [] ∧ q.bytes = h.bytes ++ a.payload := by
  obtain ⟨head, ip, hends, hip⟩ := answer_of_reply hturn hreply
  obtain ⟨yi, hclient⟩ := clientIp_of_run hrun he hlease
  refine ⟨head, ip, hends, fun c hsrc hdest hproto => ⟨?_, ?_, ?_⟩⟩
  · intro p hin hholds
    rw [ip4Input_of_in hlwip.chksum hholds hin]
    exact deliver_to_device hlwip _ _ (hsrc.trans hclient) (hdest ▸ hip) hproto
  · intro netifDefault
    rw [hsrc, hclient]
    exact route_to_client hothers netifDefault lwip.isLoopback yi
  · intro a hfrom hto p ipId ttl tos hpayload hroom hlen hmtu
    have hne : a.src ≠ 0 := by
      rw [hfrom, hdest]
      obtain h | h := hip
      · rw [h]
        decide
      · rw [h]
        decide
    have hsrcUsed : ¬ ((some a.dest).isSome = true ∧ (some a.src).getD 0 = 0) := fun h => hne h.2
    simp only [ip4OutputIf, if_neg hsrcUsed]
    exact ip4OutputIfSrc_carries ipId ttl tos hpayload hroom hlen hmtu

section Sample

theorem sampleLwip_asDocumented : sampleLwip.AsDocumented where
  chksum := sampleLwip_chksum
  multicast _ := rfl
  broadcast _ _ := rfl
  raw _ _ := rfl

def sampleQuery : List UInt8 :=
  [18, 52, 1, 0, 0, 1, 0, 0, 0, 0, 0, 0, 1, 97, 1, 98, 0, 0, 1, 0, 1]

theorem phone_signs_in : ∃ lease reply head ip,
    (Dhcp.Exchange.on sSettings.dhcpServer 5 (Dhcp.sampleDiscover 7)).reply = some lease ∧
      (Dns.serverTurn sSettings.dnsServer (fun _ => 0) sampleQuery 4).bind Dns.Turn.reply =
        some reply ∧
      reply = head ++ Dns.resourceRecord ip ∧
      ip4Input sampleLwip (sSettings.layer [sSettings.netif 1 1500])
        { room := 14
          payload := (outputHeader 40 7 (clientIp lease) ip 64 0 ipProtoTcp).bytes ++
            sampleSyn.payload
          behind := []
          next := [] } (sSettings.netif 1 1500) =
        .passed { sampleSyn with src := clientIp lease, dest := ip } (sSettings.netif 1 1500) := by
  obtain ⟨lease, hlease⟩ := Option.isSome_iff_exists.mp
    (show (Dhcp.Exchange.on sSettings.dhcpServer 5 (Dhcp.sampleDiscover 7)).reply.isSome = true by
      decide +kernel)
  obtain ⟨reply, hreply⟩ := Option.isSome_iff_exists.mp
    (show ((Dns.serverTurn sSettings.dnsServer (fun _ => 0) sampleQuery 4).bind
      Dns.Turn.reply).isSome = true by decide +kernel)
  obtain ⟨turn, hturn, hsent⟩ := Option.bind_eq_some_iff.mp hreply
  obtain ⟨head, ip, hends, hreaches⟩ := sign_in_reaches_device sampleLwip_asDocumented
    (fun _ h => absurd h List.not_mem_nil) [] 1 1500 .nil
    (Dhcp.serves_on sSettings.dhcpServer 5 (Dhcp.sampleDiscover 7)) hlease hturn hsent
  refine ⟨lease, reply, head, ip, hlease, hreply, hends, ?_⟩
  have hcarried : Datagram.CarriedBy { sampleSyn with src := clientIp lease, dest := ip }
      (outputHeader 40 7 (clientIp lease) ip 64 0 ipProtoTcp) [] :=
    outputHeader_carries 7 64 0 { sampleSyn with src := clientIp lease, dest := ip }
      (show sampleSyn.payload.length + ipHlen < 65536 by decide)
  refine (hreaches { sampleSyn with src := clientIp lease, dest := ip } rfl rfl
    (Or.inr (Or.inl rfl))).1 _ ⟨_, [], [], hcarried, ?_⟩ ?_
  · simp [Pbuf.bytes]
  · rw [Pbuf.HoldsHeader, Pbuf.bytes, List.append_assoc, IpHdr.ofBytes_bytes, hcarried.hlBytes]
    rw [List.length_append, IpHdr.length_bytes]
    exact Nat.le_add_right ipHlen _

end Sample

end RadProt.Ip
