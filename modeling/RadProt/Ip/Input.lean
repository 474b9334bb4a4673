import RadProt.Ip.Output

namespace RadProt.Ip

open RadProt.Lib.InternetChecksum

/-- The functions of the stack that the layer calls. -/
structure Lwip where
  inetChksum : List UInt8 → UInt16
  isMulticast : UInt32 → Bool
  isLoopback : UInt32 → Bool
  isBroadcast : UInt32 → Netif → Bool
  ip4Reass : Pbuf → Option Pbuf
  /-- Whether a raw protocol eats the packet. -/
  rawInput : List UInt8 → Netif → Bool
  /-- What stands behind the first payload after `pbuf_realloc` has cut it. -/
  cutOff : Pbuf → Nat → List UInt8

/-- `netif_list`, and `ip4_secondary_ip_address`, which is 0 until it is set. -/
structure Layer where
  netifList : List Netif
  secondaryIpAddress : UInt32

/-- Where a packet ends; the last two go through the switch on its protocol. -/
inductive Delivery
  | dropped
  | held
  | eaten
  | unsupported
  | passed (d : Datagram) (netif : Netif)
  deriving DecidableEq

def trim (newLen : Nat) : List (List UInt8) → List (List UInt8)
  | [] => []
  | q :: qs => if newLen ≤ q.length then [q.take newLen] else q :: trim (newLen - q.length) qs

def pbufRealloc (lwip : Lwip) (p : Pbuf) (newLen : Nat) : Pbuf :=
  if newLen ≤ p.payload.length then
    { p with payload := p.payload.take newLen, behind := lwip.cutOff p newLen, next := [] }
  else { p with next := trim (newLen - p.payload.length) p.next }

def trimTo (lwip : Lwip) (p : Pbuf) (newLen : Nat) : Pbuf :=
  if newLen < p.totLen then pbufRealloc lwip p newLen else p

def ip4InputAccept (lwip : Lwip) (layer : Layer) (dest : UInt32) (netif : Netif) : Bool :=
  netif.up && netif.ipAddr ≠ 0 &&
    (dest = netif.ipAddr || lwip.isBroadcast dest netif ||
      (layer.secondaryIpAddress ≠ 0 && dest = layer.secondaryIpAddress))

def inputNetif (lwip : Lwip) (layer : Layer) (dest : UInt32) (inp : Netif) : Option Netif :=
  if lwip.isMulticast dest then
    if inp.up && inp.ipAddr ≠ 0 then some inp else none
  else if ip4InputAccept lwip layer dest inp then some inp
  else if !lwip.isLoopback dest then
    layer.netifList.find? fun netif => netif.num ≠ inp.num && ip4InputAccept lwip layer dest netif
  else none

/-- The interface in the end, and whether the source is checked: what is sent to a DHCP client
comes in on any interface. -/
def addressee (lwip : Lwip) (layer : Layer) (dest : UInt32) (proto : UInt8) (udpDest : UInt16)
    (inp : Netif) : Option Netif × Bool :=
  match inputNetif lwip layer dest inp with
  | some netif => (some netif, true)
  | none =>
    if proto = ipProtoUdp ∧ udpDest = lwipHtons 68 then (some inp, false) else (none, true)

def sourceInvalid (lwip : Lwip) (checkIpSrc : Bool) (src : UInt32) (inp : Netif) : Bool :=
  checkIpSrc && src ≠ 0 && (lwip.isBroadcast src inp || lwip.isMulticast src)

def sendUp (d : Datagram) (netif : Netif) : Delivery :=
  if d.proto = ipProtoUdp ∨ d.proto = ipProtoTcp ∨ d.proto = ipProtoIcmp then .passed d netif
  else .unsupported

def Pbuf.iphdr (p : Pbuf) : IpHdr := .ofBytes p.memory

def toUpperLayers (lwip : Lwip) (iphdr : IpHdr) (p : Pbuf) (netif inp : Netif) : Delivery :=
  if lwip.rawInput p.bytes inp then .eaten
  else
    sendUp
      { src := iphdr.src
        dest := iphdr.dest
        proto := p.iphdr.proto
        payload := p.bytes.drop iphdr.hlBytes } netif

def checkHeader (lwip : Lwip) (p : Pbuf) : Option Pbuf :=
  let iphdr := p.iphdr
  if iphdr.version ≠ 4 then none
  else
    let p := trimTo lwip p iphdr.totalLen
    if p.payload.length < iphdr.hlBytes ∨ p.totLen < iphdr.totalLen ∨ iphdr.hlBytes < ipHlen then
      none
    else if lwip.inetChksum (p.payload.take iphdr.hlBytes) ≠ 0 then none
    else some p

def ip4Input (lwip : Lwip) (layer : Layer) (p : Pbuf) (inp : Netif) : Delivery :=
  let iphdr := p.iphdr
  match checkHeader lwip p with
  | none => .dropped
  | some p =>
    -- the port is read wherever the packet ends
    let udpDest := load16 p.memory (iphdr.hlBytes + 2)
    let found := addressee lwip layer iphdr.dest iphdr.proto udpDest inp
    if sourceInvalid lwip found.2 iphdr.src inp then .dropped
    else
      match found.1 with
      | none => .dropped
      | some netif =>
        if iphdr.fragment = 0 then toUpperLayers lwip iphdr p netif inp
        else
          match lwip.ip4Reass p with
          | none => .held
          | some p => toUpperLayers lwip iphdr p netif inp

/-- What becomes of a datagram, given the packet it came in and the port that was read. -/
def deliver (lwip : Lwip) (layer : Layer) (inp : Netif) (udpDest : UInt16) (packet : List UInt8)
    (d : Datagram) : Delivery :=
  let found := addressee lwip layer d.dest d.proto udpDest inp
  if sourceInvalid lwip found.2 d.src inp then .dropped
  else
    match found.1 with
    | none => .dropped
    | some netif => if lwip.rawInput packet inp then .eaten else sendUp d netif

/-- The packet carries the datagram, with `padding` behind it. -/
def Datagram.In (d : Datagram) (bytes : List UInt8) : Prop :=
  ∃ h options padding, d.CarriedBy h options ∧
    bytes = h.bytes ++ options ++ d.payload ++ padding

def Pbuf.HoldsHeader (p : Pbuf) : Prop := (IpHdr.ofBytes p.bytes).hlBytes ≤ p.payload.length

def Pbuf.packet (p : Pbuf) : List UInt8 := p.bytes.take (IpHdr.ofBytes p.bytes).totalLen

/-- What stands where a UDP packet has its destination port. -/
def Pbuf.udpDest (lwip : Lwip) (p : Pbuf) : UInt16 :=
  load16 (trimTo lwip p p.iphdr.totalLen).memory (p.iphdr.hlBytes + 2)

theorem flatten_trim (newLen : Nat) (qs : List (List UInt8)) :
    (trim newLen qs).flatten = qs.flatten.take newLen := by
  induction qs generalizing newLen with
  | nil => simp [trim]
  | cons q qs ih =>
    rw [trim, List.flatten_cons]
    split
    next hle =>
      rw [List.take_append_of_le_length hle]
      exact List.append_nil _
    next hgt =>
      rw [List.flatten_cons, ih, List.take_append, List.take_of_length_le (l := q) (by omega)]

@[simp] theorem bytes_pbufRealloc (lwip : Lwip) (p : Pbuf) (newLen : Nat) :
    (pbufRealloc lwip p newLen).bytes = p.bytes.take newLen := by
  rw [pbufRealloc]
  split
  next hle =>
    rw [Pbuf.bytes, Pbuf.bytes, List.take_append_of_le_length hle]
    exact List.append_nil _
  next hgt =>
    simp only [Pbuf.bytes, flatten_trim]
    rw [List.take_append, List.take_of_length_le (l := p.payload) (by omega)]

theorem load16_drop (bytes : List UInt8) (n i : Nat) :
    load16 (bytes.drop n) i = load16 bytes (n + i) := by
  simp only [load16, List.getD_eq_getElem?_getD, List.getElem?_drop, Nat.add_assoc]

theorem load16_append {front : List UInt8} {i : Nat} (rest : List UInt8)
    (h : i + 1 < front.length) : load16 (front ++ rest) i = load16 front i := by
  simp only [load16, List.getD_eq_getElem?_getD]
  rw [List.getElem?_append_left (Nat.lt_of_succ_lt h), List.getElem?_append_left h]

theorem IpHdr.ofBytes_congr {bytes bytes' : List UInt8}
    (h : ∀ i < ipHlen, bytes.getD i 0 = bytes'.getD i 0) :
    IpHdr.ofBytes bytes = IpHdr.ofBytes bytes' := by
  have h16 : ∀ i, i + 1 < ipHlen → load16 bytes i = load16 bytes' i := by
    intro i hi
    rw [load16, load16, h i (by omega), h (i + 1) hi]
  have h32 : ∀ i, i + 3 < ipHlen → load32 bytes i = load32 bytes' i := by
    intro i hi
    rw [load32, load32, h16 i (by omega), h16 (i + 2) hi]
  simp only [IpHdr.ofBytes]
  rw [h 0 (by decide), h 1 (by decide), h16 2 (by decide), h16 4 (by decide), h16 6 (by decide),
    h 8 (by decide), h 9 (by decide), h16 10 (by decide), h32 12 (by decide), h32 16 (by decide)]

theorem IpHdr.ofBytes_append {front : List UInt8} (rest : List UInt8)
    (h : ipHlen ≤ front.length) : IpHdr.ofBytes (front ++ rest) = IpHdr.ofBytes front := by
  refine IpHdr.ofBytes_congr fun i hi => ?_
  simp only [List.getD_eq_getElem?_getD]
  rw [List.getElem?_append_left (Nat.lt_of_lt_of_le hi h)]

theorem IpHdr.ofBytes_take {bytes : List UInt8} {n : Nat} (h : ipHlen ≤ n) :
    IpHdr.ofBytes (bytes.take n) = IpHdr.ofBytes bytes := by
  refine IpHdr.ofBytes_congr fun i hi => ?_
  simp only [List.getD_eq_getElem?_getD]
  rw [List.getElem?_take_of_lt (by omega)]

theorem Pbuf.iphdr_eq {p : Pbuf} (h : ipHlen ≤ p.payload.length) :
    p.iphdr = IpHdr.ofBytes p.payload :=
  IpHdr.ofBytes_append p.behind h

theorem Pbuf.ofBytes_bytes {p : Pbuf} (h : ipHlen ≤ p.payload.length) :
    IpHdr.ofBytes p.bytes = p.iphdr :=
  (IpHdr.ofBytes_append p.next.flatten h).trans (p.iphdr_eq h).symm

@[simp] theorem payload_pbufRealloc (lwip : Lwip) (p : Pbuf) (newLen : Nat) :
    (pbufRealloc lwip p newLen).payload = p.payload.take newLen := by
  rw [pbufRealloc]
  split
  next hle => rfl
  next hgt => exact (List.take_of_length_le (Nat.le_of_not_le hgt)).symm

theorem Pbuf.length_payload_le (p : Pbuf) : p.payload.length ≤ p.totLen := by
  rw [Pbuf.totLen, Pbuf.bytes, List.length_append]
  omega

structure HeaderOk (lwip : Lwip) (p : Pbuf) : Prop where
  version : p.iphdr.version = 4
  hlBytes : ipHlen ≤ p.iphdr.hlBytes
  header : p.iphdr.hlBytes ≤ p.payload.length
  totalLen : p.iphdr.hlBytes ≤ p.iphdr.totalLen
  packet : p.iphdr.totalLen ≤ p.totLen
  chksum : lwip.inetChksum (p.payload.take p.iphdr.hlBytes) = 0

theorem HeaderOk.ofBytes_bytes {lwip : Lwip} {p : Pbuf} (h : HeaderOk lwip p) :
    IpHdr.ofBytes p.bytes = p.iphdr :=
  p.ofBytes_bytes (h.hlBytes.trans h.header)

theorem HeaderOk.holdsHeader {lwip : Lwip} {p : Pbuf} (h : HeaderOk lwip p) : p.HoldsHeader := by
  rw [Pbuf.HoldsHeader, h.ofBytes_bytes]
  exact h.header

theorem trimTo_spec (lwip : Lwip) (p : Pbuf) (n : Nat) :
    (trimTo lwip p n).payload = p.payload.take n ∧ (trimTo lwip p n).bytes = p.bytes.take n := by
  rw [trimTo]
  split
  next hlt => exact ⟨payload_pbufRealloc lwip p n, bytes_pbufRealloc lwip p n⟩
  next hge =>
    have hlen : p.totLen ≤ n := Nat.le_of_not_lt hge
    refine ⟨(List.take_of_length_le ?_).symm, (List.take_of_length_le hlen).symm⟩
    exact p.length_payload_le.trans hlen

theorem checkHeader_of_ok {lwip : Lwip} {p : Pbuf} (h : HeaderOk lwip p) :
    checkHeader lwip p = some (trimTo lwip p p.iphdr.totalLen) := by
  obtain ⟨hpayload, hbytes⟩ := trimTo_spec lwip p p.iphdr.totalLen
  have htotLen : (trimTo lwip p p.iphdr.totalLen).totLen = p.iphdr.totalLen := by
    rw [Pbuf.totLen, hbytes]
    exact List.length_take_of_le h.packet
  have htake : (trimTo lwip p p.iphdr.totalLen).payload.take p.iphdr.hlBytes =
      p.payload.take p.iphdr.hlBytes := by
    rw [hpayload, List.take_take, Nat.min_eq_left h.totalLen]
  have hlengths : ¬ ((trimTo lwip p p.iphdr.totalLen).payload.length < p.iphdr.hlBytes ∨
      (trimTo lwip p p.iphdr.totalLen).totLen < p.iphdr.totalLen ∨
      p.iphdr.hlBytes < ipHlen) := by
    rw [htotLen, hpayload, List.length_take]
    have := h.hlBytes
    have := h.header
    have := h.totalLen
    omega
  simp only [checkHeader]
  rw [if_neg (not_not.mpr h.version), if_neg hlengths, htake, if_neg (not_not.mpr h.chksum)]

theorem ok_of_checkHeader {lwip : Lwip} {p q : Pbuf} (h : checkHeader lwip p = some q) :
    HeaderOk lwip p := by
  simp only [checkHeader] at h
  split at h
  next => cases h
  next hversion =>
    split at h
    next => cases h
    next hlengths =>
      split at h
      next => cases h
      next hchksum =>
        have hpacket : p.iphdr.totalLen ≤ p.totLen := by
          by_contra hlt
          rw [trimTo, if_neg (by omega)] at hlengths
          omega
        obtain ⟨hpayload, hbytes⟩ := trimTo_spec lwip p p.iphdr.totalLen
        rw [hpayload, List.length_take] at hlengths
        have htotalLen : p.iphdr.hlBytes ≤ p.iphdr.totalLen := by omega
        rw [hpayload, List.take_take, Nat.min_eq_left htotalLen] at hchksum
        exact
          { version := not_not.mp hversion
            hlBytes := by omega
            header := by omega
            totalLen := htotalLen
            packet := hpacket
            chksum := not_not.mp hchksum }

def Pbuf.datagram (p : Pbuf) : Datagram where
  src := p.iphdr.src
  dest := p.iphdr.dest
  proto := p.iphdr.proto
  payload := (p.bytes.take p.iphdr.totalLen).drop p.iphdr.hlBytes

section Unfragmented

variable {lwip : Lwip} {layer : Layer} {p : Pbuf} {inp : Netif}

theorem ip4Input_of_ok (h : HeaderOk lwip p) (hfragment : p.iphdr.fragment = 0) :
    ip4Input lwip layer p inp = deliver lwip layer inp (p.udpDest lwip) p.packet p.datagram := by
  obtain ⟨hpayload, hbytes⟩ := trimTo_spec lwip p p.iphdr.totalLen
  have hpacket : p.packet = (trimTo lwip p p.iphdr.totalLen).bytes := by
    rw [Pbuf.packet, h.ofBytes_bytes, hbytes]
  have hproto : (trimTo lwip p p.iphdr.totalLen).iphdr.proto = p.iphdr.proto := by
    have hlong : ipHlen ≤ p.payload.length := h.hlBytes.trans h.header
    have htrimmed : ipHlen ≤ (trimTo lwip p p.iphdr.totalLen).payload.length := by
      rw [hpayload, List.length_take]
      exact Nat.le_min.mpr ⟨h.hlBytes.trans h.totalLen, hlong⟩
    rw [Pbuf.iphdr_eq htrimmed, hpayload, IpHdr.ofBytes_take (h.hlBytes.trans h.totalLen),
      Pbuf.iphdr_eq hlong]
  simp only [ip4Input, checkHeader_of_ok h, deliver, toUpperLayers, hpacket, hproto, hbytes,
    hfragment, if_true, Pbuf.udpDest]
  rfl

theorem Pbuf.take_payload {n : Nat} (h : n ≤ p.payload.length) :
    p.payload.take n = p.bytes.take n :=
  (List.take_append_of_le_length h).symm

theorem datagram_in_of_ok (hchksum : ∀ bytes, lwip.inetChksum bytes = 0 ↔ Verifies bytes)
    (h : HeaderOk lwip p) (hfragment : p.iphdr.fragment = 0) : p.datagram.In p.bytes := by
  have hread : p.iphdr = IpHdr.ofBytes p.payload := p.iphdr_eq (h.hlBytes.trans h.header)
  have hheader : p.iphdr.bytes ++ (p.payload.take p.iphdr.hlBytes).drop ipHlen =
      p.payload.take p.iphdr.hlBytes := by
    rw [hread, IpHdr.bytes_ofBytes (h.hlBytes.trans h.header), ← hread,
      ← Nat.min_eq_left h.hlBytes, ← List.take_take, Nat.min_eq_left h.hlBytes]
    exact List.take_append_drop ipHlen _
  refine ⟨p.iphdr, (p.payload.take p.iphdr.hlBytes).drop ipHlen,
    p.bytes.drop p.iphdr.totalLen, ?_, ?_⟩
  · exact
      { version := h.version
        hlBytes := by
          rw [List.length_drop, List.length_take_of_le h.header]
          have := h.hlBytes
          omega
        totalLen := by
          rw [Pbuf.datagram, List.length_drop, List.length_take_of_le h.packet]
          have := h.totalLen
          omega
        fragment := hfragment
        verifies := by
          rw [hheader]
          exact (hchksum _).mp h.chksum
        src := rfl
        dest := rfl
        proto := rfl }
  · have hpacket : p.payload.take p.iphdr.hlBytes ++
        (p.bytes.take p.iphdr.totalLen).drop p.iphdr.hlBytes = p.bytes.take p.iphdr.totalLen := by
      rw [Pbuf.take_payload h.header, ← Nat.min_eq_left h.totalLen, ← List.take_take,
        Nat.min_eq_left h.totalLen]
      exact List.take_append_drop _ _
    rw [hheader, Pbuf.datagram, hpacket, List.take_append_drop]

theorem ok_of_in (hchksum : ∀ bytes, lwip.inetChksum bytes = 0 ↔ Verifies bytes)
    (hholds : p.HoldsHeader) {d : Datagram} (hin : d.In p.bytes) :
    HeaderOk lwip p ∧ p.iphdr.fragment = 0 ∧ p.datagram = d := by
  obtain ⟨h, options, padding, hcarried, hbytes⟩ := hin
  have hfirst : IpHdr.ofBytes p.bytes = h := by
    rw [hbytes, List.append_assoc, List.append_assoc, IpHdr.ofBytes_bytes]
  have hheader : h.hlBytes ≤ p.payload.length := hfirst ▸ hholds
  have hhlBytes : ipHlen ≤ h.hlBytes := by
    rw [hcarried.hlBytes]
    exact Nat.le_add_right _ _
  have hread : p.iphdr = h := (p.ofBytes_bytes (hhlBytes.trans hheader)).symm.trans hfirst
  have hlengths : p.totLen = h.hlBytes + d.payload.length + padding.length := by
    rw [Pbuf.totLen, hbytes, hcarried.hlBytes]
    simp only [List.length_append, IpHdr.length_bytes]
  have htake : p.bytes.take h.hlBytes = h.bytes ++ options := by
    rw [hbytes, List.append_assoc, List.take_append_of_le_length, List.take_of_length_le]
    · rw [List.length_append, IpHdr.length_bytes, hcarried.hlBytes]
    · rw [List.length_append, IpHdr.length_bytes, hcarried.hlBytes]
  refine ⟨?_, hread ▸ hcarried.fragment, ?_⟩
  · exact
      { version := hread ▸ hcarried.version
        hlBytes := hread ▸ hhlBytes
        header := hread ▸ hheader
        totalLen := by
          rw [hread, hcarried.totalLen]
          exact Nat.le_add_right _ _
        packet := by
          rw [hread, hcarried.totalLen]
          omega
        chksum := by
          rw [hread, Pbuf.take_payload hheader, htake]
          exact (hchksum _).mpr hcarried.verifies }
  · have hpayload : (p.bytes.take h.totalLen).drop h.hlBytes = d.payload := by
      have hlen : (h.bytes ++ options).length = h.hlBytes := by
        rw [List.length_append, IpHdr.length_bytes, hcarried.hlBytes]
      rw [List.drop_take, hcarried.totalLen, Nat.add_sub_cancel_left, hbytes, List.append_assoc,
        ← hlen, List.drop_left, List.take_left]
    rw [Pbuf.datagram, hread, hpayload, hcarried.src, hcarried.dest, hcarried.proto]

theorem ip4Input_of_not_ok (h : ¬ HeaderOk lwip p) : ip4Input lwip layer p inp = .dropped := by
  have hnone : checkHeader lwip p = none := by
    rw [Option.eq_none_iff_forall_ne_some]
    exact fun q hq => h (ok_of_checkHeader hq)
  simp only [ip4Input, hnone]

theorem ip4Input_of_spread (h : ¬ p.HoldsHeader) : ip4Input lwip layer p inp = .dropped := by
  apply ip4Input_of_not_ok
  exact fun hok => h hok.holdsHeader

theorem ip4Input_of_in (hchksum : ∀ bytes, lwip.inetChksum bytes = 0 ↔ Verifies bytes)
    (hholds : p.HoldsHeader) {d : Datagram} (hin : d.In p.bytes) :
    ip4Input lwip layer p inp = deliver lwip layer inp (p.udpDest lwip) p.packet d := by
  obtain ⟨hok, hfragment, hd⟩ := ok_of_in hchksum hholds hin
  rw [ip4Input_of_ok hok hfragment, hd]

theorem udpDest_eq (hchksum : ∀ bytes, lwip.inetChksum bytes = 0 ↔ Verifies bytes)
    {d : Datagram} (hin : d.In p.bytes)
    (hfirst : (IpHdr.ofBytes p.bytes).hlBytes + 4 ≤ p.payload.length)
    (hlong : 4 ≤ d.payload.length) : p.udpDest lwip = load16 d.payload 2 := by
  obtain ⟨hok, -, rfl⟩ := ok_of_in (p := p) hchksum (Nat.le_of_add_right_le hfirst) hin
  rw [hok.ofBytes_bytes] at hfirst
  obtain ⟨hpayload, hbytes⟩ := trimTo_spec lwip p p.iphdr.totalLen
  have hlen : p.iphdr.hlBytes + 4 ≤ p.iphdr.totalLen := by
    rw [Pbuf.datagram, List.length_drop, List.length_take_of_le hok.packet] at hlong
    omega
  have htrimmed : p.iphdr.hlBytes + 4 ≤ (trimTo lwip p p.iphdr.totalLen).payload.length := by
    rw [hpayload, List.length_take]
    exact Nat.le_min.mpr ⟨hlen, hfirst⟩
  rw [Pbuf.datagram, load16_drop, ← hbytes, Pbuf.udpDest, Pbuf.memory, Pbuf.bytes,
    load16_append _ (by omega), load16_append _ (by omega)]

theorem deliver_eq_passed {d d' : Datagram} {netif : Netif} {udpDest : UInt16}
    {packet : List UInt8} (h : deliver lwip layer inp udpDest packet d = .passed d' netif) :
    d = d' := by
  simp only [deliver] at h
  split at h
  next => cases h
  next =>
    split at h
    next => cases h
    next =>
      split at h
      next => cases h
      next =>
        rw [sendUp] at h
        split at h
        next => exact (Delivery.passed.inj h).1
        next => cases h

end Unfragmented

/-- A packet in one piece is passed up as a datagram exactly if its first buffer holds the header,
it carries the datagram, whatever follows it in the frame, and the datagram is for this device. -/
theorem passed_iff {lwip : Lwip} (hchksum : ∀ bytes, lwip.inetChksum bytes = 0 ↔ Verifies bytes)
    (layer : Layer) {p : Pbuf} (hfragment : (IpHdr.ofBytes p.bytes).fragment = 0)
    (inp : Netif) (d : Datagram) (netif : Netif) :
    ip4Input lwip layer p inp = .passed d netif ↔
      p.HoldsHeader ∧ d.In p.bytes ∧
        deliver lwip layer inp (p.udpDest lwip) p.packet d = .passed d netif := by
  constructor
  · intro h
    by_cases hok : HeaderOk lwip p
    · rw [hok.ofBytes_bytes] at hfragment
      rw [ip4Input_of_ok hok hfragment] at h
      obtain rfl := deliver_eq_passed h
      exact ⟨hok.holdsHeader, datagram_in_of_ok hchksum hok hfragment, h⟩
    · rw [ip4Input_of_not_ok hok] at h
      cases h
  · rintro ⟨hholds, hin, h⟩
    rw [ip4Input_of_in hchksum hholds hin, h]

section Sample

theorem onesSum_lt (bytes : List UInt8) : onesSum bytes < 65536 :=
  (foldl_addWord_bounds (fun _ => words_lt) (Nat.zero_lt_succ 65535)).1

def sampleLwip : Lwip where
  inetChksum bytes := .ofNat (65535 - onesSum bytes)
  isMulticast a := a &&& 0xF0 = 0xE0
  isLoopback a := a &&& 0xFF = 127
  isBroadcast a netif :=
    a = 0xFFFFFFFF || a = 0 || (netif.broadcast && a ≠ netif.ipAddr &&
      a &&& netif.netmask = netif.ipAddr &&& netif.netmask && a ||| netif.netmask = 0xFFFFFFFF)
  ip4Reass _ := none
  rawInput _ _ := false
  cutOff p newLen := p.payload.drop newLen ++ p.behind

theorem sampleLwip_chksum (bytes : List UInt8) :
    sampleLwip.inetChksum bytes = 0 ↔ Verifies bytes := by
  have hlt := onesSum_lt bytes
  rw [← UInt16.toNat_inj, sampleLwip, UInt16.toNat_ofNat', Verifies, UInt16.toNat_zero]
  omega

def sampleNetif (ipAddr : UInt32) : Netif where
  num := 1
  up := true
  linkUp := true
  broadcast := true
  ipAddr
  netmask := 0x00FFFFFF
  gw := 0x017BA8C0
  mtu := 1500

def sampleLayer : Layer where
  netifList := [sampleNetif 0x017BA8C0]
  secondaryIpAddress := 0x006433C6

def sampleSyn : Datagram where
  src := 0x107BA8C0
  dest := 0x006433C6
  proto := ipProtoTcp
  payload := [192, 0, 0, 80, 0, 0, 0, 1, 0, 0, 0, 0, 80, 2, 255, 255, 0, 0, 0, 0]

def sampleHeader : IpHdr :=
  outputHeader (sampleSyn.payload.length + ipHlen) 7 sampleSyn.src sampleSyn.dest 64 0
    sampleSyn.proto

theorem syn_carried : sampleSyn.In (sampleHeader.bytes ++ sampleSyn.payload ++ [0, 0]) := by
  have hin := passed_iff sampleLwip_chksum sampleLayer
    (p :=
      { room := 14
        payload := sampleHeader.bytes ++ sampleSyn.payload ++ [0, 0]
        behind := []
        next := [] })
    (by decide +kernel) (sampleNetif 0x017BA8C0) sampleSyn (sampleNetif 0x017BA8C0)
  have hcarried := (hin.mp (by decide +kernel)).2.1
  rwa [Pbuf.bytes, List.flatten_nil, List.append_nil] at hcarried

/-- The header of a UDP packet that is for another device, and nothing behind it but padding. -/
example :
    let header := outputHeader ipHlen 7 0x107BA8C0 0x0200000A 64 0 ipProtoUdp
    ip4Input sampleLwip sampleLayer
        { room := 14, payload := header.bytes ++ [0, 0, 0, 68], behind := [], next := [] }
        (sampleNetif 0x017BA8C0) =
      .passed { src := 0x107BA8C0, dest := 0x0200000A, proto := ipProtoUdp, payload := [] }
        (sampleNetif 0x017BA8C0) := by decide +kernel

end Sample

end RadProt.Ip
