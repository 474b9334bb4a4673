import RadProt.Ip.Header

namespace RadProt.Ip

open RadProt.Lib.InternetChecksum

structure Netif where
  num : UInt8
  up : Bool
  linkUp : Bool
  broadcast : Bool
  ipAddr : UInt32
  netmask : UInt32
  gw : UInt32
  mtu : UInt16
  deriving DecidableEq

/-- A chain of buffers: the bytes in front of the payload of the first one, its payload, what
memory holds behind it, and the payloads of the others. -/
structure Pbuf where
  room : Nat
  payload : List UInt8
  behind : List UInt8
  next : List (List UInt8)

def Pbuf.bytes (p : Pbuf) : List UInt8 := p.payload ++ p.next.flatten

def Pbuf.memory (p : Pbuf) : List UInt8 := p.payload ++ p.behind

def Pbuf.totLen (p : Pbuf) : Nat := p.bytes.length

/-- `pbuf_add_header`, with what is written there; the total length may not wrap. -/
def pbufAddHeader (p : Pbuf) (header : List UInt8) : Option Pbuf :=
  if header.length ≤ p.room ∧ p.totLen + header.length < 65536 then
    some { p with room := p.room - header.length, payload := header ++ p.payload }
  else none

inductive Output
  | errBuf
  /-- Handed to `ip4_frag`. -/
  | frag (p : Pbuf) (dest : UInt32)
  /-- Handed to `netif->output`. -/
  | output (p : Pbuf) (dest : UInt32)

def inlineChkSum (h : IpHdr) : UInt16 :=
  let chkSum := (lwipHtons (h.proto.toUInt16 ||| h.ttl.toUInt16 <<< 8)).toUInt32
  let chkSum := chkSum + (h.dest &&& 0xFFFF)
  let chkSum := chkSum + (h.dest >>> 16)
  let chkSum := chkSum + (lwipHtons (h.tos.toUInt16 ||| h.vHl.toUInt16 <<< 8)).toUInt32
  let chkSum := chkSum + h.len.toUInt32
  let chkSum := chkSum + h.id.toUInt32
  let chkSum := chkSum + (h.src &&& 0xFFFF)
  let chkSum := chkSum + (h.src >>> 16)
  let chkSum := (chkSum >>> 16) + (chkSum &&& 0xFFFF)
  let chkSum := (chkSum >>> 16) + chkSum
  (~~~chkSum).toUInt16

def outputHeader (totLen : Nat) (ipId : UInt16) (src dest : UInt32) (ttl tos proto : UInt8) :
    IpHdr :=
  let iphdr : IpHdr :=
    { vHl := 0x45
      tos
      len := lwipHtons (.ofNat totLen)
      id := lwipHtons ipId
      offset := 0
      ttl
      proto
      chksum := 0
      src
      dest }
  { iphdr with chksum := inlineChkSum iphdr }

def transmit (netif : Netif) (p : Pbuf) (dest : UInt32) : Output :=
  if netif.mtu ≠ 0 ∧ netif.mtu.toNat < p.totLen then .frag p dest else .output p dest

/-- `ip4_output_if_src`, and `ip_id` after it; a null `dest` is `LWIP_IP_HDRINCL`. -/
def ip4OutputIfSrc (ipId : UInt16) (p : Pbuf) (src dest : Option UInt32) (ttl tos proto : UInt8)
    (netif : Netif) : Output × UInt16 :=
  match dest with
  | none =>
    if p.payload.length < ipHlen then (.errBuf, ipId)
    else (transmit netif p (IpHdr.ofBytes p.payload).dest, ipId)
  | some dest =>
    let header := outputHeader (p.totLen + ipHlen) ipId (src.getD 0) dest ttl tos proto
    match pbufAddHeader p header.bytes with
    | none => (.errBuf, ipId)
    | some p => (transmit netif p dest, ipId + 1)

def ip4OutputIf (ipId : UInt16) (p : Pbuf) (src dest : Option UInt32) (ttl tos proto : UInt8)
    (netif : Netif) : Output × UInt16 :=
  let srcUsed := if dest.isSome ∧ src.getD 0 = 0 then some netif.ipAddr else src
  ip4OutputIfSrc ipId p srcUsed dest ttl tos proto netif

/-- `ip4_route` over `netif_list`, without its hooks. -/
def ip4Route (netifList : List Netif) (netifDefault : Option Netif) (isLoopback : UInt32 → Bool)
    (dest : UInt32) : Option Netif :=
  let found := netifList.find? fun netif =>
    netif.up && netif.linkUp && netif.ipAddr ≠ 0 &&
      (dest &&& netif.netmask = netif.ipAddr &&& netif.netmask ||
        !netif.broadcast && dest = netif.gw)
  found.or (netifDefault.filter fun netif =>
    netif.up && netif.linkUp && netif.ipAddr ≠ 0 && !isLoopback dest)

structure Datagram where
  src : UInt32
  dest : UInt32
  proto : UInt8
  payload : List UInt8
  deriving DecidableEq

structure Datagram.CarriedBy (d : Datagram) (h : IpHdr) (options : List UInt8) : Prop where
  version : h.version = 4
  hlBytes : h.hlBytes = ipHlen + options.length
  totalLen : h.totalLen = h.hlBytes + d.payload.length
  fragment : h.fragment = 0
  verifies : Verifies (h.bytes ++ options)
  src : h.src = d.src
  dest : h.dest = d.dest
  proto : h.proto = d.proto

theorem toNat_lwipHtons_or (low high : UInt8) :
    (lwipHtons (low.toUInt16 ||| high.toUInt16 <<< 8)).toNat = high.toNat + 256 * low.toNat := by
  have hlow := low.toNat_lt
  have hhigh := high.toNat_lt
  have hor : (low.toUInt16 ||| high.toUInt16 <<< 8).toNat = high.toNat * 256 + low.toNat := by
    rw [UInt16.toNat_or, UInt16.toNat_shiftLeft, UInt8.toNat_toUInt16, UInt8.toNat_toUInt16,
      Nat.or_comm, show (8 : UInt16).toNat % 16 = 8 from rfl, Nat.mod_eq_of_lt,
      ← Nat.shiftLeft_add_eq_or_of_lt hlow, Nat.shiftLeft_eq]
    rw [Nat.shiftLeft_eq]
    omega
  rw [toNat_lwipHtons, hor]
  omega

theorem toNat_and_low (w : UInt32) : (w &&& 0xFFFF).toNat = w.toNat % 65536 := by
  rw [UInt32.toNat_and]
  exact Nat.and_two_pow_sub_one_eq_mod w.toNat 16

theorem toNat_shiftRight_16 (w : UInt32) : (w >>> 16).toNat = w.toNat / 65536 := by
  rw [UInt32.toNat_shiftRight, Nat.shiftRight_eq_div_pow]
  rfl

theorem toNat_complement (chkSum : UInt32) :
    (~~~((((chkSum >>> 16) + (chkSum &&& 0xFFFF)) >>> 16) +
      ((chkSum >>> 16) + (chkSum &&& 0xFFFF)))).toUInt16.toNat = complement chkSum.toNat := by
  have hlt := chkSum.toNat_lt
  have hfolded : ((chkSum >>> 16) + (chkSum &&& 0xFFFF)).toNat =
      chkSum.toNat / 65536 + chkSum.toNat % 65536 := by
    rw [UInt32.toNat_add, toNat_and_low, toNat_shiftRight_16]
    omega
  rw [UInt32.toNat_toUInt16, UInt32.toNat_not, UInt32.toNat_add, toNat_shiftRight_16, hfolded,
    complement, show UInt32.size = 4294967296 from rfl]
  have hbound : chkSum.toNat / 65536 + chkSum.toNat % 65536 < 131072 := by omega
  generalize chkSum.toNat / 65536 + chkSum.toNat % 65536 = folded at hbound
  have htwice : folded / 65536 + folded < 131073 := by omega
  generalize folded / 65536 + folded = twice at htwice
  omega

theorem toNat_inlineChkSum {h : IpHdr} (hchksum : h.chksum = 0) (hoffset : h.offset = 0) :
    (inlineChkSum h).toNat = complement (lowWords h.bytes).sum := by
  rw [inlineChkSum, toNat_complement, h.sum_lowWords_bytes, hchksum, hoffset]
  congr 1
  have := h.dest.toNat_lt
  have := h.src.toNat_lt
  have := h.len.toNat_lt
  have := h.id.toNat_lt
  have := h.proto.toNat_lt
  have := h.ttl.toNat_lt
  have := h.vHl.toNat_lt
  have := h.tos.toNat_lt
  simp only [UInt32.toNat_add, toNat_and_low, toNat_shiftRight_16, UInt16.toNat_toUInt32,
    toNat_lwipHtons_or, UInt16.toNat_zero]
  omega

theorem verifies_outputHeader (totLen : Nat) (ipId : UInt16) (src dest : UInt32)
    (ttl tos proto : UInt8) : Verifies (outputHeader totLen ipId src dest ttl tos proto).bytes := by
  obtain ⟨h, hh, hvHl, hchksum, hoffset⟩ : ∃ h : IpHdr,
      outputHeader totLen ipId src dest ttl tos proto = { h with chksum := inlineChkSum h } ∧
        h.vHl = 0x45 ∧ h.chksum = 0 ∧ h.offset = 0 := ⟨_, rfl, rfl, rfl, rfl⟩
  have hsum : (lowWords ({ h with chksum := inlineChkSum h } : IpHdr).bytes).sum =
      (lowWords h.bytes).sum + complement (lowWords h.bytes).sum := by
    rw [← toNat_inlineChkSum hchksum hoffset, IpHdr.sum_lowWords_bytes,
      IpHdr.sum_lowWords_bytes h, hchksum]
    simp only [UInt16.toNat_zero]
    omega
  rw [hh, verifies_iff_low, hsum]
  have hpos : 0 < (lowWords h.bytes).sum := by
    rw [h.sum_lowWords_bytes, hvHl, show (0x45 : UInt8).toNat = 69 from rfl]
    omega
  refine ⟨Nat.add_pos_left hpos _, dvd_add_complement ?_⟩
  have := h.dest.toNat_lt
  have := h.src.toNat_lt
  have := h.len.toNat_lt
  have := h.id.toNat_lt
  have := h.proto.toNat_lt
  have := h.ttl.toNat_lt
  have := h.tos.toNat_lt
  rw [h.sum_lowWords_bytes, hvHl, hchksum, hoffset, show (0x45 : UInt8).toNat = 69 from rfl,
    UInt16.toNat_zero]
  omega

theorem outputHeader_version (totLen : Nat) (ipId : UInt16) (src dest : UInt32)
    (ttl tos proto : UInt8) :
    (outputHeader totLen ipId src dest ttl tos proto).version = 4 ∧
      (outputHeader totLen ipId src dest ttl tos proto).hlBytes = ipHlen := by
  have hvHl : (outputHeader totLen ipId src dest ttl tos proto).vHl = 0x45 := rfl
  rw [IpHdr.version, IpHdr.hlBytes, hvHl]
  exact ⟨rfl, rfl⟩

theorem outputHeader_carries (ipId : UInt16) (ttl tos : UInt8) (d : Datagram)
    (h : d.payload.length + ipHlen < 65536) :
    d.CarriedBy (outputHeader (d.payload.length + ipHlen) ipId d.src d.dest ttl tos d.proto)
      [] where
  version := (outputHeader_version _ _ _ _ _ _ _).1
  hlBytes := (outputHeader_version _ _ _ _ _ _ _).2
  totalLen := by
    rw [(outputHeader_version _ _ _ _ _ _ _).2, Nat.add_comm ipHlen, IpHdr.totalLen,
      outputHeader, lwipHtons_lwipHtons, UInt16.toNat_ofNat', Nat.mod_eq_of_lt h]
  fragment := show (lwipHtons 0).toNat % 16384 = 0 from rfl
  verifies := by
    rw [List.append_nil]
    exact verifies_outputHeader _ _ _ _ _ _ _
  src := rfl
  dest := rfl
  proto := rfl

theorem pbufAddHeader_eq {p : Pbuf} {header : List UInt8} (hroom : header.length ≤ p.room)
    (hlen : p.totLen + header.length < 65536) :
    ∃ q, pbufAddHeader p header = some q ∧ q.bytes = header ++ p.bytes := by
  refine ⟨_, if_pos ⟨hroom, hlen⟩, ?_⟩
  exact List.append_assoc header p.payload p.next.flatten

theorem ip4OutputIfSrc_carries (ipId : UInt16) {p : Pbuf} (ttl tos : UInt8) {netif : Netif}
    {d : Datagram} (hpayload : p.bytes = d.payload) (hroom : ipHlen ≤ p.room)
    (hlen : d.payload.length + ipHlen < 65536)
    (hmtu : netif.mtu = 0 ∨ d.payload.length + ipHlen ≤ netif.mtu.toNat) :
    ∃ q h, ip4OutputIfSrc ipId p (some d.src) (some d.dest) ttl tos d.proto netif =
        (.output q d.dest, ipId + 1) ∧
      d.CarriedBy h [] ∧ q.bytes = h.bytes ++ d.payload := by
  have htotLen : p.totLen = d.payload.length := congrArg List.length hpayload
  have hcarries := outputHeader_carries ipId ttl tos d hlen
  obtain ⟨q, hq, hbytes⟩ : ∃ q, pbufAddHeader p (outputHeader (d.payload.length + ipHlen) ipId
      d.src d.dest ttl tos d.proto).bytes = some q ∧ q.bytes = _ ++ p.bytes :=
    pbufAddHeader_eq hroom (htotLen ▸ hlen)
  rw [hpayload] at hbytes
  refine ⟨q, _, ?_, hcarries, hbytes⟩
  have hfits : ¬ (netif.mtu ≠ 0 ∧ netif.mtu.toNat < q.totLen) := by
    rintro ⟨hne, hlt⟩
    rw [Pbuf.totLen, hbytes, List.length_append, IpHdr.length_bytes] at hlt
    have := hmtu.resolve_left hne
    omega
  simp only [ip4OutputIfSrc, Option.getD_some, htotLen, hq, transmit, if_neg hfits]

end RadProt.Ip
