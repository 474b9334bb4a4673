import RadProt.Ip.Input

namespace RadProt.Ip

open RadProt.Lib.InternetChecksum

variable {lwip : Lwip} {d : Datagram}

/-- A datagram that goes out arrives as it is: wherever its packet comes in, with whatever padding
and in whatever buffers, it meets with what the datagram does, as long as the first buffer holds the
header. -/
theorem delivered_as_sent (hchksum : ∀ bytes, lwip.inetChksum bytes = 0 ↔ Verifies bytes)
    {p : Pbuf} {out : Netif} (hpayload : p.bytes = d.payload) (hroom : ipHlen ≤ p.room)
    (hlen : d.payload.length + ipHlen < 65536)
    (hmtu : out.mtu = 0 ∨ d.payload.length + ipHlen ≤ out.mtu.toNat) (ipId : UInt16)
    (ttl tos : UInt8) :
    ∃ q, ip4OutputIfSrc ipId p (some d.src) (some d.dest) ttl tos d.proto out =
        (.output q d.dest, ipId + 1) ∧
      q.totLen = ipHlen + d.payload.length ∧
      ∀ layer inp r padding, r.bytes = q.bytes ++ padding →
        (ipHlen ≤ r.payload.length →
          ip4Input lwip layer r inp = deliver lwip layer inp (r.udpDest lwip) q.bytes d) ∧
        (r.payload.length < ipHlen → ip4Input lwip layer r inp = .dropped) ∧
        (ipHlen + 4 ≤ r.payload.length → 4 ≤ d.payload.length →
          r.udpDest lwip = load16 d.payload 2) := by
  obtain ⟨q, h, hout, hcarried, hbytes⟩ :=
    ip4OutputIfSrc_carries ipId ttl tos hpayload hroom hlen hmtu
  have hhlBytes : h.hlBytes = ipHlen := hcarried.hlBytes
  have htotLen : q.totLen = ipHlen + d.payload.length := by
    rw [Pbuf.totLen, hbytes, List.length_append, IpHdr.length_bytes]
  refine ⟨q, hout, htotLen, fun layer inp r padding hr => ?_⟩
  have hin : d.In r.bytes := ⟨h, [], padding, hcarried, by rw [hr, hbytes, List.append_nil]⟩
  have hfirst : IpHdr.ofBytes r.bytes = h := by
    rw [hr, hbytes, List.append_assoc, IpHdr.ofBytes_bytes]
  have hholds : r.HoldsHeader ↔ ipHlen ≤ r.payload.length := by
    rw [Pbuf.HoldsHeader, hfirst, hhlBytes]
  have hpacket : r.packet = q.bytes := by
    have hlength : q.bytes.length = h.totalLen := by
      rw [hcarried.totalLen, hhlBytes, ← htotLen, Pbuf.totLen]
    rw [Pbuf.packet, hfirst, hr, ← hlength, List.take_left]
  refine ⟨fun hfits => ?_, fun hspread => ?_, fun hport hlong => ?_⟩
  · rw [ip4Input_of_in hchksum (hholds.mpr hfits) hin, hpacket]
  · exact ip4Input_of_spread fun h => Nat.not_le_of_lt hspread (hholds.mp h)
  · exact udpDest_eq hchksum hin (by rwa [hfirst, hhlBytes]) hlong

theorem syn_arrives : ∃ q,
    ip4OutputIfSrc 7 { room := 54, payload := sampleSyn.payload, behind := [], next := [] }
        (some sampleSyn.src) (some sampleSyn.dest) 64 0 ipProtoTcp (sampleNetif 0x107BA8C0) =
      (.output q sampleSyn.dest, 8) ∧
    ip4Input sampleLwip sampleLayer
        { room := 14, payload := q.bytes ++ [0, 0, 0, 0, 0, 0], behind := [], next := [] }
        (sampleNetif 0x017BA8C0) = .passed sampleSyn (sampleNetif 0x017BA8C0) := by
  have hmtu : (sampleNetif 0x107BA8C0).mtu = 0 ∨
      sampleSyn.payload.length + ipHlen ≤ (sampleNetif 0x107BA8C0).mtu.toNat := Or.inr (by decide)
  obtain ⟨q, hout, htotLen, harrives⟩ := delivered_as_sent sampleLwip_chksum
    (p := { room := 54, payload := sampleSyn.payload, behind := [], next := [] })
    (List.append_nil sampleSyn.payload) (by decide) (by decide) hmtu 7 64 0
  refine ⟨q, hout, ?_⟩
  have hfits : ipHlen ≤ (q.bytes ++ [0, 0, 0, 0, 0, 0]).length := by
    rw [List.length_append]
    exact Nat.le_add_right_of_le (Nat.le_of_add_right_le htotLen.ge)
  have hinput := (harrives sampleLayer (sampleNetif 0x017BA8C0)
    { room := 14, payload := q.bytes ++ [0, 0, 0, 0, 0, 0], behind := [], next := [] }
    [0, 0, 0, 0, 0, 0] (List.append_nil _)).1 hfits
  rw [hinput]
  rfl

/-- A word of the header that has changed on the way, other than between all zeros and all ones,
keeps the packet from being passed up, unless it is the word with the header's length. -/
theorem altered_header_dropped (hchksum : ∀ bytes, lwip.inetChksum bytes = 0 ↔ Verifies bytes)
    {h : IpHdr} {options front back rest : List UInt8} {x y x' y' : UInt8}
    (hcarried : d.CarriedBy h options) (hheader : h.bytes ++ options = front ++ x :: y :: back)
    (heven : 2 ∣ front.length) (hlength : 0 < front.length)
    (hne : ¬ x.toNat + 256 * y.toNat ≡ x'.toNat + 256 * y'.toNat [MOD 65535]) {p : Pbuf}
    (hbytes : p.bytes = front ++ x' :: y' :: back ++ rest)
    (layer : Layer) (inp : Netif) :
    ip4Input lwip layer p inp = .dropped := by
  apply ip4Input_of_not_ok
  intro hok
  have hvHl : p.iphdr.vHl = h.vHl := by
    have hread : p.iphdr.vHl = p.bytes.getD 0 0 := congrArg IpHdr.vHl hok.ofBytes_bytes.symm
    have hhead : (h.bytes ++ options).getD 0 0 = h.vHl := rfl
    rw [hread, hbytes, ← hhead, hheader, List.append_assoc]
    simp only [List.getD_eq_getElem?_getD]
    rw [List.getElem?_append_left hlength, List.getElem?_append_left hlength]
  have hlen : (front ++ x' :: y' :: back).length = p.iphdr.hlBytes := by
    have hsame := congrArg List.length hheader
    rw [List.length_append, IpHdr.length_bytes, ← hcarried.hlBytes] at hsame
    rw [IpHdr.hlBytes, hvHl, ← IpHdr.hlBytes, hsame]
    simp only [List.length_append, List.length_cons]
  have hverifies := (hchksum _).mp hok.chksum
  rw [Pbuf.take_payload hok.header, hbytes, ← hlen, List.take_left] at hverifies
  exact not_verifies_of_changed heven (hheader ▸ hcarried.verifies) hne hverifies

theorem stale_checksum_dropped :
    ip4Input sampleLwip sampleLayer
      { room := 14
        payload := sampleHeader.bytes.take 8 ++ 63 :: 6 :: sampleHeader.bytes.drop 10 ++
          sampleSyn.payload
        behind := []
        next := [] } (sampleNetif 0x017BA8C0) = .dropped := by
  have hcarried : sampleSyn.CarriedBy sampleHeader [] :=
    outputHeader_carries 7 64 0 sampleSyn (by decide)
  have hheader : sampleHeader.bytes ++ [] =
      sampleHeader.bytes.take 8 ++ 64 :: 6 :: sampleHeader.bytes.drop 10 := by decide +kernel
  have hne : ¬ (64 : UInt8).toNat + 256 * (6 : UInt8).toNat ≡
      (63 : UInt8).toNat + 256 * (6 : UInt8).toNat [MOD 65535] := by decide
  exact altered_header_dropped sampleLwip_chksum hcarried hheader (by decide) (by decide) hne
    (List.append_nil _) _ _

end RadProt.Ip
