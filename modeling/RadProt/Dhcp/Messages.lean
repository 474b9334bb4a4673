import RadProt.Dhcp.Server

namespace RadProt.Dhcp

open RadProt.Lib

/-! What is on the wire: the packets of the clients and the replies. -/

def msgType (p : List UInt8) : UInt8 := p.getD (optOffset + 2) 0

def clientMac (p : List UInt8) : Mac := Vector.ofFn fun i => p.getD (chaddrOffset + i) 0

def yiaddr (p : List UInt8) : Ip4 := Vector.ofFn fun i => p.getD (yiaddrOffset + i) 0

def address (ip : Ip4) (yi : Fin dhcpsMaxIp) : Ip4 := ip.set 3 (dhcpsBaseIp + UInt8.ofNat yi)

def options (d : DhcpServer) (type : UInt8) : List Tlv.Entry :=
  [⟨dhcpOptMsgType, [type]⟩, ⟨dhcpOptServerId, d.ip.toList⟩, ⟨dhcpOptSubnetMask, d.nm.toList⟩,
    ⟨dhcpOptRouter, d.ip.toList⟩, ⟨dhcpOptDns, d.ip.toList⟩] ++
  d.domainName.elim [] (fun name => [⟨dhcpOptDomainName, name⟩]) ++
  [⟨dhcpOptIpLeaseTime, [0, 1, 0x51, 0x80]⟩]

section Write

variable (w : Writer) (s t : List UInt8)

theorem Writer.write_write : (w.write s).write t = w.write (s ++ t) := by
  rw [write, write, write, Access.overwrite_append, List.length_append, Nat.add_assoc]

theorem optWriteN_eq (cmd : UInt8) (data : List UInt8) :
    optWriteN w cmd data = w.write (Tlv.encode [⟨cmd, data⟩]) := by
  rw [Tlv.encode_cons, Tlv.encode_nil, List.append_nil]
  rfl

theorem optWriteU8_eq (cmd val : UInt8) : optWriteU8 w cmd val = w.write (Tlv.encode [⟨cmd, [val]⟩]) :=
  rfl

theorem writeOptions_eq (d : DhcpServer) (type : UInt8) :
    writeOptions d type w = w.write (Tlv.encode (options d type) ++ [dhcpOptEnd]) := by
  have hlease (w : Writer) : optWriteU32 w dhcpOptIpLeaseTime defaultLeaseTimeS =
      w.write (Tlv.encode [⟨dhcpOptIpLeaseTime, [0, 1, 0x51, 0x80]⟩]) := rfl
  have hdomain (w : Writer) : d.domainName.elim w (optWriteN w dhcpOptDomainName) =
      w.write (Tlv.encode (d.domainName.elim [] fun name => [⟨dhcpOptDomainName, name⟩])) := by
    cases d.domainName with
    | none =>
      simp only [Option.elim_none, Tlv.encode_nil, Writer.write, Access.overwrite_nil,
        List.length_nil, Nat.add_zero]
    | some name => exact optWriteN_eq w _ _
  rw [writeOptions, hlease, hdomain]
  simp only [optWriteN_eq, optWriteU8_eq, Writer.write_write, ← Tlv.encode_append, options,
    List.cons_append, List.nil_append]

end Write

section Bytes

variable {m : Nat → UInt8} {a n i : Nat} {s : List UInt8}

@[simp] theorem length_bytesAt (m : Nat → UInt8) (a n : Nat) : (bytesAt m a n).length = n := by
  rw [bytesAt, List.length_map, List.length_range]

theorem bytesAt_overwrite (m : Nat → UInt8) (n : Nat) (s : List UInt8) :
    bytesAt (Access.overwrite m n s) 0 (n + s.length) = bytesAt m 0 n ++ s := by
  apply List.ext_getElem (by simp)
  intro i hi hi'
  rw [length_bytesAt] at hi
  simp only [bytesAt, List.getElem_map, List.getElem_range, Nat.zero_add, Access.overwrite,
    List.getElem_append, List.length_map, List.length_range]
  split
  next h => rw [dif_neg (Nat.not_lt.mpr h.1), List.getD_eq_getElem]
  next h => rw [dif_pos (by omega)]

theorem getD_bytesAt (h : i < n) : (bytesAt m 0 n).getD i 0 = m i := by
  rw [List.getD_eq_getElem _ _ (by rwa [length_bytesAt])]
  simp only [bytesAt, List.getElem_map, List.getElem_range, Nat.zero_add]

theorem overwrite_of_le (h : a + s.length ≤ i) : Access.overwrite m a s i = m i := by
  rw [Access.overwrite, if_neg (by omega)]

theorem overwrite_of_mem (h : a ≤ i) (hi : i < a + s.length) :
    Access.overwrite m a s i = s.getD (i - a) 0 := by
  rw [Access.overwrite, if_pos ⟨h, hi⟩]

end Bytes

section Packet

variable {d : DhcpServer} {stack : Nat → UInt8} {p : List UInt8} {i : Nat}

theorem answering_apply (hp : dhcpMinSize ≤ p.length) (hi : i < dhcpMinSize) :
    answering d (pbufCopyPartial stack p) i =
      if i = opOffset then dhcpOffer
      else if yiaddrOffset ≤ i ∧ i < yiaddrOffset + 4 then d.ip.toList.getD (i - yiaddrOffset) 0
      else p.getD i 0 := by
  have hip : d.ip.toList.length = 4 := d.ip.length_toList
  have hlength : i < (p.take sizeofDhcpMsg).length := by
    rw [List.length_take]
    exact Nat.lt_min.mpr ⟨hi.trans (by decide), Nat.lt_of_lt_of_le hi hp⟩
  rw [answering]
  by_cases hyi : yiaddrOffset ≤ i ∧ i < yiaddrOffset + 4
  · rw [overwrite_of_mem hyi.1 (by rw [hip]; exact hyi.2), if_pos hyi,
      if_neg (Nat.ne_of_gt (Nat.lt_of_lt_of_le (by decide) hyi.1))]
  · rw [Access.overwrite, hip, if_neg hyi, if_neg hyi]
    by_cases hop : i = opOffset
    · subst hop
      rfl
    · rw [if_neg hop, overwrite_of_le (Nat.one_le_iff_ne_zero.mpr hop), pbufCopyPartial,
        overwrite_of_mem (Nat.zero_le i) (by rwa [Nat.zero_add]), Nat.sub_zero, List.getD_eq_getElem
        _ _ hlength, List.getElem_take, List.getD_eq_getElem]

theorem chaddr_answering (hp : dhcpMinSize ≤ p.length) :
    chaddr (answering d (pbufCopyPartial stack p)) = clientMac p := by
  rw [chaddr, clientMac]
  congr 1
  funext i
  have hi : chaddrOffset + i < dhcpMinSize := Nat.add_lt_add_left i.isLt _ |>.trans (by decide)
  have hop : chaddrOffset + i ≠ opOffset := Nat.ne_of_gt (Nat.lt_add_right _ (by decide))
  have hyi : ¬ (yiaddrOffset ≤ chaddrOffset + i ∧ chaddrOffset + i < yiaddrOffset + 4) := fun h =>
    absurd h.2 (Nat.not_lt.mpr (Nat.le_add_right_of_le (by decide)))
  rw [answering_apply hp hi, if_neg hop, if_neg hyi]

theorem type_answering (hp : dhcpMinSize ≤ p.length) :
    answering d (pbufCopyPartial stack p) (optOffset + 2) = msgType p := by
  rw [answering_apply hp (by decide)]
  rfl

end Packet

section Reply

variable {d : DhcpServer} {msg : Nat → UInt8} {type : UInt8} {yi : Fin dhcpsMaxIp} {i : Nat}

theorem reply_eq : reply d msg type yi =
    bytesAt (Access.overwrite msg (yiaddrOffset + 3) [dhcpsBaseIp + UInt8.ofNat yi]) 0 optOffset ++
      (Tlv.encode (options d type) ++ [dhcpOptEnd]) := by
  rw [reply, writeOptions_eq]
  exact bytesAt_overwrite _ _ _

theorem drop_reply : (reply d msg type yi).drop optOffset =
    Tlv.encode (options d type) ++ [dhcpOptEnd] := by
  rw [reply_eq, List.drop_append_of_le_length (by simp), List.drop_of_length_le (by simp),
    List.nil_append]

theorem getD_reply (hi : i < optOffset) : (reply d msg type yi).getD i 0 =
    if i = yiaddrOffset + 3 then dhcpsBaseIp + UInt8.ofNat yi else msg i := by
  rw [reply_eq, List.getD_append _ _ _ _ (by rwa [length_bytesAt]), getD_bytesAt hi]
  split
  next h => rw [h, overwrite_of_mem le_rfl (by simp), Nat.sub_self, List.getD_cons_zero]
  next h =>
    rw [Access.overwrite, if_neg]
    rw [List.length_singleton]
    omega

theorem msgType_reply : msgType (reply d msg type yi) = type := by
  have hdrop : (reply d msg type yi).drop optOffset = _ := drop_reply
  have h := congrArg (·.getD 2 0) hdrop
  rwa [List.getD_eq_getElem?_getD, List.getElem?_drop] at h

variable {stack : Nat → UInt8} {p : List UInt8}

theorem yiaddr_reply (hp : dhcpMinSize ≤ p.length) :
    yiaddr (reply d (answering d (pbufCopyPartial stack p)) type yi) = address d.ip yi := by
  apply Vector.ext
  intro i hi
  have hlt : yiaddrOffset + i < optOffset := Nat.add_lt_add_left hi _ |>.trans (by decide)
  simp only [yiaddr, address, Vector.getElem_ofFn, getD_reply hlt]
  rw [Vector.getElem_set]
  by_cases h3 : i = 3
  · subst h3
    rfl
  · have hop : yiaddrOffset + i ≠ opOffset := Nat.ne_of_gt (Nat.lt_add_right _ (by decide))
    rw [if_neg (fun h => h3 (Nat.add_left_cancel h)), if_neg (Ne.symm h3),
      answering_apply hp (hlt.trans (by decide)), if_neg hop,
      if_pos ⟨Nat.le_add_right _ _, Nat.add_lt_add_left hi _⟩, Nat.add_sub_cancel_left,
      List.getD_eq_getElem _ _ (by rwa [Vector.length_toList]), Vector.getElem_toList]

end Reply

theorem address_injective (ip : Ip4) : Function.Injective (address ip) := by
  intro yi yj h
  have h3 : dhcpsBaseIp + UInt8.ofNat yi = dhcpsBaseIp + UInt8.ofNat yj := by
    simpa only [address, Vector.getElem_set_self] using
      congrArg (fun v : Ip4 => v[3]) h
  have hn := congrArg UInt8.toNat ((UInt8.add_right_inj _).mp h3)
  rw [UInt8.toNat_ofNat', UInt8.toNat_ofNat', Nat.mod_eq_of_lt (yi.isLt.trans (by decide)),
    Nat.mod_eq_of_lt (yj.isLt.trans (by decide))] at hn
  exact Fin.ext hn

end RadProt.Dhcp
