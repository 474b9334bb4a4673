import RadProt.Dhcp.Protocol

namespace RadProt.Dhcp

open RadProt.Lib

section Scan

variable {d d' : DhcpServer} {e : Exchange}

theorem msgType_of_outcome {lease : LeaseTable} {type : UInt8} {yi : Fin dhcpsMaxIp}
    {stack : Nat → UInt8} {p : List UInt8} {ticks : Nat → UInt32} (hp : dhcpMinSize ≤ p.length)
    (h : dhcpSwitch d ticks (answering d (pbufCopyPartial stack p)) = (lease, some (type, yi))) :
    msgType p = dhcpDiscover ∧ type = dhcpOffer ∨ msgType p = dhcpRequest ∧ type = dhcpAck := by
  rw [dhcpSwitch, type_answering hp] at h
  split at h
  next hdiscover =>
    obtain ⟨yj, -, heq⟩ := Option.map_eq_some_iff.mp (Prod.mk.inj h).2
    exact .inl ⟨hdiscover, (Prod.mk.inj heq).1.symm⟩
  next =>
    split at h
    next hrequest =>
      refine .inr ⟨hrequest, ?_⟩
      cases hyj : requested d (answering d (pbufCopyPartial stack p)) with
      | none =>
        rw [hyj] at h
        cases (Prod.mk.inj h).2
      | some yj =>
        rw [hyj, Option.elim_some] at h
        split at h
        next => exact (Prod.mk.inj (Option.some.inj (Prod.mk.inj h).2)).1.symm
        next => cases (Prod.mk.inj h).2
    next => cases (Prod.mk.inj h).2

theorem reply_of_serves (h : Serves d e d') {q : List UInt8} (hq : e.reply = some q) :
    dhcpMinSize ≤ e.packet.length ∧ ∃ type yi,
      (msgType e.packet = dhcpDiscover ∧ type = dhcpOffer ∨
        msgType e.packet = dhcpRequest ∧ type = dhcpAck) ∧
      q = reply d (answering d (pbufCopyPartial e.stack e.packet)) type yi := by
  rw [Serves, dhcpServerProcess] at h
  split at h
  next => rw [hq] at h; cases (Prod.mk.inj h).2
  next hlength =>
    have hp := Nat.not_lt.mp hlength
    have hreply : Option.map _ (dhcpSwitch d e.ticks _).2 = e.reply := (Prod.mk.inj h).2
    rw [hq] at hreply
    obtain ⟨⟨type, yi⟩, ho, rfl⟩ := Option.map_eq_some_iff.mp hreply
    exact ⟨hp, type, yi, msgType_of_outcome hp (Prod.ext rfl ho), rfl⟩

end Scan

section WellFormed

structure IsReply (d : DhcpServer) (p q : List UInt8) (type : UInt8) (yi : Fin dhcpsMaxIp) :
    Prop where
  header : ∀ i < optOffset, q.getD i 0 =
    if i = opOffset then dhcpOffer
    else if yiaddrOffset ≤ i ∧ i < yiaddrOffset + 4 then
      (address d.ip yi).toList.getD (i - yiaddrOffset) 0
    else p.getD i 0
  options : Tlv.decode dhcpOptPad dhcpOptEnd q.length (q.drop optOffset) = some (options d type)
  fits : q.length ≤ sizeofDhcpMsg

variable {d d' : DhcpServer} {e : Exchange} {type : UInt8} {yi : Fin dhcpsMaxIp}
  {stack : Nat → UInt8} {p : List UInt8}

theorem wellFormed_of_tag {tag : UInt8} {value : List UInt8}
    (htag : tag ≠ dhcpOptPad ∧ tag ≠ dhcpOptEnd) (h : value.length < 256) :
    (⟨tag, value⟩ : Tlv.Entry).WellFormed dhcpOptPad dhcpOptEnd :=
  ⟨htag.1, htag.2, h⟩

theorem options_wellFormed (hname : ∀ name ∈ d.domainName, name.length < 256) :
    ∀ o ∈ options d type, o.WellFormed dhcpOptPad dhcpOptEnd := by
  have hip : d.ip.toList.length < 256 := by rw [Vector.length_toList]; decide
  have hnm : d.nm.toList.length < 256 := by rw [Vector.length_toList]; decide
  intro o ho
  simp only [options, List.mem_append, List.mem_cons, List.not_mem_nil, or_false] at ho
  rcases ho with ((rfl | rfl | rfl | rfl | rfl) | ho) | rfl
  · exact wellFormed_of_tag (by decide) (by rw [List.length_singleton]; decide)
  · exact wellFormed_of_tag (by decide) hip
  · exact wellFormed_of_tag (by decide) hnm
  · exact wellFormed_of_tag (by decide) hip
  · exact wellFormed_of_tag (by decide) hip
  · cases hdomain : d.domainName with
    | none =>
      rw [hdomain] at ho
      cases ho
    | some name =>
      rw [hdomain] at ho
      rw [List.mem_singleton.mp ho]
      exact wellFormed_of_tag (by decide) (hname name (Option.mem_def.mpr hdomain))
  · exact wellFormed_of_tag (by decide) (by decide)

theorem length_encode_options (hname : ∀ name ∈ d.domainName, name.length < 256) :
    (Tlv.encode (options d type)).length < 308 := by
  have hip : d.ip.toList.length = 4 := Vector.length_toList
  have hnm : d.nm.toList.length = 4 := Vector.length_toList
  cases hdomain : d.domainName with
  | none =>
    simp only [options, hdomain, Option.elim_none, Tlv.encode_append, Tlv.encode_cons,
      Tlv.encode_nil, List.length_append, Tlv.Entry.length_bytes, List.length_cons, List.length_nil,
      hip, hnm]
    decide
  | some name =>
    have hlength := hname name (Option.mem_def.mpr hdomain)
    simp only [options, hdomain, Option.elim_some, Tlv.encode_append, Tlv.encode_cons,
      Tlv.encode_nil, List.length_append, Tlv.Entry.length_bytes, List.length_cons, List.length_nil,
      hip, hnm]
    omega

theorem length_reply (msg : Nat → UInt8) :
    (reply d msg type yi).length = optOffset + ((Tlv.encode (options d type)).length + 1) := by
  rw [reply_eq, List.length_append, length_bytesAt, List.length_append, List.length_singleton]

theorem isReply_reply (hp : dhcpMinSize ≤ p.length)
    (hname : ∀ name ∈ d.domainName, name.length < 256) :
    IsReply d p (reply d (answering d (pbufCopyPartial stack p)) type yi) type yi := by
  have hoptions : (Tlv.encode (options d type)).length < 308 := length_encode_options hname
  refine ⟨fun i hi => ?_, ?_, ?_⟩
  · have hlt : i < dhcpMinSize := hi.trans (by decide)
    rw [getD_reply hi, answering_apply hp hlt]
    by_cases hyi : yiaddrOffset ≤ i ∧ i < yiaddrOffset + 4
    · obtain ⟨k, rfl⟩ := Nat.exists_eq_add_of_le hyi.1
      have hk : k < 4 := Nat.lt_of_add_lt_add_left hyi.2
      have hop : yiaddrOffset + k ≠ opOffset := Nat.ne_of_gt (Nat.lt_add_right _ (by decide))
      rw [if_neg hop, if_neg hop, if_pos hyi, if_pos hyi, Nat.add_sub_cancel_left,
        List.getD_eq_getElem _ _ (by rwa [Vector.length_toList]),
        List.getD_eq_getElem _ _ (by rwa [Vector.length_toList]), Vector.getElem_toList,
        Vector.getElem_toList, address, Vector.getElem_set]
      simp only [Nat.add_left_cancel_iff, eq_comm]
    · have h3 : i ≠ yiaddrOffset + 3 := fun h => hyi ⟨by omega, by omega⟩
      rw [if_neg h3, if_neg hyi, if_neg hyi]
  · rw [drop_reply]
    refine Tlv.decode_encode (options_wellFormed hname) [] ?_
    rw [length_reply]
    have hle := length_le_encode (options d type)
    omega
  · rw [length_reply]
    exact Nat.add_le_add_left hoptions optOffset

/-- Every reply is well formed: it answers a `DHCPDISCOVER` with an offer or a `DHCPREQUEST` with an
acknowledgement, returns the packet's header with an address of the server's, and its options read
back. -/
theorem replies_wellFormed (h : Serves d e d') (hname : ∀ name ∈ d.domainName, name.length < 256)
    {q : List UInt8} (hq : e.reply = some q) : ∃ type yi,
      (msgType e.packet = dhcpDiscover ∧ type = dhcpOffer ∨
        msgType e.packet = dhcpRequest ∧ type = dhcpAck) ∧
      IsReply d e.packet q type yi := by
  obtain ⟨hp, type, yi, htype, rfl⟩ := reply_of_serves h hq
  exact ⟨type, yi, htype, isReply_reply hp hname⟩

theorem offer_wellFormed : ∃ q type yi,
    (Exchange.on sampleServer 5 (sampleDiscover 7)).reply = some q ∧
      IsReply sampleServer (sampleDiscover 7) q type yi := by
  obtain ⟨q, hq, -⟩ : (Exchange.on sampleServer 5 (sampleDiscover 7)).Gives dhcpOffer
    #v[192, 168, 4, 16] := by decide +kernel
  obtain ⟨type, yi, -, hreply⟩ := replies_wellFormed (serves_on sampleServer 5 (sampleDiscover 7))
    (fun _ h => by cases h) hq
  exact ⟨q, type, yi, hq, hreply⟩

end WellFormed

section Stack

/-! The memory under the local message. -/

variable {d : DhcpServer} {stack stack' : Nat → UInt8} {p : List UInt8} {es : List Tlv.Entry}
  {type : UInt8} {yi : Fin dhcpsMaxIp}

theorem answering_congr (hp : dhcpMinSize ≤ p.length) {i : Nat} (hi : i < dhcpMinSize) :
    answering d (pbufCopyPartial stack p) i = answering d (pbufCopyPartial stack' p) i := by
  rw [answering_apply hp hi, answering_apply hp hi]

theorem reply_congr (hp : dhcpMinSize ≤ p.length) :
    reply d (answering d (pbufCopyPartial stack p)) type yi =
      reply d (answering d (pbufCopyPartial stack' p)) type yi := by
  rw [reply_eq, reply_eq]
  congr 1
  refine List.map_congr_left fun i hi => ?_
  have hlt : 0 + i < dhcpMinSize := by
    rw [Nat.zero_add]
    exact (List.mem_range.mp hi).trans (by decide)
  rw [Access.overwrite, Access.overwrite, answering_congr hp hlt]

theorem HasOptions.requested_congr (h : HasOptions p es)
    (hip : ∀ e ∈ es, e.tag = dhcpOptRequestedIp → 4 ≤ e.value.length) :
    requested d (answering d (pbufCopyPartial stack p)) =
      requested d (answering d (pbufCopyPartial stack' p)) := by
  rw [requested, requested, h.optFind_eq, h.optFind_eq]
  split
  next hex =>
    obtain ⟨e, he⟩ := Option.isSome_iff_exists.mp
      (List.find?_isSome.mpr (by simpa using hex) :
        (es.find? (·.tag = dhcpOptRequestedIp)).isSome)
    have hlength := hip e (List.mem_of_find?_eq_some he) (by simpa using List.find?_some he)
    have hbyte (k : Nat) (hk : k < 4) (stack : Nat → UInt8) :
        answering d (pbufCopyPartial stack p)
          (optOffset + Tlv.offset es dhcpOptRequestedIp + 2 + k) = e.value.getD k 0 := by
      have hentry := Tlv.holds_offset (h.holds d stack) he (k + 2)
        (Nat.add_lt_add_right (Nat.lt_of_lt_of_le hk hlength) 2)
      rw [Nat.zero_add] at hentry
      rw [Nat.add_assoc, Nat.add_assoc, Nat.add_comm 2, List.getD_eq_getElem _ _
        (Nat.lt_of_lt_of_le hk hlength)]
      exact hentry
    have hprefix (stack : Nat → UInt8) : bytesAt (answering d (pbufCopyPartial stack p))
        (optOffset + Tlv.offset es dhcpOptRequestedIp + 2) 3 =
          (List.range 3).map fun k => e.value.getD k 0 := by
      refine List.map_congr_left fun k hk => hbyte k ?_ stack
      exact (List.mem_range.mp hk).trans (by decide)
    have hlast (stack : Nat → UInt8) := hbyte 3 (by decide) stack
    rw [Option.bind_some, Option.bind_some, hprefix stack, hprefix stack', hlast stack,
      hlast stack']
  next => rfl

/-- What the server does depends on the packet only, if it is no request, or one with its options
complete; and the bytes of a reply are the packet's and the server's in any case. -/
theorem stack_independent (d : DhcpServer) (ticks : Nat → UInt32) (p : List UInt8)
    (stack stack' : Nat → UInt8) :
    ((msgType p ≠ dhcpRequest ∨ ∃ es, HasOptions p es ∧
        ∀ e ∈ es, e.tag = dhcpOptRequestedIp → 4 ≤ e.value.length) →
      dhcpServerProcess d ticks stack p = dhcpServerProcess d ticks stack' p) ∧
    ∀ q q', (dhcpServerProcess d ticks stack p).2 = some q →
      (dhcpServerProcess d ticks stack' p).2 = some q' → yiaddr q = yiaddr q' → q = q' := by
  rw [dhcpServerProcess, dhcpServerProcess]
  split
  next => exact ⟨fun _ => rfl, fun _ _ hq => by cases hq⟩
  next hlength =>
    have hp := Nat.not_lt.mp hlength
    refine ⟨fun h => ?_, fun q q' hq hq' hyi => ?_⟩
    · have hswitch : dhcpSwitch d ticks (answering d (pbufCopyPartial stack p)) =
          dhcpSwitch d ticks (answering d (pbufCopyPartial stack' p)) := by
        rw [dhcpSwitch, dhcpSwitch, type_answering hp, type_answering hp, chaddr_answering hp,
          chaddr_answering hp]
        rcases h with h | ⟨es, hes, hip⟩
        · rw [if_neg h, if_neg h]
        · rw [hes.requested_congr hip]
      simp only [hswitch]
      congr 1
      refine Option.map_congr fun r _ => reply_congr hp
    · obtain ⟨⟨type, yi⟩, ho, rfl⟩ := Option.map_eq_some_iff.mp hq
      obtain ⟨⟨type', yi'⟩, ho', rfl⟩ := Option.map_eq_some_iff.mp hq'
      dsimp only at hyi ⊢
      rw [yiaddr_reply hp, yiaddr_reply hp] at hyi
      obtain rfl := address_injective _ hyi
      have htype := msgType_of_outcome hp (Prod.ext rfl ho)
      have htype' := msgType_of_outcome hp (Prod.ext rfl ho')
      have hsame : type = type' := by
        rcases htype with ⟨h, rfl⟩ | ⟨h, rfl⟩
        · rcases htype' with ⟨-, rfl⟩ | ⟨h', -⟩
          · rfl
          · exact absurd (h.symm.trans h') (by decide)
        · rcases htype' with ⟨h', -⟩ | ⟨-, rfl⟩
          · exact absurd (h.symm.trans h') (by decide)
          · rfl
      rw [hsame]
      exact reply_congr hp

end Stack

end RadProt.Dhcp
