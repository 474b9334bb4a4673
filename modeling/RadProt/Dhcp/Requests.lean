import RadProt.Dhcp.Messages

namespace RadProt.Dhcp

open RadProt.Lib

structure HasOptions (p : List UInt8) (es : List Tlv.Entry) : Prop where
  bytes : ∃ header rest, header.length = optOffset ∧
    p = header ++ (Tlv.encode es ++ dhcpOptEnd :: rest)
  fits : optOffset + (Tlv.encode es).length < sizeofDhcpMsg
  wellFormed : ∀ e ∈ es, e.WellFormed dhcpOptPad dhcpOptEnd

structure IsRequest (p : List UInt8) (ip : Ip4) : Prop where
  options : ∃ es, HasOptions p (⟨dhcpOptMsgType, [dhcpRequest]⟩ :: es) ∧
    es.find? (·.tag = dhcpOptRequestedIp) = some ⟨dhcpOptRequestedIp, ip.toList⟩

section Options

variable {d : DhcpServer} {stack : Nat → UInt8} {p : List UInt8} {es : List Tlv.Entry}

theorem length_le_encode (es : List Tlv.Entry) : es.length ≤ (Tlv.encode es).length := by
  induction es with
  | nil => exact le_rfl
  | cons e es ih =>
    rw [Tlv.encode_cons, List.length_append, Tlv.Entry.length_bytes, List.length_cons]
    omega

theorem HasOptions.holds (h : HasOptions p es) (d : DhcpServer) (stack : Nat → UInt8) :
    Access.Holds (fun i => answering d (pbufCopyPartial stack p) (optOffset + i)) 0
      (Tlv.encode es ++ [dhcpOptEnd]) := by
  obtain ⟨header, rest, hheader, hp⟩ := h.bytes
  have hfits := h.fits
  have hisPrefix : header ++ (Tlv.encode es ++ [dhcpOptEnd]) <+: p.take sizeofDhcpMsg := by
    rw [List.prefix_take_iff, hp]
    refine ⟨⟨rest, by simp⟩, ?_⟩
    simp only [List.length_append, List.length_singleton, hheader]
    exact hfits
  have hall := (Access.holds_overwrite stack 0 _).of_isPrefix hisPrefix
  rw [Access.holds_append_iff, hheader, Nat.zero_add] at hall
  have hcopy : Access.Holds (pbufCopyPartial stack p) optOffset
      (Tlv.encode es ++ [dhcpOptEnd]) := hall.2
  intro i hi
  rw [Nat.zero_add]
  refine (hcopy.overwrite ?_).overwrite ?_ i hi
  · exact .inr (by decide)
  · exact .inr (by rw [Vector.length_toList]; decide)

theorem HasOptions.optFind_eq (h : HasOptions p es) (cmd : UInt8) :
    optFind (fun i => answering d (pbufCopyPartial stack p) (optOffset + i)) cmd =
      if ∃ e ∈ es, e.tag = cmd then some (Tlv.offset es cmd) else none := by
  have hfits : optOffset + (Tlv.encode es).length < optOffset + 308 := h.fits
  have hsize := Nat.lt_of_add_lt_add_left hfits
  rw [optFind, Tlv.find_encode (h.holds d stack) (fun e he => (h.wellFormed e he).2)
    (by rw [Nat.zero_add]; exact hsize.le) (Nat.lt_of_le_of_lt (length_le_encode es) hsize),
    Nat.zero_add]

theorem HasOptions.length_le (h : HasOptions p es) (hes : es ≠ []) : dhcpMinSize ≤ p.length := by
  obtain ⟨header, rest, hheader, rfl⟩ := h.bytes
  cases es with
  | nil => exact absurd rfl hes
  | cons e es =>
    rw [List.length_append, hheader, Tlv.encode_cons]
    simp only [List.length_append, Tlv.Entry.length_bytes, List.length_cons, optOffset,
      optionsOffset, dhcpMinSize]
    omega

end Options

section Request

variable {d : DhcpServer} {stack : Nat → UInt8} {p : List UInt8} {ip : Ip4}
  {yi : Fin dhcpsMaxIp}

theorem IsRequest.length_le (h : IsRequest p ip) : dhcpMinSize ≤ p.length := by
  obtain ⟨es, hes, -⟩ := h.options
  exact hes.length_le (List.cons_ne_nil _ _)

theorem IsRequest.msgType_eq (h : IsRequest p ip) : msgType p = dhcpRequest := by
  obtain ⟨es, hes, -⟩ := h.options
  obtain ⟨header, rest, hheader, rfl⟩ := hes.bytes
  rw [msgType, List.getD_append_right _ _ _ _ (by rw [hheader]; exact Nat.le_add_right _ _),
    hheader, Nat.add_sub_cancel_left]
  rfl

theorem IsRequest.found (h : IsRequest p ip) (d : DhcpServer) (stack : Nat → UInt8) :
    ∃ o, optFind (fun i => answering d (pbufCopyPartial stack p) (optOffset + i))
        dhcpOptRequestedIp = some o ∧
      Access.Holds (answering d (pbufCopyPartial stack p)) (optOffset + o + 2) ip.toList := by
  obtain ⟨es, hes, hfind⟩ := h.options
  have hfind' : (⟨dhcpOptMsgType, [dhcpRequest]⟩ :: es).find? (·.tag = dhcpOptRequestedIp) =
      some ⟨dhcpOptRequestedIp, ip.toList⟩ := hfind
  have hmem := List.mem_of_find?_eq_some hfind'
  refine ⟨_, by rw [hes.optFind_eq, if_pos ⟨_, hmem, rfl⟩], fun i hi => ?_⟩
  have hentry := Tlv.holds_offset (hes.holds d stack) hfind' (i + 2)
    (Nat.add_lt_add_right hi 2)
  rw [Nat.zero_add] at hentry
  rw [Nat.add_assoc, Nat.add_assoc, Nat.add_comm 2]
  exact hentry

theorem IsRequest.requested_eq (h : IsRequest p (address d.ip yi)) :
    requested d (answering d (pbufCopyPartial stack p)) = some yi := by
  obtain ⟨o, ho, hip⟩ := h.found d stack
  have hlength : (address d.ip yi).toList.length = 4 := Vector.length_toList
  have hprefix : bytesAt (answering d (pbufCopyPartial stack p)) (optOffset + o + 2) 3 =
      d.ip.toList.take 3 := by
    apply List.ext_getElem (by simp)
    intro i hi _
    rw [length_bytesAt] at hi
    have hi4 : i < 4 := Nat.lt_succ_of_lt hi
    simp only [bytesAt, List.getElem_map, List.getElem_range, List.getElem_take,
      Vector.getElem_toList]
    rw [hip i (by rw [hlength]; exact hi4)]
    simp only [List.get_eq_getElem, Vector.getElem_toList, address]
    rw [Vector.getElem_set_ne _ _ (Nat.ne_of_gt hi)]
  have hlast : answering d (pbufCopyPartial stack p) (optOffset + o + 5) =
      dhcpsBaseIp + UInt8.ofNat yi := by
    have h3 := hip 3 (by rw [hlength]; decide)
    rw [Nat.add_assoc] at h3
    rw [h3]
    simp only [List.get_eq_getElem, Vector.getElem_toList, address, Vector.getElem_set_self]
  have hyi : (dhcpsBaseIp + UInt8.ofNat yi - dhcpsBaseIp).toNat = yi := by
    rw [UInt8.add_comm, UInt8.add_sub_cancel, UInt8.toNat_ofNat',
      Nat.mod_eq_of_lt (yi.isLt.trans (by decide))]
  rw [requested, ho, Option.bind_some, if_neg (not_not_intro hprefix), hlast]
  simp only [hyi, yi.isLt, dif_pos]

end Request

end RadProt.Dhcp
