import RadProt.Mqtt.Deserialize

namespace RadProt.Mqtt

open RadProt.Lib

section Strings

variable {buf : Nat → UInt8} {a n : Nat}

theorem readInt_of_holds (h : Access.Holds buf a (writeInt n)) (hn : n < 65536) :
    readInt buf a = n := by
  obtain ⟨hhigh, hlow⟩ := Access.holds_cons_iff.mp h
  have hlow := (Access.holds_cons_iff.mp hlow).1
  rw [readInt, hhigh, hlow, UInt8.toNat_ofNat', UInt8.toNat_ofNat']
  omega

theorem writeMqttString_ofCString (s : List UInt8) :
    writeMqttString (.ofCString s) = writeInt (cString s).length ++ cString s := rfl

end Strings

section Publish

variable {buflen dup qos retained packetid : Nat} {topic payload packet : List UInt8}

def publishBody (qos packetid : Nat) (topic payload : List UInt8) : List UInt8 :=
  writeInt (cString topic).length ++
    (cString topic ++ ((if 0 < qos then writeInt packetid else []) ++ payload))

theorem length_publishBody : (publishBody qos packetid topic payload).length =
    mqttSerializePublishLength qos (.ofCString topic) payload.length := by
  rw [publishBody, mqttSerializePublishLength, mqttStrlen_ofCString]
  simp only [List.length_append, length_writeInt, apply_ite List.length, List.length_nil]
  omega

theorem mqttSerializePublish_eq_some (h : mqttSerializePublish buflen dup qos retained packetid
    (.ofCString topic) payload = some packet) :
    packet = mqttHeader 3 dup qos retained ::
      (mqttPacketEncode (publishBody qos packetid topic payload).length ++
        publishBody qos packetid topic payload) := by
  rw [mqttSerializePublish] at h
  split at h
  next => cases h
  next =>
    rw [← Option.some.inj h, length_publishBody, publishBody, writeMqttString_ofCString]
    simp only [List.cons_append, List.append_assoc]

/-- A message that is serialised and read back: the packet is read whole, however the network cuts
it, and its fields are those of the message. -/
theorem published_read_back {size : Nat} (hpacket : mqttSerializePublish buflen dup qos retained
      packetid (.ofCString topic) payload = some packet)
    (hflags : dup < 2 ∧ qos < 4 ∧ retained < 2) (hid : packetid < 65536)
    (htopic : (cString topic).length < 65536) (hfits : packet.length ≤ size)
    (hsize : size ≤ 128 ^ 4) :
    Delivers (readPacket size) packet ⟨3, packet⟩ ∧
    ∀ buf, Access.Holds buf 0 packet → ∃ topicData payloadData,
      mqttDeserializePublish buf = some (1,
        { dup := some dup
          qos := some qos
          retained := some retained
          packetid := if 0 < qos then some packetid else none
          topicLen := some (cString topic).length
          topicData := some topicData
          payload := some payloadData
          payloadlen := some payload.length }) ∧
      Access.Holds buf topicData (cString topic) ∧ Access.Holds buf payloadData payload := by
  obtain ⟨hdup, hqos, hretained⟩ := hflags
  have heq := mqttSerializePublish_eq_some hpacket
  have hlt : (publishBody qos packetid topic payload).length < 128 ^ 4 := by
    rw [heq, List.length_cons, List.length_append] at hfits
    omega
  let p : WirePacket := ⟨mqttHeader 3 dup qos retained, publishBody qos packetid topic payload, hlt⟩
  have hbytes : packet = p.bytes := heq
  have htype : headerType p.header = 3 := headerType_mqttHeader
  subst hbytes
  refine ⟨?_, fun buf hbuf => ?_⟩
  · have hread := Delivers.readPacket p (Nat.lt_of_le_of_lt hsize (by decide)) hfits
    rwa [htype] at hread
  · have hbody := (holds_packet hbuf).2.2
    obtain ⟨start, hstart⟩ : ∃ start, start = 1 + (mqttPacketEncode p.body.length).length :=
      ⟨_, rfl⟩
    rw [← hstart] at hbody
    obtain ⟨hlengthAt, hrest⟩ := Access.holds_append_iff.mp hbody
    obtain ⟨htopicAt, hrest⟩ := Access.holds_append_iff.mp hrest
    obtain ⟨hidAt, hpayloadAt⟩ := Access.holds_append_iff.mp hrest
    rw [length_writeInt] at htopicAt hidAt hpayloadAt
    have hlength : p.body.length = 2 + (cString topic).length + (if 0 < qos then 2 else 0) +
        payload.length := by
      change (publishBody qos packetid topic payload).length = _
      rw [length_publishBody, mqttSerializePublishLength, mqttStrlen_ofCString]
      omega
    have hint : readInt buf start = (cString topic).length := readInt_of_holds hlengthAt htopic
    have hbodyInt := readInt_body hbuf (i := 0) (by omega)
    rw [Nat.add_zero, ← hstart, hint] at hbodyInt
    have hhas : p.HasTopic := ⟨by omega, by omega⟩
    refine ⟨start + 2, _, ?_, htopicAt, hpayloadAt⟩
    rw [mqttDeserializePublish_eq hbuf htype hstart hhas, hint]
    have hheader : headerDup p.header = dup ∧ headerQos p.header = qos ∧
        headerRetain p.header = retained :=
      ⟨headerDup_mqttHeader.trans (Nat.mod_eq_of_lt hdup),
        headerQos_mqttHeader.trans (Nat.mod_eq_of_lt hqos),
        headerRetain_mqttHeader.trans (Nat.mod_eq_of_lt hretained)⟩
    rw [hheader.1, hheader.2.1, hheader.2.2, hlength]
    by_cases hzero : 0 < qos
    · rw [if_pos hzero] at hidAt
      have hidInt := readInt_of_holds hidAt hid
      simp only [if_pos hzero, length_writeInt, Nat.add_assoc] at hidInt ⊢
      rw [hidInt]
      congr 4
      omega
    · simp only [if_neg hzero, List.length_nil, Nat.add_zero, Nat.add_assoc]
      congr 4
      omega

theorem reading_read_back : ∃ packet,
    mqttSerializePublish 80 0 1 0 7 (.ofCString (ascii "r/1")) (ascii "7.22") = some packet ∧
      Delivers (readPacket 80) packet ⟨3, packet⟩ := by
  have hsome : (mqttSerializePublish 80 0 1 0 7 (.ofCString (ascii "r/1"))
      (ascii "7.22")).isSome = true := by
    rw [mqttSerializePublish_isSome_iff]
    decide
  obtain ⟨packet, hpacket⟩ := Option.isSome_iff_exists.mp hsome
  have hlength : packet.length ≤ 80 := by
    rw [mqttSerializePublish_eq_some hpacket, List.length_cons, List.length_append,
      length_mqttPacketEncode (by decide)]
    decide
  exact ⟨packet, hpacket, (published_read_back hpacket (by decide) (by decide) (by decide) hlength
    (by decide)).1⟩

end Publish

end RadProt.Mqtt
