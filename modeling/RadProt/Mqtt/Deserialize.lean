import Mathlib.Data.List.GetD
import RadProt.Mqtt.Cycle
import RadProt.Mqtt.Network

namespace RadProt.Mqtt

open RadProt.Lib

def headerDup (header : UInt8) : Nat := header.toNat / 8 % 2

def headerQos (header : UInt8) : Nat := header.toNat / 2 % 4

def headerRetain (header : UInt8) : Nat := header.toNat % 2

def readInt (buf : Nat → UInt8) (p : Nat) : Nat := 256 * (buf p).toNat + (buf (p + 1)).toNat

structure LenString where
  rc : Bool
  len : Option Nat
  data : Option Nat
  ptr : Nat
  deriving DecidableEq

def readMqttLenString (buf : Nat → UInt8) (ptr enddata : Nat) : LenString :=
  if ptr + 1 < enddata then
    let len := readInt buf ptr
    if ptr + 2 + len ≤ enddata then
      { rc := true, len := some len, data := some (ptr + 2), ptr := ptr + 2 + len }
    else { rc := false, len := some len, data := none, ptr := ptr + 2 }
  else { rc := false, len := none, data := none, ptr }

/-- What `MQTTDeserialize_publish` has set; `none` is left as it was. Pointers are offsets to the
buffer. -/
structure PublishFields where
  dup : Option Nat
  qos : Option Nat
  retained : Option Nat
  packetid : Option Nat
  topicLen : Option Nat
  topicData : Option Nat
  payload : Option Nat
  payloadlen : Option Int
  deriving DecidableEq

def PublishFields.unset : PublishFields where
  dup := none
  qos := none
  retained := none
  packetid := none
  topicLen := none
  topicData := none
  payload := none
  payloadlen := none

def mqttDeserializePublish (buf : Nat → UInt8) : Option (Int × PublishFields) :=
  if headerType (buf 0) ≠ 3 then some (0, .unset)
  else do
    let fields := { PublishFields.unset with
      dup := some (headerDup (buf 0))
      qos := some (headerQos (buf 0))
      retained := some (headerRetain (buf 0)) }
    let decoded ← mqttPacketDecodeBuf buf 1
    let curdata := 1 + decoded.1
    let enddata := curdata + decoded.2
    let topic := readMqttLenString buf curdata enddata
    let fields := { fields with topicLen := topic.len, topicData := topic.data }
    if topic.rc = false ∨ enddata < topic.ptr then return (decoded.1, fields)
    let packetid := if 0 < headerQos (buf 0) then some (readInt buf topic.ptr) else none
    let payload := if 0 < headerQos (buf 0) then topic.ptr + 2 else topic.ptr
    return (1, { fields with packetid, payload, payloadlen := some ((enddata : Int) - payload) })

structure AckFields where
  packettype : Nat
  dup : Nat
  packetid : Option Nat
  deriving DecidableEq

def mqttDeserializeAck (buf : Nat → UInt8) : Option (Int × AckFields) := do
  let fields : AckFields :=
    { packettype := headerType (buf 0), dup := headerDup (buf 0), packetid := none }
  let decoded ← mqttPacketDecodeBuf buf 1
  if decoded.2 < 2 then return (decoded.1, fields)
  return (1, { fields with packetid := some (readInt buf (1 + decoded.1)) })

def mqttDeserializeConnack (buf : Nat → UInt8) : Option (Int × Option (Nat × UInt8)) :=
  if headerType (buf 0) ≠ 2 then some (0, none)
  else do
    let decoded ← mqttPacketDecodeBuf buf 1
    if decoded.2 < 2 then return (decoded.1, none)
    return (1, some ((buf (1 + decoded.1)).toNat % 2, buf (2 + decoded.1)))

def connackResult (buf : Nat → UInt8) : Option Int := do
  let r ← mqttDeserializeConnack buf
  return if r.1 = 1 then (r.2.elim 0 fun out => out.2.toNat : Nat) else -1

section Header

theorem toNat_mqttHeader (type dup qos retain : Nat) : (mqttHeader type dup qos retain).toNat =
    type % 16 * 16 + dup % 2 * 8 + qos % 4 * 2 + retain % 2 := by
  rw [mqttHeader, UInt8.toNat_ofNat']
  omega

variable {type dup qos retain : Nat}

theorem headerType_mqttHeader : headerType (mqttHeader type dup qos retain) = type % 16 := by
  rw [headerType, toNat_mqttHeader]
  omega

theorem headerDup_mqttHeader : headerDup (mqttHeader type dup qos retain) = dup % 2 := by
  rw [headerDup, toNat_mqttHeader]
  omega

theorem headerQos_mqttHeader : headerQos (mqttHeader type dup qos retain) = qos % 4 := by
  rw [headerQos, toNat_mqttHeader]
  omega

theorem headerRetain_mqttHeader : headerRetain (mqttHeader type dup qos retain) = retain % 2 := by
  rw [headerRetain, toNat_mqttHeader]
  omega

end Header

section Buffer

variable {buf : Nat → UInt8} {p : WirePacket}

theorem holds_packet (h : Access.Holds buf 0 p.bytes) :
    buf 0 = p.header ∧
      mqttPacketDecodeBuf buf 1 = some ((mqttPacketEncode p.body.length).length, p.body.length) ∧
      Access.Holds buf (1 + (mqttPacketEncode p.body.length).length) p.body := by
  rw [WirePacket.bytes, Access.holds_cons_iff, Access.holds_append_iff, Nat.zero_add] at h
  exact ⟨h.1, mqttPacketDecodeBuf_encode p.length_lt h.2.1, h.2.2⟩

/-- Every packet is a good acknowledgement to the client; one that is too short leaves the packet
id as it was. -/
theorem mqttDeserializeAck_eq (h : Access.Holds buf 0 p.bytes) :
    mqttDeserializeAck buf = some (1,
      { packettype := headerType p.header, dup := headerDup p.header,
        packetid := if 2 ≤ p.body.length then
          some (readInt buf (1 + (mqttPacketEncode p.body.length).length)) else none }) := by
  obtain ⟨hheader, hdecode, -⟩ := holds_packet h
  rw [mqttDeserializeAck, hdecode, hheader]
  simp only [bind, Option.bind_some, pure]
  by_cases hshort : p.body.length < 2
  · rw [if_pos hshort, if_neg (Nat.not_le.mpr hshort),
      length_mqttPacketEncode (hshort.trans (by decide))]
    rfl
  · rw [if_neg hshort, if_pos (Nat.not_lt.mp hshort)]

theorem connackResult_eq (h : Access.Holds buf 0 p.bytes) (htype : headerType p.header = 2) :
    connackResult buf =
      some (if p.body.length < 2 then 0
        else ((buf (2 + (mqttPacketEncode p.body.length).length)).toNat : Int)) := by
  obtain ⟨hheader, hdecode, -⟩ := holds_packet h
  rw [connackResult, mqttDeserializeConnack, hdecode, hheader, if_neg (not_not_intro htype)]
  simp only [bind, Option.bind_some, pure]
  by_cases hshort : p.body.length < 2
  · rw [if_pos hshort, if_pos hshort, length_mqttPacketEncode (hshort.trans (by decide))]
    rfl
  · rw [if_neg hshort, if_neg hshort]
    rfl

/-- No acknowledgement is refused: one that is too short leaves the packet id unset, and a CONNACK
that is too short for a return code connects the client as one with code 0 does. -/
theorem acknowledgements_accepted (h : Access.Holds buf 0 p.bytes) :
    (∃ fields, mqttDeserializeAck buf = some (1, fields) ∧
      ((∃ id, fields.packetid = some id) ↔ 2 ≤ p.body.length)) ∧
    (headerType p.header = 2 → ∃ rc, connackResult buf = some rc ∧
      (rc = 0 ↔ p.body.length < 2 ∨ p.body.getD 1 0 = 0)) := by
  refine ⟨⟨_, mqttDeserializeAck_eq h, ?_⟩, fun htype => ⟨_, connackResult_eq h htype, ?_⟩⟩
  · by_cases hlength : 2 ≤ p.body.length
    · rw [if_pos hlength]
      exact iff_of_true ⟨_, rfl⟩ hlength
    · rw [if_neg hlength]
      exact iff_of_false (by simp) hlength
  · by_cases hshort : p.body.length < 2
    · rw [if_pos hshort]
      exact iff_of_true rfl (.inl hshort)
    · have hbody := (holds_packet h).2.2 1 (Nat.not_lt.mp hshort)
      have hcode : buf (2 + (mqttPacketEncode p.body.length).length) = p.body.getD 1 0 := by
        have hplace : 2 + (mqttPacketEncode p.body.length).length =
            1 + (mqttPacketEncode p.body.length).length + 1 := by omega
        rw [List.getD_eq_getElem _ _ (Nat.not_lt.mp hshort), hplace, hbody]
        rfl
      rw [if_neg hshort, hcode]
      simp only [hshort, false_or]
      rw [← UInt8.toNat_inj]
      exact Int.natCast_eq_zero

theorem empty_connack_connects :
    connackResult (fun i => if i = 0 then 0x20 else 0) = some 0 := by
  let p : WirePacket := ⟨0x20, [], by decide⟩
  have h : Access.Holds (fun i => if i = 0 then 0x20 else 0) 0 p.bytes := by
    rw [WirePacket.bytes, List.length_nil, mqttPacketEncode_of_lt (by decide)]
    exact Access.holds_cons_iff.mpr ⟨rfl, Access.holds_cons_iff.mpr ⟨rfl, Access.holds_nil⟩⟩
  obtain ⟨rc, hrc, hzero⟩ := (acknowledgements_accepted h).2 (by decide)
  rw [hrc, hzero.mpr (.inl (by decide))]

def WirePacket.HasTopic (p : WirePacket) : Prop :=
  2 ≤ p.body.length ∧ 2 + readInt (fun i => p.body.getD i 0) 0 ≤ p.body.length

instance : Decidable p.HasTopic := inferInstanceAs (Decidable (_ ∧ _))

theorem readInt_body (h : Access.Holds buf 0 p.bytes) {i : Nat} (hi : i + 1 < p.body.length) :
    readInt buf (1 + (mqttPacketEncode p.body.length).length + i) =
      readInt (fun i => p.body.getD i 0) i := by
  have hbody := (holds_packet h).2.2
  rw [readInt, readInt, hbody i (Nat.lt_of_succ_lt hi), Nat.add_assoc _ i 1, hbody (i + 1) hi,
    List.getD_eq_getElem _ _ (Nat.lt_of_succ_lt hi), List.getD_eq_getElem _ _ hi]
  rfl

theorem mqttDeserializePublish_eq (h : Access.Holds buf 0 p.bytes)
    (htype : headerType p.header = 3) {start : Nat}
    (hstart : start = 1 + (mqttPacketEncode p.body.length).length) (htopic : p.HasTopic) :
    mqttDeserializePublish buf = some (1,
      { dup := some (headerDup p.header)
        qos := some (headerQos p.header)
        retained := some (headerRetain p.header)
        packetid := if 0 < headerQos p.header then
          some (readInt buf (start + (2 + readInt buf start))) else none
        topicLen := some (readInt buf start)
        topicData := some (start + 2)
        payload := some (start + (2 + readInt buf start +
          if 0 < headerQos p.header then 2 else 0))
        payloadlen := some ((p.body.length : Int) - (2 + readInt buf start +
          if 0 < headerQos p.header then 2 else 0 : Nat)) }) := by
  obtain ⟨hheader, hdecode, -⟩ := holds_packet h
  obtain ⟨hlength, hle⟩ := htopic
  have hint : readInt buf start = readInt (fun i => p.body.getD i 0) 0 := by
    have hbody := readInt_body h (i := 0) hlength
    rwa [Nat.add_zero, ← hstart] at hbody
  have hroom : start + 1 < start + p.body.length := by omega
  have hend : start + 2 + readInt buf start ≤ start + p.body.length := by omega
  rw [mqttDeserializePublish, hdecode, hheader, if_neg (not_not_intro htype)]
  simp only [bind, Option.bind_some, pure, ← hstart]
  rw [readMqttLenString, if_pos hroom, if_pos hend]
  have hcontinue : ¬ (true = false ∨ start + p.body.length < start + 2 + readInt buf start) :=
    fun hor => hor.elim (fun h => Bool.noConfusion h) (Nat.not_lt.mpr hend)
  rw [if_neg hcontinue]
  by_cases hqos : 0 < headerQos p.header
  · simp only [if_pos hqos, Nat.add_assoc]
    congr 4
    omega
  · simp only [if_neg hqos, Nat.add_assoc, Nat.add_zero]
    congr 4
    omega

theorem readMqttLenString_of_not (h : Access.Holds buf 0 p.bytes) {start : Nat}
    (hstart : start = 1 + (mqttPacketEncode p.body.length).length) (htopic : ¬ p.HasTopic) :
    (readMqttLenString buf start (start + p.body.length)).rc = false ∧
      (readMqttLenString buf start (start + p.body.length)).data = none := by
  rw [readMqttLenString]
  by_cases hlength : 2 ≤ p.body.length
  · have hint := readInt_body h (i := 0) hlength
    rw [Nat.add_zero, ← hstart] at hint
    have hlong : ¬ 2 + readInt (fun i => p.body.getD i 0) 0 ≤ p.body.length :=
      fun hle => htopic ⟨hlength, hle⟩
    have hend : ¬ start + 2 + readInt buf start ≤ start + p.body.length := by omega
    rw [if_pos (by omega), if_neg hend]
    exact ⟨rfl, rfl⟩
  · rw [if_neg (by omega)]
    exact ⟨rfl, rfl⟩

theorem mqttDeserializePublish_of_not (h : Access.Holds buf 0 p.bytes)
    (htype : headerType p.header = 3) (htopic : ¬ p.HasTopic) :
    ∃ fields, mqttDeserializePublish buf =
        some (((mqttPacketEncode p.body.length).length : Int), fields) ∧
      fields.topicData = none ∧ fields.payload = none ∧ fields.payloadlen = none := by
  obtain ⟨hheader, hdecode, -⟩ := holds_packet h
  obtain ⟨hrc, hdata⟩ := readMqttLenString_of_not h rfl htopic
  rw [mqttDeserializePublish, hdecode, hheader, if_neg (not_not_intro htype)]
  simp only [bind, Option.bind_some, pure]
  rw [if_pos (.inl hrc)]
  exact ⟨_, rfl, hdata, rfl, rfl⟩

/-- Reading a packet as a PUBLISH succeeds on the packets of that type that have their topic, and on
those that have less than 128 bytes; only the former set topic and payload. The length of the
payload is negative where a packet identifier is missing. -/
theorem publish_success_iff (h : Access.Holds buf 0 p.bytes) :
    ∃ rc fields, mqttDeserializePublish buf = some (rc, fields) ∧
      (rc = 1 ↔ headerType p.header = 3 ∧ (p.HasTopic ∨ p.body.length < 128)) ∧
      ((∃ data, fields.topicData = some data) ↔ headerType p.header = 3 ∧ p.HasTopic) ∧
      ((∃ n < (0 : Int), fields.payloadlen = some n) ↔
        headerType p.header = 3 ∧ p.HasTopic ∧ 0 < headerQos p.header ∧
          p.body.length < 4 + readInt (fun i => p.body.getD i 0) 0) := by
  by_cases htype : headerType p.header = 3
  · by_cases htopic : p.HasTopic
    · have hint := readInt_body h (i := 0) htopic.1
      rw [Nat.add_zero] at hint
      have hle := htopic.2
      rw [mqttDeserializePublish_eq h htype rfl htopic, hint]
      refine ⟨1, _, rfl, iff_of_true rfl ⟨htype, .inl htopic⟩,
        iff_of_true ⟨_, rfl⟩ ⟨htype, htopic⟩, ?_⟩
      by_cases hqos : 0 < headerQos p.header
      · simp only [htype, htopic, hqos, if_true, true_and, Option.some.injEq]
        constructor
        · rintro ⟨n, hn, rfl⟩
          omega
        · intro hshort
          exact ⟨_, by omega, rfl⟩
      · simp only [hqos, if_false, false_and, and_false, iff_false, Option.some.injEq]
        rintro ⟨n, hn, rfl⟩
        omega
    · obtain ⟨fields, heq, hdata, -, hlen⟩ := mqttDeserializePublish_of_not h htype htopic
      refine ⟨_, fields, heq, ?_, ?_, ?_⟩
      · have hone : ((mqttPacketEncode p.body.length).length : Int) = 1 ↔ p.body.length < 128 := by
          rw [← length_mqttPacketEncode_eq_one_iff]
          omega
        rw [hone]
        exact ⟨fun hlt => ⟨htype, .inr hlt⟩, fun hor => hor.2.resolve_left htopic⟩
      · rw [hdata]
        exact iff_of_false (by simp) fun h => htopic h.2
      · rw [hlen]
        exact iff_of_false (by simp) fun h => htopic h.2.1
  · have hheader := (holds_packet h).1
    rw [mqttDeserializePublish, hheader, if_pos htype]
    exact ⟨0, _, rfl, iff_of_false (by decide) fun h => htype h.1,
      iff_of_false (by simp [PublishFields.unset]) fun h => htype h.1,
      iff_of_false (by simp [PublishFields.unset]) fun h => htype h.1⟩

theorem short_publish_success : ∃ fields,
    mqttDeserializePublish (fun i => if i = 0 then 0x30 else if i = 1 then 1 else 0) =
      some (1, fields) ∧ fields.topicData = none := by
  let p : WirePacket := ⟨0x30, [0], by decide⟩
  have h : Access.Holds (fun i => if i = 0 then 0x30 else if i = 1 then 1 else 0) 0 p.bytes := by
    rw [WirePacket.bytes, List.length_singleton, mqttPacketEncode_of_lt (by decide)]
    exact Access.holds_cons_iff.mpr ⟨rfl, Access.holds_cons_iff.mpr
      ⟨rfl, Access.holds_cons_iff.mpr ⟨rfl, Access.holds_nil⟩⟩⟩
  obtain ⟨rc, fields, heq, hrc, hdata, -⟩ := publish_success_iff h
  refine ⟨fields, ?_, ?_⟩
  · rw [heq, hrc.mpr ⟨by decide, .inr (by decide)⟩]
  · cases htopic : fields.topicData with
    | none => rfl
    | some data => exact absurd (hdata.mp ⟨data, htopic⟩).2 (by decide)

end Buffer

end RadProt.Mqtt
