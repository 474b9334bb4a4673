import RadProt.Mqtt.Handlers
import RadProt.Mqtt.RoundTrip

namespace RadProt.Mqtt

open RadProt.Lib

/-- `MQTTSerialize_ack` into `buflen` bytes; `none` for `MQTTPACKET_BUFFER_TOO_SHORT`. -/
def mqttSerializeAck (buflen packettype dup packetid : Nat) : Option (List UInt8) :=
  if buflen < 4 then none
  else
    some (mqttHeader packettype dup (if packettype = 6 then 1 else 0) 0 ::
      (mqttPacketEncode 2 ++ writeInt packetid))

def slice (buf : Nat → UInt8) (start length : Nat) : List UInt8 :=
  (List.range length).map fun i => buf (start + i)

/-- The topic and the `MQTTMessage` that `cycle` delivers; `none` where pointers that nothing has
set would be followed. -/
def receivedMessage (buf : Nat → UInt8) (f : PublishFields) :
    Option (List UInt8 × MqttMessage) := do
  let topicData ← f.topicData
  let topicLen ← f.topicLen
  let payload ← f.payload
  let payloadlen ← f.payloadlen
  return (slice buf topicData topicLen, {
    qos := f.qos.getD 0
    retained := f.retained.getD 0
    dup := f.dup.getD 0
    id := f.packetid
    -- `payloadlen` is written as an `int` and read as a `size_t`.
    payload := slice buf payload (payloadlen % 2 ^ 32).toNat })

structure Switched where
  publishQos : Option Nat
  ackParsed : Bool
  message : Option (List UInt8 × MqttMessage)
  answer : Option (List UInt8)

/-- The switch of `cycle`; `leftover` is in `mypacketid` before it is set. It is `none` where the
message that it delivers is. -/
def switchPacket (buf : Nat → UInt8) (packetType : Int) (leftover : Nat) : Option Switched :=
  if packetType = publish then do
    let (rc, fields) ← mqttDeserializePublish buf
    if rc ≠ 1 then return ⟨none, false, none, none⟩
    let qos := fields.qos.getD 0
    let id := fields.packetid.getD 0
    let message ← receivedMessage buf fields
    return {
      publishQos := some qos
      ackParsed := false
      message := some message
      answer :=
        if qos = 1 then mqttSerializeAck 80 4 0 id
        else if qos = 2 then mqttSerializeAck 80 5 0 id
        else none }
  else if packetType = pubrec ∨ packetType = pubrel then do
    let (rc, fields) ← mqttDeserializeAck buf
    return {
      publishQos := none
      ackParsed := rc = 1
      message := none
      answer :=
        if rc = 1 then
          mqttSerializeAck 80 (if packetType = pubrec then 6 else 7) 0
            (fields.packetid.getD leftover)
        else none }
  else return ⟨none, false, none, none⟩

structure Receiver (H : Type) where
  cycling : Cycling
  cleansession : Bool
  slots : List (MessageHandler H)
  defaultMessageHandler : Option H
  /-- The memory from `readbuf` on. -/
  readbuf : Nat → UInt8

structure Turn where
  ackWrites : List Int
  expired : Bool
  pingWrites : List Int
  leftover : Nat

structure Cycled (H : Type) where
  rc : Int
  delivered : List (H × MessageData)
  answer : Option (List UInt8)

variable {H : Type}

def cycleBytes (r : Receiver H) (t : Turn) : Reading (Cycled H × Receiver H) := do
  let read ← readPacket 80
  let buf := fun i => read.stored.getD i (r.readbuf i)
  let s ← switchPacket buf read.rc t.leftover
  let (rc, cycling) := cycle r.cycling
    { packetType := read.rc
      publishQos := s.publishQos
      ackParsed := s.ackParsed
      ackWrites := t.ackWrites
      expired := t.expired
      pingWrites := t.pingWrites }
  let closed := r.cycling.client.isconnected && !cycling.client.isconnected
  return (
    { rc
      delivered := s.message.elim [] fun (topicName, message) =>
        (deliverMessage r.slots r.defaultMessageHandler topicName message).2
      answer := s.answer },
    { r with
      cycling
      slots := if closed && r.cleansession then mqttCleanSession r.slots else r.slots
      readbuf := buf })

def cycles (r : Receiver H) : List Turn → Reading (List (Cycled H) × Receiver H)
  | [] => return ([], r)
  | t :: ts => do
    let (c, r) ← cycleBytes r t
    let (cs, r) ← cycles r ts
    return (c :: cs, r)

inductive Inbound
  | publish (dup qos retained packetid : Nat) (topic payload : List UInt8)
  | ack (packettype dup packetid : Nat)

namespace Inbound

def bytes : Inbound → Option (List UInt8)
  | publish dup qos retained packetid topic payload =>
    mqttSerializePublish 80 dup qos retained packetid (.ofCString topic) payload
  | ack packettype dup packetid => mqttSerializeAck 80 packettype dup packetid

def Valid : Inbound → Prop
  | publish dup qos retained packetid _ _ => (dup < 2 ∧ qos < 3 ∧ retained < 2) ∧ packetid < 65536
  | ack packettype _ packetid => (4 ≤ packettype ∧ packettype < 8) ∧ packetid < 65536

/-- What the client does with a packet: a PUBLISH goes to each subscriber once, also if its id
was there before, and each packet is acknowledged with the id that it has. -/
def Answered (m : Subscriptions H) (defaultMessageHandler : Option H) (o : Cycled H) :
    Inbound → Prop
  | publish dup qos retained packetid topic payload => o.rc = 3 ∧
    (↑o.delivered : Multiset (H × MessageData)) =
      (m.recipients defaultMessageHandler (cString topic)).map (fun fp => (fp, {
        topicName := cString topic
        message := {
          qos, retained, dup, payload
          id := if 0 < qos then some packetid else none } })) ∧
    o.answer = if qos = 1 then mqttSerializeAck 80 4 0 packetid
      else if qos = 2 then mqttSerializeAck 80 5 0 packetid else none
  | ack packettype _ packetid => o.rc = packettype ∧ o.delivered = [] ∧
    o.answer = if packettype = 5 then mqttSerializeAck 80 6 0 packetid
      else if packettype = 6 then mqttSerializeAck 80 7 0 packetid else none

end Inbound

structure Arrival where
  inbound : Inbound
  packet : List UInt8
  serialised : inbound.bytes = some packet
  valid : inbound.Valid
  turn : Turn
  sends : sendPacket 4 turn.ackWrites = 0
  not_expired : turn.expired = false

section Slices

variable {buf : Nat → UInt8} {a n : Nat} {s : List UInt8}

theorem slice_of_holds (h : Access.Holds buf a s) : slice buf a s.length = s := by
  refine List.ext_getElem (by simp [slice]) fun i hi hs => ?_
  simp only [slice, List.getElem_map, List.getElem_range]
  exact h i hs

theorem holds_getD (s : List UInt8) (buf : Nat → UInt8) :
    Access.Holds (fun i => s.getD i (buf i)) 0 s := by
  intro i hi
  simp [hi]

end Slices

section Packets

variable {dup qos retained packetid packettype : Nat} {topic payload packet : List UInt8}

theorem length_publish_le (h : mqttSerializePublish 80 dup qos retained packetid
    (.ofCString topic) payload = some packet) :
    packet.length ≤ 80 ∧ (cString topic).length + payload.length ≤ 76 := by
  have hsome : (mqttSerializePublish 80 dup qos retained packetid (.ofCString topic)
      payload).isSome = true := by rw [h]; rfl
  rw [mqttSerializePublish_isSome_iff, mqttPacketLen_le_iff] at hsome
  have hbody := @length_publishBody qos packetid topic payload
  rw [mqttSerializePublishLength, mqttStrlen_ofCString] at hsome hbody
  have hencode := @length_mqttPacketEncode (publishBody qos packetid topic payload).length
    (by omega)
  rw [mqttSerializePublish_eq_some h, List.length_cons, List.length_append]
  omega

theorem Delivers.lift {α : Type} {x : Option α} {v : α} (h : x = some v) :
    Delivers (liftM x) [] v := by
  intro rest turns hturns _
  exact ⟨turns, by subst h; rfl, hturns, Nat.le_add_left _ _⟩

theorem readPacket_publish (h : mqttSerializePublish 80 dup qos retained packetid
      (.ofCString topic) payload = some packet)
    (hflags : dup < 2 ∧ qos < 4 ∧ retained < 2) (hid : packetid < 65536) :
    Delivers (readPacket 80) packet ⟨3, packet⟩ := by
  obtain ⟨hle, hshort⟩ := length_publish_le h
  exact (published_read_back h hflags hid (by omega) hle (by decide)).1

theorem switchPacket_publish {buf : Nat → UInt8} (h : mqttSerializePublish 80 dup qos retained
      packetid (.ofCString topic) payload = some packet)
    (hflags : dup < 2 ∧ qos < 4 ∧ retained < 2) (hid : packetid < 65536)
    (hbuf : Access.Holds buf 0 packet) (leftover : Nat) :
    switchPacket buf publish leftover = some {
      publishQos := some qos
      ackParsed := false
      message := some (cString topic, {
        qos, retained, dup, payload
        id := if 0 < qos then some packetid else none })
      answer := if qos = 1 then mqttSerializeAck 80 4 0 packetid
        else if qos = 2 then mqttSerializeAck 80 5 0 packetid else none } := by
  obtain ⟨hle, hshort⟩ := length_publish_le h
  obtain ⟨topicData, payloadData, hparsed, htopic, hpayload⟩ :=
    (published_read_back h hflags hid (by omega) hle (by decide)).2 buf hbuf
  have hlength : ((payload.length : Int) % 2 ^ 32).toNat = payload.length := by omega
  have hmessage := slice_of_holds htopic
  have hpayload := slice_of_holds hpayload
  rw [switchPacket, if_pos rfl, hparsed]
  simp only [bind, Option.bind_some, pure, receivedMessage, Option.getD_some, hlength, hmessage,
    hpayload]
  by_cases hqos : 0 < qos
  · simp [hqos]
  · obtain rfl : qos = 0 := Nat.eq_zero_of_not_pos hqos
    simp

theorem exists_ackPacket (h : mqttSerializeAck 80 packettype dup packetid = some packet) :
    ∃ p : WirePacket, p.bytes = packet ∧ p.body = writeInt packetid ∧
      headerType p.header = packettype % 16 := by
  refine ⟨⟨mqttHeader packettype dup (if packettype = 6 then 1 else 0) 0, writeInt packetid,
    by rw [length_writeInt]; decide⟩, ?_, rfl, headerType_mqttHeader⟩
  rw [mqttSerializeAck, if_neg (by decide), Option.some_inj] at h
  exact h

theorem readPacket_ack (h : mqttSerializeAck 80 packettype dup packetid = some packet)
    (htype : packettype < 16) : Delivers (readPacket 80) packet ⟨packettype, packet⟩ := by
  obtain ⟨p, rfl, hbody, hp⟩ := exists_ackPacket h
  have hfits : p.Fits 80 := by
    rw [WirePacket.Fits, WirePacket.bytes, hbody, length_writeInt, List.length_cons,
      List.length_append, length_mqttPacketEncode (by decide), length_writeInt]
    decide
  have hread := Delivers.readPacket p (by decide) hfits
  rwa [hp, Nat.mod_eq_of_lt htype] at hread

theorem mqttDeserializeAck_ack {buf : Nat → UInt8}
    (h : mqttSerializeAck 80 packettype dup packetid = some packet) (hid : packetid < 65536)
    (hbuf : Access.Holds buf 0 packet) : ∃ fields, mqttDeserializeAck buf = some (1, fields) ∧
      fields.packetid = some packetid := by
  obtain ⟨p, rfl, hbody, hp⟩ := exists_ackPacket h
  have hwrite := (holds_packet hbuf).2.2
  rw [hbody] at hwrite
  refine ⟨_, mqttDeserializeAck_eq hbuf, ?_⟩
  rw [if_pos (by rw [hbody, length_writeInt]), hbody, readInt_of_holds hwrite hid]

theorem switchPacket_ack {buf : Nat → UInt8}
    (h : mqttSerializeAck 80 packettype dup packetid = some packet)
    (htype : 4 ≤ packettype ∧ packettype < 8) (hid : packetid < 65536)
    (hbuf : Access.Holds buf 0 packet) (leftover : Nat) :
    switchPacket buf packettype leftover = some {
      publishQos := none
      ackParsed := packettype = 5 ∨ packettype = 6
      message := none
      answer := if packettype = 5 then mqttSerializeAck 80 6 0 packetid
        else if packettype = 6 then mqttSerializeAck 80 7 0 packetid else none } := by
  obtain ⟨fields, hfields, hfield⟩ := mqttDeserializeAck_ack h hid hbuf
  have hne : (packettype : Int) ≠ publish := by unfold publish; omega
  have hpubrel : (packettype : Int) = pubrel ↔ packettype = 6 := by unfold pubrel; omega
  have hpubrec : (packettype : Int) = pubrec ↔ packettype = 5 := by unfold pubrec; omega
  rw [switchPacket, if_neg hne]
  simp only [hpubrec, hpubrel]
  by_cases hanswer : packettype = 5 ∨ packettype = 6
  · rw [if_pos hanswer, hfields]
    obtain rfl | rfl := hanswer <;> simp [bind, pure, hfield]
  · rw [if_neg hanswer]
    rw [not_or] at hanswer
    simp [hanswer.1, hanswer.2, pure]

end Packets

section Cycles

variable {r : Receiver H} {t : Turn} {m : Subscriptions H}

theorem cycle_of_handled {c : Cycling} {i : Incoming} (h : packetHandled i = none)
    (hexpired : i.expired = false) (hping : i.packetType ≠ pingresp) :
    cycle c i = (i.packetType, c) := by
  rw [cycle, h, Cycling.noted, if_neg hping, keepalive, hexpired]
  simp [cycleExit]

theorem cycleBytes_delivers {rc : Int} {packet : List UInt8} {s : Switched}
    (hread : Delivers (readPacket 80) packet ⟨rc, packet⟩)
    (hswitch : ∀ buf, Access.Holds buf 0 packet → switchPacket buf rc t.leftover = some s)
    (hhandled : packetHandled {
      packetType := rc
      publishQos := s.publishQos
      ackParsed := s.ackParsed
      ackWrites := t.ackWrites
      expired := t.expired
      pingWrites := t.pingWrites } = none)
    (hexpired : t.expired = false) (hping : rc ≠ pingresp) :
    Delivers (cycleBytes r t) packet (
      { rc
        delivered := s.message.elim [] fun (topicName, message) =>
          (deliverMessage r.slots r.defaultMessageHandler topicName message).2
        answer := s.answer },
      { r with readbuf := fun i => packet.getD i (r.readbuf i) }) := by
  refine hread.bind_last ?_
  refine (Delivers.lift (hswitch _ (holds_getD packet r.readbuf))).bind_last ?_
  have hcycle := @cycle_of_handled r.cycling _ hhandled hexpired hping
  simp only [hcycle, Bool.and_not_self, Bool.false_and]
  exact .pure _

theorem packetHandled_publish {i : Incoming} {qos : Nat} (htype : i.packetType = publish)
    (hqos : i.publishQos = some qos) (hlt : qos < 3) (hsend : sendPacket 4 i.ackWrites = 0) :
    packetHandled i = none := by
  rw [packetHandled, if_pos htype, hqos]
  by_cases hzero : qos = 0
  · exact if_pos hzero
  · have hone : qos = 1 ∨ qos = 2 := by omega
    simp [hzero, hone, hsend]

theorem packetHandled_ack {i : Incoming} {packettype : Nat} (htype : i.packetType = packettype)
    (hrange : 4 ≤ packettype ∧ packettype < 8)
    (hparsed : i.ackParsed = decide (packettype = 5 ∨ packettype = 6))
    (hsend : sendPacket 4 i.ackWrites = 0) : packetHandled i = none := by
  have hcases : packettype = 4 ∨ packettype = 5 ∨ packettype = 6 ∨ packettype = 7 := by omega
  obtain rfl | rfl | rfl | rfl := hcases <;>
    simp [packetHandled, htype, hparsed, hsend, publish, pubrec, pubrel, puback, pubcomp]

theorem cycleBytes_arrival (hm : Represents r.slots m) (a : Arrival) :
    ∃ o readbuf, Delivers (cycleBytes r a.turn) a.packet (o, { r with readbuf }) ∧
      a.inbound.Answered m r.defaultMessageHandler o := by
  obtain ⟨inbound, packet, hbytes, hvalid, turn, hsend, hexpired⟩ := a
  cases inbound with
  | publish dup qos retained packetid topic payload =>
    obtain ⟨⟨hdup, hqos, hretained⟩, hid⟩ := hvalid
    have hflags : dup < 2 ∧ qos < 4 ∧ retained < 2 := ⟨hdup, Nat.lt_succ_of_lt hqos, hretained⟩
    refine ⟨_, _, cycleBytes_delivers (readPacket_publish hbytes hflags hid)
      (fun buf hbuf => switchPacket_publish hbytes hflags hid hbuf _)
      (packetHandled_publish rfl rfl hqos hsend) hexpired (by decide), rfl, ?_, rfl⟩
    exact hm.deliver ..
  | ack packettype dup packetid =>
    obtain ⟨hrange, hid⟩ := hvalid
    refine ⟨_, _, cycleBytes_delivers (readPacket_ack hbytes (by omega))
      (fun buf hbuf => switchPacket_ack hbytes hrange hid hbuf _)
      (packetHandled_ack rfl hrange rfl hsend) hexpired (by unfold pingresp; omega), rfl, rfl, rfl⟩

/-- Packets that the server sends one after the other: each one is dealt with in its turn, and the
client is as before. -/
theorem arrivals_answered (hm : Represents r.slots m) (arrivals : List Arrival) :
    ∃ outcomes readbuf,
      Delivers (cycles r (arrivals.map Arrival.turn)) (arrivals.flatMap Arrival.packet)
        (outcomes, { r with readbuf }) ∧
      List.Forall₂ (fun a o => a.inbound.Answered m r.defaultMessageHandler o)
        arrivals outcomes := by
  induction arrivals generalizing r with
  | nil => exact ⟨[], r.readbuf, .pure _, .nil⟩
  | cons a arrivals ih =>
    obtain ⟨o, readbuf, hcycle, ho⟩ := cycleBytes_arrival hm a
    obtain ⟨outcomes, readbuf', hcycles, houtcomes⟩ := @ih { r with readbuf } hm
    refine ⟨o :: outcomes, readbuf', ?_, .cons ho houtcomes⟩
    exact hcycle.bind (hcycles.bind_last (.pure _))

theorem repeated_message_delivered_twice :
    let r : Receiver Nat := {
      cycling := { client := .init, keepAliveInterval := 0, pingOutstanding := false }
      cleansession := true
      slots := ⟨some (ascii "a"), some 7⟩ :: List.replicate 4 ⟨none, none⟩
      defaultMessageHandler := none
      readbuf := fun _ => 0 }
    let t : Turn := { ackWrites := [4], expired := false, pingWrites := [], leftover := 0 }
    ∃ first second outcomes r' link,
      mqttSerializePublish 80 0 2 0 1 (.ofCString (ascii "a")) (ascii "x") = some first ∧
      mqttSerializePublish 80 1 2 0 1 (.ofCString (ascii "a")) (ascii "x") = some second ∧
      cycles r [t, t] ⟨first ++ second,
        List.replicate (first ++ second).length (.recv (some 1) false)⟩ =
          some ((outcomes, r'), link) ∧
      outcomes.flatMap Cycled.delivered =
        [(7, ⟨ascii "a", ⟨2, 0, 0, some 1, ascii "x"⟩⟩),
          (7, ⟨ascii "a", ⟨2, 0, 1, some 1, ascii "x"⟩⟩)] := by
  intro r t
  have hsome : ∀ dup : Nat, ∃ packet,
      mqttSerializePublish 80 dup 2 0 1 (.ofCString (ascii "a")) (ascii "x") = some packet :=
    fun dup => Option.isSome_iff_exists.mp
      (mqttSerializePublish_isSome_iff.mpr ((mqttPacketLen_le_iff _).mpr (by decide)))
  obtain ⟨first, hfirst⟩ := hsome 0
  obtain ⟨second, hsecond⟩ := hsome 1
  have hm : Represents r.slots ((∅ : Subscriptions Nat).insert (ascii "a") 7) :=
    ((@Represents.cleanSession Nat (List.replicate 5 ⟨none, none⟩) rfl).set (ascii "a")
      (some 7)).2
  have hrecipients : Subscriptions.recipients ((∅ : Subscriptions Nat).insert (ascii "a") 7) none
      (cString (ascii "a")) = {7} := by decide +kernel
  have hname : cString (ascii "a") = ascii "a" := by decide
  let arrival (dup : Nat) (packet : List UInt8) (hdup : dup < 2)
      (h : mqttSerializePublish 80 dup 2 0 1 (.ofCString (ascii "a")) (ascii "x") = some packet) :
      Arrival :=
    ⟨.publish dup 2 0 1 (ascii "a") (ascii "x"), packet, h,
      ⟨⟨hdup, by decide, by decide⟩, by decide⟩, t, by decide, rfl⟩
  obtain ⟨outcomes, readbuf, hcycles, houtcomes⟩ := arrivals_answered hm
    [arrival 0 first (by decide) hfirst, arrival 1 second (by decide) hsecond]
  obtain ⟨turns, heq, -⟩ := hcycles []
    (List.replicate (first ++ second).length (.recv (some 1) false))
    (fun turn hturn => ⟨0, List.eq_of_mem_replicate hturn⟩) (by simp [arrival])
  rw [List.append_nil] at heq
  refine ⟨first, second, outcomes, _, _, hfirst, hsecond, by simpa [arrival] using heq, ?_⟩
  cases houtcomes with
  | cons h₁ houtcomes =>
    cases houtcomes with
    | cons h₂ houtcomes =>
      cases houtcomes
      have hone := h₁.2.1
      have htwo := h₂.2.1
      simp only [hrecipients, r, Multiset.map_singleton, Multiset.coe_eq_singleton] at hone htwo
      simp [hone, htwo, hname]

end Cycles

end RadProt.Mqtt
