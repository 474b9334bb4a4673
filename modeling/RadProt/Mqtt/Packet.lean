import RadProt.Settings.Record

namespace RadProt.Mqtt

open RadProt.Lib RadProt.Settings

structure MqttString where
  cstring : Option (List UInt8)
  lenstring : Option (List UInt8)

def MqttString.null : MqttString where
  cstring := none
  lenstring := none

def MqttString.ofCString (s : List UInt8) : MqttString := { MqttString.null with cstring := some s }

def mqttStrlen (s : MqttString) : Nat :=
  match s.cstring with
  | some c => (cString c).length
  | none => (s.lenstring.getD []).length

def MqttString.isSet (s : MqttString) : Bool := s.cstring.isSome || s.lenstring.isSome

def writeInt (anInt : Nat) : List UInt8 := [.ofNat (anInt / 256), .ofNat (anInt % 256)]

def writeCString (s : List UInt8) : List UInt8 := writeInt (cString s).length ++ cString s

def writeMqttString (s : MqttString) : List UInt8 :=
  if 0 < (s.lenstring.getD []).length then
    writeInt (s.lenstring.getD []).length ++ s.lenstring.getD []
  else
    match s.cstring with
    | some c => writeCString c
    | none => writeInt 0

def mqttPacketEncode (length : Nat) : List UInt8 :=
  if length / 128 = 0 then [.ofNat (length % 128)]
  else .ofNat (length % 128 + 128) :: mqttPacketEncode (length / 128)
termination_by length
decreasing_by omega

def mqttPacketLen (remLen : Nat) : Nat :=
  let remLen := remLen + 1
  if remLen < 128 then remLen + 1
  else if remLen < 16384 then remLen + 2
  else if remLen < 2097151 then remLen + 3
  else remLen + 4

def mqttHeader (type dup qos retain : Nat) : UInt8 :=
  .ofNat (type % 16 * 16 + dup % 2 * 8 + qos % 4 * 2 + retain % 2)

def mqttSerializePublishLength (qos : Nat) (topicName : MqttString) (payloadlen : Nat) : Nat :=
  2 + mqttStrlen topicName + payloadlen + if 0 < qos then 2 else 0

/-- `MQTTSerialize_publish` into `buflen` bytes; `none` for `MQTTPACKET_BUFFER_TOO_SHORT`. -/
def mqttSerializePublish (buflen dup qos retained packetid : Nat) (topicName : MqttString)
    (payload : List UInt8) : Option (List UInt8) :=
  let remLen := mqttSerializePublishLength qos topicName payload.length
  if buflen < mqttPacketLen remLen then none
  else
    some (mqttHeader 3 dup qos retained :: mqttPacketEncode remLen ++ writeMqttString topicName ++
      (if 0 < qos then writeInt packetid else []) ++ payload)

structure WillOptions where
  topicName : MqttString
  message : MqttString
  retained : Nat
  qos : Nat

structure ConnectData where
  mqttVersion : Nat
  clientID : MqttString
  keepAliveInterval : Nat
  cleansession : Nat
  willFlag : Bool
  will : WillOptions
  username : MqttString
  password : MqttString

def ConnectData.initializer : ConnectData where
  mqttVersion := 4
  clientID := .null
  keepAliveInterval := 60
  cleansession := 1
  willFlag := false
  will := { topicName := .null, message := .null, retained := 0, qos := 0 }
  username := .null
  password := .null

def mqttSerializeConnectLength (options : ConnectData) : Nat :=
  (if options.mqttVersion = 3 then 12 else if options.mqttVersion = 4 then 10 else 0) +
    (mqttStrlen options.clientID + 2) +
    (if options.willFlag then
      mqttStrlen options.will.topicName + 2 + mqttStrlen options.will.message + 2 else 0) +
    (if options.username.isSet then mqttStrlen options.username + 2 else 0) +
    (if options.password.isSet then mqttStrlen options.password + 2 else 0)

def connectFlags (options : ConnectData) : UInt8 :=
  .ofNat (options.cleansession % 2 * 2 +
    (if options.willFlag then
      4 + options.will.qos % 4 * 8 + options.will.retained % 2 * 32 else 0) +
    (if options.password.isSet then 64 else 0) + (if options.username.isSet then 128 else 0))

def mqttSerializeConnect (buflen : Nat) (options : ConnectData) : Option (List UInt8) :=
  let len := mqttSerializeConnectLength options
  if buflen < mqttPacketLen len then none
  else
    some (mqttHeader 1 0 0 0 :: mqttPacketEncode len ++
      (if options.mqttVersion = 4 then writeCString (ascii "MQTT") ++ [4]
        else writeCString (ascii "MQIsdp") ++ [3]) ++
      [connectFlags options] ++ writeInt options.keepAliveInterval ++
      writeMqttString options.clientID ++
      (if options.willFlag then
        writeMqttString options.will.topicName ++ writeMqttString options.will.message else []) ++
      (if options.username.isSet then writeMqttString options.username else []) ++
      (if options.password.isSet then writeMqttString options.password else []))

/-- An entry of `mqttQueue`; its arrays are held as the strings in them. -/
structure MqttPublishMessage where
  topic : List UInt8
  payload : List UInt8
  payloadLength : Nat
  qos : UInt8
  retain : Bool
  deriving DecidableEq

def snprintf (n : Nat) (src : List UInt8) : List UInt8 := (cString src).take (n - 1)

/-- `sendToMqttQueue` once the queue is made: whether the message is taken, and the queue. -/
def sendToMqttQueue (mqttQueue : List MqttPublishMessage) (topic payload : List UInt8)
    (payloadLength : Nat) (qos : UInt8) (retain : Bool) : Bool × List MqttPublishMessage :=
  let msg := {
    topic := snprintf 128 topic
    payload := snprintf 256 payload
    payloadLength
    qos
    retain }
  if mqttQueue.length < 10 then (true, mqttQueue ++ [msg]) else (false, mqttQueue)

def publishPacket (buflen packetid : Nat) (msg : MqttPublishMessage) : Option (List UInt8) :=
  mqttSerializePublish buflen 0 msg.qos.toNat 0 packetid (.ofCString msg.topic) (cString msg.payload)

/-- The string at the address of the user name, in the record of the settings. -/
def usernameString (r : ClientModeSettings) : List UInt8 :=
  cString (r.mqtt.username.bytes ++ r.mqtt.password.bytes ++ r.password.bytes ++ r.afterPassword)

def mqttPasswordString (r : ClientModeSettings) : List UInt8 :=
  cString (r.mqtt.password.bytes ++ r.password.bytes ++ r.afterPassword)

def connectData (r : ClientModeSettings) : ConnectData :=
  { ConnectData.initializer with
    mqttVersion := 3
    clientID := .ofCString (ascii "RadProt_IoT")
    username := .ofCString (usernameString r)
    password := .ofCString (mqttPasswordString r) }

@[simp] theorem length_writeInt (n : Nat) : (writeInt n).length = 2 := rfl

@[simp] theorem mqttStrlen_ofCString (s : List UInt8) :
    mqttStrlen (.ofCString s) = (cString s).length := rfl

@[simp] theorem isSet_ofCString (s : List UInt8) : (MqttString.ofCString s).isSet = true := rfl

@[simp] theorem length_writeMqttString_ofCString (s : List UInt8) :
    (writeMqttString (.ofCString s)).length = mqttStrlen (.ofCString s) + 2 := by
  simp [writeMqttString, MqttString.ofCString, MqttString.null, writeCString, mqttStrlen,
    Nat.add_comm]

theorem length_mqttPacketEncode {n : Nat} (h : n < 128) : (mqttPacketEncode n).length = 1 := by
  rw [mqttPacketEncode, if_pos (Nat.div_eq_of_lt h)]
  rfl

theorem length_snprintf {n : Nat} (src : List UInt8) :
    (snprintf n src).length = min (n - 1) (cString src).length := List.length_take

@[simp] theorem cString_snprintf (n : Nat) (src : List UInt8) :
    cString (snprintf n src) = snprintf n src :=
  cString_eq_self fun h => zero_notMem_cString src (List.mem_of_mem_take h)

theorem mqttPacketLen_le_iff (remLen : Nat) : mqttPacketLen remLen ≤ 80 ↔ remLen ≤ 78 := by
  simp only [mqttPacketLen]
  split
  next => omega
  next => split <;> [omega; split <;> omega]

theorem length_publishPacket {msg : MqttPublishMessage} {packetid : Nat} {packet : List UInt8}
    (h : publishPacket 80 packetid msg = some packet) :
    packet.length = 4 + (cString msg.topic).length + (cString msg.payload).length +
        (if 0 < msg.qos.toNat then 2 else 0) ∧ packet.length ≤ 80 := by
  simp only [publishPacket, mqttSerializePublish] at h
  split at h
  next => exact nomatch h
  next hfits =>
    have hrem := (mqttPacketLen_le_iff _).mp (Nat.not_lt.mp hfits)
    have hencode := length_mqttPacketEncode (Nat.lt_of_le_of_lt hrem (by decide))
    obtain rfl := Option.some.inj h
    simp only [mqttSerializePublishLength, mqttStrlen_ofCString] at hrem
    simp only [List.cons_append, List.length_cons, List.length_append, hencode,
      length_writeMqttString_ofCString, mqttStrlen_ofCString, apply_ite List.length,
      length_writeInt, List.length_nil]
    omega

theorem mqttSerializePublish_isSome_iff {buflen dup qos retained packetid : Nat}
    {topicName : MqttString} {payload : List UInt8} :
    (mqttSerializePublish buflen dup qos retained packetid topicName payload).isSome = true ↔
      mqttPacketLen (mqttSerializePublishLength qos topicName payload.length) ≤ buflen := by
  by_cases h : buflen < mqttPacketLen (mqttSerializePublishLength qos topicName payload.length)
  · rw [mqttSerializePublish, if_pos h]
    exact iff_of_false Bool.false_ne_true (Nat.not_le.mpr h)
  · rw [mqttSerializePublish, if_neg h]
    exact iff_of_true rfl (Nat.not_lt.mp h)

theorem mqttSerializeConnect_isSome_iff {buflen : Nat} {options : ConnectData} :
    (mqttSerializeConnect buflen options).isSome = true ↔
      mqttPacketLen (mqttSerializeConnectLength options) ≤ buflen := by
  by_cases h : buflen < mqttPacketLen (mqttSerializeConnectLength options)
  · rw [mqttSerializeConnect, if_pos h]
    exact iff_of_false Bool.false_ne_true (Nat.not_le.mpr h)
  · rw [mqttSerializeConnect, if_neg h]
    exact iff_of_true rfl (Nat.not_lt.mp h)

theorem publishPacket_isSome_iff {msg : MqttPublishMessage} {packetid : Nat} :
    (publishPacket 80 packetid msg).isSome = true ↔
      (cString msg.topic).length + (cString msg.payload).length +
        (if 0 < msg.qos.toNat then 2 else 0) ≤ 76 := by
  rw [publishPacket, mqttSerializePublish_isSome_iff, mqttPacketLen_le_iff,
    mqttSerializePublishLength, mqttStrlen_ofCString]
  omega

theorem connectPacket_isSome_iff (r : ClientModeSettings) :
    (mqttSerializeConnect 80 (connectData r)).isSome = true ↔
      (usernameString r).length + (mqttPasswordString r).length ≤ 49 := by
  have hid : (cString (ascii "RadProt_IoT")).length = 11 := by decide
  have hlength : mqttSerializeConnectLength (connectData r) =
      29 + (usernameString r).length + (mqttPasswordString r).length := by
    simp only [mqttSerializeConnectLength, connectData, ConnectData.initializer, isSet_ofCString,
      mqttStrlen_ofCString, hid, usernameString, mqttPasswordString, cString_cString, if_true,
      Bool.false_eq_true, if_false]
    omega
  rw [mqttSerializeConnect_isSome_iff, mqttPacketLen_le_iff, hlength]
  omega

/-- The packet of a queued message, and the packet that opens the session, fit the send buffer
exactly if their strings are short enough together. -/
theorem packets_fit_iff {queue queue' : List MqttPublishMessage} {topic payload : List UInt8}
    {payloadLength : Nat} {qos : UInt8} {retain : Bool} {r : ClientModeSettings}
    {username password : List UInt8}
    (hsend : sendToMqttQueue queue topic payload payloadLength qos retain = (true, queue'))
    (husername : r.mqtt.username = .strncpy 32 username ∧ 0 ∉ username ∧ username.length ≤ 31)
    (hpassword : r.mqtt.password = .strncpy 32 password ∧ 0 ∉ password ∧ password.length ≤ 31)
    (packetid : Nat) :
    ∃ msg, queue' = queue ++ [msg] ∧
      ((publishPacket 80 packetid msg).isSome = true ↔
        min 127 (cString topic).length + min 255 (cString payload).length +
          (if 0 < qos.toNat then 2 else 0) ≤ 76) ∧
      ((mqttSerializeConnect 80 (connectData r)).isSome = true ↔
        username.length + password.length ≤ 49) := by
  simp only [sendToMqttQueue] at hsend
  split at hsend
  next =>
    refine ⟨_, (congrArg Prod.snd hsend).symm, ?_, ?_⟩
    · rw [publishPacket_isSome_iff]
      simp only [cString_snprintf, length_snprintf]
    · have huser : usernameString r = username := by
        rw [usernameString, husername.1, List.append_assoc, List.append_assoc,
          CharArray.strncpy_bytes, cString_strncpy_append, cString_eq_self husername.2.1,
          if_pos (Nat.lt_succ_of_le husername.2.2)]
      have hpass : mqttPasswordString r = password := by
        rw [mqttPasswordString, hpassword.1, List.append_assoc, CharArray.strncpy_bytes,
          cString_strncpy_append, cString_eq_self hpassword.2.1,
          if_pos (Nat.lt_succ_of_le hpassword.2.2)]
      rw [connectPacket_isSome_iff, huser, hpass]
  next => exact nomatch congrArg Prod.fst hsend

def brokerSettings (username password : List UInt8) : ClientModeSettings :=
  { sClientSettings [] with
    mqtt := {
      broker := .strncpy 32 []
      port := 1883
      username := .strncpy 32 username
      password := .strncpy 32 password } }

theorem packets_fit_reading :
    ∃ msg, (sendToMqttQueue [] (ascii "r/123") (ascii "7.2233") 6 1 false).2 = [msg] ∧
      (publishPacket 80 1 msg).isSome = true ∧
      (mqttSerializeConnect 80 (connectData (brokerSettings [] []))).isSome = true := by
  have hsend : sendToMqttQueue [] (ascii "r/123") (ascii "7.2233") 6 1 false =
      (true, (sendToMqttQueue [] (ascii "r/123") (ascii "7.2233") 6 1 false).2) := rfl
  have husername : (brokerSettings [] []).mqtt.username = .strncpy 32 [] ∧
      0 ∉ ([] : List UInt8) ∧ ([] : List UInt8).length ≤ 31 := ⟨rfl, by decide, by decide⟩
  obtain ⟨msg, hmsg, hpublish, hconnect⟩ := packets_fit_iff hsend husername husername 1
  exact ⟨msg, hmsg, hpublish.mpr (by decide), hconnect.mpr (by decide)⟩

/-- A text of 70 characters on a topic of five, and credentials of 25 bytes each: neither packet
fits. -/
theorem packets_do_not_fit :
    (∃ msg, sendToMqttQueue [] (ascii "r/123") (List.replicate 70 65) 70 1 false = (true, [msg]) ∧
        publishPacket 80 1 msg = none) ∧
      mqttSerializeConnect 80
        (connectData (brokerSettings (List.replicate 25 65) (List.replicate 25 66))) = none := by
  refine ⟨⟨_, rfl, by decide⟩, by decide⟩

end RadProt.Mqtt
