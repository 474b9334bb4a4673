import RadProt.Mqtt.Delivery

namespace RadProt.Mqtt

open RadProt.Lib

structure StringFields where
  len : Option Nat
  data : Option Nat
  deriving DecidableEq

def StringFields.unset : StringFields := { len := none, data := none }

def LenString.fields (s : LenString) : StringFields := { len := s.len, data := s.data }

/-- What `MQTTDeserialize_connect` has set; `none` is left as it was. Pointers are offsets to the
buffer. -/
structure ConnectFields where
  cleansession : Option Nat
  keepAliveInterval : Option Nat
  clientID : StringFields
  willFlag : Option Nat
  willQos : Option Nat
  willRetained : Option Nat
  willTopicName : StringFields
  willMessage : StringFields
  username : StringFields
  password : StringFields
  deriving DecidableEq

def ConnectFields.unset : ConnectFields where
  cleansession := none
  keepAliveInterval := none
  clientID := .unset
  willFlag := none
  willQos := none
  willRetained := none
  willTopicName := .unset
  willMessage := .unset
  username := .unset
  password := .unset

def flagCleansession (flags : UInt8) : Nat := flags.toNat / 2 % 2

def flagWill (flags : UInt8) : Nat := flags.toNat / 4 % 2

def flagWillQos (flags : UInt8) : Nat := flags.toNat / 8 % 4

def flagWillRetain (flags : UInt8) : Nat := flags.toNat / 32 % 2

def flagPassword (flags : UInt8) : Nat := flags.toNat / 64 % 2

def flagUsername (flags : UInt8) : Nat := flags.toNat / 128 % 2

def protocolIs (buf : Nat → UInt8) (data len : Nat) (name : List UInt8) : Bool :=
  slice buf data (min name.length len) = name.take (min name.length len)

def mqttPacketCheckVersion (buf : Nat → UInt8) (data len : Nat) (version : UInt8) : Bool :=
  version = 3 && protocolIs buf data len (ascii "MQIsdp") ||
    version = 4 && protocolIs buf data len (ascii "MQTT")

def deserializeCredentials (buf : Nat → UInt8) (flags : UInt8) (curdata enddata : Nat)
    (data : ConnectFields) : Bool × ConnectFields :=
  if flagUsername flags = 1 then
    if enddata < curdata + 3 then (false, data)
    else
      let username := readMqttLenString buf curdata enddata
      let data := { data with username := username.fields }
      if username.rc = false then (false, data)
      else if flagPassword flags = 1 then
        if enddata < username.ptr + 3 then (false, data)
        else
          let password := readMqttLenString buf username.ptr enddata
          (password.rc, { data with password := password.fields })
      else (true, data)
  else (flagPassword flags = 0, data)

def deserializeWill (buf : Nat → UInt8) (flags : UInt8) (curdata enddata : Nat)
    (data : ConnectFields) : Bool × ConnectFields :=
  let data := { data with willFlag := some (flagWill flags) }
  if flagWill flags = 1 then
    let data := { data with
      willQos := some (flagWillQos flags), willRetained := some (flagWillRetain flags) }
    let topicName := readMqttLenString buf curdata enddata
    let data := { data with willTopicName := topicName.fields }
    if topicName.rc = false then (false, data)
    else
      let message := readMqttLenString buf topicName.ptr enddata
      let data := { data with willMessage := message.fields }
      if message.rc = false then (false, data)
      else deserializeCredentials buf flags message.ptr enddata data
  else deserializeCredentials buf flags curdata enddata data

def mqttDeserializeConnect (buf : Nat → UInt8) (len : Nat) : Option (Bool × ConnectFields) :=
  if headerType (buf 0) ≠ 1 then some (false, .unset)
  else do
    let decoded ← mqttPacketDecodeBuf buf 1
    let protocol := readMqttLenString buf (1 + decoded.1) len
    if protocol.rc = false ∨ len < protocol.ptr then return (false, .unset)
    if mqttPacketCheckVersion buf (protocol.data.getD 0) (protocol.len.getD 0)
        (buf protocol.ptr) = false then
      return (false, .unset)
    let flags := buf (protocol.ptr + 1)
    let clientID := readMqttLenString buf (protocol.ptr + 4) len
    let data := { ConnectFields.unset with
      cleansession := some (flagCleansession flags)
      keepAliveInterval := some (readInt buf (protocol.ptr + 2))
      clientID := clientID.fields }
    if clientID.rc = false then return (false, data)
    return deserializeWill buf flags clientID.ptr len data

section Strings

def MqttString.text (s : MqttString) : List UInt8 := s.cstring.elim (s.lenstring.getD []) cString

/-- A string as the library's callers set one: in one of its two forms, with a length of 16 bits. -/
structure MqttString.Proper (s : MqttString) : Prop where
  one_form : s.cstring = none ∨ s.lenstring.getD [] = []
  length_lt : s.text.length < 65536

def writeText (t : List UInt8) : List UInt8 := writeInt t.length ++ t

@[simp] theorem length_writeText (t : List UInt8) : (writeText t).length = 2 + t.length :=
  List.length_append

theorem mqttStrlen_eq (s : MqttString) : mqttStrlen s = s.text.length := by
  obtain ⟨c, l⟩ := s
  cases c <;> rfl

theorem MqttString.Proper.write {s : MqttString} (h : s.Proper) :
    writeMqttString s = writeText s.text := by
  obtain ⟨c, l⟩ := s
  cases c with
  | none =>
    by_cases hl : 0 < (l.getD []).length
    · exact if_pos hl
    · have hnil : l.getD [] = [] := List.length_eq_zero_iff.mp (Nat.eq_zero_of_not_pos hl)
      refine (if_neg hl).trans ?_
      change writeInt 0 = writeInt (l.getD []).length ++ l.getD []
      rw [hnil]
      rfl
  | some c =>
    have hnil : l.getD [] = [] := h.one_form.resolve_left (Option.some_ne_none c)
    refine (if_neg ?_).trans rfl
    change ¬ 0 < (l.getD []).length
    rw [hnil]
    exact Nat.lt_irrefl 0

theorem MqttString.proper_ofCString {s : List UInt8} (h : (cString s).length < 65536) :
    (MqttString.ofCString s).Proper := ⟨.inr rfl, h⟩

theorem MqttString.proper_null : MqttString.null.Proper := ⟨.inl rfl, by decide⟩

end Strings

section Cursor

variable {buf : Nat → UInt8} {curdata enddata : Nat} {t bs cs : List UInt8}

structure Rest (buf : Nat → UInt8) (curdata enddata : Nat) (bs : List UInt8) : Prop where
  holds : Access.Holds buf curdata bs
  enddata_eq : enddata = curdata + bs.length

def StringFields.Read (buf : Nat → UInt8) (f : StringFields) (t : List UInt8) : Prop :=
  f.len = some t.length ∧ ∃ a, f.data = some a ∧ Access.Holds buf a t

theorem Rest.skip (h : Rest buf curdata enddata (bs ++ cs)) :
    Rest buf (curdata + bs.length) enddata cs := by
  refine ⟨(Access.holds_append_iff.mp h.holds).2, ?_⟩
  rw [h.enddata_eq, List.length_append, Nat.add_assoc]

theorem Rest.read (h : Rest buf curdata enddata (writeText t ++ bs)) (ht : t.length < 65536) :
    ∃ s, readMqttLenString buf curdata enddata = s ∧ s.rc = true ∧ s.len = some t.length ∧
      s.data = some (curdata + 2) ∧ s.ptr = curdata + (2 + t.length) ∧
      Access.Holds buf (curdata + 2) t ∧ s.fields.Read buf t ∧
      Rest buf s.ptr enddata bs := by
  have hrest := h.skip
  rw [length_writeText] at hrest
  obtain ⟨htext, -⟩ := Access.holds_append_iff.mp h.holds
  obtain ⟨hlength, htext⟩ := Access.holds_append_iff.mp htext
  rw [length_writeInt] at htext
  have hint := readInt_of_holds hlength ht
  have hend := h.enddata_eq
  rw [List.length_append, length_writeText] at hend
  have hroom : curdata + 1 < enddata := by omega
  have hfits : curdata + 2 + readInt buf curdata ≤ enddata := by omega
  have heq : readMqttLenString buf curdata enddata =
      { rc := true, len := some t.length, data := some (curdata + 2),
        ptr := curdata + (2 + t.length) } := by
    rw [readMqttLenString, if_pos hroom, if_pos hfits, hint, Nat.add_assoc]
  exact ⟨_, heq, rfl, rfl, rfl, rfl, htext, ⟨rfl, _, rfl, htext⟩, hrest⟩

end Cursor

section Flags

variable (o : ConnectData)

theorem toNat_connectFlags : (connectFlags o).toNat = o.cleansession % 2 * 2 +
    (if o.willFlag then 4 + o.will.qos % 4 * 8 + o.will.retained % 2 * 32 else 0) +
    (if o.password.isSet then 64 else 0) + (if o.username.isSet then 128 else 0) := by
  rw [connectFlags, UInt8.toNat_ofNat']
  apply Nat.mod_eq_of_lt
  split <;> split <;> split <;> omega

theorem flagCleansession_connectFlags :
    flagCleansession (connectFlags o) = o.cleansession % 2 := by
  rw [flagCleansession, toNat_connectFlags]
  split <;> split <;> split <;> omega

theorem flagWill_connectFlags :
    flagWill (connectFlags o) = if o.willFlag then 1 else 0 := by
  rw [flagWill, toNat_connectFlags]
  split <;> split <;> split <;> omega

theorem flagWillQos_connectFlags (h : o.willFlag = true) :
    flagWillQos (connectFlags o) = o.will.qos % 4 := by
  rw [flagWillQos, toNat_connectFlags, if_pos h]
  split <;> split <;> omega

theorem flagWillRetain_connectFlags (h : o.willFlag = true) :
    flagWillRetain (connectFlags o) = o.will.retained % 2 := by
  rw [flagWillRetain, toNat_connectFlags, if_pos h]
  split <;> split <;> omega

theorem flagPassword_connectFlags :
    flagPassword (connectFlags o) = if o.password.isSet then 1 else 0 := by
  rw [flagPassword, toNat_connectFlags]
  split <;> split <;> split <;> omega

theorem flagUsername_connectFlags :
    flagUsername (connectFlags o) = if o.username.isSet then 1 else 0 := by
  rw [flagUsername, toNat_connectFlags]
  split <;> split <;> split <;> omega

end Flags

namespace ConnectData

structure Proper (o : ConnectData) : Prop where
  version : o.mqttVersion = 3 ∨ o.mqttVersion = 4
  keepAlive : o.keepAliveInterval < 65536
  cleansession : o.cleansession < 2
  will : o.will.qos < 4 ∧ o.will.retained < 2
  clientID : o.clientID.Proper
  willTexts : o.will.topicName.Proper ∧ o.will.message.Proper
  username : o.username.Proper
  password : o.password.Proper

/-- The credentials are among those that the server's side takes: no password without a user name,
no empty password, and no empty user name at the end of the packet. -/
def CredentialsTaken (o : ConnectData) : Prop :=
  (o.password.isSet = true → o.username.isSet = true ∧ o.password.text ≠ []) ∧
    (o.username.isSet = true → o.password.isSet = true ∨ o.username.text ≠ [])

instance (o : ConnectData) : Decidable o.CredentialsTaken := inferInstanceAs (Decidable (_ ∧ _))

def credentials (o : ConnectData) : List UInt8 :=
  (if o.username.isSet then writeText o.username.text else []) ++
    if o.password.isSet then writeText o.password.text else []

def willPart (o : ConnectData) : List UInt8 :=
  if o.willFlag then writeText o.will.topicName.text ++ writeText o.will.message.text else []

def protocol (o : ConnectData) : List UInt8 :=
  if o.mqttVersion = 4 then writeText (ascii "MQTT") ++ [4] else writeText (ascii "MQIsdp") ++ [3]

def body (o : ConnectData) : List UInt8 :=
  o.protocol ++ (connectFlags o :: (writeInt o.keepAliveInterval ++
    (writeText o.clientID.text ++ (o.willPart ++ o.credentials))))

end ConnectData

structure ConnectFields.Carry (buf : Nat → UInt8) (data : ConnectFields) (o : ConnectData) :
    Prop where
  cleansession : data.cleansession = some o.cleansession
  keepAliveInterval : data.keepAliveInterval = some o.keepAliveInterval
  clientID : data.clientID.Read buf o.clientID.text
  willFlag : data.willFlag = some (if o.willFlag then 1 else 0)
  will : if o.willFlag then
      data.willQos = some o.will.qos ∧ data.willRetained = some o.will.retained ∧
        data.willTopicName.Read buf o.will.topicName.text ∧
        data.willMessage.Read buf o.will.message.text
    else data.willQos = none ∧ data.willRetained = none ∧ data.willTopicName = .unset ∧
      data.willMessage = .unset
  username : if o.username.isSet then data.username.Read buf o.username.text
    else data.username = .unset
  password : if o.password.isSet then data.password.Read buf o.password.text
    else data.password = .unset

section Connect

variable {buf : Nat → UInt8} {curdata enddata : Nat} {bs : List UInt8} {o : ConnectData}
  {data : ConnectFields}

theorem deserializeCredentials_eq (h : Rest buf curdata enddata o.credentials) (ho : o.Proper)
    (hunset : data.username = .unset ∧ data.password = .unset) :
    ∃ username password, deserializeCredentials buf (connectFlags o) curdata enddata data =
        (decide o.CredentialsTaken, { data with username, password }) ∧
      (o.CredentialsTaken →
        (if o.username.isSet then username.Read buf o.username.text else username = .unset) ∧
        (if o.password.isSet then password.Read buf o.password.text else password = .unset)) := by
  rw [deserializeCredentials, flagUsername_connectFlags, flagPassword_connectFlags]
  by_cases hu : o.username.isSet = true
  · by_cases hp : o.password.isSet = true
    · have hbytes : o.credentials =
          writeText o.username.text ++ (writeText o.password.text ++ []) := by
        rw [ConnectData.credentials, if_pos hu, if_pos hp, List.append_nil]
      rw [hbytes] at h
      have hroom := h.enddata_eq
      simp only [List.length_append, length_writeText, List.length_nil] at hroom
      obtain ⟨s, hs, hrc, -, -, hptr, -, hread, hrest⟩ := h.read ho.username.length_lt
      simp only [if_pos hu, if_pos hp, if_true, hs, hrc, Bool.true_eq_false, if_false]
      rw [if_neg (by omega)]
      by_cases hempty : o.password.text = []
      · have hshort : enddata < s.ptr + 3 := by
          rw [hempty, List.length_nil] at hroom
          omega
        have hnot : ¬ o.CredentialsTaken := fun htaken => (htaken.1 hp).2 hempty
        rw [if_pos hshort, decide_eq_false hnot]
        exact ⟨s.fields, data.password, rfl, fun htaken => absurd htaken hnot⟩
      · have hpos := List.length_pos_of_ne_nil hempty
        obtain ⟨s', hs', hrc', -, -, -, -, hread', -⟩ := hrest.read ho.password.length_lt
        have htaken : o.CredentialsTaken := ⟨fun _ => ⟨hu, hempty⟩, fun _ => .inl hp⟩
        rw [if_neg (by omega), hs', hrc', decide_eq_true htaken]
        exact ⟨s.fields, s'.fields, rfl, fun _ => ⟨hread, hread'⟩⟩
    · have hbytes : o.credentials = writeText o.username.text ++ [] := by
        rw [ConnectData.credentials, if_pos hu, if_neg hp]
      rw [hbytes] at h
      have hroom := h.enddata_eq
      simp only [List.length_append, length_writeText, List.length_nil] at hroom
      obtain ⟨s, hs, hrc, -, -, hptr, -, hread, -⟩ := h.read ho.username.length_lt
      simp only [if_pos hu, if_neg hp, if_true, hs, hrc, Bool.true_eq_false, if_false,
        Nat.zero_ne_one]
      by_cases hempty : o.username.text = []
      · have hshort : enddata < curdata + 3 := by
          rw [hempty, List.length_nil] at hroom
          omega
        have hnot : ¬ o.CredentialsTaken := fun htaken =>
          (htaken.2 hu).elim hp fun hne => hne hempty
        rw [if_pos hshort, decide_eq_false hnot]
        exact ⟨data.username, data.password, rfl, fun htaken => absurd htaken hnot⟩
      · have hpos := List.length_pos_of_ne_nil hempty
        have htaken : o.CredentialsTaken := ⟨fun hset => absurd hset hp, fun _ => .inr hempty⟩
        rw [if_neg (by omega), decide_eq_true htaken]
        exact ⟨s.fields, data.password, rfl, fun _ => ⟨hread, hunset.2⟩⟩
  · have htaken : o.CredentialsTaken ↔ ¬ o.password.isSet = true :=
      ⟨fun htaken hp => hu (htaken.1 hp).1, fun hp => ⟨fun hset => absurd hset hp,
        fun hset => absurd hset hu⟩⟩
    have heq : decide ((if o.password.isSet = true then 1 else 0) = 0) =
        decide o.CredentialsTaken := by
      rw [decide_eq_decide, htaken]
      split <;> simp [*]
    simp only [if_neg hu, Nat.zero_ne_one, if_false]
    refine ⟨data.username, data.password, by rw [heq], fun hcred => ⟨hunset.1, ?_⟩⟩
    rw [if_neg (htaken.mp hcred)]
    exact hunset.2

theorem deserializeWill_eq {clientID : StringFields}
    (h : Rest buf curdata enddata (o.willPart ++ o.credentials)) (ho : o.Proper)
    (hclientID : clientID.Read buf o.clientID.text) :
    ∃ data, deserializeWill buf (connectFlags o) curdata enddata
        { ConnectFields.unset with
          cleansession := some o.cleansession
          keepAliveInterval := some o.keepAliveInterval
          clientID } = (decide o.CredentialsTaken, data) ∧
      (o.CredentialsTaken → data.Carry buf o) := by
  rw [deserializeWill, flagWill_connectFlags]
  by_cases hwill : o.willFlag = true
  · rw [ConnectData.willPart, if_pos hwill, List.append_assoc] at h
    obtain ⟨t, ht, hrc, -, -, -, -, htopic, hrest⟩ := h.read ho.willTexts.1.length_lt
    obtain ⟨m, hm, hrc', -, -, -, -, hmessage, hrest⟩ := hrest.read ho.willTexts.2.length_lt
    simp only [if_pos hwill, if_true, ht, hrc, hm, hrc', Bool.true_eq_false, if_false,
      flagWillQos_connectFlags o hwill, flagWillRetain_connectFlags o hwill,
      Nat.mod_eq_of_lt ho.will.1, Nat.mod_eq_of_lt ho.will.2]
    obtain ⟨u, p, heq, hread⟩ := @deserializeCredentials_eq _ _ _ _
      { ConnectFields.unset with
        cleansession := some o.cleansession
        keepAliveInterval := some o.keepAliveInterval
        clientID
        willFlag := some 1
        willQos := some o.will.qos
        willRetained := some o.will.retained
        willTopicName := t.fields
        willMessage := m.fields } hrest ho ⟨rfl, rfl⟩
    refine ⟨_, heq, fun htaken => ?_⟩
    refine ⟨rfl, rfl, hclientID, ?_, ?_, (hread htaken).1, (hread htaken).2⟩
    · rw [if_pos hwill]
    · rw [if_pos hwill]
      exact ⟨rfl, rfl, htopic, hmessage⟩
  · rw [ConnectData.willPart, if_neg hwill, List.nil_append] at h
    simp only [if_neg hwill, Nat.zero_ne_one, if_false]
    obtain ⟨u, p, heq, hread⟩ := @deserializeCredentials_eq _ _ _ _
      { ConnectFields.unset with
        cleansession := some o.cleansession
        keepAliveInterval := some o.keepAliveInterval
        clientID
        willFlag := some 0 } h ho ⟨rfl, rfl⟩
    refine ⟨_, heq, fun htaken => ?_⟩
    refine ⟨rfl, rfl, hclientID, ?_, ?_, (hread htaken).1, (hread htaken).2⟩
    · rw [if_neg hwill]
    · rw [if_neg hwill]
      exact ⟨rfl, rfl, rfl, rfl⟩

theorem length_protocol (ho : o.Proper) : o.protocol.length =
    if o.mqttVersion = 3 then 9 else 7 := by
  rw [ConnectData.protocol]
  obtain h | h := ho.version <;> simp [h, ascii]

theorem length_connectBody (ho : o.Proper) : o.body.length = mqttSerializeConnectLength o := by
  have hwill : o.willPart.length = if o.willFlag then
      mqttStrlen o.will.topicName + 2 + mqttStrlen o.will.message + 2 else 0 := by
    rw [ConnectData.willPart, mqttStrlen_eq, mqttStrlen_eq]
    split
    next =>
      rw [List.length_append, length_writeText, length_writeText]
      omega
    next => rfl
  have hcredentials : o.credentials.length =
      (if o.username.isSet then mqttStrlen o.username + 2 else 0) +
        if o.password.isSet then mqttStrlen o.password + 2 else 0 := by
    rw [ConnectData.credentials, mqttStrlen_eq, mqttStrlen_eq, List.length_append]
    split <;> split <;> simp only [length_writeText, List.length_nil] <;> omega
  have hbase : (if o.mqttVersion = 3 then 12 else if o.mqttVersion = 4 then 10 else 0) =
      (if o.mqttVersion = 3 then 9 else 7) + 3 := by
    obtain h | h := ho.version <;> rw [h] <;> rfl
  rw [ConnectData.body, mqttSerializeConnectLength, hbase]
  simp only [List.length_append, List.length_cons, length_writeInt, length_writeText,
    length_protocol ho, hwill, hcredentials, mqttStrlen_eq o.clientID]
  omega

theorem mqttSerializeConnect_eq_some {buflen : Nat} {packet : List UInt8} (ho : o.Proper)
    (h : mqttSerializeConnect buflen o = some packet) :
    packet = mqttHeader 1 0 0 0 :: (mqttPacketEncode o.body.length ++ o.body) := by
  rw [mqttSerializeConnect] at h
  split at h
  next => cases h
  next =>
    rw [← Option.some.inj h, length_connectBody ho, ho.clientID.write, ho.willTexts.1.write,
      ho.willTexts.2.write, ho.username.write, ho.password.write, ConnectData.body,
      ConnectData.protocol, ConnectData.willPart, ConnectData.credentials]
    have hname : writeCString (ascii "MQTT") = writeText (ascii "MQTT") ∧
      writeCString (ascii "MQIsdp") = writeText (ascii "MQIsdp") := ⟨rfl, rfl⟩
    rw [hname.1, hname.2]
    simp only [List.cons_append, List.append_assoc, List.nil_append]

theorem checkVersion_protocol (ho : o.Proper)
    (h : Rest buf curdata enddata (o.protocol ++ bs)) :
    ∃ s, readMqttLenString buf curdata enddata = s ∧ s.rc = true ∧ s.ptr ≤ enddata ∧
      mqttPacketCheckVersion buf (s.data.getD 0) (s.len.getD 0) (buf s.ptr) = true ∧
      Rest buf (s.ptr + 1) enddata bs := by
  have hname : ∃ name version, o.protocol = writeText name ++ [version] ∧ name.length < 65536 ∧
      ∀ data, slice buf data name.length = name →
        mqttPacketCheckVersion buf data name.length version = true := by
    obtain hversion | hversion := ho.version
    · refine ⟨ascii "MQIsdp", 3, if_neg (by rw [hversion]; decide), by decide, fun data hdata => ?_⟩
      rw [mqttPacketCheckVersion, protocolIs, Nat.min_self, hdata, List.take_length]
      rfl
    · refine ⟨ascii "MQTT", 4, if_pos hversion, by decide, fun data hdata => ?_⟩
      rw [mqttPacketCheckVersion, protocolIs, protocolIs, Nat.min_self, hdata, List.take_length]
      simp
  obtain ⟨name, version, hprotocol, hlt, hcheck⟩ := hname
  rw [hprotocol, List.append_assoc] at h
  obtain ⟨s, hs, hrc, hlen, hdata, -, hholds, -, hrest⟩ := h.read hlt
  refine ⟨s, hs, hrc, ?_, ?_, hrest.skip⟩
  · rw [hrest.enddata_eq]
    exact Nat.le_add_right _ _
  · rw [hlen, hdata, (Access.holds_cons_iff.mp hrest.holds).1]
    exact hcheck _ (slice_of_holds hholds)

theorem length_connectBody_lt (ho : o.Proper) : o.body.length < 128 ^ 4 := by
  have hlt := ho.clientID.length_lt
  have htopic := ho.willTexts.1.length_lt
  have hmessage := ho.willTexts.2.length_lt
  have hu := ho.username.length_lt
  have hp := ho.password.length_lt
  rw [length_connectBody ho, mqttSerializeConnectLength]
  simp only [mqttStrlen_eq]
  (repeat' split) <;> omega

theorem mqttDeserializeConnect_eq {buflen : Nat} {packet : List UInt8} (ho : o.Proper)
    (hpacket : mqttSerializeConnect buflen o = some packet) (hbuf : Access.Holds buf 0 packet) :
    ∃ data, mqttDeserializeConnect buf packet.length = some (decide o.CredentialsTaken, data) ∧
      (o.CredentialsTaken → data.Carry buf o) := by
  have heq := mqttSerializeConnect_eq_some ho hpacket
  have hlength : packet.length = 1 + (mqttPacketEncode o.body.length).length + o.body.length := by
    rw [heq, List.length_cons, List.length_append]
    omega
  rw [heq, Access.holds_cons_iff, Access.holds_append_iff, Nat.zero_add] at hbuf
  obtain ⟨hheader, hencode, hbody⟩ := hbuf
  have hdecode := mqttPacketDecodeBuf_encode (length_connectBody_lt ho) hencode
  have hrest : Rest buf (1 + (mqttPacketEncode o.body.length).length) packet.length
      (o.protocol ++ (connectFlags o :: (writeInt o.keepAliveInterval ++
        (writeText o.clientID.text ++ (o.willPart ++ o.credentials))))) := ⟨hbody, hlength⟩
  obtain ⟨s, hs, hrc, hle, hcheck, hrest⟩ := checkVersion_protocol ho hrest
  obtain ⟨hflags, hrestHolds⟩ := Access.holds_cons_iff.mp hrest.holds
  have hkeep := readInt_of_holds (Access.holds_append_iff.mp hrestHolds).1 ho.keepAlive
  have hclient : Rest buf (s.ptr + 4) packet.length
      (writeText o.clientID.text ++ (o.willPart ++ o.credentials)) :=
    @Rest.skip _ _ _ ([connectFlags o] ++ writeInt o.keepAliveInterval) _
      (by rw [List.append_assoc]; exact hrest)
  obtain ⟨c, hc, hrcc, -, -, -, -, hread, hrest⟩ := hclient.read ho.clientID.length_lt
  obtain ⟨data, hwill, hcarry⟩ := deserializeWill_eq hrest ho hread
  have htype : headerType (mqttHeader 1 0 0 0) = 1 := headerType_mqttHeader
  refine ⟨data, ?_, hcarry⟩
  rw [mqttDeserializeConnect, hheader, htype, if_neg (not_not_intro rfl), hdecode]
  simp only [bind, Option.bind_some, pure, hs, hrc, hcheck, Bool.true_eq_false, if_false, hflags,
    hkeep, hc, hrcc, false_or, Nat.not_lt.mpr hle]
  rw [flagCleansession_connectFlags, Nat.mod_eq_of_lt ho.cleansession]
  exact congrArg some hwill

/-- A CONNECT that is serialised and read back: exactly those are taken whose credentials the
server's side takes, and what has been set then says what the options say. -/
theorem connect_read_back {buflen : Nat} {packet : List UInt8} (ho : o.Proper)
    (hpacket : mqttSerializeConnect buflen o = some packet) (hbuf : Access.Holds buf 0 packet) :
    ∃ rc data, mqttDeserializeConnect buf packet.length = some (rc, data) ∧
      (rc = true ↔ o.CredentialsTaken) ∧ (rc = true → data.Carry buf o) := by
  obtain ⟨data, heq, hcarry⟩ := mqttDeserializeConnect_eq ho hpacket hbuf
  exact ⟨_, data, heq, decide_eq_true_iff, fun h => hcarry (of_decide_eq_true h)⟩

def willOptions : ConnectData :=
  { ConnectData.initializer with
    clientID := .ofCString (ascii "RadProt_IoT")
    willFlag := true
    will := {
      topicName := .ofCString (ascii "r/gone")
      message := .ofCString (ascii "1")
      retained := 1
      qos := 1 }
    username := .ofCString (ascii "lab") }

theorem will_read_back : ∃ packet data, mqttSerializeConnect 80 willOptions = some packet ∧
    mqttDeserializeConnect (fun i => packet.getD i 0) packet.length = some (true, data) ∧
    data.willRetained = some 1 := by
  have ho : willOptions.Proper :=
    ⟨.inr rfl, by decide, by decide, by decide, MqttString.proper_ofCString (by decide),
      ⟨MqttString.proper_ofCString (by decide), MqttString.proper_ofCString (by decide)⟩,
      MqttString.proper_ofCString (by decide), MqttString.proper_null⟩
  have hsome : (mqttSerializeConnect 80 willOptions).isSome = true :=
    mqttSerializeConnect_isSome_iff.mpr (by decide)
  obtain ⟨packet, hpacket⟩ := Option.isSome_iff_exists.mp hsome
  obtain ⟨rc, data, heq, hrc, hcarry⟩ := connect_read_back ho hpacket (holds_getD packet fun _ => 0)
  have htrue : rc = true := hrc.mpr (by decide)
  exact ⟨packet, data, hpacket, htrue ▸ heq, (hcarry htrue).will.2.1⟩

end Connect

section Device

open RadProt.Settings

variable {r : ClientModeSettings} {packet : List UInt8} {buf : Nat → UInt8}

theorem proper_connectData (h : mqttSerializeConnect 80 (connectData r) = some packet) :
    (connectData r).Proper := by
  have hfits := (connectPacket_isSome_iff r).mp (Option.isSome_iff_exists.mpr ⟨packet, h⟩)
  have hu : cString (usernameString r) = usernameString r := cString_cString _
  have hp : cString (mqttPasswordString r) = mqttPasswordString r := cString_cString _
  refine ⟨.inl rfl, (by decide : 60 < 65536), (by decide : 1 < 2), (by decide : 0 < 4 ∧ 0 < 2),
    MqttString.proper_ofCString (by decide), ⟨MqttString.proper_null, MqttString.proper_null⟩,
    MqttString.proper_ofCString ?_, MqttString.proper_ofCString ?_⟩
  · rw [hu]
    omega
  · rw [hp]
    omega

/-- The device always announces both a user name and a password: the server's side takes its
CONNECT exactly if the stored password is not empty, and then has the stored credentials. -/
theorem credentials_read_back (h : mqttSerializeConnect 80 (connectData r) = some packet)
    (hbuf : Access.Holds buf 0 packet) :
    ∃ rc data, mqttDeserializeConnect buf packet.length = some (rc, data) ∧
      (rc = true ↔ mqttPasswordString r ≠ []) ∧
      (rc = true → data.clientID.Read buf (ascii "RadProt_IoT") ∧ data.willFlag = some 0 ∧
        data.keepAliveInterval = some 60 ∧ data.cleansession = some 1 ∧
        data.username.Read buf (usernameString r) ∧
        data.password.Read buf (mqttPasswordString r)) := by
  have hu : (connectData r).username.text = usernameString r := cString_cString _
  have hp : (connectData r).password.text = mqttPasswordString r := cString_cString _
  have htaken : (connectData r).CredentialsTaken ↔ mqttPasswordString r ≠ [] := by
    rw [ConnectData.CredentialsTaken, hp]
    exact ⟨fun h => (h.1 rfl).2, fun h => ⟨fun _ => ⟨rfl, h⟩, fun _ => .inl rfl⟩⟩
  obtain ⟨data, heq, hcarry⟩ := mqttDeserializeConnect_eq (proper_connectData h) h hbuf
  refine ⟨_, data, heq, by rw [decide_eq_true_iff, htaken], fun hrc => ?_⟩
  have hdata := hcarry (of_decide_eq_true hrc)
  have husername : data.username.Read buf (connectData r).username.text := hdata.username
  have hpassword : data.password.Read buf (connectData r).password.text := hdata.password
  rw [hu] at husername
  rw [hp] at hpassword
  exact ⟨hdata.clientID, hdata.willFlag, hdata.keepAliveInterval, hdata.cleansession, husername,
    hpassword⟩

theorem empty_credentials_refused : ∃ packet data,
    mqttSerializeConnect 80 (connectData (brokerSettings [] [])) = some packet ∧
      mqttDeserializeConnect (fun i => packet.getD i 0) packet.length = some (false, data) := by
  have hsome : (mqttSerializeConnect 80 (connectData (brokerSettings [] []))).isSome = true :=
    (connectPacket_isSome_iff _).mpr (by decide)
  obtain ⟨packet, hpacket⟩ := Option.isSome_iff_exists.mp hsome
  obtain ⟨rc, data, heq, hrc, -⟩ := credentials_read_back hpacket (holds_getD packet fun _ => 0)
  have hfalse : rc = false := Bool.eq_false_iff.mpr fun h => hrc.mp h (by decide)
  exact ⟨packet, data, hpacket, hfalse ▸ heq⟩

end Device

end RadProt.Mqtt
