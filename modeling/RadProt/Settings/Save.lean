import RadProt.Lib.Except
import RadProt.Settings.Json
import RadProt.Settings.Record

namespace RadProt.Settings

open RadProt.Lib

structure Sdk where
  /-- `none` when the text is no address; the output is then left alone. -/
  ipaddrAton : List UInt8 → Option UInt32
  /-- The bits of the result, narrowed to `float`. -/
  atof : List UInt8 → UInt32
  asUInt16 : Json → UInt16
  authOpen : Int32
  authWpaTkipPsk : Int32
  authWpa3Wpa2AesPsk : Int32
  authWpa2MixedPsk : Int32

inductive Fault
  | strncpy | strcmp | atoi | atof | ipaddrAton
  deriving DecidableEq

def deref (f : Fault) : Option (List UInt8) → Except Fault (List UInt8)
  | some s => .ok s
  | none => .error f

def scanAuthModeToConnectAuthMode (sdk : Sdk) (scanAuthMode : Int) : Int32 :=
  if scanAuthMode = 0 then sdk.authOpen
  else if scanAuthMode = 3 then sdk.authWpaTkipPsk
  else if scanAuthMode = 5 then sdk.authWpa3Wpa2AesPsk
  else if scanAuthMode = 7 then sdk.authWpa2MixedPsk
  else -1

def convertIpv4 (sdk : Sdk) (old : Ipv4Settings) (j : Json) : Except Fault Ipv4Settings := do
  let dhcp := (j.get "dhcp").asBool
  let ip ← deref .ipaddrAton (j.get "ip").asCStr
  let nm ← deref .ipaddrAton (j.get "nm").asCStr
  let gw ← deref .ipaddrAton (j.get "gw").asCStr
  return { old with
    dhcp
    ip := (sdk.ipaddrAton ip).getD old.ip
    nm := (sdk.ipaddrAton nm).getD old.nm
    gw := (sdk.ipaddrAton gw).getD old.gw }

def convertWifi (sdk : Sdk) (old : WifiSettings) (j : Json) : Except Fault WifiSettings := do
  let ssid ← deref .strncpy (j.get "ssid").asCStr
  let password ← deref .strncpy (j.get "password").asCStr
  let authMode ← deref .atoi (j.get "auth_mode").asCStr
  let ipv4 ← convertIpv4 sdk old.ipv4 j
  return {
    ssid := .strncpy 32 ssid
    password := .strncpy 32 password
    authMode := scanAuthModeToConnectAuthMode sdk (atoi authMode)
    ipv4 }

def convertEth (sdk : Sdk) (old : EthernetSettings) (j : Json) : Except Fault EthernetSettings := do
  let ipv4 ← convertIpv4 sdk old.ipv4 j
  return { ipv4 }

def convertMqtt (j : Json) : Except Fault MqttSettings := do
  let broker ← deref .strncpy (j.get "broker").asCStr
  let port ← deref .atoi (j.get "port").asCStr
  let username ← deref .strncpy (j.get "username").asCStr
  let password ← deref .strncpy (j.get "password").asCStr
  return {
    broker := .strncpy 32 broker
    port := .ofInt (atoi port)
    username := .strncpy 32 username
    password := .strncpy 32 password }

def convertPublishSettings (sdk : Sdk) (old : PublishSettingsEntry) (pS : Json) :
    Except Fault PublishSettingsEntry := do
  let name ← deref .strncpy (pS.get "name").asCStr
  let avgCnt ← deref .atoi (pS.get "avg_cnt").asCStr
  let scale ← deref .atof (pS.get "scale").asCStr
  let topic ← deref .strncpy (pS.get "topic").asCStr
  return { old with
    enabled := (pS.get "enabled").asBool
    name := .strncpy 10 name
    start := sdk.asUInt16 (pS.get "start")
    «end» := sdk.asUInt16 (pS.get "end")
    isNum := (pS.get "is_num").asBool
    avgCnt := .ofInt (atoi avgCnt)
    scale := sdk.atof scale
    topic := .strncpy 30 topic }

def convertSensor (sdk : Sdk) (old : SensorSettingsEntry) (sS : Json) :
    Except Fault SensorSettingsEntry := do
  let baud ← deref .atoi (sS.get "baud").asCStr
  let publishSettings ← fillM 10 fun j =>
    convertPublishSettings sdk old.publishSettings[j] ((sS.get "p_s").elem j)
  return { old with
    baudrate := .ofInt (atoi baud)
    enabled := (sS.get "enabled").asBool
    simulateValues := (sS.get "simulate_values").asBool
    publishSettings }

def convertSettings (sdk : Sdk) (old : ClientModeSettings) (post : Json) :
    Except Fault ClientModeSettings := do
  let wifi ← convertWifi sdk old.wifi (post.get "wifi")
  let eth ← convertEth sdk old.eth (post.get "eth")
  let connType := if (post.get "conn_type").eqCStr [87, 73, 70, 73] then .wifi else .ethernet
  let mqtt ← convertMqtt (post.get "mqtt")
  let sensorSettings ← fillM 3 fun i =>
    convertSensor sdk old.sensorSettings[i] ((post.get "s_s").elem i)
  return { old with wifi, eth, connType, mqtt, sensorSettings }

/-- What the password block decides: the record to store, whether to store it, and its message. -/
structure PasswordCheck where
  newSettings : ClientModeSettings
  saveSettings : Bool
  message : Option String

def checkPassword (initialConfig : Bool) (old new : ClientModeSettings) (password : Json) :
    Except Fault PasswordCheck :=
  if initialConfig then do
    let posted ← deref .strcmp password.asCStr
    let undefinedPassword : Bool := posted = [] ∧ old.passwordString = []
    let newSettings ←
      if password.asBool then do
        let src ← deref .strncpy password.asCStr
        pure { new with password := .strncpy 8 src }
      else pure new
    return {
      newSettings
      saveSettings := !undefinedPassword
      message := if undefinedPassword then some "Define a Password to Protect Settings" else none }
  else
    let wrong : Bool := !password.eqCStr old.passwordString
    return {
      newSettings := new
      saveSettings := !wrong
      message := if wrong then some "Wrong Password" else none }

structure Device where
  flash : ClientModeSettings
  initialConfig : Bool
  mqttReconnect : Bool
  deriving DecidableEq

structure SaveResult where
  device : Device
  /-- `write_client_mode_settings` ran. -/
  saved : Bool
  rebootRequested : Bool
  response : List (String × Json)

def Json.text (s : String) : Json := .str s.toUTF8.toList

/-- `memcmp` over two records: their gaps are equal, since the new one was copied from the old. -/
def needsReboot (old new : ClientModeSettings) : Bool :=
  let networkSettingsChanged : Bool :=
    old.connType ≠ new.connType || old.wifi ≠ new.wifi || old.eth ≠ new.eth
  let mqttSettingsChanged : Bool := old.mqtt ≠ new.mqtt
  let sensorsSettingsChanged : Bool :=
    (List.finRange 3).any fun i =>
      old.sensorSettings[i].communicationSettingsChanged new.sensorSettings[i]
  networkSettingsChanged || sensorsSettingsChanged || mqttSettingsChanged

def storeSettings (d : Device) (check : PasswordCheck) : SaveResult :=
  let old := d.flash
  let message := check.message.toList.map fun m => ("message", Json.text m)
  if check.saveSettings then
    let stored := { d with flash := check.newSettings }
    -- The MQTT settings are part of `needsReboot`, so the branch that would only set
    -- `mqtt_reconnect` is never taken.
    if needsReboot old check.newSettings then
      { device := stored
        saved := true
        rebootRequested := true
        response := message ++ [("OK", .text "Rebooting")] }
    else
      { device := { stored with mqttReconnect := d.mqttReconnect || old.mqtt ≠ check.newSettings.mqtt }
        saved := true
        rebootRequested := false
        response := message ++ [("populate_readings", .bool true), ("message", .text "Settings saved")] }
  else
    { device := d, saved := false, rebootRequested := false, response := message }

def settingsSaveFn (sdk : Sdk) (d : Device) (postData : Except DeserializationError Json) :
    Except Fault SaveResult :=
  match postData with
  | .error _ => return { device := d, saved := false, rebootRequested := false, response := [] }
  | .ok post => do
    let newSettings ← convertSettings sdk d.flash post
    let check ← checkPassword d.initialConfig d.flash newSettings
      ((post.get "settings").get "password")
    return storeSettings d check

end RadProt.Settings
