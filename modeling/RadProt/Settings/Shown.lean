import RadProt.Settings.Changes
import RadProt.Settings.Strings

namespace RadProt.Settings

open RadProt.Lib

/-- What `settings_get_fn` reads besides the record: the mode, the state of the Ethernet chip, the
addresses of the two network cards, the alignment bytes of the record, and how the JSON library
takes a `float`. -/
structure Surface where
  initialConfig : Bool
  isAvailable : Bool
  wifiMac : Vector UInt8 6
  ethMac : Vector UInt8 6
  gaps : Gaps
  number : UInt32 → Json

def connectAuthModeToScanAuthMode (sdk : Sdk) (connectAuthMode : Int32) : Int :=
  if connectAuthMode = sdk.authOpen then 0
  else if connectAuthMode = sdk.authWpaTkipPsk then 3
  else if connectAuthMode = sdk.authWpa3Wpa2AesPsk then 5
  else if connectAuthMode = sdk.authWpa2MixedPsk then 7
  else -1

def hexDigit (n : UInt8) : UInt8 := if n < 10 then 48 + n else 55 + n

/-- `mac_addr_str`: the line break of the format has no room in the array. -/
def macAddrStr (mac : Vector UInt8 6) : List UInt8 :=
  [58].intercalate (mac.toList.map fun b => [hexDigit (b / 16), hexDigit (b % 16)])

namespace ClientModeSettings

/-! The record from each of its texts on. -/

variable (g : Gaps) (r : ClientModeSettings)

def fromMqttPassword : List UInt8 := r.mqtt.password.bytes ++ (r.password.bytes ++ r.afterPassword)

def fromUsername : List UInt8 := r.mqtt.username.bytes ++ r.fromMqttPassword

def fromBroker : List UInt8 := r.mqtt.broker.bytes ++ (le16 r.mqtt.port ++ r.fromUsername)

def fromWifiPassword : List UInt8 :=
  r.wifi.password.bytes ++ (le32 r.wifi.authMode.toUInt32 ++ (r.wifi.ipv4.image g.wifi ++
    (r.eth.image g.eth ++ r.fromBroker)))

def fromSsid : List UInt8 := r.wifi.ssid.bytes ++ r.fromWifiPassword g

theorem image_eq_fromSsid : r.image g = r.connType.byte :: (g.connType ++ r.fromSsid g) := by
  simp only [image, WifiSettings.image, MqttSettings.image, fromSsid, fromWifiPassword, fromBroker,
    fromUsername, fromMqttPassword, List.cons_append, List.append_assoc]

end ClientModeSettings

def Ipv4Settings.toJson (s : Ipv4Settings) : List (String × Json) := [
  ("dhcp", .bool s.dhcp),
  ("ip", .int s.ip.toNat),
  ("nm", .int s.nm.toNat),
  ("gw", .int s.gw.toNat),
  ("dns", .int s.dns.toNat)]

def PublishSettingsEntry.toJson (e : Surface) (p : PublishSettingsEntry) (name topic : List UInt8) :
    Json :=
  .obj [
    ("enabled", .bool p.enabled),
    ("name", .str name),
    ("start", .int p.start.toNat),
    ("end", .int p.end.toNat),
    ("is_num", .bool p.isNum),
    ("scale", e.number p.scale),
    ("avg_cnt", .int p.avgCnt.toInt),
    ("topic", .str topic)]

/-- The members of `client_mode_settings::to_json`, with `authMode` for the mode of the Wi-Fi
network; each array is read as the string at its address. -/
def ClientModeSettings.toJson (e : Surface) (r : ClientModeSettings) (authMode : Int) :
    List (String × Json) := [
  ("conn_type", .text (if r.connType = .wifi then "WIFI" else "ETHERNET")),
  ("wifi", .obj ([
    ("ssid", .str (cString (r.fromSsid e.gaps))),
    ("password", .str (cString (r.fromWifiPassword e.gaps))),
    ("auth_mode", .int authMode)] ++
    r.wifi.ipv4.toJson ++ [("mac_address", .str (macAddrStr e.wifiMac))])),
  ("eth", .obj (("is_available", .bool e.isAvailable) ::
    if e.isAvailable then
      r.eth.ipv4.toJson ++ [("mac_address", .str (macAddrStr e.ethMac))] else [])),
  ("mqtt", .obj [
    ("broker", .str (cString r.fromBroker)),
    ("port", .int r.mqtt.port.toNat),
    ("username", .str (cString r.fromUsername)),
    ("password", .str (cString r.fromMqttPassword))]),
  ("sensor_settings", .arr ((List.finRange 3).map fun i : Fin 3 =>
    .obj [
      ("baudrate", .int (r.sensorSettings.get i).baudrate.toNat),
      ("enabled", .bool (r.sensorSettings.get i).enabled),
      ("simulate_values", .bool (r.sensorSettings.get i).simulateValues),
      ("publish_settings", .arr ((List.finRange 10).map fun j : Fin 10 =>
        (r.publishSettings i j).toJson e (r.nameString i j) (r.topicString i j)))]))]

def settingsGetFn (sdk : Sdk) (e : Surface) (r : ClientModeSettings) : Json :=
  .obj (r.toJson e (connectAuthModeToScanAuthMode sdk r.wifi.authMode) ++
    [("initial_config", .bool e.initialConfig)])

def ClientModeSettings.withPassword (r : ClientModeSettings) (p : CharArray 8) :
    ClientModeSettings := { r with password := p }

section Password

variable {r : ClientModeSettings}

theorem cString_append_of_mem {s : List UInt8} (h : 0 ∈ s) (t : List UInt8) :
    cString (s ++ t) = cString s := by
  obtain ⟨rest, hrest⟩ := exists_of_zero_mem h
  rw [hrest, List.append_assoc, cString_append (zero_notMem_cString s), List.cons_append,
    cString_zero_cons, List.append_nil, cString_append (zero_notMem_cString s), cString_zero_cons,
    List.append_nil]

theorem cString_fromMqttPassword (h : 0 ∈ r.mqtt.password.bytes) (front : List UInt8)
    (p : CharArray 8) :
    cString (front ++ (r.withPassword p).fromMqttPassword) =
      cString (front ++ r.mqtt.password.bytes) := by
  have hmem : 0 ∈ front ++ r.mqtt.password.bytes := List.mem_append_right _ h
  rw [ClientModeSettings.fromMqttPassword, ← List.append_assoc]
  exact cString_append_of_mem hmem _

theorem cString_withPassword (h : 0 ∈ r.mqtt.password.bytes) (front : List UInt8)
    (p p' : CharArray 8) :
    cString (front ++ (r.withPassword p).fromMqttPassword) =
      cString (front ++ (r.withPassword p').fromMqttPassword) :=
  (cString_fromMqttPassword h front p).trans (cString_fromMqttPassword h front p').symm

theorem settingsGetFn_withPassword (sdk : Sdk) (e : Surface) (h : 0 ∈ r.mqtt.password.bytes)
    (p p' : CharArray 8) :
    settingsGetFn sdk e (r.withPassword p) = settingsGetFn sdk e (r.withPassword p') := by
  have hpassword : cString (r.withPassword p).fromMqttPassword =
      cString (r.withPassword p').fromMqttPassword := cString_withPassword h [] p p'
  have husername : cString (r.withPassword p).fromUsername =
      cString (r.withPassword p').fromUsername := cString_withPassword h _ p p'
  have hbroker : cString (r.withPassword p).fromBroker =
      cString (r.withPassword p').fromBroker := by
    simp only [ClientModeSettings.fromBroker, ClientModeSettings.fromUsername,
      ← List.append_assoc]
    exact cString_withPassword h _ p p'
  have hwifi : cString ((r.withPassword p).fromWifiPassword e.gaps) =
      cString ((r.withPassword p').fromWifiPassword e.gaps) := by
    simp only [ClientModeSettings.fromWifiPassword, ClientModeSettings.fromBroker,
      ClientModeSettings.fromUsername, ← List.append_assoc]
    exact cString_withPassword h _ p p'
  have hssid : cString ((r.withPassword p).fromSsid e.gaps) =
      cString ((r.withPassword p').fromSsid e.gaps) := by
    simp only [ClientModeSettings.fromSsid, ClientModeSettings.fromWifiPassword,
      ClientModeSettings.fromBroker, ClientModeSettings.fromUsername, ← List.append_assoc]
    exact cString_withPassword h _ p p'
  simp only [settingsGetFn, ClientModeSettings.toJson, hpassword, husername, hbroker, hwifi, hssid]
  rfl

end Password

end RadProt.Settings
