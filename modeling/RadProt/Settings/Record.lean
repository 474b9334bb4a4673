import RadProt.Lib.CString

namespace RadProt.Settings

open RadProt.Lib

/-! The flash record of `settings.h`, in declaration order. A field `gap` holds the alignment
bytes the compiler leaves at that place; assignments between records copy them. -/

structure PublishSettingsEntry where
  enabled : Bool
  name : CharArray 10
  gapName : List UInt8
  start : UInt16
  «end» : UInt16
  isNum : Bool
  gapNum : List UInt8
  /-- The bits of a single-precision `float`. -/
  scale : UInt32
  avgCnt : Int32
  topic : CharArray 30
  gapTopic : List UInt8
  deriving DecidableEq

structure SensorSettingsEntry where
  baudrate : UInt32
  enabled : Bool
  simulateValues : Bool
  gap : List UInt8
  publishSettings : Vector PublishSettingsEntry 10
  deriving DecidableEq

structure Ipv4Settings where
  dhcp : Bool
  ip : UInt32
  nm : UInt32
  gw : UInt32
  dns : UInt32
  deriving DecidableEq

structure EthernetSettings where
  ipv4 : Ipv4Settings
  deriving DecidableEq

structure WifiSettings where
  ssid : CharArray 32
  password : CharArray 32
  authMode : Int32
  ipv4 : Ipv4Settings
  deriving DecidableEq

structure MqttSettings where
  broker : CharArray 32
  port : UInt16
  username : CharArray 32
  password : CharArray 32
  deriving DecidableEq

inductive ConnType
  | wifi | ethernet
  deriving DecidableEq

structure ClientModeSettings where
  connType : ConnType
  wifi : WifiSettings
  eth : EthernetSettings
  mqtt : MqttSettings
  password : CharArray 8
  gapPassword : List UInt8
  sensorSettings : Vector SensorSettingsEntry 3
  deriving DecidableEq

def SensorSettingsEntry.communicationSettingsChanged (old new : SensorSettingsEntry) : Bool :=
  old.baudrate ≠ new.baudrate || old.enabled ≠ new.enabled ||
    old.simulateValues ≠ new.simulateValues

/-! The factory record, `s_Client_Settings`; fields it does not mention are zero. -/

def PublishSettingsEntry.zero : PublishSettingsEntry where
  enabled := false
  name := .strncpy 10 []
  gapName := [0]
  start := 0
  «end» := 0
  isNum := false
  gapNum := [0, 0, 0]
  scale := 0
  avgCnt := 0
  topic := .strncpy 30 []
  gapTopic := [0, 0]

def factorySensor (enabled : Bool) (topic : List UInt8) : SensorSettingsEntry where
  baudrate := 9600
  enabled
  simulateValues := false
  gap := [0, 0]
  publishSettings := Vector.ofFn fun
    | 0 => { PublishSettingsEntry.zero with
        enabled := true, name := .strncpy 10 [72, 51], start := 2, «end» := 8, isNum := true
        scale := 0x3f800000, avgCnt := 0, topic := .strncpy 30 topic }
    | 1 => { PublishSettingsEntry.zero with
        enabled := true, name := .strncpy 10 [72, 51, 65, 86, 71], start := 2, «end» := 8
        isNum := true, scale := 0x3f800000, avgCnt := 180
        topic := .strncpy 30 (114 :: 47 :: topic) }
    | _ => PublishSettingsEntry.zero

def factoryIpv4 : Ipv4Settings where
  dhcp := true
  ip := 0xc889a8c0
  nm := 0x00ffffff
  gw := 0x0189a8c0
  dns := 0x0189a8c0

/-- `gapPassword` is what the compiler leaves between `password` and `sensor_settings`. -/
def sClientSettings (gapPassword : List UInt8) : ClientModeSettings where
  connType := .wifi
  wifi := { ssid := .strncpy 32 [], password := .strncpy 32 [], authMode := 0, ipv4 := factoryIpv4 }
  eth := { ipv4 := factoryIpv4 }
  mqtt := {
    broker := .strncpy 32 [], port := 1883, username := .strncpy 32 [], password := .strncpy 32 [] }
  password := .strncpy 8 []
  gapPassword
  sensorSettings := #v[factorySensor true [49, 50, 51], factorySensor false [52, 53, 54],
    factorySensor false [55, 56, 57]]

/-! Memory images, little-endian. -/

def le16 (w : UInt16) : List UInt8 := [w.toUInt8, (w >>> 8).toUInt8]

def le32 (w : UInt32) : List UInt8 :=
  [w.toUInt8, (w >>> 8).toUInt8, (w >>> 16).toUInt8, (w >>> 24).toUInt8]

def boolByte (b : Bool) : UInt8 := if b then 1 else 0

def PublishSettingsEntry.image (p : PublishSettingsEntry) : List UInt8 :=
  boolByte p.enabled :: p.name.bytes ++ p.gapName ++ le16 p.start ++ le16 p.end ++
    boolByte p.isNum :: p.gapNum ++ le32 p.scale ++ le32 p.avgCnt.toUInt32 ++ p.topic.bytes ++
    p.gapTopic

def SensorSettingsEntry.image (s : SensorSettingsEntry) : List UInt8 :=
  le32 s.baudrate ++ [boolByte s.enabled, boolByte s.simulateValues] ++ s.gap ++
    s.publishSettings.toList.flatMap PublishSettingsEntry.image

namespace ClientModeSettings

def afterPassword (r : ClientModeSettings) : List UInt8 :=
  r.gapPassword ++ r.sensorSettings.toList.flatMap SensorSettingsEntry.image

/-- What a C-string function reads at the address of `password`. -/
def passwordString (r : ClientModeSettings) : List UInt8 :=
  cString (r.password.bytes ++ r.afterPassword)

end ClientModeSettings

end RadProt.Settings
