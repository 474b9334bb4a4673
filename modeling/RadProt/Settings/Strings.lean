import RadProt.Settings.Record

namespace RadProt.Settings

open RadProt.Lib

/-! The strings at the addresses of the arrays of a publish entry: what follows an array in the
record is read on when the array holds no NUL. -/

def PublishSettingsEntry.fromName (p : PublishSettingsEntry) : List UInt8 :=
  p.name.bytes ++ p.gapName ++ le16 p.start ++ le16 p.end ++ boolByte p.isNum :: p.gapNum ++
    le32 p.scale ++ le32 p.avgCnt.toUInt32 ++ p.topic.bytes ++ p.gapTopic

def PublishSettingsEntry.fromTopic (p : PublishSettingsEntry) : List UInt8 :=
  p.topic.bytes ++ p.gapTopic

namespace ClientModeSettings

variable (r : ClientModeSettings) (i : Fin 3) (j : Fin 10)

def publishSettings : PublishSettingsEntry := (r.sensorSettings.get i).publishSettings.get j

def afterEntry : List UInt8 :=
  ((r.sensorSettings.get i).publishSettings.toList.drop (j + 1)).flatMap PublishSettingsEntry.image ++
    (r.sensorSettings.toList.drop (i + 1)).flatMap SensorSettingsEntry.image

def nameString : List UInt8 := cString ((r.publishSettings i j).fromName ++ r.afterEntry i j)

def topicString : List UInt8 := cString ((r.publishSettings i j).fromTopic ++ r.afterEntry i j)

end ClientModeSettings

end RadProt.Settings
