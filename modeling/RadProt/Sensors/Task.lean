import RadProt.Settings.Json
import RadProt.Settings.Strings

namespace RadProt.Sensors

open RadProt.Lib RadProt.Settings

structure FloatOps (α : Type) where
  zero : α
  strtof : List UInt8 → α
  /-- `val *= scale`, the scale by its bits. -/
  mul : α → UInt32 → α
  add : α → α → α
  div : α → Int32 → α
  /-- `snprintf` with `%f`. -/
  format : α → List UInt8

structure AvgFields (α : Type) where
  avgCntCurrent : Int
  accum : α

structure Sensor where
  settings : Fin 3
  sensorNum : Nat
  deriving DecidableEq

structure Sent where
  topic : List UInt8
  payload : List UInt8
  payloadLength : Nat
  qos : UInt8
  retain : Bool
  json : Json

def sendToEndpoints (sensorNum pubSettingNum : Nat) (name topic value : List UInt8)
    (valueLength : Nat) (qos : UInt8) (retain : Bool) : Sent where
  topic
  payload := value
  payloadLength := valueLength
  qos
  retain
  json := .obj [("reading", .obj [("s_s", .int sensorNum), ("p_s", .int pubSettingNum),
    ("p_s_name", .str name), ("value", .str value), ("topic", .str topic)])]

section

variable {α : Type} (ops : FloatOps α) (r : ClientModeSettings) (s : Sensor)

/-- One more value for an average of `avgCnt` values, and the average once it is complete. An
average of more values than that is started again. -/
def updateAverage (field : AvgFields α) (avgCnt : Int32) (val : α) : AvgFields α × Option α :=
  let field := if field.avgCntCurrent > avgCnt.toInt then
    { avgCntCurrent := 0, accum := ops.zero } else field
  let accum := ops.add field.accum val
  if field.avgCntCurrent + 1 = avgCnt.toInt then
    ({ avgCntCurrent := 0, accum := ops.zero }, some (ops.div accum avgCnt))
  else ({ avgCntCurrent := field.avgCntCurrent + 1, accum }, none)

def processAndPublish (avg : Fin 10 → AvgFields α) (data : List UInt8) (index : Fin 10) :
    (Fin 10 → AvgFields α) × List Sent :=
  let pubSettings := r.publishSettings s.settings index
  let send (value : List UInt8) : Sent :=
    sendToEndpoints s.sensorNum index (r.nameString s.settings index)
      (r.topicString s.settings index) value value.length 1 false
  if pubSettings.isNum then
    let val := ops.mul (ops.strtof (cString data)) pubSettings.scale
    if 0 < pubSettings.avgCnt.toInt then
      let (field, average) := updateAverage ops (avg index) pubSettings.avgCnt val
      (fun i => if i = index then field else avg i,
        average.toList.map fun value => send (ops.format value))
    else (avg, [send (ops.format val)])
  else (avg, [send (cString data)])

def simulatedData (pubSettings : PublishSettingsEntry) (random : Nat) : Option (List UInt8) :=
  if !pubSettings.enabled ∨ pubSettings.end ≤ pubSettings.start ∨
      256 ≤ pubSettings.start.toNat ∨ 256 < pubSettings.end.toNat then none
  else
    some (.replicate (min (pubSettings.end.toNat - pubSettings.start.toNat) 255)
      (48 + .ofNat (random % 10)))

def receivedData (pubSettings : PublishSettingsEntry) (bytes : List UInt8) : Option (List UInt8) :=
  if !pubSettings.enabled ∨ pubSettings.end ≤ pubSettings.start ∨
      bytes.length ≤ pubSettings.start.toNat then none
  else
    let len := if bytes.length < pubSettings.end.toNat then bytes.length - pubSettings.start.toNat
      else pubSettings.end.toNat - pubSettings.start.toNat
    if len = 0 then none else some ((bytes.drop pubSettings.start.toNat).take (min len 255))

/-- A turn of `read_task`: the random numbers, and what `read_string` returned if it was called. -/
structure Turn where
  randoms : Fin 10 → Nat
  line : Option (List UInt8)

def publishEntry (acc : (Fin 10 → AvgFields α) × List Sent) (index : Fin 10) :
    Option (List UInt8) → (Fin 10 → AvgFields α) × List Sent
  | none => acc
  | some data =>
    let (avg, sent) := processAndPublish ops r s acc.1 data index
    (avg, acc.2 ++ sent)

def publishEntries (avg : Fin 10 → AvgFields α) (data : Fin 10 → Option (List UInt8)) :
    (Fin 10 → AvgFields α) × List Sent :=
  (List.finRange 10).foldl (fun acc i => publishEntry ops r s acc i (data i)) (avg, [])

def readTurn (avg : Fin 10 → AvgFields α) (turn : Turn) : (Fin 10 → AvgFields α) × List Sent :=
  if r.sensorSettings[s.settings].simulateValues then
    publishEntries ops r s avg fun i =>
      simulatedData (r.publishSettings s.settings i) (turn.randoms i)
  else
    match turn.line with
    | none => (avg, [])
    | some bytes =>
      if bytes.length ≠ 0 then
        publishEntries ops r s avg fun i => receivedData (r.publishSettings s.settings i) bytes
      else (avg, [])

def readTask (avg : Fin 10 → AvgFields α) : List Turn → List Sent
  | [] => []
  | turn :: turns => (readTurn ops r s avg turn).2 ++ readTask (readTurn ops r s avg turn).1 turns

def AvgFields.init : Fin 10 → AvgFields α := fun _ => { avgCntCurrent := 0, accum := ops.zero }

end

structure SerialConfig where
  uartNum : Nat
  gpioTx : Nat
  gpioRx : Nat
  baudRate : UInt32

structure Opened where
  index : Fin 3
  serial : SerialConfig
  sensor : Sensor

def Sensor.new (nextSensorNum : Nat) : Option Sensor :=
  if h : nextSensorNum < 3 then some { settings := ⟨nextSensorNum, h⟩, sensorNum := nextSensorNum }
  else none

def openSensor (r : ClientModeSettings) (index : Fin 3) (uartNum gpioTx gpioRx : Nat)
    (state : Nat × List Opened) : Option (Nat × List Opened) :=
  if (r.sensorSettings.get index).enabled then do
    let serial := { uartNum, gpioTx, gpioRx, baudRate := (r.sensorSettings.get index).baudrate }
    let sensor ← Sensor.new state.1
    return (state.1 + 1, state.2 ++ [Opened.mk index serial sensor])
  else return state

/-- The sensors that `main_task` opens; `none` if an assertion fails. -/
def mainTask (r : ClientModeSettings) : Option (List Opened) := do
  let state ← openSensor r 0 0 0 1 (0, [])
  let state ← openSensor r 1 2 2 3 state
  let state ← openSensor r 2 3 6 7 state
  return state.2

end RadProt.Sensors
