import RadProt.Lib.Run

namespace RadProt.Mqtt

open RadProt.Lib

inductive Owner
  | mqtt
  | other
  deriving DecidableEq

/-- The calls of the MQTT code that change the table; a `close` with the owner its descriptor
had, `none` for a descriptor that is not open. -/
inductive Call
  | obtained (fd : Nat)
  | closed (fd : Int) (owner : Option Owner)
  deriving DecidableEq

inductive Point
  | top
  /-- In `NetworkConnectWithTimeout`, with a socket, before `connect` returns. -/
  | connecting
  | selecting
  /-- `NetworkConnectWithTimeout` returned 0. -/
  | connected
  | publishing
  /-- At `close_socket`. -/
  | closing
  deriving DecidableEq

structure State where
  table : Nat → Option Owner
  mySocket : Int
  mqttConnectionStatus : Bool
  point : Point
  log : List Call

/-- The start of `mqtt_task`, after `NetworkInit`: other tasks hold the descriptors `others`. -/
def State.init (others : Nat → Bool) : State where
  table := fun fd => if others fd then some .other else none
  mySocket := 0
  mqttConnectionStatus := false
  point := .top
  log := []

inductive Event
  | otherOpens (fd : Nat)
  | otherCloses (fd : Nat)
  /-- `broker[0]` is NUL. -/
  | brokerEmpty
  /-- A broker is set, and `socket` returns this descriptor or -1. -/
  | socket (fd : Option Nat)
  /-- A turn of the loop that waits for the name of the broker. -/
  | resolving
  /-- `connect` succeeds at once, or fails with another error than `EINPROGRESS`. -/
  | connectReturns
  | connectInProgress
  /-- `select` returns 0. -/
  | selectTimeout
  | selectFails
  /-- `select` reports the socket writable, and `SO_ERROR` is this. -/
  | selectReady (error : Int)
  | mqttConnect (rc : Int)
  | publish (rc : Int)
  /-- The queue stayed empty; whether `mqtt_reconnect` is set. -/
  | noMessage (reconnect : Bool)
  /-- `network.disconnect` at `close_socket`. -/
  | disconnect
  deriving DecidableEq

def State.owner (s : State) (fd : Int) : Option Owner := if 0 ≤ fd then s.table fd.toNat else none

def State.lwipClose (s : State) : State :=
  { s with
    table := fun fd => if (fd : Int) = s.mySocket then none else s.table fd
    log := s.log ++ [.closed s.mySocket (s.owner s.mySocket)] }

def State.goto (s : State) (point : Point) : State := { s with point }

/-- The failure exits of `NetworkConnectWithTimeout`, and what `mqtt_task` does on them. -/
def State.connectFailed (s : State) : State :=
  { s with mqttConnectionStatus := false, point := .closing }

def Event.Enabled (s : State) : Event → Prop
  | .otherOpens fd => s.table fd = none
  | .otherCloses fd => s.table fd = some .other
  | .brokerEmpty => s.point = .top
  | .socket none => s.point = .top
  | .socket (some fd) => s.point = .top ∧ s.table fd = none
  | .resolving => s.point = .connecting
  | .connectReturns => s.point = .connecting
  | .connectInProgress => s.point = .connecting
  | .selectTimeout => s.point = .selecting
  | .selectFails => s.point = .selecting
  | .selectReady _ => s.point = .selecting
  | .mqttConnect _ => s.point = .connected
  | .publish _ => s.point = .publishing
  | .noMessage _ => s.point = .publishing
  | .disconnect => s.point = .closing

instance (s : State) : (e : Event) → Decidable (e.Enabled s)
  | .otherOpens _ => inferInstanceAs (Decidable (_ = _))
  | .otherCloses _ => inferInstanceAs (Decidable (_ = _))
  | .brokerEmpty => inferInstanceAs (Decidable (_ = _))
  | .socket none => inferInstanceAs (Decidable (_ = _))
  | .socket (some _) => inferInstanceAs (Decidable (_ ∧ _))
  | .resolving => inferInstanceAs (Decidable (_ = _))
  | .connectReturns => inferInstanceAs (Decidable (_ = _))
  | .connectInProgress => inferInstanceAs (Decidable (_ = _))
  | .selectTimeout => inferInstanceAs (Decidable (_ = _))
  | .selectFails => inferInstanceAs (Decidable (_ = _))
  | .selectReady _ => inferInstanceAs (Decidable (_ = _))
  | .mqttConnect _ => inferInstanceAs (Decidable (_ = _))
  | .publish _ => inferInstanceAs (Decidable (_ = _))
  | .noMessage _ => inferInstanceAs (Decidable (_ = _))
  | .disconnect => inferInstanceAs (Decidable (_ = _))

def mqttStep (s : State) : Event → State
  | .otherOpens fd => { s with table := fun k => if k = fd then some .other else s.table k }
  | .otherCloses fd => { s with table := fun k => if k = fd then none else s.table k }
  | .brokerEmpty => s.goto .closing
  | .socket none => { s with mySocket := -1 }.connectFailed
  | .socket (some fd) =>
    { s with
      table := fun k => if k = fd then some .mqtt else s.table k
      mySocket := fd
      point := .connecting
      log := s.log ++ [.obtained fd] }
  | .resolving => s
  | .connectReturns => s.goto .connected
  | .connectInProgress => s.goto .selecting
  | .selectTimeout => s.lwipClose.connectFailed
  | .selectFails => s.lwipClose.connectFailed
  | .selectReady error => if error = 0 then s.goto .connected else s.lwipClose.connectFailed
  | .mqttConnect rc =>
    if rc = 0 then { s with mqttConnectionStatus := true, point := .publishing }
    else s.connectFailed
  | .publish rc => if rc = 0 then s else s.goto .closing
  | .noMessage reconnect => if reconnect then s.goto .closing else s
  | .disconnect => s.lwipClose.goto .top

def Step (s : State) (e : Event) (t : State) : Prop := e.Enabled s ∧ t = mqttStep s e

end RadProt.Mqtt
