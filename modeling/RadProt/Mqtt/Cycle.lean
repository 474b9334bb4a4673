import RadProt.Mqtt.Client

namespace RadProt.Mqtt

structure Cycling where
  client : MqttClient
  keepAliveInterval : Nat
  pingOutstanding : Bool

/-- What a call of `cycle` meets. The 80 bytes of the client's buffer have room for every packet
that it answers with. -/
structure Incoming where
  /-- What `readPacket` returns. -/
  packetType : Int
  /-- The quality of service of a PUBLISH that deserialises. -/
  publishQos : Option Nat
  /-- Whether a PUBREC or a PUBREL deserialises. -/
  ackParsed : Bool
  /-- The results of `mqttwrite` for the acknowledgement. -/
  ackWrites : List Int
  /-- `last_sent` or `last_received` has expired. -/
  expired : Bool
  /-- The results of `mqttwrite` for a ping. -/
  pingWrites : List Int

def publish : Int := 3

def pubrec : Int := 5

def pubrel : Int := 6

def suback : Int := 9

def unsuback : Int := 11

def pingresp : Int := 13

def Cycling.closeSession (c : Cycling) : Cycling :=
  { c with client := c.client.closeSession, pingOutstanding := false }

def keepalive (c : Cycling) (i : Incoming) : Int × Cycling :=
  if c.keepAliveInterval = 0 then (0, c)
  else if i.expired then
    if c.pingOutstanding then (-1, c)
    else
      let rc := sendPacket 2 i.pingWrites
      if rc = 0 then (0, { c with pingOutstanding := true }) else (rc, c)
  else (0, c)

/-- The switch of `cycle`: the `rc` it leaves with, `none` where it goes on to `keepalive`. -/
def packetHandled (i : Incoming) : Option Int :=
  if i.packetType = publish then
    match i.publishQos with
    | none => some 0
    | some qos =>
      if qos = 0 then none
      else if (qos = 1 ∨ qos = 2) ∧ sendPacket 4 i.ackWrites = 0 then none
      else some (-1)
  else if i.packetType = pubrec ∨ i.packetType = pubrel then
    if i.ackParsed ∧ sendPacket 4 i.ackWrites = 0 then none else some (-1)
  else if i.packetType = 0 ∨ i.packetType = connack ∨ i.packetType = puback ∨
      i.packetType = suback ∨ i.packetType = unsuback ∨ i.packetType = pubcomp ∨
      i.packetType = pingresp then none
  else some i.packetType

def cycleExit (c : Cycling) (i : Incoming) (rc : Int) : Int × Cycling :=
  if rc = 0 then (i.packetType, c)
  else if c.client.isconnected then (rc, c.closeSession)
  else (rc, c)

def Cycling.noted (c : Cycling) (i : Incoming) : Cycling :=
  if i.packetType = pingresp then { c with pingOutstanding := false } else c

def cycle (c : Cycling) (i : Incoming) : Int × Cycling :=
  match packetHandled i with
  | some rc => cycleExit c i rc
  | none =>
    let (rc, c) := keepalive (c.noted i) i
    cycleExit c i (if rc ≠ 0 then -1 else 0)

def mqttRun (c : Cycling) (i : Incoming) : Cycling :=
  if c.client.isconnected then (cycle c i).2 else c

/-- What `cycle` has to do, it can do: it knows the packet, its answer goes out, and no ping stays
unanswered for too long. -/
def Kept (c : Cycling) (i : Incoming) : Prop :=
  packetHandled i = some 0 ∨ packetHandled i = none ∧ (keepalive (c.noted i) i).1 = 0

instance (c : Cycling) (i : Incoming) : Decidable (Kept c i) := inferInstanceAs (Decidable (_ ∨ _))

variable {c : Cycling} {i : Incoming}

@[simp] theorem noted_client (c : Cycling) (i : Incoming) : (c.noted i).client = c.client := by
  unfold Cycling.noted
  split <;> rfl

@[simp] theorem keepalive_client (c : Cycling) (i : Incoming) : (keepalive c i).2.client = c.client := by
  unfold keepalive
  split
  · rfl
  · split
    · split
      · rfl
      · dsimp only
        split <;> rfl
    · rfl

theorem cycleExit_client (c : Cycling) (i : Incoming) (rc : Int) :
    (cycleExit c i rc).2.client =
      if c.client.isconnected = true ∧ rc ≠ 0 then c.client.closeSession else c.client := by
  unfold cycleExit
  by_cases hrc : rc = 0
  · rw [if_pos hrc, if_neg fun h => h.2 hrc]
  · rw [if_neg hrc]
    by_cases hc : c.client.isconnected = true
    · rw [if_pos hc, if_pos ⟨hc, hrc⟩, Cycling.closeSession]
    · rw [if_neg hc, if_neg fun h => hc h.1]

theorem cycle_client (c : Cycling) (i : Incoming) :
    (cycle c i).2.client =
      if c.client.isconnected = true ∧ ¬ Kept c i then c.client.closeSession else c.client := by
  unfold cycle
  split
  next rc hhandled => simp [Kept, hhandled, cycleExit_client]
  next hhandled => simp [Kept, hhandled, cycleExit_client]

theorem mqttRun_client (c : Cycling) (i : Incoming) :
    (mqttRun c i).client =
      if c.client.isconnected = true ∧ ¬ Kept c i then c.client.closeSession else c.client := by
  unfold mqttRun
  split
  next => exact cycle_client c i
  next hc => rw [if_neg fun h => hc h.1]

end RadProt.Mqtt
