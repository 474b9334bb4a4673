import RadProt.Lib.Run
import RadProt.Mqtt.Delivery

namespace RadProt.Mqtt

open RadProt.Lib RadProt.Settings

variable {H α β : Type}

theorem Reading.bind_eq_some {x : Reading α} {f : α → Reading β} {link link' : Link} {v : β} :
    (x >>= f) link = some (v, link') ↔
      ∃ a mid, x link = some (a, mid) ∧ f a mid = some (v, link') := by
  change (x link).bind (fun r => f r.1 r.2) = some (v, link') ↔ _
  rw [Option.bind_eq_some_iff, Prod.exists]

theorem Reading.pure_eq_some {v w : α} {link link' : Link} :
    (pure v : Reading α) link = some (w, link') ↔ v = w ∧ link = link' := by
  change some (v, link) = some (w, link') ↔ _
  rw [Option.some_inj, Prod.mk.injEq]

theorem Reading.pure_pair_eq_some {v v' : α} {w w' : β} {link link' : Link} :
    (pure (v, w) : Reading (α × β)) link = some ((v', w'), link') ↔
      v = v' ∧ w = w' ∧ link = link' := by
  rw [Reading.pure_eq_some, Prod.mk.injEq, and_assoc]

theorem Reading.lift_eq_some {x : Option α} {v : α} {link link' : Link} :
    (liftM x : Reading α) link = some (v, link') ↔ x = some v ∧ link = link' := by
  change x.bind (fun a => some (a, link)) = some (v, link') ↔ _
  cases x with
  | none => simp
  | some a => simp

namespace Receiver

def closeSession (r : Receiver H) : Receiver H :=
  { r with
    cycling := r.cycling.closeSession
    slots := if r.cleansession then mqttCleanSession r.slots else r.slots }

def numbered (r : Receiver H) (msg : MqttPublishMessage) : Receiver H :=
  if msg.qos = 1 ∨ msg.qos = 2 then
    { r with cycling := { r.cycling with client := r.cycling.client.getNextPacketId } }
  else r

def optionsSet (r : Receiver H) (options : ConnectData) : Receiver H :=
  { r with
    cycling := { r.cycling with keepAliveInterval := options.keepAliveInterval }
    cleansession := options.cleansession ≠ 0 }

def connected (r : Receiver H) : Receiver H :=
  { r with
    cycling := { r.cycling with
      client := { r.cycling.client with isconnected := true }, pingOutstanding := false } }

theorem numbered_client (r : Receiver H) (msg : MqttPublishMessage) :
    (r.numbered msg).cycling.client =
      if msg.qos = 1 ∨ msg.qos = 2 then r.cycling.client.getNextPacketId else r.cycling.client := by
  unfold numbered
  split <;> rfl

end Receiver

/-- `waitfor` on the bytes of the network; the turns are the calls of `cycle` until the timer has
expired. -/
def waitforBytes (packetType : Int) (r : Receiver H) (rc : Int) :
    List Turn → Reading (Int × Receiver H)
  | [] => return (rc, r)
  | t :: ts => do
    let (c, r) ← cycleBytes r t
    if c.rc ≠ packetType ∧ 0 ≤ c.rc then waitforBytes packetType r c.rc ts
    else return (c.rc, r)

def awaitAckBytes (packetType : Int) (r : Receiver H) (ts : List Turn) :
    Reading (Int × Receiver H) := do
  let (rc, r) ← waitforBytes packetType r (-1) ts
  if rc ≠ packetType then return (-1, r.closeSession)
  let (rc, _) ← (mqttDeserializeAck r.readbuf : Reading (Int × AckFields))
  return if rc = 1 then (0, r) else (-1, r.closeSession)

def mqttPublishBytes (r : Receiver H) (writes : List Int) (ts : List Turn)
    (msg : MqttPublishMessage) : Reading (Int × Receiver H) :=
  if !r.cycling.client.isconnected then return (-1, r.closeSession)
  else
    let r := r.numbered msg
    match publishPacket 80 r.cycling.client.nextPacketid msg with
    | none => return (-1, r.closeSession)
    | some packet =>
      if sendPacket packet.length writes ≠ 0 then return (-1, r.closeSession)
      else if msg.qos = 1 then awaitAckBytes puback r ts
      else if msg.qos = 2 then awaitAckBytes pubcomp r ts
      else return (0, r)

def mqttConnectBytes (r : Receiver H) (writes : List Int) (ts : List Turn)
    (options : ConnectData) : Reading (Int × Receiver H) :=
  if r.cycling.client.isconnected then return (-1, r)
  else
    let r := r.optionsSet options
    match mqttSerializeConnect 80 options with
    | none => return (-1, r)
    | some packet =>
      if sendPacket packet.length writes ≠ 0 then return (-1, r)
      else do
        let (rc, r) ← waitforBytes connack r (-1) ts
        if rc ≠ connack then return (-1, r)
        let rc ← (connackResult r.readbuf : Reading Int)
        return (rc, if rc = 0 then r.connected else r)

def CycleStep (s : Receiver H × Link) (c : Cycle) (s' : Receiver H × Link) : Prop :=
  ∃ t o, cycleBytes s.1 t s.2 = some ((o, s'.1), s'.2) ∧ c.rc = o.rc ∧
    c.closes = (s.1.cycling.client.isconnected && !s'.1.cycling.client.isconnected)

/-- The exchange of a PUBLISH, `buf` being the buffer after the last call of `cycle`. -/
def Exchange.ack (writes : List Int) (cycles : List Cycle) (buf : Nat → UInt8) : Exchange where
  writes := writes
  cycles := cycles
  parsed := (mqttDeserializeAck buf).map Prod.fst = some 1
  connackRc := 0

def Exchange.connack (writes : List Int) (cycles : List Cycle) (buf : Nat → UInt8) : Exchange where
  writes := writes
  cycles := cycles
  parsed := (mqttDeserializeConnack buf).map Prod.fst = some 1
  connackRc := ((mqttDeserializeConnack buf).bind Prod.snd).elim 0 Prod.snd

@[simp] theorem Exchange.ack_writes (writes : List Int) (cycles : List Cycle) (buf : Nat → UInt8) :
    (Exchange.ack writes cycles buf).writes = writes := rfl

@[simp] theorem Exchange.connack_writes (writes : List Int) (cycles : List Cycle)
    (buf : Nat → UInt8) : (Exchange.connack writes cycles buf).writes = writes := rfl

@[simp] theorem Exchange.connack_cycles (writes : List Int) (cycles : List Cycle)
    (buf : Nat → UInt8) : (Exchange.connack writes cycles buf).cycles = cycles := rfl

variable {r r' : Receiver H} {link link' : Link} {rc : Int} {ts : List Turn} {writes : List Int}

theorem CycleStep.client {s s' : Receiver H × Link} {c : Cycle} (h : CycleStep s c s') :
    s'.1.cycling.client =
      if c.closes then s.1.cycling.client.closeSession else s.1.cycling.client := by
  obtain ⟨t, o, hcycle, -, hcloses⟩ := h
  simp only [cycleBytes, Reading.bind_eq_some, Reading.pure_eq_some, Prod.mk.injEq] at hcycle
  obtain ⟨read, -, -, found, -, -, ⟨-, hr⟩, -⟩ := hcycle
  rw [hcloses, ← hr, cycle_client]
  cases hopen : s.1.cycling.client.isconnected with
  | false => simp
  | true =>
    split
    next => simp [MqttClient.closeSession]
    next => simp [hopen]

theorem waitforBytes_eq_some {packetType rc' : Int}
    (h : waitforBytes packetType r rc ts link = some ((rc', r'), link')) :
    ∃ cycles, Run CycleStep (r, link) cycles (r', link') ∧
      waitfor packetType r.cycling.client rc cycles = (rc', r'.cycling.client) := by
  induction ts generalizing r rc link with
  | nil =>
    obtain ⟨rfl, rfl, rfl⟩ := Reading.pure_pair_eq_some.mp h
    exact ⟨[], .nil, rfl⟩
  | cons t ts ih =>
    rw [waitforBytes, Reading.bind_eq_some] at h
    obtain ⟨⟨o, r₁⟩, mid, hcycle, hrest⟩ := h
    let c : Cycle := ⟨o.rc, r.cycling.client.isconnected && !r₁.cycling.client.isconnected⟩
    have hstep : CycleStep (r, link) c (r₁, mid) := ⟨t, o, hcycle, rfl, rfl⟩
    by_cases hgo : o.rc ≠ packetType ∧ 0 ≤ o.rc
    · simp only [if_pos hgo] at hrest
      obtain ⟨cycles, hrun, hcycles⟩ := ih hrest
      refine ⟨c :: cycles, .cons hstep hrun, ?_⟩
      rw [waitfor, if_pos hgo, ← hstep.client, hcycles]
    · simp only [if_neg hgo, Reading.pure_pair_eq_some] at hrest
      obtain ⟨rfl, rfl, rfl⟩ := hrest
      refine ⟨[c], .single hstep, ?_⟩
      rw [waitfor, if_neg hgo, ← hstep.client]

theorem awaitAckBytes_eq_some {packetType : Int}
    (h : awaitAckBytes packetType r ts link = some ((rc, r'), link')) (writes : List Int) :
    ∃ r₁ cycles, Run CycleStep (r, link) cycles (r₁, link') ∧
      awaitAck packetType r.cycling.client (.ack writes cycles r₁.readbuf) =
        (rc, r'.cycling.client) := by
  rw [awaitAckBytes, Reading.bind_eq_some] at h
  obtain ⟨⟨rc₁, r₁⟩, mid, hwait, hrest⟩ := h
  obtain ⟨cycles, hrun, hcycles⟩ := waitforBytes_eq_some hwait
  by_cases hrc : rc₁ = packetType
  · simp only [if_neg (not_not_intro hrc), Reading.bind_eq_some, Reading.lift_eq_some] at hrest
    obtain ⟨⟨result, fields⟩, mid', ⟨hack, rfl⟩, hrest⟩ := hrest
    obtain ⟨hresult, rfl⟩ := Reading.pure_eq_some.mp hrest
    refine ⟨r₁, cycles, hrun, ?_⟩
    by_cases hone : result = 1
    · rw [if_pos hone] at hresult
      obtain ⟨rfl, rfl⟩ := Prod.mk.inj hresult
      simp [awaitAck, Exchange.ack, hcycles, hrc, hack, hone]
    · rw [if_neg hone] at hresult
      obtain ⟨rfl, rfl⟩ := Prod.mk.inj hresult
      simp [awaitAck, Exchange.ack, hcycles, hack, hone, Receiver.closeSession,
        Cycling.closeSession]
  · simp only [if_pos hrc, Reading.pure_pair_eq_some] at hrest
    obtain ⟨rfl, rfl, rfl⟩ := hrest
    refine ⟨r₁, cycles, hrun, ?_⟩
    simp [awaitAck, Exchange.ack, hcycles, hrc, Receiver.closeSession, Cycling.closeSession]

theorem mqttPublishBytes_eq_some {msg : MqttPublishMessage}
    (h : mqttPublishBytes r writes ts msg link = some ((rc, r'), link')) :
    ∃ r₁ cycles, Run CycleStep (r.numbered msg, link) cycles (r₁, link') ∧
      mqttPublish r.cycling.client (.ack writes cycles r₁.readbuf) msg =
        (rc, r'.cycling.client) := by
  simp only [mqttPublishBytes] at h
  simp only [mqttPublish, ← Receiver.numbered_client]
  by_cases hopen : r.cycling.client.isconnected = true
  · simp only [hopen, Bool.not_true, Bool.false_eq_true, if_false] at h ⊢
    cases hpacket : publishPacket 80 (r.numbered msg).cycling.client.nextPacketid msg with
    | none =>
      rw [hpacket] at h
      obtain ⟨rfl, rfl, rfl⟩ := Reading.pure_pair_eq_some.mp h
      exact ⟨_, _, .nil, rfl⟩
    | some packet =>
      rw [hpacket] at h
      dsimp only at h ⊢
      by_cases hsent : sendPacket packet.length writes = 0
      · simp only [Exchange.ack_writes, hsent, ne_eq, not_true, if_false] at h ⊢
        by_cases h1 : msg.qos = 1
        · simp only [if_pos h1] at h ⊢
          exact awaitAckBytes_eq_some h writes
        · simp only [if_neg h1] at h ⊢
          by_cases h2 : msg.qos = 2
          · simp only [if_pos h2] at h ⊢
            exact awaitAckBytes_eq_some h writes
          · simp only [if_neg h2] at h ⊢
            obtain ⟨rfl, rfl, rfl⟩ := Reading.pure_pair_eq_some.mp h
            exact ⟨_, _, .nil, rfl⟩
      · simp only [Exchange.ack_writes, hsent, ne_eq, not_false_eq_true, if_true] at h ⊢
        obtain ⟨rfl, rfl, rfl⟩ := Reading.pure_pair_eq_some.mp h
        exact ⟨_, _, .nil, rfl⟩
  · rw [if_pos (by simpa using hopen)] at h
    obtain ⟨rfl, rfl, rfl⟩ := Reading.pure_pair_eq_some.mp h
    refine ⟨_, _, .nil, ?_⟩
    rw [if_pos (by simpa using hopen)]
    rfl

theorem connackResult_exchange {buf : Nat → UInt8} (h : connackResult buf = some rc)
    (writes : List Int) (cycles : List Cycle) :
    rc = if (Exchange.connack writes cycles buf).parsed = true then
      ((Exchange.connack writes cycles buf).connackRc.toNat : Int) else -1 := by
  rw [connackResult] at h
  cases hread : mqttDeserializeConnack buf with
  | none => simp [hread] at h
  | some read =>
    obtain ⟨result, fields⟩ := read
    obtain rfl := by simpa [hread] using h
    cases fields <;> simp [Exchange.connack, hread]

theorem mqttConnect_connack {c c' : MqttClient} {options : ConnectData} {packet : List UInt8}
    {cycles : List Cycle} {buf : Nat → UInt8} (hopen : ¬ c.isconnected = true)
    (hpacket : mqttSerializeConnect 80 options = some packet)
    (hsent : sendPacket packet.length writes = 0)
    (hwait : waitfor connack c (-1) cycles = (connack, c')) (hcode : connackResult buf = some rc) :
    mqttConnect c (.connack writes cycles buf) options =
      (rc, if rc = 0 then { c' with isconnected := true } else c') := by
  simp only [mqttConnect, if_neg hopen, hpacket, Exchange.connack_writes, hsent, ne_eq, not_true,
    if_false, Exchange.connack_cycles, hwait, true_and,
    ← connackResult_exchange hcode writes cycles]
  split
  next hzero => rw [hzero]
  next => rfl

theorem mqttConnectBytes_eq_some {options : ConnectData}
    (h : mqttConnectBytes r writes ts options link = some ((rc, r'), link')) :
    ∃ r₁ cycles, Run CycleStep (r.optionsSet options, link) cycles (r₁, link') ∧
      mqttConnect r.cycling.client (.connack writes cycles r₁.readbuf) options =
        (rc, r'.cycling.client) := by
  rw [mqttConnectBytes] at h
  by_cases hopen : r.cycling.client.isconnected = true
  · rw [if_pos hopen] at h
    obtain ⟨rfl, rfl, rfl⟩ := Reading.pure_pair_eq_some.mp h
    exact ⟨_, _, .nil, by rw [mqttConnect, if_pos hopen]⟩
  rw [if_neg hopen] at h
  dsimp only at h
  cases hpacket : mqttSerializeConnect 80 options with
  | none =>
    rw [hpacket] at h
    obtain ⟨rfl, rfl, rfl⟩ := Reading.pure_pair_eq_some.mp h
    refine ⟨_, _, .nil, ?_⟩
    rw [mqttConnect, if_neg hopen, hpacket]
    rfl
  | some packet =>
    rw [hpacket] at h
    dsimp only at h
    by_cases hsent : sendPacket packet.length writes = 0
    · simp only [hsent, ne_eq, not_true, if_false] at h
      rw [Reading.bind_eq_some] at h
      obtain ⟨⟨rc₁, r₁⟩, mid, hwait, hrest⟩ := h
      obtain ⟨cycles, hrun, hcycles⟩ := waitforBytes_eq_some hwait
      have hclient : waitfor connack r.cycling.client (-1) cycles = (rc₁, r₁.cycling.client) :=
        hcycles
      by_cases hrc : rc₁ = connack
      · simp only [if_neg (not_not_intro hrc), Reading.bind_eq_some, Reading.lift_eq_some]
          at hrest
        obtain ⟨code, mid', ⟨hcode, rfl⟩, hrest⟩ := hrest
        obtain ⟨rfl, rfl, rfl⟩ := Reading.pure_pair_eq_some.mp hrest
        refine ⟨r₁, cycles, hrun, ?_⟩
        rw [mqttConnect_connack hopen hpacket hsent (hrc ▸ hclient) hcode]
        split <;> rfl
      · simp only [if_pos hrc] at hrest
        obtain ⟨rfl, rfl, rfl⟩ := Reading.pure_pair_eq_some.mp hrest
        refine ⟨r₁, cycles, hrun, ?_⟩
        simp [mqttConnect, hopen, hpacket, hsent, hclient, hrc]
    · simp only [hsent, ne_eq, not_false_eq_true, if_true] at h
      obtain ⟨rfl, rfl, rfl⟩ := Reading.pure_pair_eq_some.mp h
      refine ⟨_, _, .nil, ?_⟩
      simp [mqttConnect, hopen, hpacket, hsent, Receiver.optionsSet]

end RadProt.Mqtt
