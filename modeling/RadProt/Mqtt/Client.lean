import RadProt.Mqtt.Packet

namespace RadProt.Mqtt

open RadProt.Lib RadProt.Settings

/-- The fields of `MQTTClient` that decide whether a packet is sent. -/
structure MqttClient where
  isconnected : Bool
  nextPacketid : Nat

def MqttClient.init : MqttClient where
  isconnected := false
  nextPacketid := 1

def MqttClient.closeSession (c : MqttClient) : MqttClient := { c with isconnected := false }

def MqttClient.getNextPacketId (c : MqttClient) : MqttClient :=
  { c with nextPacketid := if c.nextPacketid = 65535 then 1 else c.nextPacketid + 1 }

/-- A call of `cycle`: its result, and whether it closed the session. -/
structure Cycle where
  rc : Int
  closes : Bool
  deriving DecidableEq

/-- What a packet that is sent and answered meets up to the end of the time for it, such as the
calls of `cycle` on the bytes of the network. -/
structure Exchange where
  /-- The results of `mqttwrite`. -/
  writes : List Int
  cycles : List Cycle
  /-- Whether the answer deserialises. -/
  parsed : Bool
  /-- The return code of a CONNACK. -/
  connackRc : UInt8

def sendLoop (length sent : Int) : List Int → Int
  | [] => sent
  | rc :: writes =>
    if sent < length then
      if rc < 0 then sent else sendLoop length (sent + rc) writes
    else sent

def sendPacket (length : Nat) (writes : List Int) : Int :=
  if sendLoop length 0 writes = length then 0 else -1

/-- `waitfor`, its result so far being `rc`, on the calls of `cycle` that it makes. -/
def waitfor (packetType : Int) (c : MqttClient) (rc : Int) : List Cycle → Int × MqttClient
  | [] => (rc, c)
  | cycle :: cycles =>
    let c := if cycle.closes then c.closeSession else c
    if cycle.rc ≠ packetType ∧ 0 ≤ cycle.rc then waitfor packetType c cycle.rc cycles
    else (cycle.rc, c)

def connack : Int := 2

def puback : Int := 4

def pubcomp : Int := 7

def awaitAck (packetType : Int) (c : MqttClient) (link : Exchange) : Int × MqttClient :=
  let (rc, c) := waitfor packetType c (-1) link.cycles
  if rc = packetType ∧ link.parsed = true then (0, c) else (-1, c.closeSession)

def mqttPublish (c : MqttClient) (link : Exchange) (msg : MqttPublishMessage) : Int × MqttClient :=
  if !c.isconnected then (-1, c.closeSession)
  else
    let c := if msg.qos = 1 ∨ msg.qos = 2 then c.getNextPacketId else c
    match publishPacket 80 c.nextPacketid msg with
    | none => (-1, c.closeSession)
    | some packet =>
      if sendPacket packet.length link.writes ≠ 0 then (-1, c.closeSession)
      else if msg.qos = 1 then awaitAck puback c link
      else if msg.qos = 2 then awaitAck pubcomp c link
      else (0, c)

def mqttConnect (c : MqttClient) (link : Exchange) (options : ConnectData) : Int × MqttClient :=
  if c.isconnected then (-1, c)
  else
    match mqttSerializeConnect 80 options with
    | none => (-1, c)
    | some packet =>
      if sendPacket packet.length link.writes ≠ 0 then (-1, c)
      else
        let (rc, c) := waitfor connack c (-1) link.cycles
        let rc : Int := if rc = connack ∧ link.parsed = true then link.connackRc.toNat else -1
        if rc = 0 then (0, { c with isconnected := true }) else (rc, c)

def SentWhole (length : Nat) (writes : List Int) : Prop :=
  ∃ taken, taken <+: writes ∧ (∀ n ∈ taken, 0 ≤ n) ∧ taken.foldl (· + ·) 0 = (length : Int)

def Answered (packetType : Int) (cycles : List Cycle) : Prop :=
  ∃ before cycle, before ++ [cycle] <+: cycles ∧ cycle.rc = packetType ∧ ∀ c ∈ before, 0 ≤ c.rc

theorem le_foldl_add {taken : List Int} (h : ∀ n ∈ taken, 0 ≤ n) (sent : Int) :
    sent ≤ taken.foldl (· + ·) sent := by
  induction taken generalizing sent with
  | nil => exact Int.le_refl _
  | cons n taken ih =>
    have hn := h n List.mem_cons_self
    have hrest := ih (fun m hm => h m (List.mem_cons_of_mem _ hm)) (sent + n)
    rw [List.foldl_cons]
    omega

theorem sendLoop_of_ge {length sent : Int} (h : length ≤ sent) (writes : List Int) :
    sendLoop length sent writes = sent := by
  cases writes with
  | nil => rfl
  | cons rc writes => rw [sendLoop, if_neg (Int.not_lt.mpr h)]

theorem sendLoop_eq_iff {length sent : Int} {writes : List Int} :
    sendLoop length sent writes = length ↔
      ∃ taken, taken <+: writes ∧ (∀ n ∈ taken, 0 ≤ n) ∧ taken.foldl (· + ·) sent = length := by
  induction writes generalizing sent with
  | nil =>
    refine ⟨fun h => ⟨[], List.nil_prefix, fun _ hn => absurd hn List.not_mem_nil, h⟩, ?_⟩
    rintro ⟨taken, htaken, -, hsum⟩
    obtain rfl := List.prefix_nil.mp htaken
    exact hsum
  | cons rc writes ih =>
    by_cases hlt : sent < length
    · rw [sendLoop, if_pos hlt]
      by_cases hrc : rc < 0
      · rw [if_pos hrc]
        refine iff_of_false (Int.ne_of_lt hlt) ?_
        rintro ⟨taken, htaken, hpos, hsum⟩
        cases taken with
        | nil => exact Int.ne_of_lt hlt hsum
        | cons n taken =>
          obtain ⟨rfl, -⟩ := List.cons_prefix_cons.mp htaken
          exact absurd (hpos n List.mem_cons_self) (Int.not_le.mpr hrc)
      · rw [if_neg hrc, ih]
        constructor
        · rintro ⟨taken, htaken, hpos, hsum⟩
          refine ⟨rc :: taken, List.cons_prefix_cons.mpr ⟨rfl, htaken⟩, fun n hn => ?_, hsum⟩
          rcases List.mem_cons.mp hn with rfl | hn
          · exact Int.not_lt.mp hrc
          · exact hpos n hn
        · rintro ⟨taken, htaken, hpos, hsum⟩
          cases taken with
          | nil => exact absurd hsum (Int.ne_of_lt hlt)
          | cons n taken =>
            obtain ⟨rfl, hrest⟩ := List.cons_prefix_cons.mp htaken
            exact ⟨taken, hrest, fun m hm => hpos m (List.mem_cons_of_mem _ hm), hsum⟩
    · have hge := Int.not_lt.mp hlt
      rw [sendLoop_of_ge hge]
      refine ⟨fun h => ⟨[], List.nil_prefix, fun _ hn => absurd hn List.not_mem_nil, h⟩, ?_⟩
      rintro ⟨taken, -, hpos, hsum⟩
      exact Int.le_antisymm (hsum ▸ le_foldl_add hpos sent) hge

theorem failure_ne_success : (-1 : Int) ≠ 0 := by decide

theorem sendPacket_eq_zero_iff {length : Nat} {writes : List Int} :
    sendPacket length writes = 0 ↔ SentWhole length writes := by
  rw [SentWhole, ← sendLoop_eq_iff, sendPacket]
  split
  next h => exact iff_of_true rfl h
  next h => exact iff_of_false (by decide) h

section Until

variable {α : Type} {P Q : α → Prop} {x : α} {xs : List α}

theorem not_until_nil : ¬ ∃ before y, before ++ [y] <+: [] ∧ P y ∧ ∀ b ∈ before, Q b := by
  rintro ⟨before, y, hpre, -⟩
  exact absurd (List.prefix_nil.mp hpre) (by simp)

theorem until_cons_iff :
    (∃ before y, before ++ [y] <+: x :: xs ∧ P y ∧ ∀ b ∈ before, Q b) ↔
      P x ∨ Q x ∧ ∃ before y, before ++ [y] <+: xs ∧ P y ∧ ∀ b ∈ before, Q b := by
  constructor
  · rintro ⟨before, y, hpre, hy, hbefore⟩
    cases before with
    | nil =>
      obtain ⟨rfl, -⟩ := List.cons_prefix_cons.mp hpre
      exact .inl hy
    | cons b before =>
      obtain ⟨rfl, hrest⟩ := List.cons_prefix_cons.mp hpre
      exact .inr ⟨hbefore b List.mem_cons_self, before, y, hrest, hy,
        fun c hc => hbefore c (List.mem_cons_of_mem _ hc)⟩
  · rintro (hx | ⟨hx, before, y, hpre, hy, hbefore⟩)
    · exact ⟨[], x, List.cons_prefix_cons.mpr ⟨rfl, List.nil_prefix⟩, hx,
        fun _ hb => absurd hb List.not_mem_nil⟩
    · refine ⟨x :: before, y, List.cons_prefix_cons.mpr ⟨rfl, hpre⟩, hy, fun b hb => ?_⟩
      rcases List.mem_cons.mp hb with rfl | hb
      · exact hx
      · exact hbefore b hb

end Until

theorem answered_cons_iff {packetType : Int} {cycle : Cycle} {cycles : List Cycle} :
    Answered packetType (cycle :: cycles) ↔
      cycle.rc = packetType ∨ 0 ≤ cycle.rc ∧ Answered packetType cycles := until_cons_iff

theorem waitfor_eq_iff {packetType rc : Int} {c : MqttClient} {cycles : List Cycle}
    (hrc : rc ≠ packetType) :
    (waitfor packetType c rc cycles).1 = packetType ↔ Answered packetType cycles := by
  induction cycles generalizing c rc with
  | nil => exact iff_of_false hrc not_until_nil
  | cons cycle cycles ih =>
    rw [waitfor, answered_cons_iff]
    by_cases hnext : cycle.rc ≠ packetType ∧ 0 ≤ cycle.rc
    · simp only [if_pos hnext]
      rw [ih hnext.1]
      exact ⟨fun h => .inr ⟨hnext.2, h⟩, fun h => (h.resolve_left hnext.1).2⟩
    · simp only [if_neg hnext]
      refine ⟨.inl, fun h => ?_⟩
      obtain hcycle | ⟨hpos, -⟩ := h
      · exact hcycle
      · by_contra hne
        exact hnext ⟨hne, hpos⟩

theorem awaitAck_eq_zero_iff {packetType : Int} {c : MqttClient} {link : Exchange}
    (hpos : 0 ≤ packetType) :
    (awaitAck packetType c link).1 = 0 ↔
      Answered packetType link.cycles ∧ link.parsed = true := by
  rw [← waitfor_eq_iff (c := c) (show (-1 : Int) ≠ packetType by omega)]
  simp only [awaitAck]
  split
  next h => exact iff_of_true rfl h
  next h => exact iff_of_false failure_ne_success h

/-- What has to be true when `MQTTPublish` is called: the session is open, the packet is short
enough, the link takes it whole, and the broker acknowledges it as its quality of service asks. -/
structure Delivered (c : MqttClient) (link : Exchange) (msg : MqttPublishMessage) : Prop where
  isconnected : c.isconnected = true
  fits : (cString msg.topic).length + (cString msg.payload).length +
    (if 0 < msg.qos.toNat then 2 else 0) ≤ 76
  sent : SentWhole (4 + (cString msg.topic).length + (cString msg.payload).length +
    (if 0 < msg.qos.toNat then 2 else 0)) link.writes
  puback : msg.qos = 1 → Answered puback link.cycles ∧ link.parsed = true
  pubcomp : msg.qos = 2 → Answered pubcomp link.cycles ∧ link.parsed = true

theorem mqttPublish_eq_zero_iff {c : MqttClient} {link : Exchange} {msg : MqttPublishMessage} :
    (mqttPublish c link msg).1 = 0 ↔ Delivered c link msg := by
  rw [mqttPublish]
  cases hconnected : c.isconnected with
  | false =>
    exact iff_of_false failure_ne_success fun h => nomatch hconnected.symm.trans h.isconnected
  | true =>
    simp only [Bool.not_true, Bool.false_eq_true, if_false]
    generalize (if msg.qos = 1 ∨ msg.qos = 2 then c.getNextPacketId else c) = c'
    have hsome : (publishPacket 80 c'.nextPacketid msg).isSome = true ↔ _ :=
      publishPacket_isSome_iff
    cases hpacket : publishPacket 80 c'.nextPacketid msg with
    | none =>
      rw [hpacket] at hsome
      exact iff_of_false failure_ne_success fun h => Bool.false_ne_true (hsome.mpr h.fits)
    | some packet =>
      have hfits := hsome.mp (by rw [hpacket]; rfl)
      have hlen := (length_publishPacket hpacket).1
      simp only
      by_cases hsent : sendPacket packet.length link.writes = 0
      · have hwhole := hlen ▸ sendPacket_eq_zero_iff.mp hsent
        rw [if_neg (not_not.mpr hsent)]
        by_cases h1 : msg.qos = 1
        · rw [if_pos h1, awaitAck_eq_zero_iff (by decide)]
          refine ⟨fun hack => ⟨hconnected, hfits, hwhole, fun _ => hack, fun h2 => ?_⟩,
            fun h => h.puback h1⟩
          exact absurd (h1.symm.trans h2) (by decide)
        · rw [if_neg h1]
          by_cases h2 : msg.qos = 2
          · rw [if_pos h2, awaitAck_eq_zero_iff (by decide)]
            exact ⟨fun hack => ⟨hconnected, hfits, hwhole, fun h => absurd h h1, fun _ => hack⟩,
              fun h => h.pubcomp h2⟩
          · rw [if_neg h2]
            exact iff_of_true rfl
              ⟨hconnected, hfits, hwhole, fun h => absurd h h1, fun h => absurd h h2⟩
      · rw [if_pos hsent]
        refine iff_of_false failure_ne_success fun h => hsent ?_
        exact sendPacket_eq_zero_iff.mpr (hlen ▸ h.sent)

end RadProt.Mqtt
