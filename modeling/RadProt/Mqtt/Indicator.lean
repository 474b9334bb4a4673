import RadProt.Mqtt.Cycle
import RadProt.Mqtt.Descriptors
import RadProt.Mqtt.Publisher

namespace RadProt.Mqtt

open RadProt.Lib

def AnsweredOpen (packetType : Int) (cycles : List Cycle) : Prop :=
  ∃ before cycle, before ++ [cycle] <+: cycles ∧ cycle.rc = packetType ∧ cycle.closes = false ∧
    ∀ c ∈ before, c.rc ≠ packetType ∧ 0 ≤ c.rc ∧ c.closes = false

theorem waitfor_of_closed {packetType rc : Int} {c : MqttClient} {cycles : List Cycle}
    (hc : c.isconnected = false) : (waitfor packetType c rc cycles).2.isconnected = false := by
  induction cycles generalizing c rc with
  | nil => exact hc
  | cons cycle cycles ih =>
    have hnext : (if cycle.closes then c.closeSession else c).isconnected = false := by
      split
      · rfl
      · exact hc
    rw [waitfor]
    split
    · exact ih hnext
    · exact hnext

theorem answeredOpen_cons_iff {packetType : Int} {cycle : Cycle} {cycles : List Cycle} :
    AnsweredOpen packetType (cycle :: cycles) ↔ cycle.closes = false ∧
      (cycle.rc = packetType ∨
        cycle.rc ≠ packetType ∧ 0 ≤ cycle.rc ∧ AnsweredOpen packetType cycles) := by
  have huntil := @until_cons_iff Cycle (fun c => c.rc = packetType ∧ c.closes = false)
    (fun c => c.rc ≠ packetType ∧ 0 ≤ c.rc ∧ c.closes = false) cycle cycles
  simp only [and_assoc] at huntil
  rw [AnsweredOpen, huntil, ← AnsweredOpen]
  tauto

theorem waitfor_open_iff {packetType rc : Int} {c : MqttClient} {cycles : List Cycle}
    (hrc : rc ≠ packetType) (hc : c.isconnected = true) :
    (waitfor packetType c rc cycles).1 = packetType ∧
        (waitfor packetType c rc cycles).2.isconnected = true ↔
      AnsweredOpen packetType cycles := by
  induction cycles generalizing rc with
  | nil =>
    refine iff_of_false (fun h => hrc h.1) ?_
    rintro ⟨before, cycle, hpre, -⟩
    exact absurd (List.prefix_nil.mp hpre) (by simp)
  | cons cycle cycles ih =>
    rw [waitfor, answeredOpen_cons_iff]
    cases hcloses : cycle.closes with
    | true =>
      -- The session is closed here, whatever comes later.
      refine iff_of_false (fun h => ?_) fun h => Bool.noConfusion h.1
      have hclosed : (waitfor packetType c.closeSession cycle.rc cycles).2.isconnected = false :=
        waitfor_of_closed rfl
      simp only [if_true] at h
      split at h
      · exact Bool.false_ne_true (hclosed.symm.trans h.2)
      · exact Bool.false_ne_true h.2
    | false =>
      simp only [Bool.false_eq_true, if_false, true_and]
      by_cases hnext : cycle.rc ≠ packetType ∧ 0 ≤ cycle.rc
      · rw [if_pos hnext, ih hnext.1]
        exact ⟨fun h => .inr ⟨hnext.1, hnext.2, h⟩, fun h => (h.resolve_left hnext.1).2.2⟩
      · rw [if_neg hnext]
        constructor
        · rintro ⟨hcycle, -⟩
          exact .inl hcycle
        · rintro (hcycle | ⟨hne, hpos, -⟩)
          · exact ⟨hcycle, hc⟩
          · exact absurd ⟨hne, hpos⟩ hnext

structure DeliveredOpen (c : MqttClient) (link : Exchange) (msg : MqttPublishMessage) : Prop
    extends Delivered c link msg where
  puback_open : msg.qos = 1 → AnsweredOpen Mqtt.puback link.cycles
  pubcomp_open : msg.qos = 2 → AnsweredOpen Mqtt.pubcomp link.cycles

theorem awaitAck_open_iff {packetType : Int} {c : MqttClient} {link : Exchange}
    (hpos : 0 ≤ packetType) (hc : c.isconnected = true) (hparsed : link.parsed = true) :
    (awaitAck packetType c link).2.isconnected = true ↔ AnsweredOpen packetType link.cycles := by
  have hrc : (-1 : Int) ≠ packetType := by omega
  rw [← waitfor_open_iff hrc hc]
  simp only [awaitAck, hparsed, and_true]
  split
  next h => exact (and_iff_right h).symm
  next h => exact iff_of_false Bool.false_ne_true fun hopen => h hopen.1

theorem mqttPublish_of_sent {c : MqttClient} {link : Exchange} {msg : MqttPublishMessage}
    (h : Delivered c link msg) : ∃ c' : MqttClient, c'.isconnected = true ∧
      mqttPublish c link msg =
        if msg.qos = 1 then awaitAck puback c' link
        else if msg.qos = 2 then awaitAck pubcomp c' link else (0, c') := by
  let c' := if msg.qos = 1 ∨ msg.qos = 2 then c.getNextPacketId else c
  have hc' : c'.isconnected = true := by
    simp only [c']
    split
    · exact h.isconnected
    · exact h.isconnected
  have hfits : (publishPacket 80 c'.nextPacketid msg).isSome = true :=
    publishPacket_isSome_iff.mpr h.fits
  obtain ⟨packet, hpacket⟩ := Option.isSome_iff_exists.mp hfits
  have hsent : sendPacket packet.length link.writes = 0 :=
    sendPacket_eq_zero_iff.mpr ((length_publishPacket hpacket).1 ▸ h.sent)
  refine ⟨c', hc', ?_⟩
  simp only [c'] at hpacket
  simp only [mqttPublish, h.isconnected, Bool.not_true, Bool.false_eq_true, if_false, hpacket]
  exact if_neg (not_not.mpr hsent)

theorem mqttPublish_open_iff {c : MqttClient} {link : Exchange} {msg : MqttPublishMessage} :
    (mqttPublish c link msg).1 = 0 ∧ (mqttPublish c link msg).2.isconnected = true ↔
      DeliveredOpen c link msg := by
  rw [mqttPublish_eq_zero_iff]
  constructor
  · rintro ⟨hdelivered, hopen⟩
    obtain ⟨c', hc', heq⟩ := mqttPublish_of_sent hdelivered
    rw [heq] at hopen
    refine ⟨hdelivered, fun h1 => ?_, fun h2 => ?_⟩
    · rw [if_pos h1] at hopen
      exact (awaitAck_open_iff (by decide) hc' (hdelivered.puback h1).2).mp hopen
    · have h1 : ¬ msg.qos = 1 := fun h1 => absurd (h1.symm.trans h2) (by decide)
      rw [if_neg h1, if_pos h2] at hopen
      exact (awaitAck_open_iff (by decide) hc' (hdelivered.pubcomp h2).2).mp hopen
  · intro h
    refine ⟨h.toDelivered, ?_⟩
    obtain ⟨c', hc', heq⟩ := mqttPublish_of_sent h.toDelivered
    rw [heq]
    split
    next h1 => exact (awaitAck_open_iff (by decide) hc' (h.puback h1).2).mpr (h.puback_open h1)
    next =>
      split
      next h2 => exact (awaitAck_open_iff (by decide) hc' (h.pubcomp h2).2).mpr (h.pubcomp_open h2)
      next => exact hc'

theorem mqttConnect_open {c : MqttClient} {link : Exchange} {options : ConnectData}
    (h : (mqttConnect c link options).1 = 0) :
    (mqttConnect c link options).2.isconnected = true := by
  revert h
  unfold mqttConnect
  split
  · exact fun h => absurd h failure_ne_success
  · split
    · exact fun h => absurd h failure_ne_success
    · split
      · exact fun h => absurd h failure_ne_success
      · dsimp only
        split
        · split
          next => exact fun _ => rfl
          next hrc => exact fun h => absurd h hrc
        · exact fun h => absurd h failure_ne_success

def Publisher.Event.isBackground : Publisher.Event → Bool
  | .sessionClosed => true
  | _ => false

structure Subsystem where
  publisher : Publisher
  keepAliveInterval : Nat
  pingOutstanding : Bool
  /-- The calls into lwIP that there had been when `MQTTConnect` last returned 0. -/
  openedAfter : List Call

namespace Subsystem

def init (others : Nat → Bool) : Subsystem where
  publisher := .init others
  keepAliveInterval := 0
  pingOutstanding := false
  openedAfter := []

inductive Event
  /-- A step of `mqtt_task` or of what surrounds it, and what an exchange with the broker leaves in
  `ping_outstanding`. -/
  | task (e : Publisher.Event) (pingOutstanding : Bool)
  /-- `MQTTRun` gets the mutex, so `mqtt_task` is in no call of the client. -/
  | mqttRun (i : Incoming)

def cycling (s : Subsystem) : Cycling where
  client := s.publisher.client
  keepAliveInterval := s.keepAliveInterval
  pingOutstanding := s.pingOutstanding

def Event.Enabled (s : Subsystem) : Subsystem.Event → Prop
  | .task e _ => e.isBackground = false ∧ e.Enabled s.publisher
  | .mqttRun _ => True

instance (s : Subsystem) : (e : Subsystem.Event) → Decidable (e.Enabled s)
  | .task _ _ => inferInstanceAs (Decidable (_ ∧ _))
  | .mqttRun _ => inferInstanceAs (Decidable True)

def subsystemStep (s : Subsystem) : Subsystem.Event → Subsystem
  | .task (.connect r link) pingOutstanding =>
    let publisher := Publisher.publisherStep s.publisher (.connect r link)
    if (mqttConnect s.publisher.client link (connectData r)).1 = 0 then
      { publisher
        keepAliveInterval := (connectData r).keepAliveInterval
        pingOutstanding := false
        openedAfter := publisher.task.log }
    else if s.publisher.client.isconnected then { s with publisher }
    else
      { s with publisher, keepAliveInterval := (connectData r).keepAliveInterval, pingOutstanding }
  | .task (.publish link) pingOutstanding =>
    { s with publisher := Publisher.publisherStep s.publisher (.publish link), pingOutstanding }
  | .task e _ => { s with publisher := Publisher.publisherStep s.publisher e }
  | .mqttRun i =>
    let c := Mqtt.mqttRun s.cycling i
    { s with publisher := { s.publisher with client := c.client }, pingOutstanding := c.pingOutstanding }

def Step (s : Subsystem) (e : Subsystem.Event) (t : Subsystem) : Prop :=
  e.Enabled s ∧ t = subsystemStep s e

/-- `mqtt_connection_status`, which `status_get` shows. -/
def status (s : Subsystem) : Bool := s.publisher.task.mqttConnectionStatus

/-- Where `mqtt_task` waits: in `vTaskDelay` at the end of a turn, in the one that waits for the
name of the broker, and in `xQueueReceive`. -/
def Waiting (s : Subsystem) : Prop :=
  s.publisher.task.point = .top ∨ s.publisher.task.point = .connecting ∨
    s.publisher.task.point = .publishing ∧ s.publisher.msg = none

def Open (s : Subsystem) : Prop :=
  s.publisher.client.isconnected = true ∧ s.publisher.task.log = s.openedAfter

def Honest (s : Subsystem) : Prop := s.Waiting → s.status = true → s.Open

/-- The step does not end the session while the status shows it. -/
def Undisturbed (s : Subsystem) : Subsystem.Event → Prop
  | .task (.publish link) _ =>
    ∀ msg, s.publisher.msg = some msg → DeliveredOpen s.publisher.client link msg
  | .task (.noMessage reconnect) _ => reconnect = false
  | .task _ _ => True
  | .mqttRun i => s.status = true → s.publisher.client.isconnected = true → Kept s.cycling i

/-- What holds until a session is lost: the status is on while its session is open and
`mqtt_task` publishes over it, and off at any other time. -/
structure Steady (s : Subsystem) : Prop where
  off : s.status = false → s.publisher.task.point ≠ .publishing
  on : s.status = true → s.publisher.task.point = .publishing ∧ s.Open
  log : s.openedAfter.length ≤ s.publisher.task.log.length

structure Doomed (s : Subsystem) : Prop where
  status : s.status = true
  log : s.openedAfter.length ≤ s.publisher.task.log.length
  point : s.publisher.task.point = .closing ∨ s.publisher.task.point = .publishing ∧
    s.publisher.client.isconnected = false ∧ s.publisher.msg ≠ none

section Task

variable {t : State} {e : Mqtt.Event}

theorem network_publishing (hsession : e.isSession = false) (henabled : e.Enabled t)
    (hpoint : t.point = .publishing) :
    (mqttStep t e).mqttConnectionStatus = t.mqttConnectionStatus ∧
      (mqttStep t e).point = t.point ∧ (mqttStep t e).log = t.log := by
  cases e with
  | otherOpens fd => exact ⟨rfl, rfl, rfl⟩
  | otherCloses fd => exact ⟨rfl, rfl, rfl⟩
  | socket fd =>
    cases fd with
    | none => cases hpoint.symm.trans henabled
    | some fd => cases hpoint.symm.trans henabled.1
  | mqttConnect rc => cases hsession
  | publish rc => cases hsession
  | noMessage reconnect => cases hsession
  | _ => cases hpoint.symm.trans henabled

theorem network_off (hsession : e.isSession = false) (hoff : t.mqttConnectionStatus = false)
    (hpoint : t.point ≠ .publishing) :
    (mqttStep t e).mqttConnectionStatus = false ∧ (mqttStep t e).point ≠ .publishing := by
  cases e with
  | otherOpens fd => exact ⟨hoff, hpoint⟩
  | otherCloses fd => exact ⟨hoff, hpoint⟩
  | resolving => exact ⟨hoff, hpoint⟩
  | socket fd =>
    cases fd with
    | none => exact ⟨rfl, Point.noConfusion⟩
    | some fd => exact ⟨hoff, Point.noConfusion⟩
  | selectReady error =>
    rw [mqttStep]
    split
    · exact ⟨hoff, Point.noConfusion⟩
    · exact ⟨rfl, Point.noConfusion⟩
  | selectTimeout => exact ⟨rfl, Point.noConfusion⟩
  | selectFails => exact ⟨rfl, Point.noConfusion⟩
  | mqttConnect rc => cases hsession
  | publish rc => cases hsession
  | noMessage reconnect => cases hsession
  | _ => exact ⟨hoff, Point.noConfusion⟩

theorem network_closing (hsession : e.isSession = false) (henabled : e.Enabled t)
    (hpoint : t.point = .closing) :
    (mqttStep t e).mqttConnectionStatus = t.mqttConnectionStatus ∧
      ((mqttStep t e).point = .closing ∧ (mqttStep t e).log = t.log ∨
        (mqttStep t e).point = .top ∧ (mqttStep t e).log.length = t.log.length + 1) := by
  cases e with
  | otherOpens fd => exact ⟨rfl, .inl ⟨hpoint, rfl⟩⟩
  | otherCloses fd => exact ⟨rfl, .inl ⟨hpoint, rfl⟩⟩
  | disconnect => exact ⟨rfl, .inr ⟨rfl, List.length_append⟩⟩
  | socket fd =>
    cases fd with
    | none => cases hpoint.symm.trans henabled
    | some fd => cases hpoint.symm.trans henabled.1
  | mqttConnect rc => cases hsession
  | publish rc => cases hsession
  | noMessage reconnect => cases hsession
  | _ => cases hpoint.symm.trans henabled

theorem length_log_mqttStep (t : State) (e : Mqtt.Event) :
    t.log.length ≤ (mqttStep t e).log.length := by
  obtain hlog | ⟨c, hlog⟩ := log_mqttStep t e
  · exact Nat.le_of_eq (congrArg _ hlog.symm)
  · rw [hlog, List.length_append]
    exact Nat.le_add_right _ _

end Task

variable {s t : Subsystem} {e : Subsystem.Event}

theorem Steady.init (others : Nat → Bool) : Steady (init others) where
  off _ := Point.noConfusion
  on h := by cases h
  log := Nat.le_refl _

theorem Steady.honest (h : Steady s) : s.Honest := fun _ hon => (h.on hon).2

theorem Steady.status_of_publishing (h : Steady s) (hpoint : s.publisher.task.point = .publishing) :
    s.status = true := by
  cases hstatus : s.status with
  | true => rfl
  | false => exact absurd hpoint (h.off hstatus)

theorem Steady.congr (h : Steady s) (htask : t.publisher.task = s.publisher.task)
    (hclient : s.publisher.client.isconnected = true → t.publisher.client.isconnected = true)
    (hopened : t.openedAfter = s.openedAfter) : Steady t where
  off := by
    rw [status, htask]
    exact h.off
  on := by
    rw [status, Open, htask, hopened]
    exact fun hon => ⟨(h.on hon).1, hclient (h.on hon).2.1, (h.on hon).2.2⟩
  log := by
    rw [htask, hopened]
    exact h.log

theorem Steady.mqttRun (h : Steady s) {i : Incoming}
    (hgood : s.status = true → s.publisher.client.isconnected = true → Kept s.cycling i) :
    Steady (subsystemStep s (.mqttRun i)) where
  off := h.off
  on := by
    intro hon
    obtain ⟨hpoint, hconnected, hlog⟩ := h.on hon
    refine ⟨hpoint, ?_, hlog⟩
    change (Mqtt.mqttRun s.cycling i).client.isconnected = true
    rw [mqttRun_client, if_neg fun hlost => hlost.2 (hgood hon hconnected)]
    exact hconnected
  log := h.log

theorem Steady.connect (h : Steady s) {r : Settings.ClientModeSettings} {link : Exchange} {ping : Bool}
    (hpoint : s.publisher.task.point = .connected) :
    Steady (subsystemStep s (.task (.connect r link) ping)) := by
  have hoff : s.status = false := by
    cases hstatus : s.status with
    | false => rfl
    | true => cases hpoint.symm.trans (h.on hstatus).1
  simp only [subsystemStep, Publisher.publisherStep, mqttStep]
  by_cases hrc : (mqttConnect s.publisher.client link (connectData r)).1 = 0
  · simp only [if_pos hrc]
    exact ⟨fun hoff => (by cases hoff), fun _ => ⟨rfl, mqttConnect_open hrc, rfl⟩, Nat.le_refl _⟩
  · simp only [if_neg hrc]
    split
    · exact ⟨fun _ => Point.noConfusion, fun hon => (by cases hon), h.log⟩
    · exact ⟨fun _ => Point.noConfusion, fun hon => (by cases hon), h.log⟩

theorem Steady.publish (h : Steady s) {link : Exchange} {ping : Bool}
    (hgood : ∀ msg, s.publisher.msg = some msg → DeliveredOpen s.publisher.client link msg) :
    Steady (subsystemStep s (.task (.publish link) ping)) := by
  simp only [subsystemStep, Publisher.publisherStep]
  cases hmsg : s.publisher.msg with
  | none => exact h.congr rfl id rfl
  | some msg =>
    obtain ⟨hrc, hopen⟩ := mqttPublish_open_iff.mpr (hgood msg hmsg)
    exact h.congr (if_pos hrc) (fun _ => hopen) rfl

theorem Steady.network (h : Steady s) {e : Mqtt.Event} {ping : Bool} (hsession : e.isSession = false)
    (henabled : e.Enabled s.publisher.task) : Steady (subsystemStep s (.task (.network e) ping)) := by
  cases hstatus : s.status with
  | true =>
    obtain ⟨hpoint, hconnected, hlog⟩ := h.on hstatus
    obtain ⟨hstatus', hpoint', hlog'⟩ := network_publishing hsession henabled hpoint
    refine ⟨fun hoff => ?_, fun _ => ⟨hpoint'.trans hpoint, hconnected, hlog'.trans hlog⟩, ?_⟩
    · exact absurd (hoff.symm.trans (hstatus'.trans hstatus)) Bool.false_ne_true
    · exact Nat.le_of_eq (congrArg _ (hlog'.trans hlog).symm)
  | false =>
    obtain ⟨hstatus', hpoint'⟩ := network_off hsession hstatus (h.off hstatus)
    refine ⟨fun _ => hpoint', fun hon => ?_, ?_⟩
    · exact absurd (hstatus'.symm.trans hon) Bool.false_ne_true
    · exact Nat.le_trans h.log (length_log_mqttStep s.publisher.task e)

theorem receive_eq (hne : s.publisher.mqttQueue ≠ []) : ∃ msg mqttQueue,
    Publisher.publisherStep s.publisher .receive =
      { s.publisher with mqttQueue, msg := some msg, taken := s.publisher.taken ++ [msg] } := by
  obtain ⟨msg, mqttQueue, hqueue⟩ := List.exists_cons_of_ne_nil hne
  refine ⟨msg, mqttQueue, ?_⟩
  rw [Publisher.publisherStep, hqueue]

theorem Steady.step (h : Steady s) (hgood : Undisturbed s e) (hstep : Step s e t) : Steady t := by
  obtain ⟨henabled, rfl⟩ := hstep
  cases e with
  | mqttRun i => exact h.mqttRun hgood
  | task e ping =>
    obtain ⟨hbackground, henabled⟩ := henabled
    cases e with
    | send topic payload payloadLength qos retain => exact h.congr rfl id rfl
    | receive =>
      obtain ⟨msg, mqttQueue, hreceive⟩ := receive_eq henabled.2.2
      change Steady { s with publisher := Publisher.publisherStep s.publisher .receive }
      rw [hreceive]
      exact h.congr rfl id rfl
    | connect r link => exact h.connect henabled
    | publish link => exact h.publish hgood
    | noMessage reconnect =>
      obtain rfl : reconnect = false := hgood
      exact h.congr rfl id rfl
    | sessionClosed => cases hbackground
    | network e => exact h.network henabled.1 henabled.2

theorem Doomed.not_waiting (h : Doomed s) : ¬ s.Waiting := by
  intro hwaiting
  obtain hclosing | ⟨hpublishing, -, hmsg⟩ := h.point
  · rw [Waiting, hclosing] at hwaiting
    simp at hwaiting
  · rw [Waiting, hpublishing] at hwaiting
    simp [hmsg] at hwaiting

theorem Steady.lost (h : Steady s) (hbad : ¬ Undisturbed s e) (hstep : Step s e t)
    (ht : t.Honest) : Doomed t := by
  obtain ⟨henabled, rfl⟩ := hstep
  cases e with
  | mqttRun i =>
    simp only [Undisturbed, not_forall] at hbad
    obtain ⟨hon, hconnected, hkept⟩ := hbad
    have hpoint := (h.on hon).1
    have hclosed : (subsystemStep s (.mqttRun i)).publisher.client.isconnected = false := by
      change (Mqtt.mqttRun s.cycling i).client.isconnected = false
      rw [mqttRun_client, if_pos ⟨hconnected, hkept⟩]
      rfl
    refine ⟨hon, h.log, .inr ⟨hpoint, hclosed, fun hmsg => ?_⟩⟩
    have hopen := ht (.inr (.inr ⟨hpoint, hmsg⟩)) hon
    exact Bool.false_ne_true (hclosed.symm.trans hopen.1)
  | task e ping =>
    obtain ⟨hbackground, henabled⟩ := henabled
    cases e with
    | publish link =>
      simp only [Undisturbed, not_forall] at hbad
      obtain ⟨msg, hmsg, hbad⟩ := hbad
      have hon := h.status_of_publishing henabled.1
      have hstep : subsystemStep s (.task (.publish link) ping) =
          { s with publisher := Publisher.publisherStep s.publisher (.publish link),
                   pingOutstanding := ping } := rfl
      revert ht
      simp only [hstep, Publisher.publisherStep, hmsg]
      by_cases hrc : (mqttPublish s.publisher.client link msg).1 = 0
      · intro ht
        have hopen := ht (.inr (.inr ⟨(congrArg _ (if_pos hrc)).trans henabled.1, rfl⟩))
          ((congrArg State.mqttConnectionStatus (if_pos hrc)).trans hon)
        exact absurd (mqttPublish_open_iff.mp ⟨hrc, hopen.1⟩) hbad
      · intro _
        rw [mqttStep, if_neg hrc]
        exact ⟨hon, h.log, .inl rfl⟩
    | noMessage reconnect =>
      cases reconnect with
      | false => exact absurd rfl hbad
      | true => exact ⟨h.status_of_publishing henabled.1, h.log, .inl rfl⟩
    | _ => exact absurd trivial hbad

theorem Doomed.congr (h : Doomed s) (htask : t.publisher.task = s.publisher.task)
    (hclient : s.publisher.client.isconnected = false → t.publisher.client.isconnected = false)
    (hmsg : s.publisher.msg ≠ none → t.publisher.msg ≠ none)
    (hopened : t.openedAfter = s.openedAfter) : Doomed t where
  status := by
    rw [Subsystem.status, htask]
    exact h.status
  log := by
    rw [htask, hopened]
    exact h.log
  point := by
    rw [htask]
    exact h.point.imp_right fun ⟨hpoint, hclosed, hsome⟩ => ⟨hpoint, hclient hclosed, hmsg hsome⟩

theorem Doomed.network (h : Doomed s) {e : Mqtt.Event} {ping : Bool} (hsession : e.isSession = false)
    (henabled : e.Enabled s.publisher.task)
    (ht : (subsystemStep s (.task (.network e) ping)).Honest) :
    Doomed (subsystemStep s (.task (.network e) ping)) := by
  obtain hclosing | ⟨hpublishing, hclosed, hmsg⟩ := h.point
  · obtain ⟨hstatus, ⟨hpoint, hlog⟩ | ⟨hpoint, hlog⟩⟩ := network_closing hsession henabled hclosing
    · exact ⟨hstatus.trans h.status, Nat.le_trans h.log (Nat.le_of_eq (congrArg _ hlog.symm)),
        .inl hpoint⟩
    · have hopen := ht (.inl hpoint) (hstatus.trans h.status)
      have hlog' : s.openedAfter.length = s.publisher.task.log.length + 1 :=
        (congrArg List.length hopen.2).symm.trans hlog
      have := h.log
      omega
  · obtain ⟨hstatus, hpoint, hlog⟩ := network_publishing hsession henabled hpublishing
    exact ⟨hstatus.trans h.status, Nat.le_trans h.log (Nat.le_of_eq (congrArg _ hlog.symm)),
      .inr ⟨hpoint.trans hpublishing, hclosed, hmsg⟩⟩

theorem Doomed.step (h : Doomed s) (hstep : Step s e t) (ht : t.Honest) : Doomed t := by
  obtain ⟨henabled, rfl⟩ := hstep
  cases e with
  | mqttRun i =>
    refine h.congr rfl (fun hclosed => ?_) id rfl
    change (Mqtt.mqttRun s.cycling i).client.isconnected = false
    rw [mqttRun_client, if_neg fun hopen => Bool.false_ne_true (hclosed.symm.trans hopen.1)]
    exact hclosed
  | task e ping =>
    obtain ⟨hbackground, henabled⟩ := henabled
    cases e with
    | send topic payload payloadLength qos retain => exact h.congr rfl id id rfl
    | receive =>
      obtain hclosing | ⟨-, -, hmsg⟩ := h.point
      · cases hclosing.symm.trans henabled.1
      · exact absurd henabled.2.1 hmsg
    | connect r link =>
      obtain hclosing | ⟨hpublishing, -⟩ := h.point
      · cases hclosing.symm.trans henabled
      · cases hpublishing.symm.trans henabled
    | publish link =>
      obtain hclosing | ⟨hpublishing, hclosed, hmsg⟩ := h.point
      · cases hclosing.symm.trans henabled.1
      · obtain ⟨msg, hmsg⟩ := Option.ne_none_iff_exists'.mp hmsg
        have hrc : (mqttPublish s.publisher.client link msg).1 ≠ 0 := by
          intro hrc
          exact Bool.false_ne_true (hclosed.symm.trans (mqttPublish_eq_zero_iff.mp hrc).isconnected)
        simp only [subsystemStep, Publisher.publisherStep, hmsg, mqttStep, if_neg hrc]
        exact ⟨h.status, h.log, .inl rfl⟩
    | noMessage reconnect =>
      obtain hclosing | ⟨-, -, hmsg⟩ := h.point
      · cases hclosing.symm.trans henabled.1
      · exact absurd henabled.2.1 hmsg
    | sessionClosed => cases hbackground
    | network e => exact h.network henabled.1 henabled.2 ht

def HonestStep (s : Subsystem) (e : Subsystem.Event) (t : Subsystem) : Prop :=
  Step s e t ∧ t.Honest

theorem honestRun_of_guarded {es : List Subsystem.Event}
    (h : Run (Guarded (fun s e => (subsystemStep s e).Honest) Step) s es t) :
    Run HonestStep s es t := by
  induction h with
  | nil => exact .nil
  | cons hstep _ ih => exact .cons ⟨hstep.2, hstep.2.2 ▸ hstep.1⟩ ih

variable {others : Nat → Bool} {es : List Subsystem.Event}

/-- The status is right wherever a run comes that does not end the session while the status
shows it; and one that does end it comes to a wait with the status wrong. -/
theorem honest_iff :
    (Run (Guarded Undisturbed Step) (init others) es s → Run HonestStep (init others) es s) ∧
      (s.Waiting → Run HonestStep (init others) es s →
        Run (Guarded Undisturbed Step) (init others) es s) := by
  constructor
  · intro hrun
    apply honestRun_of_guarded
    have hhonest : Run (Guarded (fun s e => (subsystemStep s e).Honest) (Guarded Undisturbed Step))
        (init others) es s := by
      refine hrun.guarded_of_invariant Steady (fun _ _ _ h hstep => h.step hstep.1 hstep.2)
        (fun _ _ _ h hstep => ?_) (.init others)
      exact hstep.2.2 ▸ (h.step hstep.1 hstep.2).honest
    exact hhonest.mono fun _ _ _ hstep => ⟨hstep.1, hstep.2.2⟩
  · intro hwaiting hrun
    have hor := hrun.guarded_or (G := Undisturbed) Steady Doomed (fun s e t h hstep => ?_)
      (fun _ _ _ h hstep => h.step hstep.1 hstep.2) (.init others)
    · obtain ⟨hguarded, -⟩ | hdoomed := hor
      · exact hguarded.mono fun _ _ _ hstep => ⟨hstep.1, hstep.2.1⟩
      · exact absurd hwaiting hdoomed.not_waiting
    · by_cases hgood : Undisturbed s e
      · exact .inl ⟨hgood, h.step hgood hstep.1⟩
      · exact .inr (h.lost hgood hstep.1 hstep.2)

instance (s : Subsystem) : Decidable s.Waiting := inferInstanceAs (Decidable (_ ∨ _ ∨ _ ∧ _))

instance (s : Subsystem) : Decidable s.Open := inferInstanceAs (Decidable (_ ∧ _))

instance (s : Subsystem) : Decidable s.Honest := inferInstanceAs (Decidable (_ → _ → _))

def subsystemRun (es : List Subsystem.Event) : Subsystem :=
  es.foldl subsystemStep (init fun _ => false)

def incoming (packetType : Int) : Incoming where
  packetType
  publishQos := none
  ackParsed := true
  ackWrites := []
  expired := false
  pingWrites := []

def quietRun : List Subsystem.Event :=
  Publisher.goodRun.map (.task · false) ++ [.mqttRun (incoming 0)]

def readErrorRun : List Subsystem.Event :=
  Publisher.openSession.map (.task · false) ++ [.mqttRun (incoming (-1))]

def publishErrorRun : List Subsystem.Event :=
  Publisher.openSession.map (.task · false) ++
    [.task (Publisher.sendReading 55) false, .task .receive false,
      .task (.publish Publisher.badLink) false, .task (.network .disconnect) false]

theorem quietRun_undisturbed :
    (subsystemRun quietRun).Waiting ∧ (subsystemRun quietRun).status = true ∧
      Run (Guarded Undisturbed Step) (init fun _ => false) quietRun (subsystemRun quietRun) := by
  have hwaiting : (subsystemRun quietRun).Waiting := by decide +kernel
  have hrun : Run HonestStep (init fun _ => false) quietRun (subsystemRun quietRun) :=
    honestRun_of_guarded (Run.guarded_of_feasible (by decide +kernel))
  exact ⟨hwaiting, by decide +kernel, honest_iff.2 hwaiting hrun⟩

/-- After a read error in `MQTTRun`, and after a failed publish, `mqtt_task` waits with the status
on and no session. -/
theorem status_of_dead_session :
    (Run Step (init fun _ => false) readErrorRun (subsystemRun readErrorRun) ∧
      (subsystemRun readErrorRun).Waiting ∧ (subsystemRun readErrorRun).status = true ∧
      (subsystemRun readErrorRun).publisher.client.isconnected = false) ∧
    (Run Step (init fun _ => false) publishErrorRun (subsystemRun publishErrorRun) ∧
      (subsystemRun publishErrorRun).Waiting ∧ (subsystemRun publishErrorRun).status = true ∧
      (subsystemRun publishErrorRun).publisher.client.isconnected = false) := by
  refine ⟨⟨.of_feasible ?_, ?_, ?_, ?_⟩, ⟨.of_feasible ?_, ?_, ?_, ?_⟩⟩
  all_goals decide +kernel

end Subsystem

end RadProt.Mqtt
