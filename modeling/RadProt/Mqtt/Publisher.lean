import RadProt.Mqtt.Client
import RadProt.Mqtt.Task

namespace RadProt.Mqtt

open RadProt.Lib RadProt.Settings

/-- `mqtt_task` with its client and the queue that feeds it, and the readings that the queue
accepted, that were taken out of it, and that were published. -/
structure Publisher where
  task : State
  client : MqttClient
  mqttQueue : List MqttPublishMessage
  /-- The local variable, from `xQueueReceive` to the return of `MQTTPublish`. -/
  msg : Option MqttPublishMessage
  accepted : List MqttPublishMessage
  taken : List MqttPublishMessage
  published : List MqttPublishMessage

namespace Publisher

def init (others : Nat → Bool) : Publisher where
  task := .init others
  client := .init
  mqttQueue := []
  msg := none
  accepted := []
  taken := []
  published := []

inductive Event
  /-- A sensor calls `sendToMqttQueue`. -/
  | send (topic payload : List UInt8) (payloadLength : Nat) (qos : UInt8) (retain : Bool)
  /-- `MQTTConnect` with the settings of the record. -/
  | connect (r : ClientModeSettings) (link : Exchange)
  | receive
  | publish (link : Exchange)
  | noMessage (reconnect : Bool)
  /-- `cycle` fails in `MQTTRun`. -/
  | sessionClosed
  /-- A call into lwIP. -/
  | network (e : Mqtt.Event)

end Publisher

def Event.isSession : Event → Bool
  | .mqttConnect _ => true
  | .publish _ => true
  | .noMessage _ => true
  | _ => false

namespace Publisher

def Event.Enabled (s : Publisher) : Publisher.Event → Prop
  | .send .. => True
  | .connect .. => s.task.point = .connected
  | .receive => s.task.point = .publishing ∧ s.msg = none ∧ s.mqttQueue ≠ []
  | .publish _ => s.task.point = .publishing ∧ s.msg ≠ none
  | .noMessage _ => s.task.point = .publishing ∧ s.msg = none ∧ s.mqttQueue = []
  | .sessionClosed => True
  | .network e => e.isSession = false ∧ e.Enabled s.task

instance (s : Publisher) : (e : Publisher.Event) → Decidable (e.Enabled s)
  | .send .. => inferInstanceAs (Decidable True)
  | .connect .. => inferInstanceAs (Decidable (_ = _))
  | .receive => inferInstanceAs (Decidable (_ ∧ _))
  | .publish _ => inferInstanceAs (Decidable (_ ∧ _))
  | .noMessage _ => inferInstanceAs (Decidable (_ ∧ _))
  | .sessionClosed => inferInstanceAs (Decidable True)
  | .network _ => inferInstanceAs (Decidable (_ ∧ _))

def publisherStep (s : Publisher) : Publisher.Event → Publisher
  | .send topic payload payloadLength qos retain =>
    let (accepted, mqttQueue) := sendToMqttQueue s.mqttQueue topic payload payloadLength qos retain
    { s with
      mqttQueue
      accepted := if accepted then s.accepted ++ mqttQueue.getLast?.toList else s.accepted }
  | .connect r link =>
    let (rc, client) := mqttConnect s.client link (connectData r)
    { s with task := mqttStep s.task (.mqttConnect rc), client }
  | .receive =>
    match s.mqttQueue with
    | [] => s
    | msg :: mqttQueue => { s with mqttQueue, msg := some msg, taken := s.taken ++ [msg] }
  | .publish link =>
    match s.msg with
    | none => s
    | some msg =>
      let (rc, client) := mqttPublish s.client link msg
      { s with
        task := mqttStep s.task (.publish rc)
        client
        msg := none
        published := if rc = 0 then s.published ++ [msg] else s.published }
  | .noMessage reconnect => { s with task := mqttStep s.task (.noMessage reconnect) }
  | .sessionClosed => { s with client := s.client.closeSession }
  | .network e => { s with task := mqttStep s.task e }

def Step (s : Publisher) (e : Publisher.Event) (t : Publisher) : Prop :=
  e.Enabled s ∧ t = publisherStep s e

/-- Every reading taken out of the queue is published, but for the one in hand. -/
def NoneLost (s : Publisher) : Prop := s.taken = s.published ++ s.msg.toList

instance (s : Publisher) : Decidable (NoneLost s) := inferInstanceAs (Decidable (_ = _))

def PublishDelivered (s : Publisher) (e : Publisher.Event) : Prop :=
  ∀ link msg, e = .publish link → s.msg = some msg → Delivered s.client link msg

structure Accounted (s : Publisher) : Prop where
  accepted : s.accepted = s.taken ++ s.mqttQueue
  taken : s.published.length + s.msg.toList.length ≤ s.taken.length

variable {s t : Publisher} {e : Publisher.Event}

theorem Accounted.init (others : Nat → Bool) : Accounted (init others) where
  accepted := rfl
  taken := Nat.le_refl _

theorem sendToMqttQueue_cases (mqttQueue : List MqttPublishMessage) (topic payload : List UInt8)
    (payloadLength : Nat) (qos : UInt8) (retain : Bool) :
    (∃ msg, sendToMqttQueue mqttQueue topic payload payloadLength qos retain =
        (true, mqttQueue ++ [msg])) ∨
      sendToMqttQueue mqttQueue topic payload payloadLength qos retain = (false, mqttQueue) := by
  rw [sendToMqttQueue]
  split
  next => exact .inl ⟨_, rfl⟩
  next => exact .inr rfl

theorem Accounted.step (h : Accounted s) (hstep : Step s e t) : Accounted t := by
  obtain ⟨henabled, rfl⟩ := hstep
  cases e with
  | send topic payload payloadLength qos retain =>
    rw [publisherStep]
    obtain ⟨msg, hsend⟩ | hsend :=
      sendToMqttQueue_cases s.mqttQueue topic payload payloadLength qos retain
    · rw [hsend]
      refine ⟨?_, h.taken⟩
      simp [h.accepted]
    · rw [hsend]
      exact ⟨h.accepted, h.taken⟩
  | receive =>
    obtain ⟨-, hnone, hne⟩ := henabled
    obtain ⟨msg, mqttQueue, hqueue⟩ := List.exists_cons_of_ne_nil hne
    have htaken := h.taken
    rw [hnone] at htaken
    simp only [publisherStep, hqueue]
    refine ⟨by simp [h.accepted, hqueue], ?_⟩
    simpa using htaken
  | publish link =>
    obtain ⟨msg, hmsg⟩ := Option.ne_none_iff_exists'.mp henabled.2
    have htaken := h.taken
    rw [hmsg] at htaken
    simp only [publisherStep, hmsg]
    refine ⟨h.accepted, ?_⟩
    split
    next => simpa using htaken
    next => exact Nat.le_trans (Nat.add_le_add_left (Nat.zero_le _) _) htaken
  | _ => exact ⟨h.accepted, h.taken⟩

theorem NoneLost.step (h : NoneLost s) (hdelivered : PublishDelivered s e) (hstep : Step s e t) :
    NoneLost t := by
  obtain ⟨henabled, rfl⟩ := hstep
  cases e with
  | receive =>
    obtain ⟨-, hnone, hne⟩ := henabled
    obtain ⟨msg, mqttQueue, hqueue⟩ := List.exists_cons_of_ne_nil hne
    simp only [publisherStep, hqueue, NoneLost]
    rw [h, hnone, Option.toList_none, List.append_nil]
    rfl
  | publish link =>
    obtain ⟨msg, hmsg⟩ := Option.ne_none_iff_exists'.mp henabled.2
    have hrc := mqttPublish_eq_zero_iff.mpr (hdelivered link msg rfl hmsg)
    simp only [publisherStep, hmsg, NoneLost, if_pos hrc]
    rw [h, hmsg, Option.toList_some, Option.toList_none, List.append_nil]
  | _ => exact h

theorem NoneLost.back (hs : Accounted s) (hstep : Step s e t) (h : NoneLost t) :
    NoneLost s ∧ PublishDelivered s e := by
  obtain ⟨henabled, rfl⟩ := hstep
  cases e with
  | receive =>
    obtain ⟨-, hnone, hne⟩ := henabled
    obtain ⟨msg, mqttQueue, hqueue⟩ := List.exists_cons_of_ne_nil hne
    simp only [publisherStep, hqueue, NoneLost, Option.toList_some] at h
    refine ⟨?_, fun link msg he => nomatch he⟩
    rw [NoneLost, hnone, Option.toList_none, List.append_nil]
    exact List.append_cancel_right h
  | publish link =>
    obtain ⟨msg, hmsg⟩ := Option.ne_none_iff_exists'.mp henabled.2
    have htaken := hs.taken
    simp only [publisherStep, hmsg, NoneLost, Option.toList_none, List.append_nil] at h
    by_cases hrc : (mqttPublish s.client link msg).1 = 0
    · rw [if_pos hrc] at h
      refine ⟨by rw [NoneLost, hmsg, h]; rfl, ?_⟩
      rintro link' msg' he hmsg'
      obtain rfl : link = link' := Publisher.Event.publish.inj he
      obtain rfl : msg = msg' := Option.some.inj (hmsg.symm.trans hmsg')
      exact mqttPublish_eq_zero_iff.mp hrc
    · rw [if_neg hrc] at h
      rw [h, hmsg] at htaken
      exact absurd htaken (Nat.not_succ_le_self _)
  | send topic payload payloadLength qos retain => exact ⟨h, fun _ _ he => nomatch he⟩
  | connect r link => exact ⟨h, fun _ _ he => nomatch he⟩
  | noMessage reconnect => exact ⟨h, fun _ _ he => nomatch he⟩
  | sessionClosed => exact ⟨h, fun _ _ he => nomatch he⟩
  | network e => exact ⟨h, fun _ _ he => nomatch he⟩

variable {others : Nat → Bool} {es : List Publisher.Event}

/-- Every reading is published before the next one is taken, in the order of the queue, exactly
in the runs whose every call of `MQTTPublish` finds what it needs. -/
theorem noneLost_iff (hrun : Run Step (init others) es s) :
    (NoneLost s ∧ s.published <+: s.accepted) ↔
      Run (Guarded PublishDelivered Step) (init others) es s := by
  have haccounted : Accounted s := hrun.invariant Accounted (fun _ _ _ h hstep => h.step hstep)
    (.init others)
  constructor
  · rintro ⟨hlost, -⟩
    exact (Run.guarded_of_last Accounted NoneLost (fun _ _ _ h hstep => h.step hstep)
      (fun _ e _ h (hstep : Step _ e _) ht => ht.back h hstep) hrun (.init others) hlost).2
  · intro hguarded
    have hlost : NoneLost s := hguarded.invariant NoneLost
      (fun _ _ _ h hstep => h.step hstep.1 hstep.2) rfl
    refine ⟨hlost, ?_⟩
    rw [haccounted.accepted, hlost, List.append_assoc]
    exact List.prefix_append _ _

def goodLink (length : Int) (packetType : Int) : Exchange where
  writes := [length]
  cycles := [{ rc := packetType, closes := false }]
  parsed := true
  connackRc := 0

def badLink : Exchange where
  writes := [-1]
  cycles := []
  parsed := false
  connackRc := 0

def openSession : List Publisher.Event :=
  [.network (.socket (some 1)), .network .connectReturns,
    .connect (brokerSettings [] []) (goodLink 31 connack)]

def sendReading (value : UInt8) : Publisher.Event := .send [116] [value] 1 1 false

def reading (value : UInt8) : MqttPublishMessage where
  topic := [116]
  payload := [value]
  payloadLength := 1
  qos := 1
  retain := false

def goodRun : List Publisher.Event :=
  openSession ++ [sendReading 55, .receive, .publish (goodLink 8 puback)]

def lostRun : List Publisher.Event :=
  openSession ++ [sendReading 55, sendReading 56, .receive, .publish badLink,
    .network .disconnect] ++ openSession ++ [.receive, .publish (goodLink 8 puback)]

def publisherRun (es : List Publisher.Event) : Publisher :=
  es.foldl publisherStep (init fun _ => false)

theorem goodRun_delivered :
    (publisherRun goodRun).published = [reading 55] ∧
      Run (Guarded PublishDelivered Step) (init fun _ => false) goodRun (publisherRun goodRun) := by
  have hrun : Run Step (init fun _ => false) goodRun (publisherRun goodRun) :=
    .of_feasible (by decide +kernel)
  exact ⟨by decide +kernel, (noneLost_iff hrun).mp ⟨by decide +kernel, by decide +kernel⟩⟩

/-- The link goes while the first of two readings is published: it is lost, and the second is
published over the next connection. -/
theorem reading_lost :
    Run Step (init fun _ => false) lostRun (publisherRun lostRun) ∧
      (publisherRun lostRun).accepted = [reading 55, reading 56] ∧
      (publisherRun lostRun).published = [reading 56] ∧ ¬ NoneLost (publisherRun lostRun) ∧
      ¬ (publisherRun lostRun).published <+: (publisherRun lostRun).accepted :=
  ⟨.of_feasible (by decide +kernel), by decide +kernel, by decide +kernel, by decide +kernel,
    by decide +kernel⟩

end Publisher

end RadProt.Mqtt
