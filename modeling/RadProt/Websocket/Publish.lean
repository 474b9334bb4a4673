import RadProt.Lib.Run
import RadProt.Sensors.Task
import RadProt.Websocket.Sending
import Mathlib.Data.List.Forall2

namespace RadProt.Websocket

open RadProt.Lib RadProt.Lib.Access RadProt.Settings

/-! What the tasks publish for the browser, from the document to the frame. -/

/-- A document's text, and `serializeJson` into a buffer of `n` bytes, which cuts it. -/
structure Serializer where
  text : Json → List UInt8
  serializeJson : Json → Nat → List UInt8
  serializeJson_eq : ∀ json n, serializeJson json n = (text json).take n

def wsMaxPayloadLength : Nat := 512

structure PublishMessage where
  payload : CharArray sendBufferSize
  payloadLength : UInt32
  payloadLength_le : payloadLength.toNat ≤ sendBufferSize

def statusGet (memFree memMinFree : Nat) (mqttConnectionStatus initialConfigGpio : Bool) : Json :=
  .obj [("mem", .obj [("total", .int (160 * 1024)), ("free", .int memFree),
      ("min_free", .int memMinFree)]),
    ("mqtt", .obj [("connected", .bool mqttConnectionStatus)]), ("button", .bool !initialConfigGpio)]

/-- The message that a document is published in; `stack` is what the variable holds before. -/
def Serializer.message (serializer : Serializer) (json : Json) (stack : CharArray sendBufferSize) :
    PublishMessage where
  payload := stack.write 0 (serializer.serializeJson json wsMaxPayloadLength)
  payloadLength := .ofNat (serializer.serializeJson json wsMaxPayloadLength).length
  payloadLength_le := by
    rw [serializer.serializeJson_eq, UInt32.toNat_ofNat']
    exact (Nat.mod_le _ _).trans (List.length_take_le _ _)

/-- `xQueueSend` without waiting, into the ten entries that `task` makes. -/
structure Kernel where
  xQueueSend : List PublishMessage → PublishMessage → List PublishMessage
  xQueueSend_of_lt : ∀ queue msg, queue.length < 10 → xQueueSend queue msg = queue ++ [msg]
  xQueueSend_of_not_lt : ∀ queue msg, ¬ queue.length < 10 → xQueueSend queue msg = queue

structure TaskBuffers extends SendBuffer where
  queuedMsg : Nat
  queuedMsg_fits : queuedMsg + sendBufferSize ≤ 2 ^ 32
  queuedMsg_apart : queuedMsg + sendBufferSize ≤ address ∨ address + sendBufferSize ≤ queuedMsg

def TaskBuffers.wsMsg (buffers : TaskBuffers) (msg : PublishMessage) :
    WebsocketMessage buffers.toSendBuffer where
  message := buffers.queuedMsg
  msgSize := msg.payloadLength
  msgType := .string
  fits := (Nat.add_le_add_left msg.payloadLength_le _).trans buffers.queuedMsg_fits
  apart := buffers.queuedMsg_apart.imp_left (Nat.add_le_add_left msg.payloadLength_le _).trans

structure Publishing where
  client : Client
  websocketQueue : Option (List PublishMessage)
  memory : Nat → UInt8
  log : List SocketEvent

def SocketEvent.sent? : SocketEvent → Option (List UInt8)
  | .send _ bytes => some bytes
  | _ => none

namespace Publishing

inductive Event
  | queueCreated
  /-- The first half of a turn of `task` leaves the client so. -/
  | sockets (client : Client)
  /-- A sensor calls `sendToEndpoints`; `stack` is what its local variable holds before. -/
  | reading (sensorNum pubSettingNum : Nat) (name topic value : List UInt8) (valueLength : Nat)
    (qos : UInt8) (retain : Bool) (stack : CharArray sendBufferSize)
  | status (memFree memMinFree : Nat) (mqttConnectionStatus initialConfigGpio : Bool)
    (stack : CharArray sendBufferSize)
  /-- `task` takes an entry out of the queue. -/
  | received

def Event.document? : Event → Option Json
  | .reading sensorNum pubSettingNum name topic value valueLength qos retain _ =>
    some (Sensors.sendToEndpoints sensorNum pubSettingNum name topic value valueLength qos retain).json
  | .status memFree memMinFree mqttConnectionStatus initialConfigGpio _ =>
    some (statusGet memFree memMinFree mqttConnectionStatus initialConfigGpio)
  | _ => none

def publish (kernel : Kernel) (serializer : Serializer) (s : Publishing) (json : Json)
    (stack : CharArray sendBufferSize) : Publishing :=
  { s with
    websocketQueue :=
      s.websocketQueue.map (kernel.xQueueSend · (serializer.message json stack)) }

def receive (buffers : TaskBuffers) (s : Publishing) (msg : PublishMessage)
    (queue : List PublishMessage) : Publishing :=
  let memory := (storeBytes buffers.queuedMsg msg.payload.bytes s.memory).memory
  if s.client.established then
    let r := buffers.sendMessage s.client (buffers.wsMsg msg) memory
    { s with websocketQueue := some queue, memory := r.memory, log := s.log ++ r.value }
  else { s with websocketQueue := some queue, memory }

inductive Step (kernel : Kernel) (serializer : Serializer) (buffers : TaskBuffers) :
    Publishing → Event → Publishing → Prop
  | queueCreated {s} : s.websocketQueue = none →
    Step kernel serializer buffers s .queueCreated { s with websocketQueue := some [] }
  | sockets {s client} : Step kernel serializer buffers s (.sockets client) { s with client }
  | reading {s sensorNum pubSettingNum name topic value valueLength qos retain stack} :
    Step kernel serializer buffers s
      (.reading sensorNum pubSettingNum name topic value valueLength qos retain stack)
      (s.publish kernel serializer (Sensors.sendToEndpoints sensorNum pubSettingNum name topic value
        valueLength qos retain).json stack)
  | status {s memFree memMinFree mqttConnectionStatus initialConfigGpio stack} :
    s.client.established = true →
    Step kernel serializer buffers s
      (.status memFree memMinFree mqttConnectionStatus initialConfigGpio stack)
      (s.publish kernel serializer
        (statusGet memFree memMinFree mqttConnectionStatus initialConfigGpio) stack)
  | received {s msg queue} : s.websocketQueue = some (msg :: queue) →
    Step kernel serializer buffers s .received (s.receive buffers msg queue)

def init (memory : Nat → UInt8) : Publishing where
  client := { socket := -1, established := false }
  websocketQueue := none
  memory
  log := []

def packets (s : Publishing) : List (List UInt8) := s.log.filterMap SocketEvent.sent?

structure Entry (serializer : Serializer) (json : Json) (msg : PublishMessage) : Prop where
  payloadLength : msg.payloadLength.toNat = min wsMaxPayloadLength (serializer.text json).length
  payload : (serializer.text json).take wsMaxPayloadLength <+: msg.payload.bytes

/-- `docs` were published, in that order. Of the first of them the frames were sent, the others
are queued, and some are lost between these. -/
def Tracks (serializer : Serializer) (docs : List Json) (s : Publishing) : Prop :=
  ∃ sent queued, (sent ++ queued).Sublist docs ∧
    List.Forall₂ (fun json packet => Carries typeText (serializer.text json) packet) sent s.packets ∧
    List.Forall₂ (Entry serializer) queued (s.websocketQueue.getD [])

section Steps

variable {kernel : Kernel} {serializer : Serializer} {buffers : TaskBuffers} {s t : Publishing} {e : Event}
  {es : List Event} {docs : List Json}

theorem entry_message (serializer : Serializer) (json : Json) (stack : CharArray sendBufferSize) :
    Entry serializer json (serializer.message json stack) := by
  have hlength : (serializer.serializeJson json wsMaxPayloadLength).length =
      min wsMaxPayloadLength (serializer.text json).length := by
    rw [serializer.serializeJson_eq, List.length_take]
  have hle : (serializer.serializeJson json wsMaxPayloadLength).length ≤ sendBufferSize :=
    hlength ▸ Nat.min_le_left _ _
  constructor
  · rw [Serializer.message, UInt32.toNat_ofNat', hlength]
    exact Nat.mod_eq_of_lt ((Nat.min_le_left _ _).trans_lt (by decide))
  · rw [Serializer.message, CharArray.write_bytes _ (by omega), List.take_zero, List.nil_append,
      serializer.serializeJson_eq]
    exact List.prefix_append _ _

theorem Tracks.publish (h : s.Tracks serializer docs) (json : Json)
    (stack : CharArray sendBufferSize) :
    (s.publish kernel serializer json stack).Tracks serializer (docs ++ [json]) := by
  obtain ⟨sent, queued, hdocs, hpackets, hqueue⟩ := h
  have hlost : (sent ++ queued).Sublist (docs ++ [json]) :=
    hdocs.trans (List.sublist_append_left _ _)
  cases hsome : s.websocketQueue with
  | none =>
    rw [hsome] at hqueue
    refine ⟨sent, queued, hlost, hpackets, ?_⟩
    rw [Publishing.publish, hsome]
    exact hqueue
  | some queue =>
    rw [hsome] at hqueue
    by_cases hroom : queue.length < 10
    · refine ⟨sent, queued ++ [json], ?_, hpackets, ?_⟩
      · rw [← List.append_assoc]
        exact hdocs.append (List.Sublist.refl _)
      · simp only [Publishing.publish, hsome, Option.map_some, Option.getD_some,
          kernel.xQueueSend_of_lt _ _ hroom]
        exact List.rel_append hqueue (.cons (entry_message serializer json stack) .nil)
    · refine ⟨sent, queued, hlost, hpackets, ?_⟩
      simp only [Publishing.publish, hsome, Option.map_some, Option.getD_some,
        kernel.xQueueSend_of_not_lt _ _ hroom]
      exact hqueue

theorem Entry.payload_eq {json : Json} {msg : PublishMessage} (h : Entry serializer json msg)
    (buffers : TaskBuffers) (hsize : msg.payloadLength.toNat + 10 ≤ sendBufferSize)
    (m : Nat → UInt8) :
    (buffers.wsMsg msg).payload (storeBytes buffers.queuedMsg msg.payload.bytes m).memory =
      serializer.text json := by
  have hlength : (serializer.text json).length = msg.payloadLength.toNat := by
    have hmin := h.payloadLength
    simp only [wsMaxPayloadLength, sendBufferSize] at hmin hsize
    omega
  have hwhole : serializer.text json <+: msg.payload.bytes := by
    have hcut := h.payload
    have hshort : (serializer.text json).length ≤ wsMaxPayloadLength := by
      simp only [wsMaxPayloadLength, sendBufferSize] at hsize ⊢
      omega
    rwa [List.take_of_length_le hshort] at hcut
  have hstored := (storeBytes_leaves (P := fun _ => True) (m := m) (a := buffers.queuedMsg)
    (s := msg.payload.bytes) fun _ _ => trivial).memory
  have hstands := (holds_overwrite m buffers.queuedMsg msg.payload.bytes).of_isPrefix hwhole
  rw [WebsocketMessage.payload, hstored]
  change (view buffers.queuedMsg msg.payloadLength.toNat _).value = _
  rw [← hlength]
  exact hstands.view

theorem Tracks.receive {msg : PublishMessage} {queue : List PublishMessage}
    (h : s.Tracks serializer docs) (hqueue : s.websocketQueue = some (msg :: queue)) :
    (s.receive buffers msg queue).Tracks serializer docs := by
  obtain ⟨sent, queued, hdocs, hpackets, hentries⟩ := h
  rw [hqueue] at hentries
  obtain ⟨json, queued, hentry, hrest, rfl⟩ := List.forall₂_cons_right_iff.mp hentries
  have hlost : (sent ++ queued).Sublist docs :=
    (List.Sublist.append (List.Sublist.refl _) (List.sublist_cons_self _ _)).trans hdocs
  rw [Publishing.receive]
  cases hclient : s.client.established with
  | false => exact ⟨sent, queued, hlost, hpackets, hrest⟩
  | true =>
    obtain ⟨m', hleaves⟩ := sendMessage_leaves (buffers.wsMsg msg) s.client
      (storeBytes buffers.queuedMsg msg.payload.bytes s.memory).memory
    simp only [if_true, hleaves.value, hclient, Bool.true_eq_false, or_false]
    by_cases hlarge : sendBufferSize < (buffers.wsMsg msg).msgSize.toNat + 10
    · rw [if_pos hlarge, List.append_nil]
      exact ⟨sent, queued, hlost, hpackets, hrest⟩
    · have hpayload := hentry.payload_eq buffers (Nat.le_of_not_lt hlarge) s.memory
      have hlength := length_payload (buffers.wsMsg msg)
        (storeBytes buffers.queuedMsg msg.payload.bytes s.memory).memory
      rw [hpayload] at hlength
      have hcarries : Carries typeText (serializer.text json)
          (frame typeText (serializer.text json)) :=
        frame_carries .string (hlength ▸ Nat.le_of_not_lt hlarge)
      rw [if_neg hlarge, hpayload]
      refine ⟨sent ++ [json], queued, by simpa using hdocs, ?_, hrest⟩
      rw [packets, List.filterMap_append]
      exact List.rel_append hpackets (.cons hcarries .nil)

theorem Step.tracks (h : Step kernel serializer buffers s e t) (hs : s.Tracks serializer docs) :
    t.Tracks serializer (docs ++ e.document?.toList) := by
  have hnone : docs ++ (none : Option Json).toList = docs := List.append_nil docs
  cases h with
  | queueCreated hqueue =>
    obtain ⟨sent, queued, hdocs, hpackets, hentries⟩ := hs
    rw [hqueue] at hentries
    exact ⟨sent, queued, hnone.symm ▸ hdocs, hpackets, hentries⟩
  | sockets => exact hnone.symm ▸ hs
  | reading => exact hs.publish _ _
  | status => exact hs.publish _ _
  | received hqueue => exact hnone.symm ▸ hs.receive hqueue

theorem tracks_of_run (h : Run (Step kernel serializer buffers) s es t) (hs : s.Tracks serializer docs) :
    t.Tracks serializer (docs ++ es.filterMap Event.document?) := by
  induction h generalizing docs with
  | nil => simpa using hs
  | @cons s t u e es hstep _ ih =>
    have hu := ih (hstep.tracks hs)
    rw [List.append_assoc] at hu
    rwa [show List.filterMap Event.document? (e :: es) =
      e.document?.toList ++ es.filterMap Event.document? by cases h : e.document? <;> simp [h]]

theorem tracks_init (memory : Nat → UInt8) : (init memory).Tracks serializer [] :=
  ⟨[], [], List.Sublist.refl _, .nil, .nil⟩

/-- Messages are sent whole in one frame or not at all, and every frame that `task` sends out of
its queue has the complete text of a document, in the order these were published. -/
theorem frames_complete (buffers : TaskBuffers) (kernel : Kernel) (serializer : Serializer) :
    (∀ (msg : WebsocketMessage buffers.toSendBuffer) (client : Client) (m : Nat → UInt8),
      Within msg.Reach m (buffers.sendMessage client msg) ∧
        ((buffers.sendMessage client msg m).value = [] ∨
          ∃ packet, (buffers.sendMessage client msg m).value =
              [.setsockopt client.socket, .send client.socket packet] ∧
            Carries msg.msgType.byte (msg.payload m) packet)) ∧
      ∀ memory es t, Run (Step kernel serializer buffers) (init memory) es t →
        ∃ docs, docs.Sublist (es.filterMap Event.document?) ∧
          List.Forall₂ (fun json packet => Carries typeText (serializer.text json) packet) docs
            t.packets := by
  refine ⟨fun msg client m => sendMessage_sound msg client m, fun memory es t hrun => ?_⟩
  obtain ⟨sent, queued, hdocs, hpackets, -⟩ := tracks_of_run hrun (tracks_init memory)
  exact ⟨sent, (List.sublist_append_left _ _).trans hdocs, hpackets⟩

end Steps

section Sample

def readingText : List UInt8 :=
  ascii ("\x7b\"reading\":\x7b\"s_s\":0,\"p_s\":0,\"p_s_name\":\"H3\",\"value\":\"7.2233\"," ++
    "\"topic\":\"123\"\x7d\x7d")

def readingSerializer : Serializer where
  text _ := readingText
  serializeJson _ n := readingText.take n
  serializeJson_eq _ _ := rfl

def readingKernel : Kernel where
  xQueueSend queue msg := if queue.length < 10 then queue ++ [msg] else queue
  xQueueSend_of_lt _ _ h := if_pos h
  xQueueSend_of_not_lt _ _ h := if_neg h

def sampleBuffers : TaskBuffers where
  address := 0x20000000
  fits := by decide
  queuedMsg := 0x20001000
  queuedMsg_fits := by decide
  queuedMsg_apart := .inr (by decide)

def readingEvents : List Event :=
  [.queueCreated, .sockets { socket := 1, established := true },
    .reading 0 0 (ascii "H3") (ascii "123") (ascii "7.2233") 6 1 false (.strncpy 512 []), .received]

theorem reading_sent : ∃ t docs,
    Run (Step readingKernel readingSerializer sampleBuffers) (init fun _ => 0) readingEvents t ∧
      docs.Sublist (readingEvents.filterMap Event.document?) ∧
      List.Forall₂ (fun json packet => Carries typeText (readingSerializer.text json) packet) docs
        t.packets ∧
      t.packets = [[0x81, 76] ++ readingText] := by
  obtain ⟨t, hrun, hpackets⟩ : ∃ t,
      Run (Step readingKernel readingSerializer sampleBuffers) (init fun _ => 0) readingEvents t ∧
        t.packets = [[0x81, 76] ++ readingText] :=
    ⟨_, .cons (.queueCreated rfl) (.cons .sockets (.cons .reading (.single (.received rfl)))),
      by decide +kernel⟩
  obtain ⟨docs, hdocs, hcarry⟩ :=
    (frames_complete sampleBuffers readingKernel readingSerializer).2 _ _ _ hrun
  exact ⟨t, docs, hrun, hdocs, hcarry, hpackets⟩

end Sample

end Publishing

end RadProt.Websocket
