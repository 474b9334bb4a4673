import RadProt.Websocket.Encode
import RadProt.Websocket.Task

namespace RadProt.Websocket

open RadProt.Lib RadProt.Lib.Access

theorem holds_received (bytes : List UInt8) (m : Nat → UInt8) :
    Holds (received bytes m) 0 bytes := by
  intro i hi
  simp [received, hi]

structure Handshake (request : List UInt8) : Prop where
  length_le : request.length ≤ recvBufferSize
  zero_notMem : 0 ∉ request
  get : ascii "GET /" <+: request
  key : ∃ pre key post, request = pre ++ keyField ++ (key ++ 13 :: post)

section Handshake

variable {m : Nat → UInt8} {a extent : Nat} {request : List UInt8}

theorem getKey_reads {pre key post : List UInt8}
    (h : Holds m a (pre ++ keyField ++ (key ++ 13 :: post)))
    (h0 : 0 ∉ pre ++ keyField ++ (key ++ 13 :: post))
    (hextent : (pre ++ keyField ++ (key ++ 13 :: post)).length ≤ extent) :
    ∃ r, Reads (fun _ => True) m (getKey a extent) (some r) := by
  have hpre : 0 ∉ pre := fun hz => h0 (by simp [hz])
  have hfield : 0 < keyField.length := by decide
  have hlen : (pre ++ keyField).length = pre.length + keyField.length := List.length_append
  have hle := hextent
  rw [List.length_append, hlen] at hle
  obtain ⟨p, hp, hap, hpa⟩ := strstr_reads (n := extent) h hpre (by omega)
  obtain ⟨k, rfl⟩ : ∃ k, p = a + k := ⟨p - a, by omega⟩
  -- Behind the field that was found, wherever it is, the request still has its CR.
  have hdrop : (pre ++ keyField ++ (key ++ 13 :: post)).drop (k + keyField.length) =
      (pre ++ keyField).drop (k + keyField.length) ++ (key ++ 13 :: post) :=
    List.drop_append_of_le_length (by omega)
  have hrest := h.drop (k + keyField.length)
  rw [Nat.min_eq_left (by rw [List.length_append]; omega), ← Nat.add_assoc] at hrest
  obtain ⟨last, hlast⟩ := strchr_reads (n := extent - (a + k + keyField.length - a)) hrest
    (fun hz => h0 (List.mem_of_mem_drop hz)) (c := 13) (by rw [hdrop]; simp)
    (by rw [List.length_drop]; omega)
  exact ⟨_, hp.bind (hlast.bind (.pure _))⟩

theorem createKeyAccept_reads (hreq : Handshake request) (h : Holds m a request)
    (hextent : request.length ≤ extent) :
    ∃ accept, Reads (fun _ => True) m (createKeyAccept a extent) (some accept) := by
  obtain ⟨pre, key, post, rfl⟩ := hreq.key
  obtain ⟨⟨p, len⟩, hkey⟩ := getKey_reads h hreq.zero_notMem hextent
  obtain ⟨copied, hcopied⟩ := loadBytes_reads m p
    (if len < 128 - wsGuid.length - 1 then len else 128 - wsGuid.length - 1)
  exact ⟨_, hkey.bind (hcopied.bind (.pure _))⟩

theorem processHandshake_reads (client : Client) (sent : Int) (hreq : Handshake request)
    (h : Holds m a request) (hextent : request.length ≤ extent) :
    ∃ bytes, Reads (fun _ => True) m (processHandshake client sent a extent)
      (decide (0 ≤ sent), [.send client.socket bytes]) := by
  obtain ⟨v, hv, hget⟩ := startsWith_reads m (ascii "GET /") a
  obtain ⟨accept, haccept⟩ := createKeyAccept_reads hreq h hextent
  obtain ⟨rest, rfl⟩ := hreq.get
  obtain rfl : v = true := hget (holds_append_iff.mp h).1
  exact ⟨_, hv.bind (haccept.bind (.pure _))⟩

end Handshake

structure Message where
  type : UInt8
  payload : List UInt8
  key : Vector UInt8 4
  wide : Bool
  type_data : type = typeText ∨ type = typeBinary
  payload_le : payload.length ≤ 498
  narrow_le : wide = false → payload.length ≤ 125

namespace Message

theorem type_lt (msg : Message) : msg.type < 16 := by
  rcases msg.type_data with h | h <;> rw [h] <;> decide

theorem not_isControl (msg : Message) : ¬ IsControl msg.type := by
  rcases msg.type_data with h | h <;> rw [h] <;> decide

def frame (msg : Message) : ClientFrame where
  fin := true
  type := msg.type
  payload := msg.payload
  key := msg.key
  wide := msg.wide
  type_lt := msg.type_lt
  narrow_le := msg.narrow_le
  wide_lt := Nat.lt_of_le_of_lt msg.payload_le (by decide)

theorem encode_ne_nil (msg : Message) : msg.frame.encode ≠ [] := List.cons_ne_nil _ _

end Message

structure Server.Open (s : Server) : Prop where
  socket : 0 ≤ s.client.socket
  established : s.client.established = true
  msgHandler : s.msgHandler = true

section Runs

variable {extent : Nat} {s t : Server} {es : List Event} {socket sent : Int}
  {request : List UInt8}

theorem receive_message (extent : Nat) (sent : Int) (h : s.Open) (msg : Message) :
    (receive extent s msg.frame.encode sent).Open ∧
      deliveries (receive extent s msg.frame.encode sent).log =
        deliveries s.log ++ [(msg.type, msg.payload)] := by
  have hvalue := ClientFrame.handleFrame_value s.client
    (ClientFrame.stands (holds_received msg.frame.encode s.memory)) rfl msg.not_isControl
  simp only [receive, if_neg msg.encode_ne_nil, h.established, if_true, h.msgHandler, hvalue]
  exact ⟨⟨h.socket, h.established, rfl⟩, by simp [deliveries, Message.frame]⟩

theorem receive_handshake (hsocket : 0 ≤ s.client.socket) (hs : s.client.established = false)
    (hhandler : s.msgHandler = true) (hreq : Handshake request) (hextent : recvBufferSize ≤ extent) (hsent : 0 ≤ sent) :
    (receive extent s request sent).Open ∧
      deliveries (receive extent s request sent).log = deliveries s.log := by
  have hne : request ≠ [] := by
    obtain ⟨rest, rfl⟩ := hreq.get
    exact List.cons_ne_nil _ _
  obtain ⟨bytes, hread⟩ := processHandshake_reads s.client sent hreq
    (holds_received request s.memory) (Nat.le_trans hreq.length_le hextent)
  have hvalue := hread.value
  simp only [receive, if_neg hne, hs, Bool.false_eq_true, if_false, hvalue, hsent, decide_true,
    if_true]
  exact ⟨⟨hsocket, rfl, hhandler⟩, by simp [deliveries]⟩

theorem Server.Open.delivers (hrun : Run (Step extent) s es t) (h : s.Open)
    (hes : .selectError ∉ es) {msgs : List Message}
    (hmsgs : es.filterMap Event.recv? = msgs.map fun msg => msg.frame.encode) :
    deliveries t.log = deliveries s.log ++ msgs.map fun msg => (msg.type, msg.payload) := by
  induction hrun generalizing msgs with
  | nil =>
    obtain rfl : msgs = [] := List.map_eq_nil_iff.mp hmsgs.symm
    exact (List.append_nil _).symm
  | @cons s t u e es hstep hrest ih =>
    obtain ⟨henabled, rfl⟩ := hstep
    have hes' : .selectError ∉ es := fun hz => hes (List.mem_cons_of_mem _ hz)
    cases e with
    | idle => exact ih h hes' hmsgs
    | accepted socket => exact absurd henabled (Int.not_lt.mpr h.socket)
    | selectError => exact absurd List.mem_cons_self hes
    | received bytes sent =>
      cases msgs with
      | nil => exact absurd hmsgs (List.cons_ne_nil _ _)
      | cons msg msgs =>
        obtain ⟨rfl, hmsgs'⟩ := List.cons.inj hmsgs
        obtain ⟨hopen, hlog⟩ := receive_message extent sent h msg
        rw [ih hopen hes' hmsgs', taskTurn, hlog, List.append_assoc]
        rfl

/-- After a handshake that came in one `recv`, messages that come each in one `recv` are handled
once each and in order. -/
theorem messages_delivered {msgs : List Message} (hextent : recvBufferSize ≤ extent)
    (hs : s.client.established = false) (hhandler : s.msgHandler = true)
    (hsocket : 0 ≤ socket) (hreq : Handshake request) (hsent : 0 ≤ sent)
    (hes : .selectError ∉ es)
    (hmsgs : es.filterMap Event.recv? = msgs.map fun msg => msg.frame.encode)
    (hrun : Run (Step extent) s (.accepted socket :: .received request sent :: es) t) :
    deliveries t.log = deliveries s.log ++ msgs.map fun msg => (msg.type, msg.payload) := by
  obtain ⟨s₁, ⟨-, rfl⟩, hrun⟩ := hrun.cons_inv
  obtain ⟨s₂, ⟨-, rfl⟩, hrun⟩ := hrun.cons_inv
  simp only [taskTurn, if_pos hsocket] at hrun
  obtain ⟨hopen, hlog⟩ := receive_handshake
    (s := { s with client := { s.client with socket } }) hsocket hs hhandler hreq hextent hsent
  rw [hopen.delivers hrun hes hmsgs, hlog]

end Runs

def sampleRequest : List UInt8 := ascii "GET / HTTP/1.1\r\nSec-WebSocket-Key: k\r\n\r\n"

def sampleMessage : Message where
  type := typeText
  payload := [97]
  key := #v[1, 2, 3, 4]
  wide := false
  type_data := .inl rfl
  payload_le := by decide
  narrow_le := fun _ => by decide

theorem sampleRequest_handshake : Handshake sampleRequest where
  length_le := by decide
  zero_notMem := by decide
  get := by decide
  key := ⟨ascii "GET / HTTP/1.1\r\n", [107], ascii "\n\r\n", by decide⟩

def sampleEvents (recvs : List (List UInt8)) : List Event :=
  .accepted 3 :: .received sampleRequest 129 :: recvs.map (.received · 0)

def sampleServer (recvs : List (List UInt8)) : Server :=
  (sampleEvents recvs).foldl (taskTurn 512) (Server.init fun _ => 0)

theorem message_delivered_once :
    deliveries (sampleServer [sampleMessage.frame.encode]).log = [(typeText, [97])] := by
  have hrun : Run (Step 512) (Server.init fun _ => 0) (sampleEvents [sampleMessage.frame.encode])
      (sampleServer [sampleMessage.frame.encode]) :=
    .cons ⟨by decide, rfl⟩ (.cons ⟨by decide, rfl⟩ (.cons ⟨by decide, rfl⟩ .nil))
  have hmsgs : (([sampleMessage.frame.encode].map (Event.received · 0)).filterMap Event.recv?) =
      [sampleMessage].map fun msg => msg.frame.encode := rfl
  exact messages_delivered (by decide) rfl rfl (by decide) sampleRequest_handshake (by decide)
    (by decide) hmsgs hrun

def Delivers (recvs : List (List UInt8)) (msgs : List Message) : Prop :=
  deliveries (sampleServer recvs).log = msgs.map fun msg => (msg.type, msg.payload)

/-- Of two messages in one `recv` the second is lost; of a message in two `recv`s the handler
gets a byte that has not been received. -/
theorem messages_misframed :
    (∃ recvs, recvs.flatten = [sampleMessage, sampleMessage].flatMap (·.frame.encode) ∧
        Run (Step 512) (Server.init fun _ => 0) (sampleEvents recvs) (sampleServer recvs) ∧
        ¬ Delivers recvs [sampleMessage, sampleMessage]) ∧
      ∃ recvs, recvs.flatten = [sampleMessage].flatMap (·.frame.encode) ∧
        Run (Step 512) (Server.init fun _ => 0) (sampleEvents recvs) (sampleServer recvs) ∧
        ¬ Delivers recvs [sampleMessage] := by
  constructor
  · refine ⟨[sampleMessage.frame.encode ++ sampleMessage.frame.encode], by decide, ?_, ?_⟩
    · exact .cons ⟨by decide, rfl⟩ (.cons ⟨by decide, rfl⟩ (.cons ⟨by decide, rfl⟩ .nil))
    · unfold Delivers
      decide
  · refine ⟨[sampleMessage.frame.encode.take 6, sampleMessage.frame.encode.drop 6], by decide, ?_, ?_⟩
    · exact .cons ⟨by decide, rfl⟩ (.cons ⟨by decide, rfl⟩ (.cons ⟨by decide, rfl⟩
        (.cons ⟨by decide, rfl⟩ .nil)))
    · unfold Delivers
      decide

end RadProt.Websocket
