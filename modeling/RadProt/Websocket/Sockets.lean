import RadProt.Lib.Ledger
import RadProt.Websocket.Bounds
import RadProt.Websocket.Task

namespace RadProt.Websocket

open RadProt.Lib RadProt.Lib.Access

/-- What `task` does on its sockets; `handshaken` notes where `process_handshake` succeeds. -/
inductive SocketEvent
  | socket (fd : Int)
  | setsockopt (fd : Int)
  | bind (fd : Int)
  | listen (fd : Int)
  | select (fd : Int)
  | accept (listenSock fd : Int)
  | recv (fd : Int)
  | send (fd : Int) (bytes : List UInt8)
  | close (fd : Int)
  | handshaken (fd : Int)
  deriving DecidableEq

/-- A call that fails to make a descriptor opens nothing. -/
def opens (fd : Int) : List (Use Int) := if 0 ≤ fd then [.acquire fd] else []

def SocketEvent.uses : SocketEvent → List (Use Int)
  | .socket fd => opens fd
  | .setsockopt fd => [.touch fd]
  | .bind fd => [.touch fd]
  | .listen fd => [.touch fd]
  | .select fd => [.touch fd]
  | .accept listenSock fd => .touch listenSock :: opens fd
  | .recv fd => [.touch fd]
  | .send fd _ => [.touch fd]
  | .close fd => [.release fd]
  | .handshaken _ => []

def Effect.socketEvent? : Effect → Option SocketEvent
  | .send fd bytes => some (.send fd bytes)
  | .close fd => some (.close fd)
  | .message .. => none

def setSizeToFrame (size : Nat) : List UInt8 :=
  if size < 126 then [size.toUInt8]
  else if size < 65536 then [126, (size / 256).toUInt8, size.toUInt8]
  else [127, 0, 0, 0, 0, 0, 0, (size / 256).toUInt8, size.toUInt8]

def sendMessage (client : Client) (message : List UInt8) : List SocketEvent :=
  if sendBufferSize < message.length + 10 then []
  else if !client.established then []
  else
    [.setsockopt client.socket,
      .send client.socket ((typeText ||| finFlag) :: setSizeToFrame message.length ++ message)]

structure Turn where
  event : Event
  queued : List (List UInt8)

structure SocketTask where
  server : Server
  listenSock : Int
  log : List SocketEvent

def turnEvents (listenSock : Int) (s t : Server) (e : Event) : List SocketEvent :=
  let effects := (t.log.drop s.log.length).filterMap Effect.socketEvent?
  match e with
  | .idle => [.select (if s.client.socket < 0 then listenSock else s.client.socket)]
  | .accepted fd => [.select listenSock, .accept listenSock fd]
  | .received _ _ =>
    [.select s.client.socket, .recv s.client.socket] ++ effects ++
      if !s.client.established && t.client.established then [.handshaken t.client.socket] else []
  | .selectError => .select s.client.socket :: effects

def SocketTask.turn (extent : Nat) (k : SocketTask) (u : Turn) : SocketTask :=
  let server := taskTurn extent k.server u.event
  { k with
    server
    log := k.log ++ turnEvents k.listenSock k.server server u.event ++
      u.queued.flatMap (sendMessage server.client) }

def SocketTask.openNow (k : SocketTask) : List Int :=
  Use.outstanding (k.log.flatMap SocketEvent.uses)

def Event.Fresh (openNow : List Int) : Event → Prop
  | .accepted fd => 0 ≤ fd → fd ∉ openNow
  | _ => True

instance (openNow : List Int) : (e : Event) → Decidable (e.Fresh openNow)
  | .accepted _ => inferInstanceAs (Decidable (_ → _))
  | .idle => inferInstanceAs (Decidable True)
  | .received _ _ => inferInstanceAs (Decidable True)
  | .selectError => inferInstanceAs (Decidable True)

def Turn.Enabled (k : SocketTask) (u : Turn) : Prop :=
  u.event.Enabled k.server ∧ u.event.Fresh k.openNow

instance (k : SocketTask) (u : Turn) : Decidable (u.Enabled k) :=
  inferInstanceAs (Decidable (_ ∧ _))

def SocketTask.Step (extent : Nat) (k : SocketTask) (u : Turn) (k' : SocketTask) : Prop :=
  u.Enabled k ∧ k' = k.turn extent u

def SocketTask.init (memory : Nat → UInt8) (listenSock : Int) : SocketTask where
  server := .init memory
  listenSock := listenSock
  log := [.socket listenSock, .setsockopt listenSock, .bind listenSock, .listen listenSock]

/-- Since the client's descriptor was accepted it was not closed, and a handshake on it
succeeded. -/
def SocketTask.HandshakenSince (k : SocketTask) : Prop :=
  ∃ before after, k.log = before ++ .accept k.listenSock k.server.client.socket :: after ∧
    .close k.server.client.socket ∉ after ∧ .handshaken k.server.client.socket ∈ after

def heldSockets (listenSock : Int) (client : Client) : Set Int :=
  {fd | fd = listenSock ∨ fd = client.socket ∧ 0 ≤ fd}

structure SocketTask.Sound (k : SocketTask) : Prop where
  /-- Every use is of an open descriptor, and no other ones are left open. -/
  ledger : Ledger (k.log.flatMap SocketEvent.uses) (heldSockets k.listenSock k.server.client)
  nonneg : ∀ fd, .touch fd ∈ k.log.flatMap SocketEvent.uses ∨
    .release fd ∈ k.log.flatMap SocketEvent.uses → 0 ≤ fd
  /-- An accepted descriptor that is not the client's any more was closed once. -/
  closedOnce : ∀ fd, fd ≠ k.listenSock → fd ≠ k.server.client.socket →
    (k.log.flatMap SocketEvent.uses).count (.acquire fd) =
      (k.log.flatMap SocketEvent.uses).count (.release fd)
  established : k.server.client.established = true →
    k.server.client.socket ∈ k.openNow ∧ k.server.client.socket ≠ k.listenSock ∧ k.HandshakenSince

section Outcomes

variable {client : Client} {effects : List Effect}

def OnlySends (client : Client) (effects : List Effect) : Prop :=
  ∀ e ∈ effects.filterMap Effect.socketEvent?, ∃ bytes, e = .send client.socket bytes

theorem OnlySends.nil : OnlySends client [] := fun _ he => by cases he

theorem OnlySends.send (bytes : List UInt8) : OnlySends client [.send client.socket bytes] := by
  intro e he
  exact ⟨bytes, by simpa [Effect.socketEvent?] using he⟩

theorem OnlySends.message (payload len : Nat) (type : UInt8) (data : List UInt8) :
    OnlySends client [.message payload len type data] := fun _ he => by cases he

def FrameOutcome (client : Client) (r : Client × List Effect) : Prop :=
  r.1 = client ∧ OnlySends client r.2 ∨
    r.1 = { socket := -1, established := false } ∧
      ∃ bytes, r.2 = [.send client.socket bytes, .close client.socket]

theorem controlResult_outcome (type : UInt8) : FrameOutcome client (controlResult client type) := by
  unfold controlResult
  split
  · exact .inl ⟨rfl, .send _⟩
  · split
    · exact .inl ⟨rfl, .nil⟩
    · exact .inr ⟨rfl, _, rfl⟩

theorem deliver_outcome (msgHandler : Bool) (buffer payload len : Nat) (m : Nat → UInt8) :
    FrameOutcome client (deliver msgHandler client buffer payload len m).value := by
  cases msgHandler with
  | false => exact .inl ⟨rfl, .nil⟩
  | true =>
    have hmessage : OnlySends client [.message payload len (m buffer &&& typeMask)
        ((List.range len).map fun i => m (payload + i))] := .message _ _ _ _
    exact .inl ⟨rfl, hmessage⟩

theorem handleFrame_outcome (msgHandler : Bool) (client : Client) (buffer length : Nat)
    (m : Nat → UInt8) : FrameOutcome client (handleFrame msgHandler client buffer length m).value := by
  by_cases hlen : headerLen m buffer ≤ length
  · rw [(handleFrame_complete (P := fun _ => True) (fun _ _ => trivial) hlen).value]
    by_cases hctl : IsControl (opcode m buffer)
    · rw [(handleCheckedFrame_control (P := fun _ => True) trivial hctl).value]
      exact controlResult_outcome _
    · rw [(handleCheckedFrame_data (P := fun _ => True) trivial hctl).value]
      by_cases hfin : Fin m buffer
      · rw [(handleDataFrame_fin (P := fun _ => True) (fun _ _ => trivial) hfin).value]
        split
        · rw [bind_apply]
          exact deliver_outcome ..
        · exact deliver_outcome ..
      · rw [(handleDataFrame_continued (P := fun _ => True) trivial hfin).value]
        exact .inl ⟨rfl, .nil⟩
  · rw [(handleFrame_short (P := fun _ => True) (fun _ _ => trivial) (Nat.not_le.mp hlen)).value]
    exact .inl ⟨rfl, .nil⟩

theorem processHandshake_outcome (client : Client) (sent : Int) (buffer extent : Nat)
    (m : Nat → UInt8) : OnlySends client (processHandshake client sent buffer extent m).value.2 := by
  simp only [processHandshake, bind_apply]
  split
  · simp only [bind_apply]
    cases (createKeyAccept buffer extent (startsWith buffer (ascii "GET /") m).memory).value with
    | none => exact .nil
    | some accept => exact .send _
  · exact .nil

theorem processHandshake_cleared (client : Client) (sent : Int) (extent : Nat) (m : Nat → UInt8) :
    (processHandshake client sent 0 extent (received [] m)).value = (false, []) := by
  have hget : (startsWith 0 (ascii "GET /") (received [] m)).value = false := by
    simp [ascii, startsWith, bind_apply, load_apply, received, recvBufferSize]
    rfl
  simp only [processHandshake, bind_apply, hget]
  rfl

end Outcomes

structure Tracked (listenSock : Int) (client : Client) (log : List SocketEvent) : Prop where
  nonneg : 0 ≤ listenSock
  ledger : Ledger (log.flatMap SocketEvent.uses) (heldSockets listenSock client)
  other : client.socket ≠ listenSock
  idle : client.socket < 0 → client.established = false
  accepted : 0 ≤ client.socket →
    ∃ before after, log = before ++ .accept listenSock client.socket :: after ∧
      .close client.socket ∉ after ∧
      (client.established = true → .handshaken client.socket ∈ after)

namespace Tracked

variable {listenSock : Int} {client : Client} {log : List SocketEvent}

def Touches (listenSock : Int) (client : Client) (e : SocketEvent) : Prop :=
  ∃ fd ∈ heldSockets listenSock client, e.uses = [.touch fd]

theorem mem_listenSock : listenSock ∈ heldSockets listenSock client := .inl rfl

theorem mem_client (h : 0 ≤ client.socket) : client.socket ∈ heldSockets listenSock client :=
  .inr ⟨rfl, h⟩

theorem touch (h : Tracked listenSock client log) {e : SocketEvent}
    (he : Touches listenSock client e) : Tracked listenSock client (log ++ [e]) := by
  obtain ⟨fd, hfd, huses⟩ := he
  refine ⟨h.nonneg, ?_, h.other, h.idle, fun hsocket => ?_⟩
  · rw [List.flatMap_append, List.flatMap_singleton, huses]
    exact h.ledger.touch hfd
  · obtain ⟨before, after, rfl, hclose, hshake⟩ := h.accepted hsocket
    refine ⟨before, after ++ [e], by simp, fun hmem => ?_, fun hest => ?_⟩
    · obtain hmem | hmem := List.mem_append.mp hmem
      · exact hclose hmem
      · rw [← List.mem_singleton.mp hmem] at huses
        cases huses
    · exact List.mem_append_left _ (hshake hest)

theorem touches (h : Tracked listenSock client log) {es : List SocketEvent}
    (hes : ∀ e ∈ es, Touches listenSock client e) : Tracked listenSock client (log ++ es) := by
  induction es generalizing log with
  | nil => rwa [List.append_nil]
  | cons e es ih =>
    rw [← List.singleton_append, ← List.append_assoc]
    exact ih (h.touch (hes e List.mem_cons_self)) fun e' he' => hes e' (List.mem_cons_of_mem _ he')

theorem accept (h : Tracked listenSock client log) (hidle : client.socket < 0) {fd : Int}
    (hfd : 0 ≤ fd) (hfresh : fd ∉ Use.outstanding (log.flatMap SocketEvent.uses)) :
    Tracked listenSock { client with socket := fd } (log ++ [.accept listenSock fd]) := by
  have hnew : fd ∉ heldSockets listenSock client := fun hmem =>
    hfresh (h.ledger.mem_iff_outstanding.mp hmem)
  refine ⟨h.nonneg, ?_, fun heq => hnew (.inl heq), fun hneg => ?_, fun _ => ?_⟩
  · have hheld : heldSockets listenSock { client with socket := fd } =
        insert fd (heldSockets listenSock client) := by
      ext i
      simp only [heldSockets, Set.mem_ofPred_eq, Set.mem_insert_iff]
      omega
    have huses : (SocketEvent.accept listenSock fd).uses = [.touch listenSock] ++ [.acquire fd] := by
      simp [SocketEvent.uses, opens, hfd]
    rw [List.flatMap_append, List.flatMap_singleton, huses, hheld, ← List.append_assoc]
    exact (h.ledger.touch mem_listenSock).acquire hnew
  · exact absurd hneg (Int.not_lt.mpr hfd)
  · exact ⟨log, [], rfl, List.not_mem_nil, fun hest => by
      rw [h.idle hidle] at hest
      cases hest⟩

theorem close (h : Tracked listenSock client log) (hsocket : 0 ≤ client.socket) :
    Tracked listenSock { socket := -1, established := false } (log ++ [.close client.socket]) := by
  refine ⟨h.nonneg, ?_, ?_, fun _ => rfl, fun hneg => absurd hneg (by decide)⟩
  · have hheld : heldSockets listenSock { socket := -1, established := false } =
        heldSockets listenSock client \ {client.socket} := by
      have hother := h.other
      ext i
      simp only [heldSockets, Set.mem_ofPred_eq, Set.mem_sdiff, Set.mem_singleton_iff]
      omega
    rw [List.flatMap_append, List.flatMap_singleton, hheld]
    exact h.ledger.release (mem_client hsocket)
  · have := h.nonneg
    dsimp only
    omega

theorem shake (h : Tracked listenSock client log) (hsocket : 0 ≤ client.socket) :
    Tracked listenSock { client with established := true }
      (log ++ [.handshaken client.socket]) := by
  refine ⟨h.nonneg, ?_, h.other, fun hneg => absurd hneg (Int.not_lt.mpr hsocket), fun _ => ?_⟩
  · rw [List.flatMap_append, List.flatMap_singleton, SocketEvent.uses, List.append_nil]
    exact h.ledger
  · obtain ⟨before, after, rfl, hclose, -⟩ := h.accepted hsocket
    exact ⟨before, after ++ [.handshaken client.socket], by simp, by simpa using hclose,
      fun _ => by simp⟩

theorem sends (h : Tracked listenSock client log) (hsocket : 0 ≤ client.socket)
    {effects : List Effect} (hsends : OnlySends client effects) :
    Tracked listenSock client (log ++ effects.filterMap Effect.socketEvent?) := by
  refine h.touches fun e he => ?_
  obtain ⟨bytes, rfl⟩ := hsends e he
  exact ⟨_, mem_client hsocket, rfl⟩

theorem recv (h : Tracked listenSock client log) (hsocket : 0 ≤ client.socket) :
    Tracked listenSock client (log ++ [.select client.socket, .recv client.socket]) := by
  refine h.touches fun e he => ⟨_, mem_client hsocket, ?_⟩
  simp only [List.mem_cons, List.not_mem_nil, or_false] at he
  obtain rfl | rfl := he <;> rfl

theorem queued (h : Tracked listenSock client log) (messages : List (List UInt8)) :
    Tracked listenSock client (log ++ messages.flatMap (sendMessage client)) := by
  refine h.touches fun e he => ?_
  obtain ⟨message, -, he⟩ := List.mem_flatMap.mp he
  have hest : client.established = true := by
    by_contra hest
    rw [Bool.not_eq_true] at hest
    simp [sendMessage, hest] at he
  have hsocket : 0 ≤ client.socket := by
    by_contra hneg
    have hfalse := h.idle (Int.not_le.mp hneg)
    rw [hest] at hfalse
    cases hfalse
  simp only [sendMessage, hest] at he
  split at he
  · cases he
  · simp only [Bool.not_true, Bool.false_eq_true, if_false, List.mem_cons, List.not_mem_nil,
      or_false] at he
    obtain rfl | rfl := he
    · exact ⟨_, mem_client hsocket, rfl⟩
    · exact ⟨_, mem_client hsocket, rfl⟩

end Tracked

section Turns

variable {extent : Nat} {k k' : SocketTask} {s : Server} {listenSock : Int}
  {log : List SocketEvent} {bytes : List UInt8}

theorem Tracked.receive_frame (h : Tracked listenSock s.client log) (hne : bytes ≠ [])
    (hsocket : 0 ≤ s.client.socket) (hest : s.client.established = true) (sent : Int) :
    Tracked listenSock (receive extent s bytes sent).client
      (log ++ turnEvents listenSock s (receive extent s bytes sent) (.received bytes sent)) := by
  have hstart := h.recv hsocket
  obtain ⟨hclient, hsends⟩ | ⟨hclient, text, heffects⟩ :=
    handleFrame_outcome s.msgHandler s.client 0 bytes.length (received bytes s.memory)
  · simp only [receive, if_neg hne, hest, if_true, turnEvents, hclient, List.drop_left,
      Bool.not_true, Bool.false_and, Bool.false_eq_true, if_false, List.append_nil]
    rw [← List.append_assoc]
    exact hstart.sends hsocket hsends
  · simp only [receive, if_neg hne, hest, if_true, turnEvents, hclient, heffects, List.drop_left,
      Bool.not_true, Bool.false_and, Bool.false_eq_true, if_false, List.append_nil]
    rw [← List.append_assoc]
    have hsent := hstart.sends hsocket (OnlySends.send text)
    have hclosed := hsent.close hsocket
    rw [List.append_assoc] at hclosed
    exact hclosed

theorem Tracked.receive_handshake (h : Tracked listenSock s.client log) (hne : bytes ≠ [])
    (hsocket : 0 ≤ s.client.socket) (hest : s.client.established = false) (sent : Int) :
    Tracked listenSock (receive extent s bytes sent).client
      (log ++ turnEvents listenSock s (receive extent s bytes sent) (.received bytes sent)) := by
  have hstart := h.recv hsocket
  have hsent := hstart.sends hsocket
    (processHandshake_outcome s.client sent 0 extent (received bytes s.memory))
  cases hvalue : (processHandshake s.client sent 0 extent (received bytes s.memory)).value.1 with
  | true =>
    simp only [receive, if_neg hne, hest, Bool.false_eq_true, if_false, hvalue, if_true, turnEvents,
      List.drop_left, Bool.not_false, Bool.true_and]
    rw [← List.append_assoc, ← List.append_assoc]
    exact hsent.shake hsocket
  | false =>
    have hclosed := hsent.close hsocket
    simp only [receive, if_neg hne, hest, Bool.false_eq_true, if_false, hvalue, turnEvents,
      List.append_assoc, List.drop_left, List.filterMap_append, Bool.not_false, Bool.true_and,
      List.append_nil]
    simp only [List.append_assoc] at hclosed
    exact hclosed

theorem Tracked.turnEvents (h : Tracked k.listenSock k.server.client k.log) {u : Turn}
    (henabled : u.Enabled k) (hrecv : ∀ sent, u.event ≠ .received [] sent) :
    Tracked k.listenSock (taskTurn extent k.server u.event).client
      (k.log ++ Websocket.turnEvents k.listenSock k.server (taskTurn extent k.server u.event)
        u.event) := by
  obtain ⟨henabled, hfresh⟩ := henabled
  cases hevent : u.event with
  | idle =>
    refine h.touches fun e he => ?_
    obtain rfl := List.mem_singleton.mp he
    refine ⟨_, ?_, rfl⟩
    split
    · exact mem_listenSock
    · exact mem_client (by omega)
  | accepted fd =>
    rw [hevent] at henabled hfresh
    have hidle : k.server.client.socket < 0 := henabled
    by_cases hfd : 0 ≤ fd
    · have hselect : Tracked k.listenSock k.server.client (k.log ++ [.select k.listenSock]) :=
        h.touch ⟨_, mem_listenSock, rfl⟩
      have hnew := hfresh hfd
      have haccept := hselect.accept hidle hfd (by
        rw [List.flatMap_append]
        simpa [Use.outstanding, SocketTask.openNow, SocketEvent.uses, Use.hold] using hnew)
      rw [List.append_assoc] at haccept
      simp only [taskTurn, if_pos hfd]
      exact haccept
    · simp only [taskTurn, if_neg hfd]
      refine h.touches fun e he => ⟨_, mem_listenSock, ?_⟩
      simp only [Websocket.turnEvents, List.mem_cons, List.not_mem_nil, or_false] at he
      obtain rfl | rfl := he
      · rfl
      · simp [SocketEvent.uses, opens, hfd]
  | received bytes sent =>
    rw [hevent] at henabled
    have hne : bytes ≠ [] := fun hnil => hrecv sent (hnil ▸ hevent)
    cases hest : k.server.client.established with
    | true => exact h.receive_frame hne henabled.1 hest sent
    | false => exact h.receive_handshake hne henabled.1 hest sent
  | selectError =>
    rw [hevent] at henabled
    have hsocket : 0 ≤ k.server.client.socket := henabled
    have hselect : Tracked k.listenSock k.server.client (k.log ++ [.select k.server.client.socket]) :=
      h.touch ⟨_, mem_client hsocket, rfl⟩
    have hclosed := hselect.close hsocket
    rw [List.append_assoc] at hclosed
    simpa [taskTurn, Server.closed, Websocket.turnEvents, Effect.socketEvent?] using hclosed

theorem Tracked.turn (h : Tracked k.listenSock k.server.client k.log) {u : Turn}
    (henabled : u.Enabled k) (hrecv : ∀ sent, u.event ≠ .received [] sent) :
    Tracked (k.turn extent u).listenSock (k.turn extent u).server.client (k.turn extent u).log :=
  (h.turnEvents henabled hrecv).queued u.queued

theorem tracked_init (memory : Nat → UInt8) (h : 0 ≤ listenSock) :
    Tracked listenSock (SocketTask.init memory listenSock).server.client
      (SocketTask.init memory listenSock).log := by
  have hheld : heldSockets listenSock { socket := -1, established := false } = {listenSock} := by
    ext fd
    simp only [heldSockets, Set.mem_ofPred_eq, Set.mem_singleton_iff]
    omega
  have hopen : Ledger ([] ++ [Use.acquire listenSock]) (insert listenSock ∅) :=
    Ledger.nil.acquire (Set.notMem_empty _)
  have hempty : Tracked listenSock { socket := -1, established := false } [.socket listenSock] := by
    refine ⟨h, ?_, ?_, fun _ => rfl, fun hneg => absurd hneg (by decide)⟩
    · rw [List.flatMap_singleton, SocketEvent.uses, opens, if_pos h, hheld]
      simpa using hopen
    · dsimp only
      omega
  have hcalls : ∀ e ∈ [SocketEvent.setsockopt listenSock, .bind listenSock, .listen listenSock],
      Tracked.Touches listenSock { socket := -1, established := false } e := by
    intro e he
    refine ⟨_, Tracked.mem_listenSock, ?_⟩
    simp only [List.mem_cons, List.not_mem_nil, or_false] at he
    obtain rfl | rfl | rfl := he <;> rfl
  exact hempty.touches hcalls

theorem nonneg_of_acquire {fd : Int} (h : .acquire fd ∈ log.flatMap SocketEvent.uses) : 0 ≤ fd := by
  have hopens : ∀ fd', .acquire fd ∈ opens fd' → 0 ≤ fd := by
    intro fd' hmem
    unfold opens at hmem
    split at hmem
    next hfd' =>
      obtain rfl := Use.acquire.inj (List.mem_singleton.mp hmem)
      exact hfd'
    next => cases hmem
  obtain ⟨e, -, hmem⟩ := List.mem_flatMap.mp h
  cases e with
  | socket fd' => exact hopens fd' hmem
  | accept listenSock fd' =>
    obtain hmem | hmem := List.mem_cons.mp hmem
    · cases hmem
    · exact hopens fd' hmem
  | handshaken => cases hmem
  | _ => cases List.mem_singleton.mp hmem

theorem Tracked.sound (h : Tracked k.listenSock k.server.client k.log) : k.Sound := by
  refine ⟨h.ledger, fun fd huse => nonneg_of_acquire (h.ledger.acquire_of_use huse),
    fun fd hlisten hclient => h.ledger.count_of_notMem ?_, fun hest => ?_⟩
  · rintro (rfl | ⟨rfl, -⟩)
    · exact hlisten rfl
    · exact hclient rfl
  · have hsocket : 0 ≤ k.server.client.socket := by
      by_contra hneg
      have hfalse := h.idle (Int.not_le.mp hneg)
      rw [hest] at hfalse
      cases hfalse
    obtain ⟨before, after, hlog, hclose, hshake⟩ := h.accepted hsocket
    exact ⟨h.ledger.mem_iff_outstanding.mp (mem_client hsocket), h.other,
      ⟨before, after, hlog, hclose, hshake hest⟩⟩

theorem close_of_disconnect (extent : Nat) (k : SocketTask) {u : Turn} {sent : Int}
    (hevent : u.event = .received [] sent) : .close (-1) ∈ (k.turn extent u).log := by
  have hcleared := processHandshake_cleared { socket := -1, established := false } sent extent
    k.server.memory
  refine List.mem_append_left _ (List.mem_append_right _ ?_)
  simp [hevent, taskTurn, receive, Server.closed, hcleared, Websocket.turnEvents,
    Effect.socketEvent?]

/-- The sockets are used as they should be, in every state that is reached, exactly as long as no
`recv` ends or fails. -/
theorem SocketTask.descriptors_sound_iff {memory : Nat → UInt8} {us : List Turn}
    (hlisten : 0 ≤ listenSock) (hrun : Run (SocketTask.Step extent) (.init memory listenSock) us k) :
    k.Sound ↔ ∀ u ∈ us, ∀ sent, u.event ≠ .received [] sent := by
  constructor
  · intro hsound u hu sent hevent
    have hclose : .close (-1) ∈ k.log := by
      refine hrun.latched (G := fun u => ∀ sent, u.event ≠ .received [] sent) (fun _ => True)
        (fun k => .close (-1) ∈ k.log) (fun _ _ _ _ _ => trivial) ?_ ?_ trivial
        (.inr ⟨u, hu, fun h => h sent hevent⟩)
      · rintro k u _ - hmem ⟨-, rfl⟩
        exact List.mem_append_left _ (List.mem_append_left _ hmem)
      · rintro k u _ - hbad ⟨-, rfl⟩
        push Not at hbad
        obtain ⟨sent, hevent⟩ := hbad
        exact close_of_disconnect extent k hevent
    have huse : .release (-1) ∈ k.log.flatMap SocketEvent.uses :=
      List.mem_flatMap.mpr ⟨_, hclose, List.mem_singleton_self _⟩
    exact absurd (hsound.nonneg (-1) (.inr huse)) (by decide)
  · intro hrecv
    have htracked := (hrun.guarded hrecv).invariant
      (fun k => Tracked k.listenSock k.server.client k.log)
      (fun k u k' h hstep => by
        obtain ⟨hrecv, henabled, rfl⟩ := hstep
        exact h.turn henabled hrecv) (tracked_init memory hlisten)
    exact htracked.sound

end Turns

section Sample

def sampleTask : SocketTask := .init (fun _ => 0) 0

def sampleTurns : List Turn :=
  [⟨.accepted 1, []⟩, ⟨.received (ascii "GET / HTTP/1.1\r\nSec-WebSocket-Key: k\r\n\r\n") 129, []⟩,
    ⟨.idle, [ascii "{}"]⟩]

def runTurns (us : List Turn) : SocketTask := us.foldl (SocketTask.turn 512) sampleTask

theorem sampleTurns_sound :
    (runTurns sampleTurns).Sound ∧ (runTurns sampleTurns).server.client.established = true := by
  have hrun : Run (SocketTask.Step 512) sampleTask sampleTurns (runTurns sampleTurns) := by
    refine Run.of_feasible ?_
    decide +kernel
  have hsound := (SocketTask.descriptors_sound_iff (by decide) hrun).mpr fun u hu sent => by
    simp only [sampleTurns, List.mem_cons, List.not_mem_nil, or_false] at hu
    obtain rfl | rfl | rfl := hu <;> simp [ascii]
  exact ⟨hsound, by decide +kernel⟩

def leavingTurns : List Turn := [⟨.accepted 1, []⟩, ⟨.received [] 0, []⟩]

theorem leavingTurns_unsound :
    Run (SocketTask.Step 512) sampleTask leavingTurns (runTurns leavingTurns) ∧
      .close (-1) ∈ (runTurns leavingTurns).log ∧ ¬ (runTurns leavingTurns).Sound := by
  have hrun : Run (SocketTask.Step 512) sampleTask leavingTurns (runTurns leavingTurns) := by
    refine Run.of_feasible ?_
    decide +kernel
  have hclose : .close (-1) ∈ (runTurns leavingTurns).log := by decide +kernel
  refine ⟨hrun, hclose, fun hsound => ?_⟩
  have huse : .release (-1) ∈ (runTurns leavingTurns).log.flatMap SocketEvent.uses :=
    List.mem_flatMap.mpr ⟨_, hclose, List.mem_singleton_self _⟩
  exact absurd (hsound.nonneg (-1) (.inr huse)) (by decide)

end Sample

end RadProt.Websocket
