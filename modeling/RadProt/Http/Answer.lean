import RadProt.Http.Posting

namespace RadProt.Http

open RadProt.Lib

def Net.queued (net : Net) : List UInt8 := net.unacked.flatMap Range.bytes

def stream (hs : HttpState) (net : Net) : List UInt8 :=
  net.queued ++ hs.outgoing.flatMap Text.bytes

def Conn.answer (c : Conn) : List UInt8 :=
  match c.hs with
  | some hs => stream hs c.net
  | none => c.net.queued

@[simp] theorem Net.queued_write (net : Net) (m : Memory) (copied : Bool) (bytes : List UInt8) :
    (net.write m copied bytes).queued = net.queued ++ bytes := by
  simp only [Net.write]
  split
  next h => rw [h, List.append_nil]
  next => simp [queued]

theorem flatMap_ack (n : Nat) (rs : List Range) :
    (ack n rs).flatMap Range.bytes = (rs.flatMap Range.bytes).drop n := by
  induction rs generalizing n with
  | nil => cases n <;> simp [ack]
  | cons r rs ih =>
    cases n with
    | zero => rfl
    | succ n =>
      rw [List.flatMap_cons, List.drop_append]
      simp only [ack]
      split
      next hle => rw [ih, List.drop_of_length_le hle, List.nil_append]
      next hlt =>
        have hzero : n + 1 - r.bytes.length = 0 := Nat.sub_eq_zero_of_le (by omega)
        rw [hzero, List.drop_zero, List.flatMap_cons]

section Send

variable {env : Env} {o : Outside} {hs hs' : HttpState} {net net' : Net} {room k : Nat}

theorem stream_eq (hs : HttpState) (net : Net) :
    stream hs net = net.queued ++ hs.pending.flatMap Text.bytes ++
      ((hs.file.map fun t => t.bytes.take hs.left).getD []) := by
  rw [stream, HttpState.outgoing, List.flatMap_append, List.append_assoc]
  cases hs.file <;> simp

theorem stream_of_done (hpending : hs.pending = []) (hend : hs.file = none ∨ hs.left = 0) :
    stream hs net = net.queued := by
  rw [stream_eq, hpending]
  rcases hend with hfile | hleft
  · simp [hfile]
  · rw [hleft]
    cases hs.file <;> simp

theorem sendHeader_stream (h : sendHeader o hs net room = (hs', net', k)) :
    stream hs' net' = stream hs net := by
  obtain ⟨-, -, -, hleft, hfile⟩ := sendHeader_spec h
  rw [stream_eq, stream_eq, hleft, hfile]
  apply congrArg fun bytes => bytes ++ _
  unfold sendHeader at h
  split at h
  next =>
    obtain ⟨rfl, rfl, -⟩ := by simpa using h
    rfl
  next text hjoin =>
    have hget : hs.hdrs.toList[hs.hdrIndex]? = some (some text) := by
      simpa [Option.join_eq_some_iff] using hjoin
    have hwrite := httpWrite_le (text.bytes.length - hs.hdrPos) room o.maxWriteLen
    rw [HttpState.pending_cons hget]
    generalize httpWrite (text.bytes.length - hs.hdrPos) room o.maxWriteLen = n at h hwrite
    dsimp only at h
    split at h
    next hend =>
      obtain ⟨rfl, rfl, -⟩ := by simpa using h
      have hall : (text.bytes.drop hs.hdrPos).take n = text.bytes.drop hs.hdrPos := by
        apply List.take_of_length_le
        rw [List.length_drop]
        omega
      rw [HttpState.pending_skipNull (i := hs.hdrIndex + 1) rfl rfl, Net.queued_write, hall,
        List.flatMap_cons, List.append_assoc]
    next =>
      obtain ⟨rfl, rfl, -⟩ := by simpa using h
      have hpending : HttpState.pending { hs with hdrPos := hs.hdrPos + n } =
          { text with bytes := text.bytes.drop (hs.hdrPos + n) } ::
            (hs.hdrs.toList.drop (hs.hdrIndex + 1)).reduceOption := HttpState.pending_cons hget
      rw [hpending, Net.queued_write, List.flatMap_cons, List.flatMap_cons, List.append_assoc,
        ← List.append_assoc (List.take n _), ← List.drop_drop, List.take_append_drop]

theorem sendHeaders_stream {rounds room' : Nat}
    (h : sendHeaders o rounds hs net room = (hs', net', room')) :
    stream hs' net' = stream hs net := by
  induction rounds generalizing hs net room with
  | zero =>
    obtain ⟨rfl, rfl, -⟩ := by simpa [sendHeaders] using h
    rfl
  | succ rounds ih =>
    simp only [sendHeaders] at h
    split at h
    next =>
      obtain ⟨rfl, rfl, -⟩ := by simpa using h
      rfl
    next =>
      obtain ⟨hs₁, net₁, k, hk⟩ : ∃ hs₁ net₁ k, sendHeader o hs net room = (hs₁, net₁, k) :=
        ⟨_, _, _, rfl⟩
      rw [hk] at h
      dsimp only at h
      split at h
      next =>
        obtain ⟨rfl, rfl, -⟩ := by simpa using h
        exact sendHeader_stream hk
      next => exact (ih h).trans (sendHeader_stream hk)

theorem httpSendDataNonssi_stream (hpending : hs.pending = [])
    (h : httpSendDataNonssi o hs net room = (hs', net')) :
    hs'.pending = [] ∧ stream hs' net' = stream hs net := by
  have hlen : httpWrite (min hs.left 65535) room o.maxWriteLen ≤ hs.left :=
    (httpWrite_le _ _ _).trans (Nat.min_le_left _ _)
  simp only [httpSendDataNonssi] at h
  generalize httpWrite (min hs.left 65535) room o.maxWriteLen = n at h hlen
  split at h
  next file hfile =>
    obtain ⟨rfl, rfl⟩ := Prod.mk.inj h
    have hpending' : HttpState.pending { hs with
        file := some { file with bytes := file.bytes.drop n }, left := hs.left - n } = [] := hpending
    refine ⟨hpending', ?_⟩
    rw [stream_eq, stream_eq, hpending', hpending, hfile, Net.queued_write]
    simp only [List.flatMap_nil, List.append_nil, Option.map_some, Option.getD_some,
      List.append_assoc]
    apply congrArg
    rw [← List.take_add, Nat.add_sub_of_le hlen]
  next hfile =>
    obtain ⟨rfl, rfl⟩ := Prod.mk.inj h
    have hpending' : HttpState.pending { hs with left := hs.left - n } = [] := hpending
    refine ⟨hpending', ?_⟩
    rw [stream_of_done hpending' (.inl hfile), stream_of_done hpending (.inl hfile)]

theorem httpCloseConn_answer (env : Env) (o : Outside) (hs : HttpState) (net : Net) :
    (httpCloseConn env o (some hs) net).answer = net.queued := by
  have hfree : ∀ hs net, (httpStateFree hs net).queued = net.queued := by
    intro hs net
    simp only [httpStateFree]
    split <;> rfl
  simp only [httpCloseConn, Conn.answer, hfree]
  split
  · obtain ⟨hs', net', hfinished⟩ : ∃ hs' net', httpdPostFinished env o hs net = (hs', net') :=
      ⟨_, _, rfl⟩
    rw [hfinished, Net.queued, (httpdPostFinished_finishes hfinished).unacked, Net.queued]
  · rfl

theorem httpSendData_answer (hpending : hs.pending = []) :
    (httpSendData env o hs net room).answer = stream hs net := by
  rw [httpSendData]
  split
  next hend => rw [httpCloseConn_answer, stream_of_done hpending (.inr hend.1)]
  next =>
    obtain ⟨hs₁, net₁, hdata⟩ : ∃ hs₁ net₁, httpSendDataNonssi o hs net room = (hs₁, net₁) :=
      ⟨_, _, rfl⟩
    obtain ⟨hpending₁, hstream⟩ := httpSendDataNonssi_stream hpending hdata
    rw [hdata, ← hstream]
    dsimp only
    split
    next hzero =>
      have hemit : (if hs₁.handle.isNone then net₁.emit .nullBytesLeft else net₁).queued =
          net₁.queued := by
        split <;> rfl
      split
      next => rw [httpCloseConn_answer, hemit, stream_of_done hpending₁ (.inr hzero)]
      next =>
        change stream hs₁ _ = stream hs₁ net₁
        rw [stream, stream, hemit]
    next => rfl

theorem httpSend_answer (hhandle : hs.handle = none) :
    (httpSend env o hs net).answer = stream hs net := by
  have hsetUp : setUpHeaders env hs = hs := by simp [setUpHeaders, getHttpContentLength, hhandle]
  rw [httpSend]
  split
  next =>
    obtain ⟨hs₁, net₁, room, hheaders⟩ : ∃ hs₁ net₁ room,
        sendHeaders o o.sndbuf (setUpHeaders env hs) net o.sndbuf = (hs₁, net₁, room) :=
      ⟨_, _, _, rfl⟩
    rw [hheaders]
    rw [hsetUp] at hheaders
    rw [← sendHeaders_stream hheaders]
    dsimp only
    split
    next => rfl
    next hdone =>
      have hpending := HttpState.pending_of_le (Nat.le_of_not_lt hdone)
      split
      next hend =>
        rw [httpCloseConn_answer, stream_of_done hpending (.inl (by simpa using hend.1))]
      next => exact httpSendData_answer hpending
  next hdone => exact httpSendData_answer (HttpState.pending_of_le (Nat.le_of_not_lt hdone))

end Send

theorem answer_sent {env : Env} {c : Conn} {len : Nat} {o : Outside}
    (hhandle : ∀ hs, c.hs = some hs → hs.handle = none) (hlen : len ≤ c.net.queued.length) :
    (httpStep env c (.sent len o)).answer = c.answer.drop len := by
  obtain ⟨hs, net⟩ := c
  cases hs with
  | none => exact flatMap_ack len net.unacked
  | some hs =>
    have hsend : (httpStep env { hs := some hs, net } (.sent len o)).answer =
        stream { hs with retries := 0 } { net with unacked := ack len net.unacked } :=
      httpSend_answer (hhandle hs rfl)
    rw [hsend]
    change _ = (stream hs net).drop len
    rw [stream, stream, List.drop_append_of_le_length hlen]
    apply congrArg fun bytes => bytes ++ _
    exact flatMap_ack len net.unacked

end RadProt.Http
