import RadProt.Http.PostRuns

namespace RadProt.Http

open RadProt.Lib

def Range.Owned (r : Range) : Prop := r.copied = false ∧ r.memory.Owned

/-- The bytes that TCP references are still allocated. -/
def Range.Alive (c : Conn) (r : Range) : Prop :=
  match r.memory with
  | .hdrCustom => c.hs.isSome
  | .response id => .free (.response id) ∉ c.net.log
  | _ => True

def Net.OwnedUnacked (net : Net) : Prop := ∃ r ∈ net.unacked, r.Owned

def HttpState.OwnedUnsent (hs : HttpState) : Prop := ∃ m : Memory, m.Owned ∧ hs.Unsent m

/-- If this send is the last one, it hands over no memory of the connection, and none is in the
queue. -/
def SendSafe (env : Env) (o : Outside) (hs : HttpState) (net : Net) : Prop :=
  Ends env o hs → ¬ net.OwnedUnacked ∧ ¬ hs.OwnedUnsent

def Intake.Safe (env : Env) (o : Outside) : Intake → Prop
  | .wait _ _ => True
  | .send hs net => SendSafe env o hs net
  | .close _ net => ¬ net.OwnedUnacked

def AckedFirst (env : Env) (c : Conn) (e : Event) : Prop :=
  ∀ hs, c.hs = some hs →
    match e with
    | .recv (some p) true o => (httpTakeIn env o hs c.net p).Safe env o
    | .recv _ _ _ => ¬ c.net.OwnedUnacked
    | .sent len o =>
      SendSafe env o { hs with retries := 0 } { c.net with unacked := ack len c.net.unacked }
    | .poll o =>
      if hs.retries + 1 = httpdMaxRetries then ¬ c.net.OwnedUnacked
      else hs.handle.isSome → SendSafe env o { hs with retries := hs.retries + 1 } c.net
    | .err => True
    | .other => True

variable {env : Env} {o : Outside} {hs hs' : HttpState} {net net' : Net}

def NoResponseFreed (log : List Effect) : Prop := ∀ id, .free (.response id) ∉ log

theorem NoResponseFreed.append {log es : List Effect} (h : NoResponseFreed log)
    (hes : ∀ id, .free (.response id) ∉ es) : NoResponseFreed (log ++ es) := by
  intro id hmem
  rcases List.mem_append.mp hmem with hmem | hmem
  · exact h id hmem
  · exact hes id hmem

theorem Sends.noResponseFreed (h : Sends hs net hs' net') (hlog : NoResponseFreed net.log) :
    NoResponseFreed net'.log := by
  obtain ⟨k, hk⟩ := h.log
  rw [hk]
  exact hlog.append fun id hmem => by simpa using List.eq_of_mem_replicate hmem

theorem Finishes.noResponseFreed (h : Finishes hs net hs' net') (hlog : NoResponseFreed net.log) :
    NoResponseFreed net'.log := by
  obtain ⟨es, hes, hheap⟩ := h.log
  rw [hes]
  refine hlog.append fun id hmem => ?_
  rcases List.mem_cons.mp hmem with hmem | hmem
  · simp at hmem
  · exact hheap _ hmem

def QueueKept (net net' : Net) : Prop :=
  net'.unacked = net.unacked ∧ (NoResponseFreed net.log → NoResponseFreed net'.log)

theorem QueueKept.refl (net : Net) : QueueKept net net := ⟨rfl, id⟩

theorem QueueKept.emit {e : Effect} (h : ∀ id, e ≠ .free (.response id)) :
    QueueKept net (net.emit e) :=
  ⟨rfl, fun hlog => hlog.append fun id hmem => h id (List.mem_singleton.mp hmem).symm⟩

theorem QueueKept.trans {net'' : Net} (h : QueueKept net net') (k : QueueKept net' net'') :
    QueueKept net net'' := ⟨k.1.trans h.1, fun hlog => k.2 (h.2 hlog)⟩

theorem httpPostRxpbuf_queue {p : Pbuf} (h : httpPostRxpbuf env o hs net p = (hs', net'))
    (hfile : hs.file = none) (hle : hs.postContentLenLeft ≤ hs.postContentLen) :
    QueueKept net net' := by
  have hreceive : QueueKept net (net.emit (.postReceive p (chunkOffset hs p))) :=
    .emit fun id => by simp
  rw [httpPostRxpbuf_eq hle] at h
  split at h
  next =>
    have hfinish := httpHandlePostFinished_finishes (by simpa using hfile) h
    exact hreceive.trans ⟨hfinish.unacked, hfinish.noResponseFreed⟩
  next =>
    obtain ⟨-, rfl⟩ := Prod.mk.inj h
    exact hreceive

theorem httpdPostBegin_queue {uri : List UInt8} {contentLen : Nat}
    (h : httpdPostBegin hs net uri contentLen = (hs', net')) : QueueKept net net' := by
  have hcurrent : QueueKept net { net with current := true } := .refl net
  have hbegin := hcurrent.trans (.emit fun id => show Effect.postBegin contentLen ≠ _ by simp)
  simp only [httpdPostBegin] at h
  split at h
  · obtain ⟨-, rfl⟩ := Prod.mk.inj h
    exact hbegin.trans (.emit fun id => by simp)
  · obtain ⟨-, rfl⟩ := Prod.mk.inj h
    exact hbegin

theorem httpPostStart_queue {inp : Pbuf} {uri : List UInt8} {contentLen hdrLen : Nat}
    (h : httpPostStart env o hs net inp uri contentLen hdrLen = (hs', net'))
    (hfile : hs.file = none) : QueueKept net net' := by
  obtain ⟨hs₁, net₁, hbegin, hcases⟩ := httpPostStart_cases h
  have hfile₁ : hs₁.file = none := (httpdPostBegin_spec hbegin).2.1.trans hfile
  have hqueue₁ := httpdPostBegin_queue hbegin
  obtain ⟨q, -, hrx⟩ | ⟨-, -, -, rfl⟩ := hcases
  · exact hqueue₁.trans (httpPostRxpbuf_queue hrx hfile₁ le_rfl)
  · exact hqueue₁

theorem TakesIn.queueKept {orderly : Prop} {p : Pbuf} {i : Intake}
    (hi : TakesIn env o hs net p i) (h : Tracks orderly hs net) : QueueKept net i.net := by
  cases hi with
  | body hpos hrx =>
    obtain ⟨-, hfile, hle, -⟩ := h.pending hpos
    rw [net_goOn]
    exact httpPostRxpbuf_queue hrx hfile hle
  | post hp _ hstart =>
    rw [net_goOn]
    exact httpPostStart_queue hstart hp.file
  | _ => exact .refl net

theorem not_ownedUnacked_of_sends (h : Sends hs net hs' net') (hqueue : ¬ net.OwnedUnacked)
    (hunsent : ¬ hs.OwnedUnsent) : ¬ net'.OwnedUnacked := by
  rintro ⟨r, hr, hcopied, howned⟩
  obtain ⟨ws, hws, hwritten⟩ := h.written
  rw [hws] at hr
  rcases List.mem_append.mp hr with hr | hr
  · exact hqueue ⟨r, hr, hcopied, howned⟩
  · exact hunsent ⟨r.memory, howned, hwritten r hr howned⟩

theorem mem_ack {n : Nat} {rs : List Range} {r : Range} (h : r ∈ ack n rs) :
    ∃ r₀ ∈ rs, r.memory = r₀.memory ∧ r.copied = r₀.copied := by
  induction rs generalizing n with
  | nil => cases n <;> simp [ack] at h
  | cons first rest ih =>
    cases n with
    | zero => exact ⟨r, h, rfl, rfl⟩
    | succ n =>
      simp only [ack] at h
      split at h
      next =>
        obtain ⟨r₀, hr₀, hsame⟩ := ih h
        exact ⟨r₀, List.mem_cons_of_mem _ hr₀, hsame⟩
      next =>
        rcases List.mem_cons.mp h with rfl | h
        · exact ⟨first, List.mem_cons_self, rfl, rfl⟩
        · exact ⟨r, List.mem_cons_of_mem _ h, rfl, rfl⟩

theorem not_ownedUnacked_of_ack {n : Nat} (h : ¬ net.OwnedUnacked) :
    ¬ { net with unacked := ack n net.unacked }.OwnedUnacked := by
  rintro ⟨r, hr, hcopied, howned⟩
  obtain ⟨r₀, hr₀, hmemory, hcopied₀⟩ := mem_ack hr
  exact h ⟨r₀, hr₀, hcopied₀ ▸ hcopied, hmemory ▸ howned⟩

@[simp] theorem httpCloseConn_hs (hs : Option HttpState) : (httpCloseConn env o hs net).hs = none := by
  cases hs <;> rfl

theorem httpStateFree_unacked (hs : HttpState) (net : Net) :
    (httpStateFree hs net).unacked = net.unacked := by
  simp only [httpStateFree]
  split <;> rfl

theorem httpCloseConn_unacked (hs : Option HttpState) :
    (httpCloseConn env o hs net).net.unacked = net.unacked := by
  cases hs with
  | none => rfl
  | some hs =>
    simp only [httpCloseConn, httpStateFree_unacked]
    split
    next => exact (httpdPostFinished_finishes rfl).unacked
    next => rfl

theorem httpErr_unacked (c : Conn) : ¬ (httpErr c).net.OwnedUnacked := by
  obtain ⟨hs, net⟩ := c
  cases hs <;> simp [httpErr, Net.OwnedUnacked, httpStateFree_unacked]

/-- While the connection has its state, no response is freed; afterwards TCP references none of
its memory. -/
structure Held (c : Conn) : Prop where
  tracked : Tracked False c
  some_log : c.hs ≠ none → NoResponseFreed c.net.log
  none_queue : c.hs = none → ¬ c.net.OwnedUnacked

namespace Held

theorem of_log (htracked : Tracked False { hs := some hs, net }) (hlog : NoResponseFreed net.log) :
    Held { hs := some hs, net } where
  tracked := htracked
  some_log _ := hlog
  none_queue h := by simp at h

theorem of_queue {c : Conn} (htracked : Tracked False c) (hnone : c.hs = none)
    (hqueue : ¬ c.net.OwnedUnacked) : Held c where
  tracked := htracked
  some_log h := absurd hnone h
  none_queue _ := hqueue

theorem httpCloseConn (htracks : Tracks False hs net) (hqueue : ¬ net.OwnedUnacked) :
    Held (httpCloseConn env o (some hs) net) := by
  refine of_queue (.httpCloseConn htracks False.elim) (httpCloseConn_hs _) ?_
  rwa [Net.OwnedUnacked, httpCloseConn_unacked]

theorem httpSend (htracks : Tracks False hs net) (hlog : NoResponseFreed net.log)
    (hsafe : SendSafe env o hs net) : Held (httpSend env o hs net) := by
  obtain ⟨hs', net', hsends, heq⟩ | ⟨hend, hs', net', hsends, heq⟩ := httpSend_cases env o hs net
  · rw [heq]
    exact of_log (.of_tracks (htracks.sends hsends)) (hsends.noResponseFreed hlog)
  · rw [heq]
    obtain ⟨hqueue, hunsent⟩ := hsafe hend
    exact httpCloseConn (htracks.sends hsends) (not_ownedUnacked_of_sends hsends hqueue hunsent)

theorem finish {i : Intake} (hall : i.All (Tracks False)) (hlog : NoResponseFreed i.net.log)
    (hsafe : i.Safe env o) : Held (i.finish env o) := by
  cases i with
  | wait hs net => exact of_log (.of_tracks hall) hlog
  | send hs net => exact httpSend hall.1 hlog hsafe
  | close hs net => exact httpCloseConn hall.1 hsafe

theorem step {c c' : Conn} {e : Event} (h : Held c) (hstep : Step env c e c')
    (hacked : AckedFirst env c e) : Held c' := by
  have htracked := h.tracked.step hstep False.elim
  obtain ⟨-, rfl⟩ := hstep
  obtain ⟨hs, net⟩ := c
  cases hs with
  | none =>
    have hqueue := h.none_queue rfl
    cases e with
    | recv p ok o => cases p <;> cases ok <;> exact of_queue htracked rfl hqueue
    | sent len o => exact of_queue htracked rfl (not_ownedUnacked_of_ack hqueue)
    | poll o => exact of_queue htracked rfl hqueue
    | err => exact of_queue htracked rfl (httpErr_unacked _)
    | other => exact of_queue htracked rfl hqueue
  | some hs =>
    have htracks := h.tracked.tracks hs rfl
    have hlog := h.some_log (by simp)
    have hacked := hacked hs rfl
    cases e with
    | recv p ok o =>
      cases p with
      | none => exact httpCloseConn htracks hacked
      | some p =>
        cases ok with
        | false => exact httpCloseConn htracks hacked
        | true =>
          have hi := httpTakeIn_takesIn env o hs net p
          exact finish (hi.tracks htracks False.elim) ((hi.queueKept htracks).2 hlog) hacked
    | sent len o =>
      exact httpSend (htracks.congr 0 { net with unacked := ack len net.unacked } rfl) hlog hacked
    | poll o =>
      have hpolled := htracks.congr (hs.retries + 1) net rfl
      simp only [httpStep, httpPoll] at htracked ⊢
      split
      next hmax =>
        have hqueue : ¬ net.OwnedUnacked := by simpa [hmax] using hacked
        exact httpCloseConn hpolled hqueue
      next hmax =>
        split
        next hhandle =>
          have hsafe : SendSafe env o { hs with retries := hs.retries + 1 } net := by
            simpa [hmax, hhandle] using hacked
          exact httpSend hpolled hlog hsafe
        next => exact of_log (.of_tracks hpolled) hlog
    | err => exact of_queue htracked rfl (httpErr_unacked _)
    | other => exact of_log htracked hlog

end Held

theorem held_httpAccept : Held httpAccept where
  tracked := tracked_httpAccept False
  some_log _ := by simp [httpAccept, NoResponseFreed]
  none_queue h := by simp [httpAccept] at h

theorem Held.alive {c : Conn} (h : Held c) {r : Range} (hr : r ∈ c.net.unacked)
    (hcopied : r.copied = false) : r.Alive c := by
  by_cases hnone : c.hs = none
  · have howned : ¬ r.memory.Owned := fun howned => h.none_queue hnone ⟨r, hr, hcopied, howned⟩
    unfold Range.Alive
    split
    next hm => exact absurd (by rw [hm]; trivial) howned
    next hm => exact absurd (by rw [hm]; trivial) howned
    next => trivial
  · have hlog := h.some_log hnone
    unfold Range.Alive
    split
    next => exact Option.isSome_iff_ne_none.mpr hnone
    next id _ => exact hlog id
    next => trivial

end RadProt.Http
