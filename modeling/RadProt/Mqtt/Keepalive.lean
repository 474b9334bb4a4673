import RadProt.Mqtt.Wire

namespace RadProt.Mqtt

open RadProt.Lib

/-- What a call of `cycle` meets, and the ticks at which it reads the clock. -/
structure Timed where
  packetType : Int
  publishQos : Option Nat
  ackParsed : Bool
  ackWrites : List Int
  pingWrites : List Int
  /-- When `readPacket` has a whole packet. -/
  received : Option Nat
  /-- When the acknowledgement has gone out. -/
  acked : Nat
  sentChecked : Nat
  receivedChecked : Nat
  /-- When the ping has gone out. -/
  pinged : Nat

def Timed.incoming (t : Timed) (expired : Bool) : Incoming where
  packetType := t.packetType
  publishQos := t.publishQos
  ackParsed := t.ackParsed
  ackWrites := t.ackWrites
  expired
  pingWrites := t.pingWrites

def Timed.Acks (t : Timed) : Prop :=
  (t.packetType = publish ∧ (t.publishQos = some 1 ∨ t.publishQos = some 2) ∨
    (t.packetType = pubrec ∨ t.packetType = pubrel) ∧ t.ackParsed = true) ∧
    sendPacket 4 t.ackWrites = 0

instance (t : Timed) : Decidable t.Acks := inferInstanceAs (Decidable (_ ∧ _))

def timerCountdown (timeout tick : Nat) : Countdown := timerCountdownMs (timeout * 1000) tick

structure Keeper where
  cycling : Cycling
  lastSent : Countdown
  lastReceived : Countdown

namespace Keeper

def packetSent (k : Keeper) (tick : Nat) : Keeper :=
  { k with lastSent := timerCountdown k.cycling.keepAliveInterval tick }

def packetReceived (k : Keeper) (tick : Nat) : Keeper :=
  if 0 < k.cycling.keepAliveInterval then
    { k with lastReceived := timerCountdown k.cycling.keepAliveInterval tick }
  else k

def read (k : Keeper) (t : Timed) : Keeper :=
  let k := t.received.elim k k.packetReceived
  if t.Acks then k.packetSent t.acked else k

variable [TimeOutCheck]

def expired (k : Keeper) (t : Timed) : Bool × Keeper :=
  let sent := timerIsExpired k.lastSent t.sentChecked
  if sent.1 then (true, { k with lastSent := sent.2 })
  else
    let received := timerIsExpired k.lastReceived t.receivedChecked
    (received.1, { k with lastSent := sent.2, lastReceived := received.2 })

def keepalive (k : Keeper) (t : Timed) : Int × Keeper :=
  if k.cycling.keepAliveInterval = 0 then (0, k)
  else
    let (expired, k) := k.expired t
    if expired then
      if k.cycling.pingOutstanding then (-1, k)
      else
        let rc := sendPacket 2 t.pingWrites
        if rc = 0 then
          (0, { k.packetSent t.pinged with cycling := { k.cycling with pingOutstanding := true } })
        else (rc, k)
    else (0, k)

def exit (k : Keeper) (t : Timed) (rc : Int) : Int × Keeper :=
  let r := cycleExit k.cycling (t.incoming false) rc
  (r.1, { k with cycling := r.2 })

def cycle (k : Keeper) (t : Timed) : Int × Keeper :=
  let k := k.read t
  match packetHandled (t.incoming false) with
  | some rc => k.exit t rc
  | none =>
    let (rc, k) := keepalive { k with cycling := k.cycling.noted (t.incoming false) } t
    k.exit t (if rc ≠ 0 then -1 else 0)

inductive Event
  /-- A turn of `MQTTRun` or of `waitfor`. -/
  | turn (t : Timed)
  /-- `MQTTPublish` has sent a packet whole. -/
  | sent (tick : Nat)
  /-- `MQTTPublish` fails, and closes the session. -/
  | failed

def Event.ticks : Event → List Nat
  | turn t => t.received.toList ++ [t.acked, t.sentChecked, t.receivedChecked, t.pinged]
  | sent tick => [tick]
  | failed => []

def step (k : Keeper) : Event → Keeper
  | .turn t => if k.cycling.client.isconnected then (k.cycle t).2 else k
  | .sent tick => k.packetSent tick
  | .failed => { k with cycling := k.cycling.closeSession }

end Keeper

/-- A session as its traffic shows it: when a packet last went out whole, when one last came in, and
whether a ping has gone out that no PINGRESP has answered. -/
structure Watch where
  isOpen : Bool
  sentAt : Nat
  receivedAt : Nat
  unanswered : Bool

namespace Watch

def Due (interval : Nat) (w : Watch) (t : Timed) : Prop :=
  w.sentAt + interval ≤ t.sentChecked ∨ w.receivedAt + interval ≤ t.receivedChecked

instance (interval : Nat) (w : Watch) (t : Timed) : Decidable (w.Due interval t) :=
  inferInstanceAs (Decidable (_ ∨ _))

def read (w : Watch) (t : Timed) : Watch :=
  { w with
    receivedAt := t.received.getD w.receivedAt
    sentAt := if t.Acks then t.acked else w.sentAt }

/-- A keep-alive that is due takes a ping that gets out, where none is unanswered. -/
def turn (interval : Nat) (w : Watch) (t : Timed) : Watch :=
  let w := w.read t
  match packetHandled (t.incoming false) with
  | some rc => { w with isOpen := rc = 0 }
  | none =>
    let w := { w with unanswered := w.unanswered && t.packetType ≠ pingresp }
    if interval ≠ 0 ∧ w.Due interval t then
      if w.unanswered = false ∧ sendPacket 2 t.pingWrites = 0 then
        { w with sentAt := t.pinged, unanswered := true }
      else { w with isOpen := false }
    else w

def step (interval : Nat) (w : Watch) : Keeper.Event → Watch
  | .turn t => if w.isOpen then w.turn interval t else w
  | .sent tick => { w with sentAt := tick }
  | .failed => { w with isOpen := false }

end Watch

structure Keeper.Watches (seconds : Nat) (k : Keeper) (w : Watch) (now : Nat) : Prop where
  keepAliveInterval : k.cycling.keepAliveInterval = seconds
  isOpen : k.cycling.client.isconnected = w.isOpen
  pingOutstanding : w.isOpen = true → k.cycling.pingOutstanding = w.unanswered
  lastSent : w.isOpen = true → k.lastSent.Counts (w.sentAt + seconds * 1000) now
  lastReceived : w.isOpen = true → 0 < seconds →
    k.lastReceived.Counts (w.receivedAt + seconds * 1000) now

section Cycle

variable {k : Keeper} {t : Timed}

theorem packetHandled_incoming (t : Timed) (expired : Bool) :
    packetHandled (t.incoming expired) = packetHandled (t.incoming false) := rfl

theorem read_cycling (k : Keeper) (t : Timed) : (k.read t).cycling = k.cycling := by
  have hreceived : (t.received.elim k k.packetReceived).cycling = k.cycling := by
    cases t.received with
    | none => rfl
    | some tick =>
      change (k.packetReceived tick).cycling = _
      rw [Keeper.packetReceived]
      split <;> rfl
  rw [Keeper.read]
  split
  · exact hreceived
  · exact hreceived

variable [TimeOutCheck]

theorem expired_cycling (k : Keeper) (t : Timed) : (k.expired t).2.cycling = k.cycling := by
  rw [Keeper.expired]
  dsimp only
  split <;> rfl

theorem keepalive_cycling (k : Keeper) (t : Timed) :
    (k.keepalive t).1 = (keepalive k.cycling (t.incoming (k.expired t).1)).1 ∧
      (k.keepalive t).2.cycling = (keepalive k.cycling (t.incoming (k.expired t).1)).2 := by
  rw [Keeper.keepalive, keepalive]
  split
  · exact ⟨rfl, rfl⟩
  · have hcycling := expired_cycling k t
    generalize k.expired t = e at hcycling
    obtain ⟨expired, k'⟩ := e
    rw [← hcycling]
    cases expired with
    | false => exact ⟨rfl, rfl⟩
    | true =>
      simp only [Timed.incoming, if_true]
      split
      · exact ⟨rfl, rfl⟩
      · by_cases hrc : sendPacket 2 t.pingWrites = 0
        · simp [hrc]
        · simp [hrc]

theorem cycle_cycling (k : Keeper) (t : Timed) : ∃ expired,
    (k.cycle t).1 = (cycle k.cycling (t.incoming expired)).1 ∧
      (k.cycle t).2.cycling = (cycle k.cycling (t.incoming expired)).2 := by
  rw [← read_cycling k t, Keeper.cycle]
  generalize k.read t = k'
  cases hhandled : packetHandled (t.incoming false) with
  | some rc =>
    refine ⟨false, ?_⟩
    rw [cycle, hhandled]
    exact ⟨rfl, rfl⟩
  | none =>
    obtain ⟨hrc, hcycling⟩ :=
      keepalive_cycling { k' with cycling := k'.cycling.noted (t.incoming false) } t
    refine ⟨(Keeper.expired { k' with cycling := k'.cycling.noted (t.incoming false) } t).1, ?_⟩
    rw [cycle, packetHandled_incoming, hhandled]
    have hnoted : ∀ expired, k'.cycling.noted (t.incoming expired) =
        k'.cycling.noted (t.incoming false) := fun _ => rfl
    simp only [hnoted, ← hrc, ← hcycling]
    exact ⟨rfl, rfl⟩

end Cycle

namespace Keeper.Watches

variable {seconds now tick : Nat} {k : Keeper} {w : Watch} {t : Timed}

theorem mono (h : k.Watches seconds w now) (hle : now ≤ tick) : k.Watches seconds w tick :=
  ⟨h.keepAliveInterval, h.isOpen, h.pingOutstanding, fun hopen => (h.lastSent hopen).mono hle,
    fun hopen hpos => (h.lastReceived hopen hpos).mono hle⟩

theorem packetSent (h : k.Watches seconds w now) (hle : now ≤ tick) :
    (k.packetSent tick).Watches seconds { w with sentAt := tick } tick := by
  refine ⟨h.keepAliveInterval, h.isOpen, h.pingOutstanding, fun _ => ?_,
    fun hopen hpos => (h.lastReceived hopen hpos).mono hle⟩
  rw [Keeper.packetSent, h.keepAliveInterval]
  exact Countdown.counts_start _ _

theorem packetReceived (h : k.Watches seconds w now) (hle : now ≤ tick) :
    (k.packetReceived tick).Watches seconds { w with receivedAt := tick } tick := by
  rw [Keeper.packetReceived, h.keepAliveInterval]
  split
  · exact ⟨h.keepAliveInterval, h.isOpen, h.pingOutstanding,
      fun hopen => (h.lastSent hopen).mono hle, fun _ _ => Countdown.counts_start _ _⟩
  · rename_i hzero
    exact ⟨h.keepAliveInterval, h.isOpen, h.pingOutstanding,
      fun hopen => (h.lastSent hopen).mono hle, fun _ hpos => absurd hpos hzero⟩

theorem read (h : k.Watches seconds w now) (hreceived : ∀ tick ∈ t.received, now ≤ tick ∧
    tick ≤ t.acked) (hle : now ≤ t.acked) :
    (k.read t).Watches seconds (w.read t) t.acked := by
  have hpacket : (t.received.elim k k.packetReceived).Watches seconds
      { w with receivedAt := t.received.getD w.receivedAt } t.acked := by
    cases htick : t.received with
    | none => exact h.mono hle
    | some tick =>
      obtain ⟨hnow, hacked⟩ := hreceived tick htick
      exact (h.packetReceived hnow).mono hacked
  rw [Keeper.read, Watch.read]
  split
  · exact hpacket.packetSent (Nat.le_refl _)
  · exact hpacket

theorem closeSession (h : k.Watches seconds w now) :
    Keeper.Watches seconds { k with cycling := k.cycling.closeSession }
      { w with isOpen := false } now :=
  ⟨h.keepAliveInterval, rfl, fun hfalse => absurd hfalse Bool.false_ne_true,
    fun hfalse => absurd hfalse Bool.false_ne_true, fun hfalse => absurd hfalse Bool.false_ne_true⟩

theorem exit_zero (h : k.Watches seconds w now) : (k.exit t 0).2.Watches seconds w now := h

theorem exit (h : k.Watches seconds w now) (hopen : w.isOpen = true) (rc : Int) :
    (k.exit t rc).2.Watches seconds { w with isOpen := rc = 0 } now := by
  by_cases hrc : rc = 0
  · have hsame : { w with isOpen := decide (rc = 0) } = w := by
      rw [decide_eq_true hrc, ← hopen]
    rw [hsame, hrc]
    exact h.exit_zero
  · rw [Keeper.exit, cycleExit, if_neg hrc, if_pos (h.isOpen.trans hopen), decide_eq_false hrc]
    exact h.closeSession

theorem noted (h : k.Watches seconds w now) :
    Keeper.Watches seconds { k with cycling := k.cycling.noted (t.incoming false) }
      { w with unanswered := w.unanswered && t.packetType ≠ pingresp } now := by
  have hcycling : (k.cycling.noted (t.incoming false)).keepAliveInterval = seconds ∧
      (k.cycling.noted (t.incoming false)).pingOutstanding =
        (k.cycling.pingOutstanding && decide (t.packetType ≠ pingresp)) := by
    rw [Cycling.noted, show (t.incoming false).packetType = t.packetType from rfl]
    by_cases hpong : t.packetType = pingresp
    · rw [if_pos hpong, decide_eq_false (not_not_intro hpong)]
      exact ⟨h.keepAliveInterval, (Bool.and_false _).symm⟩
    · rw [if_neg hpong, decide_eq_true hpong]
      exact ⟨h.keepAliveInterval, (Bool.and_true _).symm⟩
  refine ⟨hcycling.1, ?_, fun hopen => ?_, h.lastSent, h.lastReceived⟩
  · rw [noted_client]
    exact h.isOpen
  · rw [hcycling.2, h.pingOutstanding hopen]

variable [TimeOutCheck]

theorem expired (h : k.Watches seconds w now) (hopen : w.isOpen = true) (hpos : 0 < seconds)
    (hsent : now ≤ t.sentChecked) (hreceived : t.sentChecked ≤ t.receivedChecked) :
    ((k.expired t).1 = true ↔ w.Due (seconds * 1000) t) ∧
      (k.expired t).2.Watches seconds w t.receivedChecked := by
  have hlastSent := h.lastSent hopen
  have hlastReceived := h.lastReceived hopen hpos
  have hle := Nat.le_trans hsent hreceived
  have hiff : (timerIsExpired k.lastSent t.sentChecked).1 = true ↔ _ :=
    hlastSent.check_iff hsent
  have hiff' : (timerIsExpired k.lastReceived t.receivedChecked).1 = true ↔ _ :=
    hlastReceived.check_iff hle
  have hchecked := (hlastSent.check hsent).mono hreceived
  rw [Keeper.expired, Watch.Due]
  dsimp only
  by_cases hover : (timerIsExpired k.lastSent t.sentChecked).1 = true
  · rw [if_pos hover]
    exact ⟨iff_of_true rfl (.inl (hiff.mp hover)),
      ⟨h.keepAliveInterval, h.isOpen, h.pingOutstanding, fun _ => hchecked,
        fun _ _ => hlastReceived.mono hle⟩⟩
  · rw [if_neg hover]
    refine ⟨?_, ⟨h.keepAliveInterval, h.isOpen, h.pingOutstanding, fun _ => hchecked,
      fun _ _ => hlastReceived.check hle⟩⟩
    rw [hiff', or_iff_right fun hdue => hover (hiff.mpr hdue)]

theorem keepalive (h : k.Watches seconds w now) (hopen : w.isOpen = true)
    (hsent : now ≤ t.sentChecked) (hreceived : t.sentChecked ≤ t.receivedChecked)
    (hpinged : t.receivedChecked ≤ t.pinged) :
    ((k.keepalive t).1 = 0 ↔ ¬ (seconds * 1000 ≠ 0 ∧ w.Due (seconds * 1000) t) ∨
      w.unanswered = false ∧ sendPacket 2 t.pingWrites = 0) ∧
    (k.keepalive t).2.Watches seconds
      (if (seconds * 1000 ≠ 0 ∧ w.Due (seconds * 1000) t) ∧
          w.unanswered = false ∧ sendPacket 2 t.pingWrites = 0 then
        { w with sentAt := t.pinged, unanswered := true } else w) t.pinged := by
  rw [Keeper.keepalive, h.keepAliveInterval]
  obtain rfl | hpos := Nat.eq_zero_or_pos seconds
  · rw [if_pos rfl, Nat.zero_mul, if_neg fun hdue => hdue.1.1 rfl]
    exact ⟨iff_of_true rfl (.inl fun hdue => hdue.1 rfl),
      h.mono (Nat.le_trans hsent (Nat.le_trans hreceived hpinged))⟩
  · have hne : seconds * 1000 ≠ 0 := by omega
    obtain ⟨hexpired, hwatches⟩ := h.expired hopen hpos hsent hreceived
    rw [if_neg (Nat.ne_of_gt hpos)]
    generalize k.expired t = e at hexpired hwatches
    obtain ⟨expired, k'⟩ := e
    cases expired with
    | false =>
      have hnot : ¬ w.Due (seconds * 1000) t := fun hdue => Bool.false_ne_true (hexpired.mpr hdue)
      rw [if_neg fun hdue => hnot hdue.1.2]
      exact ⟨iff_of_true rfl (.inl fun hdue => hnot hdue.2), hwatches.mono hpinged⟩
    | true =>
      have hdue := hexpired.mp rfl
      have hping := hwatches.pingOutstanding hopen
      dsimp only at hping ⊢
      rw [if_pos rfl, hping]
      cases hunanswered : w.unanswered with
      | true =>
        rw [if_pos rfl, if_neg fun hdue => Bool.noConfusion hdue.2.1]
        exact ⟨iff_of_false (show ¬ (-1 : Int) = 0 by decide) (by simp [hne, hdue]),
          hwatches.mono hpinged⟩
      | false =>
        rw [if_neg Bool.false_ne_true]
        by_cases hrc : sendPacket 2 t.pingWrites = 0
        · rw [if_pos hrc, if_pos ⟨⟨hne, hdue⟩, rfl, hrc⟩]
          have hsent := hwatches.packetSent hpinged
          exact ⟨iff_of_true rfl (.inr ⟨rfl, hrc⟩), ⟨hsent.keepAliveInterval, hsent.isOpen,
            fun _ => rfl, hsent.lastSent, hsent.lastReceived⟩⟩
        · rw [if_neg hrc, if_neg fun hping => hrc hping.2.2]
          exact ⟨iff_of_false hrc (by simp [hne, hdue, hrc]), hwatches.mono hpinged⟩

theorem cycle (h : k.Watches seconds w now) (hopen : w.isOpen = true)
    (hticks : (now :: (Keeper.Event.turn t).ticks).Pairwise (· ≤ ·)) :
    (k.cycle t).2.Watches seconds (w.turn (seconds * 1000) t) t.pinged := by
  simp only [Keeper.Event.ticks, List.pairwise_cons, List.pairwise_append, List.mem_append,
    Option.mem_toList, List.mem_cons, List.not_mem_nil, or_false] at hticks
  obtain ⟨hnow, -, ⟨hacked, hsentChecked, hreceivedChecked, -⟩, hreceived⟩ := hticks
  have hread := h.read (t := t)
    (fun tick htick => ⟨hnow tick (.inl htick), hreceived tick htick _ (.inl rfl)⟩)
    (hnow _ (.inr (.inl rfl)))
  have hsent := hacked _ (.inl rfl)
  have hpinged := hacked _ (.inr (.inr rfl))
  rw [Keeper.cycle, Watch.turn]
  cases hhandled : packetHandled (t.incoming false) with
  | some rc => exact (hread.exit hopen rc).mono hpinged
  | none =>
    have hnoted := hread.noted (t := t)
    obtain ⟨hrc, hwatches⟩ := hnoted.keepalive hopen hsent (hsentChecked _ (.inl rfl))
      (hreceivedChecked _ rfl)
    dsimp only
    generalize Keeper.keepalive _ t = r at hrc hwatches ⊢
    by_cases hdue : seconds * 1000 ≠ 0 ∧ Watch.Due (seconds * 1000)
        { w.read t with unanswered := (w.read t).unanswered && t.packetType ≠ pingresp } t
    · rw [if_pos hdue]
      by_cases hping : ((w.read t).unanswered && decide (t.packetType ≠ pingresp)) = false ∧
          sendPacket 2 t.pingWrites = 0
      · rw [if_pos ⟨hdue, hping⟩] at hwatches
        rw [if_pos hping, if_neg (not_not_intro (hrc.mpr (.inr hping)))]
        exact hwatches.exit_zero
      · rw [if_neg fun hand => hping hand.2] at hwatches
        rw [if_neg hping, if_pos fun hzero => (hrc.mp hzero).elim (fun hnot => hnot hdue) hping]
        exact hwatches.exit hopen (-1)
    · rw [if_neg fun hand => hdue hand.1] at hwatches
      rw [if_neg hdue, if_neg (not_not_intro (hrc.mpr (.inl hdue)))]
      exact hwatches.exit_zero

theorem step (h : k.Watches seconds w now) {e : Keeper.Event}
    (hticks : (now :: e.ticks).Pairwise (· ≤ ·)) : ∃ later ∈ now :: e.ticks,
      (k.step e).Watches seconds (w.step (seconds * 1000) e) later := by
  cases e with
  | turn t =>
    rw [Keeper.step, Watch.step, h.isOpen]
    split
    next hopen =>
      exact ⟨t.pinged, by simp [Keeper.Event.ticks], h.cycle hopen hticks⟩
    next => exact ⟨now, List.mem_cons_self, h⟩
  | sent tick =>
    have hle := List.rel_of_pairwise_cons hticks (List.mem_singleton_self tick)
    exact ⟨tick, List.mem_cons_of_mem _ (List.mem_singleton_self tick), h.packetSent hle⟩
  | failed =>
    exact ⟨now, List.mem_cons_self, h.closeSession⟩

theorem run (h : k.Watches seconds w now) {es : List Keeper.Event}
    (hticks : (now :: es.flatMap Keeper.Event.ticks).Pairwise (· ≤ ·)) :
    ∃ later, (es.foldl Keeper.step k).Watches seconds
      (es.foldl (Watch.step (seconds * 1000)) w) later := by
  induction es generalizing k w now with
  | nil => exact ⟨now, h⟩
  | cons e es ih =>
    rw [List.flatMap_cons, ← List.cons_append, List.pairwise_append] at hticks
    obtain ⟨hfirst, hrest, hbetween⟩ := hticks
    obtain ⟨later, hmem, hstep⟩ := h.step hfirst
    exact ih hstep (List.pairwise_cons.mpr ⟨hbetween later hmem, hrest⟩)

end Keeper.Watches

def Keeper.Event.Quiet : Keeper.Event → Prop
  | turn t => t.received = none ∧ t.packetType ≤ 0
  | sent _ => True
  | failed => True

def Keeper.Event.turnsFrom (limit : Nat) : Keeper.Event → Bool
  | turn t => limit ≤ t.receivedChecked
  | sent _ => false
  | failed => false

namespace Watch

variable {interval : Nat} {w : Watch} {t : Timed} {e : Keeper.Event} {es : List Keeper.Event}

theorem isOpen_of_run (h : (es.foldl (Watch.step interval) w).isOpen = true) :
    w.isOpen = true := by
  induction es generalizing w with
  | nil => exact h
  | cons e es ih =>
    have hnext := ih h
    cases e with
    | turn t =>
      rw [Watch.step] at hnext
      split at hnext
      next hopen => exact hopen
      next => exact hnext
    | sent tick => exact hnext
    | failed => exact absurd hnext Bool.false_ne_true

theorem packetHandled_nonpos (h : t.packetType ≤ 0) :
    packetHandled (t.incoming false) =
      if t.packetType = 0 then none else some t.packetType := by
  have hne : ∀ n : Int, 0 < n → (t.incoming false).packetType ≠ n := fun n hn =>
    Int.ne_of_lt (Int.lt_of_le_of_lt h hn)
  rw [packetHandled, if_neg (hne publish (by decide)),
    if_neg (not_or.mpr ⟨hne pubrec (by decide), hne pubrel (by decide)⟩)]
  have htypes : (t.incoming false).packetType = 0 ∨ (t.incoming false).packetType = connack ∨
      (t.incoming false).packetType = puback ∨ (t.incoming false).packetType = suback ∨
      (t.incoming false).packetType = unsuback ∨ (t.incoming false).packetType = pubcomp ∨
      (t.incoming false).packetType = pingresp ↔ t.packetType = 0 :=
    ⟨fun hor => hor.resolve_right fun hor => hor.elim (hne connack (by decide)) fun hor =>
      hor.elim (hne puback (by decide)) fun hor => hor.elim (hne suback (by decide)) fun hor =>
        hor.elim (hne unsuback (by decide)) fun hor => hor.elim (hne pubcomp (by decide))
          (hne pingresp (by decide)), .inl⟩
  simp only [htypes]
  rfl

theorem read_quiet (hquiet : t.received = none ∧ t.packetType ≤ 0) : w.read t = w := by
  have hacks : ¬ t.Acks := by
    rintro ⟨⟨htype, -⟩ | ⟨htype | htype, -⟩, -⟩
    · exact absurd (htype ▸ hquiet.2) (by decide)
    · exact absurd (htype ▸ hquiet.2) (by decide)
    · exact absurd (htype ▸ hquiet.2) (by decide)
  rw [Watch.read, hquiet.1, if_neg hacks]
  rfl

theorem turn_quiet (hquiet : t.received = none ∧ t.packetType ≤ 0) (hinterval : interval ≠ 0)
    (hopen : (w.turn interval t).isOpen = true) :
    ¬ w.Due interval t ∧ w.turn interval t = w ∨
      w.unanswered = false ∧
        w.turn interval t = { w with sentAt := t.pinged, unanswered := true } := by
  rw [Watch.turn, read_quiet hquiet, packetHandled_nonpos hquiet.2] at hopen ⊢
  by_cases hzero : t.packetType = 0
  · have hpong : (w.unanswered && decide (t.packetType ≠ pingresp)) = w.unanswered := by
      rw [hzero]
      exact Bool.and_true _
    rw [if_pos hzero] at hopen ⊢
    simp only [hpong] at hopen ⊢
    by_cases hdue : w.Due interval t
    · rw [if_pos ⟨hinterval, hdue⟩] at hopen ⊢
      by_cases hping : w.unanswered = false ∧ sendPacket 2 t.pingWrites = 0
      · rw [if_pos hping]
        exact .inr ⟨hping.1, rfl⟩
      · rw [if_neg hping] at hopen
        exact absurd hopen Bool.false_ne_true
    · rw [if_neg fun hand => hdue hand.2]
      exact .inl ⟨hdue, rfl⟩
  · rw [if_neg hzero] at hopen
    exact absurd (of_decide_eq_true hopen) hzero

theorem late_turns_le (hinterval : interval ≠ 0) (hquiet : ∀ e ∈ es, e.Quiet)
    (hopen : (es.foldl (Watch.step interval) w).isOpen = true) :
    es.countP (Keeper.Event.turnsFrom (w.receivedAt + interval)) ≤
      if w.unanswered then 0 else 1 := by
  induction es generalizing w with
  | nil => exact Nat.zero_le _
  | cons e es ih =>
    have hrest := fun e he => hquiet e (List.mem_cons_of_mem _ he)
    have hcount := ih hrest hopen
    have hfirst := hquiet e List.mem_cons_self
    rw [List.countP_cons]
    cases e with
    | turn t =>
      have hnext : (w.step interval (.turn t)).isOpen = true := isOpen_of_run hopen
      have hwas : w.isOpen = true := @isOpen_of_run _ _ (.turn t :: es) hopen
      rw [Watch.step, if_pos hwas] at hnext hcount
      obtain ⟨hdue, heq⟩ | ⟨hanswered, heq⟩ := turn_quiet hfirst hinterval hnext
      · have hearly : ¬ (Keeper.Event.turn t).turnsFrom (w.receivedAt + interval) = true :=
          fun hlate => hdue (.inr (of_decide_eq_true hlate))
        rw [heq] at hcount
        rw [if_neg hearly]
        exact hcount
      · rw [heq, if_pos rfl] at hcount
        rw [hanswered, if_neg Bool.false_ne_true, Nat.le_zero.mp hcount, Nat.zero_add]
        split
        · exact Nat.le_refl 1
        · exact Nat.zero_le 1
    | sent tick => exact hcount
    | failed =>
      have hnext : (w.step interval .failed).isOpen = true := isOpen_of_run hopen
      exact absurd hnext Bool.false_ne_true

end Watch

section Sessions

variable {seconds now : Nat} {k : Keeper} {w : Watch} {es : List Keeper.Event}

theorem watches_connected {client : MqttClient} (h : client.isconnected = true)
    (seconds sentAt : Nat) {receivedAt : Nat} (hle : sentAt ≤ receivedAt) :
    Keeper.Watches seconds
      { cycling := { client, keepAliveInterval := seconds, pingOutstanding := false }
        lastSent := timerCountdown seconds sentAt
        lastReceived := timerCountdown seconds receivedAt }
      { isOpen := true, sentAt, receivedAt, unanswered := false } receivedAt :=
  ⟨rfl, h, fun _ => rfl, fun _ => (Countdown.counts_start _ _).mono hle,
    fun _ _ => Countdown.counts_start _ _⟩

/-- On a clock that does not go back, the session of a client is open, and its ping outstanding,
as the traffic of the session has it. -/
theorem session_follows_traffic [TimeOutCheck] (h : k.Watches seconds w now)
    (hticks : (now :: es.flatMap Keeper.Event.ticks).Pairwise (· ≤ ·)) :
    (es.foldl Keeper.step k).cycling.client.isconnected =
        (es.foldl (Watch.step (seconds * 1000)) w).isOpen ∧
      ((es.foldl (Watch.step (seconds * 1000)) w).isOpen = true →
        (es.foldl Keeper.step k).cycling.pingOutstanding =
          (es.foldl (Watch.step (seconds * 1000)) w).unanswered) := by
  obtain ⟨later, hrun⟩ := h.run hticks
  exact ⟨hrun.isOpen, hrun.pingOutstanding⟩

attribute [local instance] TimeOutCheck.subtracting

def quietTurn (tick : Nat) : Timed where
  packetType := 0
  publishQos := none
  ackParsed := false
  ackWrites := []
  pingWrites := [2]
  received := none
  acked := tick
  sentChecked := tick
  receivedChecked := tick
  pinged := tick

def justConnected : Keeper where
  cycling := {
    client := { MqttClient.init with isconnected := true }
    keepAliveInterval := 60
    pingOutstanding := false }
  lastSent := timerCountdown 60 0
  lastReceived := timerCountdown 60 0

theorem slow_pong_closes :
    ([.sent 30000, .turn (quietTurn 60000), .turn (quietTurn 60150)].foldl Keeper.step
      justConnected).cycling.client.isconnected = false := by
  have hwatches := @watches_connected { MqttClient.init with isconnected := true } rfl 60 0 0
    (Nat.le_refl 0)
  rw [(session_follows_traffic (k := justConnected) hwatches (by decide)).1]
  decide

/-- While no packet comes in, a client that keeps alive leaves its session open for at most one turn
from the end of the interval on, and for none if a ping was unanswered. -/
theorem dead_peer_noticed [TimeOutCheck] (h : k.Watches seconds w now) (hpos : 0 < seconds)
    (hticks : (now :: es.flatMap Keeper.Event.ticks).Pairwise (· ≤ ·))
    (hquiet : ∀ e ∈ es, e.Quiet)
    (hopen : (es.foldl Keeper.step k).cycling.client.isconnected = true) :
    es.countP (Keeper.Event.turnsFrom (w.receivedAt + seconds * 1000)) ≤
      if w.unanswered then 0 else 1 := by
  obtain ⟨later, hrun⟩ := h.run hticks
  have hinterval : seconds * 1000 ≠ 0 := by omega
  exact Watch.late_turns_le hinterval hquiet (hrun.isOpen.symm.trans hopen)

theorem dead_peer_closed :
    ([.turn (quietTurn 59900), .turn (quietTurn 60050), .turn (quietTurn 60200)].foldl Keeper.step
      justConnected).cycling.client.isconnected = false := by
  refine Bool.eq_false_iff.mpr fun hopen => ?_
  have hwatches := @watches_connected { MqttClient.init with isconnected := true } rfl 60 0 0
    (Nat.le_refl 0)
  have hcount := dead_peer_noticed (k := justConnected) hwatches (by decide) (by decide)
    (by simp [Keeper.Event.Quiet, quietTurn]) hopen
  exact absurd hcount (by decide)

end Sessions

end RadProt.Mqtt
