import RadProt.Mqtt.Task

namespace RadProt.Mqtt

open RadProt.Lib

def Call.apply (held : Int → Bool) : Call → Int → Bool
  | .obtained fd, x => if x = fd then true else held x
  | .closed fd _, x => if x = fd then false else held x

def held (log : List Call) : Int → Bool := log.foldl Call.apply fun _ => false

/-- Every `close` of `log` is of a descriptor obtained before and not closed since, and so of
none that another task holds. -/
def ClosesOwn (log : List Call) : Prop :=
  ∀ n fd owner, log[n]? = some (.closed fd owner) →
    held (log.take n) fd = true ∧ owner = some .mqtt

@[simp] theorem held_append_obtained (log : List Call) (fd : Nat) (x : Int) :
    held (log ++ [.obtained fd]) x = if x = fd then true else held log x := by
  simp [held, Call.apply]

@[simp] theorem held_append_closed (log : List Call) (fd : Int) (owner : Option Owner) (x : Int) :
    held (log ++ [.closed fd owner]) x = if x = fd then false else held log x := by
  simp [held, Call.apply]

theorem closesOwn_nil : ClosesOwn [] := by
  intro n fd owner h
  simp at h

theorem closesOwn_append_iff {log : List Call} {c : Call} :
    ClosesOwn (log ++ [c]) ↔
      ClosesOwn log ∧ ∀ fd owner, c = .closed fd owner → held log fd = true ∧ owner = some .mqtt := by
  constructor
  · intro h
    refine ⟨fun n fd owner hn => ?_, fun fd owner hc => ?_⟩
    · have hlt : n < log.length := (List.getElem?_eq_some_iff.mp hn).1
      have hlog := h n fd owner (by rwa [List.getElem?_append_left hlt])
      rwa [List.take_append_of_le_length (Nat.le_of_lt hlt)] at hlog
    · have hlast := h log.length fd owner (by simp [hc])
      rwa [List.take_left] at hlast
  · rintro ⟨hlog, hlast⟩ n fd owner hn
    rcases Nat.lt_trichotomy n log.length with hlt | rfl | hgt
    · rw [List.getElem?_append_left hlt] at hn
      rw [List.take_append_of_le_length (Nat.le_of_lt hlt)]
      exact hlog n fd owner hn
    · rw [List.take_left]
      apply hlast fd owner
      simpa using hn
    · rw [List.getElem?_eq_none (by simp; omega)] at hn
      simp at hn

/-- The calls that end well: there is a broker, a socket for it, and the connection attempt takes
none of the exits that close the socket. -/
def Event.Good : Event → Prop
  | .brokerEmpty => False
  | .socket fd => fd ≠ none
  | .selectTimeout => False
  | .selectFails => False
  | .selectReady error => error = 0
  | _ => True

structure Tracks (table : Nat → Option Owner) (log : List Call) : Prop where
  owned : ∀ fd : Nat, table fd = some .mqtt ↔ held log fd = true
  nonneg : ∀ x, held log x = true → 0 ≤ x

namespace Tracks

variable {s : State}

theorem init (others : Nat → Bool) : Tracks (State.init others).table [] where
  owned fd := by
    cases h : others fd <;> simp [State.init, held, h]
  nonneg x h := nomatch h

theorem other {fd : Nat} {o : Option Owner} (h : Tracks s.table s.log) (ho : o ≠ some .mqtt)
    (hfd : s.table fd ≠ some .mqtt) :
    Tracks (fun k => if k = fd then o else s.table k) s.log where
  owned k := by
    by_cases hk : k = fd
    · subst hk
      rw [if_pos rfl]
      exact iff_of_false ho (mt (h.owned k).mpr hfd)
    · rw [if_neg hk]
      exact h.owned k
  nonneg := h.nonneg

theorem obtained {fd : Nat} (h : Tracks s.table s.log) :
    Tracks (fun k => if k = fd then some .mqtt else s.table k) (s.log ++ [.obtained fd]) where
  owned k := by
    rw [held_append_obtained]
    by_cases hk : k = fd
    · rw [if_pos hk, if_pos (congrArg _ hk)]
      exact iff_of_true rfl rfl
    · have hne : (k : Int) ≠ fd := fun heq => hk (Int.ofNat.inj heq)
      rw [if_neg hk, if_neg hne]
      exact h.owned k
  nonneg x hx := by
    rw [held_append_obtained] at hx
    split at hx
    next hfd => exact hfd ▸ Int.natCast_nonneg fd
    next => exact h.nonneg x hx

theorem lwipClose (h : Tracks s.table s.log) : Tracks s.lwipClose.table s.lwipClose.log where
  owned k := by
    simp only [State.lwipClose, held_append_closed]
    by_cases hk : (k : Int) = s.mySocket
    · rw [if_pos hk, if_pos hk]
      exact iff_of_false (by decide) (by decide)
    · rw [if_neg hk, if_neg hk]
      exact h.owned k
  nonneg x hx := by
    simp only [State.lwipClose, held_append_closed] at hx
    split at hx
    next => exact nomatch hx
    next => exact h.nonneg x hx

theorem owner_eq (h : Tracks s.table s.log) {x : Int} (hx : held s.log x = true) :
    s.owner x = some .mqtt := by
  obtain ⟨fd, rfl⟩ := Int.eq_ofNat_of_zero_le (h.nonneg x hx)
  rw [State.owner, if_pos (h.nonneg _ hx)]
  exact (h.owned fd).mpr hx

theorem closesOwn_lwipClose_iff (h : Tracks s.table s.log) :
    ClosesOwn s.lwipClose.log ↔ ClosesOwn s.log ∧ held s.log s.mySocket = true := by
  rw [State.lwipClose, closesOwn_append_iff]
  refine and_congr_right fun _ => ⟨fun hclose => (hclose _ _ rfl).1, fun hheld fd owner hc => ?_⟩
  obtain ⟨rfl, rfl⟩ := Call.closed.inj hc
  exact ⟨hheld, h.owner_eq hheld⟩

end Tracks

theorem held_lwipClose (s : State) : held s.lwipClose.log s.mySocket = false := by
  simp [State.lwipClose]

structure Consistent (s : State) : Prop where
  tracks : Tracks s.table s.log
  inUse : s.point ≠ .top → s.point ≠ .closing → held s.log s.mySocket = true
  top : s.point = .top → held s.log s.mySocket = false

def Doomed (s : State) : Prop :=
  ¬ ClosesOwn s.log ∨ s.point = .closing ∧ held s.log s.mySocket = false

def Sound (s : State) : Prop :=
  ClosesOwn s.log ∧ (s.point ≠ .top → held s.log s.mySocket = true)

variable {s t : State} {e : Event}

theorem Consistent.of_closing (htracks : Tracks s.table s.log) (hpoint : s.point = .closing) :
    Consistent s where
  tracks := htracks
  inUse _ hne := absurd hpoint hne
  top htop := nomatch hpoint.symm.trans htop

theorem Consistent.init (others : Nat → Bool) : Consistent (State.init others) where
  tracks := .init others
  inUse hne _ := absurd rfl hne
  top _ := rfl

theorem Consistent.step (h : Consistent s) (hstep : Step s e t) : Consistent t := by
  obtain ⟨henabled, rfl⟩ := hstep
  cases e with
  | otherOpens fd =>
    have hfd : s.table fd ≠ some .mqtt := fun hm => nomatch hm.symm.trans henabled
    exact ⟨h.tracks.other (by decide) hfd, h.inUse, h.top⟩
  | otherCloses fd =>
    have hfd : s.table fd ≠ some .mqtt := fun hm => nomatch hm.symm.trans henabled
    exact ⟨h.tracks.other (by decide) hfd, h.inUse, h.top⟩
  | brokerEmpty => exact .of_closing h.tracks rfl
  | socket fd =>
    cases fd with
    | none => exact .of_closing h.tracks rfl
    | some fd => exact ⟨h.tracks.obtained, fun _ _ => by simp [mqttStep], fun hpoint => nomatch hpoint⟩
  | resolving => exact h
  | connectReturns =>
    have hheld := h.inUse (henabled ▸ by decide) (henabled ▸ by decide)
    exact ⟨h.tracks, fun _ _ => hheld, fun hpoint => nomatch hpoint⟩
  | connectInProgress =>
    have hheld := h.inUse (henabled ▸ by decide) (henabled ▸ by decide)
    exact ⟨h.tracks, fun _ _ => hheld, fun hpoint => nomatch hpoint⟩
  | selectTimeout => exact .of_closing h.tracks.lwipClose rfl
  | selectFails => exact .of_closing h.tracks.lwipClose rfl
  | selectReady error =>
    have hheld := h.inUse (henabled ▸ by decide) (henabled ▸ by decide)
    rw [mqttStep]
    split
    next => exact ⟨h.tracks, fun _ _ => hheld, fun hpoint => nomatch hpoint⟩
    next => exact .of_closing h.tracks.lwipClose rfl
  | mqttConnect rc =>
    have hheld := h.inUse (henabled ▸ by decide) (henabled ▸ by decide)
    rw [mqttStep]
    split
    next => exact ⟨h.tracks, fun _ _ => hheld, fun hpoint => nomatch hpoint⟩
    next => exact .of_closing h.tracks rfl
  | publish rc =>
    rw [mqttStep]
    split
    next => exact h
    next => exact .of_closing h.tracks rfl
  | noMessage reconnect =>
    rw [mqttStep]
    split
    next => exact .of_closing h.tracks rfl
    next => exact h
  | disconnect =>
    exact ⟨h.tracks.lwipClose, fun hne => absurd rfl hne, fun _ => held_lwipClose s⟩

theorem log_mqttStep (s : State) (e : Event) :
    (mqttStep s e).log = s.log ∨ ∃ c, (mqttStep s e).log = s.log ++ [c] := by
  cases e with
  | socket fd =>
    cases fd with
    | none => exact .inl rfl
    | some fd => exact .inr ⟨_, rfl⟩
  | selectTimeout => exact .inr ⟨_, rfl⟩
  | selectFails => exact .inr ⟨_, rfl⟩
  | disconnect => exact .inr ⟨_, rfl⟩
  | selectReady error =>
    rw [mqttStep]
    split
    next => exact .inl rfl
    next => exact .inr ⟨_, rfl⟩
  | mqttConnect rc => rw [mqttStep]; split <;> exact .inl rfl
  | publish rc => rw [mqttStep]; split <;> exact .inl rfl
  | noMessage reconnect => rw [mqttStep]; split <;> exact .inl rfl
  | _ => exact .inl rfl

theorem ClosesOwn.of_step (hstep : Step s e t) (h : ClosesOwn t.log) : ClosesOwn s.log := by
  obtain ⟨-, rfl⟩ := hstep
  obtain hlog | ⟨c, hlog⟩ := log_mqttStep s e
  · exact hlog ▸ h
  · rw [hlog, closesOwn_append_iff] at h
    exact h.1

theorem Doomed.step (hs : Consistent s) (h : Doomed s) (hstep : Step s e t) : Doomed t := by
  obtain hclosed | ⟨hpoint, hheld⟩ := h
  · exact .inl fun ht => hclosed (ht.of_step hstep)
  · obtain ⟨henabled, rfl⟩ := hstep
    cases e with
    | otherOpens fd => exact .inr ⟨hpoint, hheld⟩
    | otherCloses fd => exact .inr ⟨hpoint, hheld⟩
    | disconnect =>
      refine .inl fun ht => ?_
      have hown := (hs.tracks.closesOwn_lwipClose_iff.mp ht).2
      exact nomatch hheld.symm.trans hown
    | socket fd =>
      cases fd with
      | none => exact nomatch hpoint.symm.trans henabled
      | some fd => exact nomatch hpoint.symm.trans henabled.1
    | _ => exact nomatch hpoint.symm.trans henabled

theorem doomed_of_not_good (hs : Consistent s) (hbad : ¬ e.Good) (hstep : Step s e t) :
    Doomed t := by
  obtain ⟨henabled, rfl⟩ := hstep
  cases e with
  | brokerEmpty => exact .inr ⟨rfl, hs.top henabled⟩
  | socket fd =>
    cases fd with
    | none =>
      refine .inr ⟨rfl, ?_⟩
      exact Bool.eq_false_iff.mpr fun hheld => absurd (hs.tracks.nonneg _ hheld)
        (show ¬ (0 : Int) ≤ -1 by decide)
    | some fd => exact absurd (Option.some_ne_none fd) hbad
  | selectTimeout => exact .inr ⟨rfl, held_lwipClose s⟩
  | selectFails => exact .inr ⟨rfl, held_lwipClose s⟩
  | selectReady error =>
    rw [mqttStep, if_neg (show ¬ error = 0 from hbad)]
    exact .inr ⟨rfl, held_lwipClose s⟩
  | _ => exact absurd trivial hbad

theorem Sound.init (others : Nat → Bool) : Sound (State.init others) :=
  ⟨closesOwn_nil, fun hne => absurd rfl hne⟩

theorem Sound.step (hs : Consistent s) (h : Sound s) (hgood : e.Good) (hstep : Step s e t) :
    Sound t := by
  obtain ⟨henabled, rfl⟩ := hstep
  obtain ⟨hown, hheld⟩ := h
  cases e with
  | otherOpens fd => exact ⟨hown, hheld⟩
  | otherCloses fd => exact ⟨hown, hheld⟩
  | resolving => exact ⟨hown, hheld⟩
  | socket fd =>
    cases fd with
    | none => exact absurd rfl hgood
    | some fd =>
      refine ⟨closesOwn_append_iff.mpr ⟨hown, fun _ _ hc => nomatch hc⟩, fun _ => ?_⟩
      simp [mqttStep]
  | connectReturns => exact ⟨hown, fun _ => hheld (henabled ▸ by decide)⟩
  | connectInProgress => exact ⟨hown, fun _ => hheld (henabled ▸ by decide)⟩
  | selectReady error =>
    rw [mqttStep, if_pos (show error = 0 from hgood)]
    exact ⟨hown, fun _ => hheld (henabled ▸ by decide)⟩
  | mqttConnect rc =>
    have hsocket := hheld (henabled ▸ by decide)
    rw [mqttStep]
    split <;> exact ⟨hown, fun _ => hsocket⟩
  | publish rc =>
    have hsocket := hheld (henabled ▸ by decide)
    rw [mqttStep]
    split <;> exact ⟨hown, fun _ => hsocket⟩
  | noMessage reconnect =>
    have hsocket := hheld (henabled ▸ by decide)
    rw [mqttStep]
    split <;> exact ⟨hown, fun _ => hsocket⟩
  | disconnect =>
    have hsocket := hheld (henabled ▸ by decide)
    exact ⟨hs.tracks.closesOwn_lwipClose_iff.mpr ⟨hown, hsocket⟩, fun hne => absurd rfl hne⟩
  | _ => exact hgood.elim

variable {others : Nat → Bool} {es : List Event}

theorem closesOwn_of_good (hrun : Run Step (State.init others) es s) (hgood : ∀ e ∈ es, e.Good) :
    ClosesOwn s.log := by
  have hinv := (hrun.guarded hgood).invariant (fun s => Consistent s ∧ Sound s)
    (fun _ _ _ h hstep => ⟨h.1.step hstep.2, h.2.step h.1 hstep.1 hstep.2⟩)
    ⟨.init others, .init others⟩
  exact hinv.2.1

theorem doomed_of_bad (hrun : Run Step (State.init others) es s) (hbad : ∃ e ∈ es, ¬ e.Good) :
    Doomed s :=
  hrun.latched (G := Event.Good) Consistent Doomed (fun _ _ _ h hstep => h.step hstep)
    (fun _ _ _ h hdoomed hstep => hdoomed.step h hstep)
    (fun _ _ _ h hnot hstep => doomed_of_not_good h hnot hstep) (.init others) (.inr hbad)

/-- The MQTT code closes only what it holds as long as every call ends well, and between two
turns of its loop only then. -/
theorem mqtt_closes_own (hrun : Run Step (State.init others) es s) :
    ((∀ e ∈ es, e.Good) → ClosesOwn s.log) ∧
      (s.point = .top → ClosesOwn s.log → ∀ e ∈ es, e.Good) := by
  refine ⟨closesOwn_of_good hrun, fun htop hown e he => ?_⟩
  by_contra hbad
  obtain hclosed | ⟨hclosing, -⟩ := doomed_of_bad hrun ⟨e, he, hbad⟩
  · exact hclosed hown
  · exact nomatch htop.symm.trans hclosing

def refusedSession : List Event :=
  [.socket (some 3), .resolving, .connectInProgress, .selectReady 0, .mqttConnect (-1), .disconnect]

def otherHolds (fd : Nat) : Bool := fd = 0

theorem refusedSession_closes_own :
    ClosesOwn (refusedSession.foldl mqttStep (State.init otherHolds)).log := by
  have hrun : Run Step (State.init otherHolds) refusedSession
      (refusedSession.foldl mqttStep (State.init otherHolds)) :=
    .cons ⟨⟨rfl, rfl⟩, rfl⟩ (.cons ⟨rfl, rfl⟩ (.cons ⟨rfl, rfl⟩ (.cons ⟨rfl, rfl⟩
      (.cons ⟨rfl, rfl⟩ (.cons ⟨rfl, rfl⟩ .nil)))))
  apply (mqtt_closes_own hrun).1
  simp [refusedSession, Event.Good]

/-- Without a broker the first turn closes another task's descriptor; a connection that times out
is closed twice, the second time after another task has been given its descriptor. -/
theorem mqtt_closes_others :
    (∃ s, Run Step (State.init otherHolds) [.brokerEmpty, .disconnect] s ∧
        s.log = [.closed 0 (some .other)] ∧ ¬ ClosesOwn s.log) ∧
      ∃ s, Run Step (State.init otherHolds)
          [.socket (some 1), .connectInProgress, .selectTimeout, .otherOpens 1, .disconnect] s ∧
        s.log = [.obtained 1, .closed 1 (some .mqtt), .closed 1 (some .other)] ∧
        ¬ ClosesOwn s.log := by
  constructor
  · refine ⟨_, .cons ⟨rfl, rfl⟩ (.cons ⟨rfl, rfl⟩ .nil), rfl, fun h => ?_⟩
    exact absurd (h 0 0 (some .other) rfl).2 (by decide)
  · refine ⟨_, .cons ⟨⟨rfl, rfl⟩, rfl⟩ (.cons ⟨rfl, rfl⟩ (.cons ⟨rfl, rfl⟩
      (.cons ⟨rfl, rfl⟩ (.cons ⟨rfl, rfl⟩ .nil)))), rfl, fun h => ?_⟩
    exact absurd (h 2 1 (some .other) rfl).2 (by decide)

end RadProt.Mqtt
