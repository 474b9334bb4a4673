import RadProt.Http.PostRuns

namespace RadProt.Http

open RadProt.Lib

universe u v w

/-- What `current_connection` is given: the connection itself by `httpd_post_begin`, a null pointer
by `httpd_post_finished` once the data is processed. -/
def Effect.assigned : Effect → Option Bool
  | .postBegin _ => some true
  | .processPostData _ => some false
  | _ => none

structure Assigns (as : List Bool) (net net' : Net) : Prop where
  log : ∃ es, net'.log = net.log ++ es ∧ es.filterMap Effect.assigned = as
  current : net'.current = as.foldl (fun _ a => a) net.current

namespace Assigns

variable {as bs : List Bool} {net net' net'' : Net}

theorem refl (net : Net) : Assigns [] net net where
  log := ⟨[], by simp, rfl⟩
  current := rfl

theorem trans (h : Assigns as net net') (k : Assigns bs net' net'') :
    Assigns (as ++ bs) net net'' where
  log := by
    obtain ⟨es, hes, has⟩ := h.log
    obtain ⟨fs, hfs, hbs⟩ := k.log
    exact ⟨es ++ fs, by rw [hfs, hes, List.append_assoc], by rw [List.filterMap_append, has, hbs]⟩
  current := by rw [k.current, h.current, List.foldl_append]

theorem then_none (h : Assigns as net net') (k : Assigns [] net' net'') : Assigns as net net'' := by
  simpa using h.trans k

theorem none_then (h : Assigns [] net net') (k : Assigns as net' net'') : Assigns as net net'' :=
  h.trans k

theorem emit (net : Net) {e : Effect} (he : e.assigned = none) : Assigns [] net (net.emit e) where
  log := ⟨[e], rfl, by simp [he]⟩
  current := rfl

theorem unacked (net : Net) (unacked : List Range) : Assigns [] net { net with unacked } where
  log := ⟨[], by simp, rfl⟩
  current := rfl

theorem nextId (net : Net) (nextId : Nat) : Assigns [] net { net with nextId } where
  log := ⟨[], by simp, rfl⟩
  current := rfl

end Assigns

section Callbacks

variable {env : Env} {o : Outside} {hs hs' : HttpState} {net net' : Net} {p : Pbuf}

theorem Sends.assigns (h : Sends hs net hs' net') : Assigns [] net net' where
  log := by
    obtain ⟨k, hk⟩ := h.log
    refine ⟨_, hk, List.filterMap_eq_nil_iff.mpr fun e he => ?_⟩
    rw [List.eq_of_mem_replicate he]
    rfl
  current := h.current

theorem assigns_httpStateFree (hs : HttpState) (net : Net) :
    Assigns [] net (httpStateFree hs net) := by
  simp only [httpStateFree]
  split
  · exact .emit net rfl
  · exact .refl net

theorem assigns_httpdPostBegin {uri : List UInt8} {contentLen : Nat}
    (h : httpdPostBegin hs net uri contentLen = (hs', net')) : Assigns [true] net net' := by
  have hbegin : Assigns [true] net ({ net with current := true }.emit (.postBegin contentLen)) :=
    ⟨⟨[.postBegin contentLen], rfl, rfl⟩, rfl⟩
  simp only [httpdPostBegin] at h
  split at h
  · obtain ⟨-, rfl⟩ := Prod.mk.inj h
    exact (hbegin.then_none (.nextId _ _)).then_none (.emit _ rfl)
  · obtain ⟨-, rfl⟩ := Prod.mk.inj h
    exact hbegin

theorem assigns_httpdPostFinished (h : httpdPostFinished env o hs net = (hs', net')) :
    Assigns [false] net net' where
  log := by
    obtain ⟨es, hlog, hheap⟩ := (httpdPostFinished_finishes h).log
    refine ⟨_, hlog, ?_⟩
    have hes : es.filterMap Effect.assigned = [] := by
      refine List.filterMap_eq_nil_iff.mpr fun e he => ?_
      have := hheap e he
      cases e <;> first | rfl | exact absurd this id
    rw [List.filterMap_cons, hes]
    rfl
  current := by
    obtain ⟨-, rfl⟩ := Prod.mk.inj h
    rfl

theorem assigns_httpHandlePostFinished (h : httpHandlePostFinished env o hs net = (hs', net')) :
    Assigns [false] net net' ∧ hs'.postContentLenLeft = hs.postContentLenLeft := by
  have hleft := (httpdPostFinished_finishes h).postContentLenLeft
  refine ⟨.none_then ?_ (assigns_httpdPostFinished h), hleft⟩
  split
  · exact .emit net rfl
  · exact .refl net

theorem assigns_httpdPostReceiveData {accepted : Bool}
    (h : httpdPostReceiveData hs net p = (accepted, hs', net')) : Assigns [] net net' := by
  simp only [httpdPostReceiveData] at h
  split at h
  · obtain ⟨-, -, rfl⟩ := by simpa using h
    exact .emit net rfl
  · obtain ⟨-, -, rfl⟩ := by simpa using h
    exact .emit net rfl

theorem assigns_httpPostRxpbuf (h : httpPostRxpbuf env o hs net p = (hs', net')) :
    Assigns (if hs'.postContentLenLeft = 0 then [false] else []) net net' := by
  obtain ⟨accepted, hs₁, net₁, hreceive⟩ : ∃ accepted hs₁ net₁, httpdPostReceiveData
      { hs with postContentLenLeft := hs.postContentLenLeft - p.totLen } net p =
        (accepted, hs₁, net₁) := ⟨_, _, _, rfl⟩
  have hnone := assigns_httpdPostReceiveData hreceive
  simp only [httpPostRxpbuf, hreceive] at h
  generalize (if accepted = true then hs₁ else { hs₁ with postContentLenLeft := 0 }) = hs₂ at h
  split at h
  next hzero =>
    obtain ⟨hfinished, hleft⟩ := assigns_httpHandlePostFinished h
    rw [if_pos (hleft.trans hzero)]
    exact .none_then hnone hfinished
  next hmore =>
    obtain ⟨rfl, rfl⟩ := Prod.mk.inj h
    rw [if_neg hmore]
    exact hnone

theorem assigns_httpPostStart {inp : Pbuf} {uri : List UInt8} {contentLen hdrLen : Nat}
    (h : httpPostStart env o hs net inp uri contentLen hdrLen = (hs', net')) :
    Assigns (if hs'.postContentLenLeft = 0 then [true, false] else [true]) net net' := by
  obtain ⟨hs₁, net₁, hbegin, hcases⟩ := httpPostStart_cases h
  have hbegun := assigns_httpdPostBegin hbegin
  obtain ⟨q, -, hrx⟩ | ⟨-, hne, rfl, rfl⟩ := hcases
  · have hassigns := hbegun.trans (assigns_httpPostRxpbuf hrx)
    split
    next hzero => simpa [hzero] using hassigns
    next hmore => simpa [hmore] using hassigns
  · rw [if_neg hne]
    exact hbegun

theorem assigns_httpCloseConn (env : Env) (o : Outside) (hs : Option HttpState) (net : Net) :
    ∃ as, Assigns as net (httpCloseConn env o hs net).net := by
  cases hs with
  | none => exact ⟨_, .refl net⟩
  | some hs =>
    simp only [httpCloseConn]
    split
    · exact ⟨_, (assigns_httpdPostFinished rfl).then_none (assigns_httpStateFree _ _)⟩
    · exact ⟨_, assigns_httpStateFree hs net⟩

theorem assigns_httpSend (env : Env) (o : Outside) (hs : HttpState) (net : Net) :
    ∃ as, Assigns as net (httpSend env o hs net).net := by
  obtain ⟨hs', net', hsends, heq⟩ | ⟨-, hs', net', hsends, heq⟩ := httpSend_cases env o hs net
  · rw [heq]
    exact ⟨_, hsends.assigns⟩
  · obtain ⟨as, has⟩ := assigns_httpCloseConn env o (some hs') net'
    rw [heq]
    exact ⟨as, hsends.assigns.none_then has⟩

theorem assigns_httpSend_of_done (hdone : hs.postContentLenLeft = 0) :
    Assigns [] net (httpSend env o hs net).net := by
  obtain ⟨hs', net', hsends, heq⟩ | ⟨-, hs', net', hsends, heq⟩ := httpSend_cases env o hs net
  · rw [heq]
    exact hsends.assigns
  · have hdone' : ¬ hs'.postContentLenLeft ≠ 0 := not_not.mpr (hsends.postContentLenLeft.trans hdone)
    rw [heq]
    simp only [httpCloseConn, if_neg hdone']
    exact hsends.assigns.then_none (assigns_httpStateFree hs' net')

theorem TakesIn.assigns {p : Pbuf} {i : Intake} (hi : TakesIn env o hs net p i) :
    ∃ as, Assigns as net i.net := by
  cases hi with
  | body hpos hrx =>
    rw [net_goOn]
    exact ⟨_, assigns_httpPostRxpbuf hrx⟩
  | post hp hparse hstart =>
    rw [net_goOn]
    exact ⟨_, assigns_httpPostStart hstart⟩
  | _ => exact ⟨_, .refl net⟩

theorem assigns_finish (env : Env) (o : Outside) (i : Intake) :
    ∃ as, Assigns as i.net (i.finish env o).net := by
  cases i with
  | wait hs net => exact ⟨_, .refl net⟩
  | send hs net => exact assigns_httpSend env o hs net
  | close hs net => exact assigns_httpCloseConn env o (some hs) net

theorem assigns_httpStep (env : Env) (c : Conn) (e : Event) (he : e ≠ .other) :
    ∃ as, Assigns as c.net (httpStep env c e).net := by
  obtain ⟨hs, net⟩ := c
  cases e with
  | recv p ok o =>
    simp only [httpStep, httpRecv]
    split
    next hs p =>
      obtain ⟨as, has⟩ := (httpTakeIn_takesIn env o hs net p).assigns
      obtain ⟨bs, hbs⟩ := assigns_finish env o (httpTakeIn env o hs net p)
      exact ⟨as ++ bs, has.trans hbs⟩
    next => exact assigns_httpCloseConn env o hs net
  | sent len o =>
    simp only [httpStep, httpSent]
    cases hs with
    | none => exact ⟨_, .unacked net _⟩
    | some hs =>
      obtain ⟨as, has⟩ := assigns_httpSend env o { hs with retries := 0 }
        { net with unacked := ack len net.unacked }
      exact ⟨as, .none_then (.unacked net _) has⟩
  | poll o =>
    simp only [httpStep, httpPoll]
    cases hs with
    | none => exact assigns_httpCloseConn env o none net
    | some hs =>
      dsimp only
      split
      · exact assigns_httpCloseConn env o _ net
      · split
        · exact assigns_httpSend env o _ net
        · exact ⟨_, .refl net⟩
  | err =>
    simp only [httpStep, httpErr]
    cases hs with
    | none => exact ⟨_, .unacked net []⟩
    | some hs => exact ⟨_, .none_then (.unacked net []) (assigns_httpStateFree hs _)⟩
  | other => exact absurd rfl he

end Callbacks

def assignedBy {κ : Type u} (x : κ) (current : Option κ) (as : List Bool) : Option κ :=
  as.foldl (fun _ self => if self then some x else none) current

section Assigned

variable {κ : Type u} {x y : κ} {current : Option κ} {as : List Bool}

theorem assignedBy_self [DecidableEq κ] :
    decide (assignedBy x current as = some x) =
      as.foldl (fun _ a => a) (decide (current = some x)) := by
  induction as generalizing current with
  | nil => rfl
  | cons a as ih =>
    rw [assignedBy, List.foldl_cons, List.foldl_cons]
    apply ih.trans
    apply congrArg fun b => as.foldl (fun _ a => a) b
    cases a
    · rfl
    · exact decide_eq_true rfl

theorem assignedBy_of_ne (h : y ≠ x) (has : as ≠ []) : assignedBy x current as ≠ some y := by
  induction as generalizing current with
  | nil => exact absurd rfl has
  | cons a as ih =>
    rw [assignedBy, List.foldl_cons]
    by_cases hnil : as = []
    · subst hnil
      cases a
      · exact (Option.some_ne_none y).symm
      · exact fun hx => h (Option.some.inj hx).symm
    · exact ih hnil

end Assigned

/-- The connections of the server and the one variable that they share. What a connection sees of
it, whether it is the current one, agrees with it. -/
structure Server (κ : Type u) [DecidableEq κ] where
  currentConnection : Option κ
  conns : κ → Conn
  agrees : ∀ x, (conns x).net.current = decide (currentConnection = some x)

namespace Server

variable {κ : Type u} [DecidableEq κ]

def start : Server κ where
  currentConnection := none
  conns _ := httpAccept
  agrees _ := rfl

def serve (env : Env) (s : Server κ) (x : κ) (e : Event) : Server κ :=
  let c := httpStep env (s.conns x) e
  let effects := c.net.log.drop (s.conns x).net.log.length
  let current := assignedBy x s.currentConnection (effects.filterMap Effect.assigned)
  { currentConnection := current
    conns := fun y =>
      let c := if y = x then c else s.conns y
      { c with net.current := decide (current = some y) }
    agrees := fun _ => rfl }

def Step (env : Env) (s : Server κ) (e : κ × Event) (s' : Server κ) : Prop :=
  (e.2 ≠ .other ∧ e.2.Enabled (s.conns e.1)) ∧ s' = s.serve env e.1 e.2

section Serve

variable {env : Env} {s : Server κ} {x y : κ} {e : Event}

theorem serve_currentConnection {as : List Bool}
    (h : Assigns as (s.conns x).net (httpStep env (s.conns x) e).net) :
    (s.serve env x e).currentConnection = assignedBy x s.currentConnection as := by
  obtain ⟨es, hes, has⟩ := h.log
  simp only [serve, hes, List.drop_left, has]

theorem serve_conns_self (he : e ≠ .other) :
    (s.serve env x e).conns x = httpStep env (s.conns x) e := by
  obtain ⟨as, has⟩ := assigns_httpStep env (s.conns x) e he
  have hcurrent : decide ((s.serve env x e).currentConnection = some x) =
      (httpStep env (s.conns x) e).net.current := by
    rw [serve_currentConnection has, assignedBy_self, has.current, s.agrees]
  rw [serve] at hcurrent ⊢
  simp only [if_true, hcurrent]

theorem serve_conns_of_ne (he : e ≠ .other) (h : y ≠ x) :
    (s.serve env x e).conns y = s.conns y ∨
      (s.serve env x e).conns y = httpStep env (s.conns y) .other := by
  obtain ⟨as, has⟩ := assigns_httpStep env (s.conns x) e he
  have hcurrent := serve_currentConnection has
  have hconn : (s.serve env x e).conns y = { s.conns y with
      net.current := decide ((s.serve env x e).currentConnection = some y) } := by
    rw [serve]
    simp only [if_neg h]
  rw [hconn, hcurrent]
  by_cases hnil : as = []
  · subst hnil
    left
    rw [assignedBy, List.foldl_nil, ← s.agrees]
  · right
    rw [decide_eq_false (assignedBy_of_ne h hnil)]
    rfl

end Serve

end Server

def Event.isOther : Event → Bool
  | .other => true
  | _ => false

section Own

variable {κ : Type u} {α : Type v} {β : Type w} [DecidableEq κ]

def own (x : κ) (es : List (κ × α)) : List α := (es.filter fun e => e.1 = x).map Prod.snd

@[simp] theorem own_cons_self (x : κ) (a : α) (es : List (κ × α)) :
    own x ((x, a) :: es) = a :: own x es := by
  simp [own]

@[simp] theorem own_cons_of_ne {x y : κ} (h : y ≠ x) (a : α) (es : List (κ × α)) :
    own x ((y, a) :: es) = own x es := by
  simp [own, h]

theorem length_own (x : κ) (es : List (κ × α)) : (own x es).length = (es.map Prod.fst).count x := by
  induction es with
  | nil => rfl
  | cons e es ih =>
    obtain ⟨y, a⟩ := e
    by_cases h : y = x
    · subst h
      rw [own_cons_self, List.length_cons, ih, List.map_cons, List.count_cons_self]
    · rw [own_cons_of_ne h, ih, List.map_cons, List.count_cons_of_ne h]

theorem own_map (x : κ) (f : α → β) (es : List (κ × α)) :
    own x (es.map fun e => (e.1, f e.2)) = (own x es).map f := by
  induction es with
  | nil => rfl
  | cons e es ih =>
    obtain ⟨y, a⟩ := e
    by_cases h : y = x
    · subst h
      rw [List.map_cons, own_cons_self, own_cons_self, List.map_cons, ih]
    · rw [List.map_cons, own_cons_of_ne h, own_cons_of_ne h, ih]

end Own

theorem Server.run_conn_guarded {κ : Type u} [DecidableEq κ] {env : Env} {s s' : Server κ}
    {es : List (κ × Event)} {G : Conn → Event → Prop} (hother : ∀ c, G c .other)
    (h : Run (Guarded (fun s e => G (s.conns e.1) e.2) (Server.Step env)) s es s') (x : κ) :
    ∃ fs, Run (Guarded G (Http.Step env)) (s.conns x) fs (s'.conns x) ∧
      fs.filter (fun e => !e.isOther) = own x es := by
  induction h with
  | nil => exact ⟨[], .nil, rfl⟩
  | @cons s _ _ e es hstep _ ih =>
    obtain ⟨y, e⟩ := e
    obtain ⟨hguard, ⟨he, henabled⟩, rfl⟩ := hstep
    obtain ⟨fs, hfs, hown⟩ := ih
    have hnot : e.isOther = false := by
      cases e with
      | other => exact absurd rfl he
      | _ => rfl
    by_cases hyx : y = x
    · subst hyx
      rw [Server.serve_conns_self he] at hfs
      refine ⟨e :: fs, .cons ⟨hguard, henabled, rfl⟩ hfs, ?_⟩
      rw [List.filter_cons_of_pos (by rw [hnot]; rfl), hown, own_cons_self]
    · rw [own_cons_of_ne hyx]
      rcases Server.serve_conns_of_ne he (Ne.symm hyx) with hsame | hlost
      · rw [hsame] at hfs
        exact ⟨fs, hfs, hown⟩
      · rw [hlost] at hfs
        exact ⟨.other :: fs, .cons ⟨hother _, trivial, rfl⟩ hfs, hown⟩

theorem Server.run_conn {κ : Type u} [DecidableEq κ] {env : Env} {s s' : Server κ}
    {es : List (κ × Event)} (h : Run (Server.Step env) s es s') (x : κ) :
    ∃ fs, Run (Http.Step env) (s.conns x) fs (s'.conns x) ∧
      fs.filter (fun e => !e.isOther) = own x es := by
  have hguarded : Run (Guarded (fun _ _ => True) (Server.Step env)) s es s' :=
    h.mono fun _ _ _ hstep => ⟨trivial, hstep⟩
  obtain ⟨fs, hfs, hown⟩ := Server.run_conn_guarded (G := fun _ _ => True) (fun _ => trivial) hguarded x
  exact ⟨fs, hfs.of_guarded, hown⟩

theorem Server.runs_at_most_once {κ : Type u} [DecidableEq κ] {env : Env} {s : Server κ}
    {es : List (κ × Event)} (h : Run (Server.Step env) Server.start es s) (x : κ) :
    ∀ r ∈ posts (s.conns x).net.log, r.runs.length ≤ 1 := by
  obtain ⟨fs, hfs, -⟩ := Server.run_conn h x
  exact post_runs_at_most_once hfs

end RadProt.Http
