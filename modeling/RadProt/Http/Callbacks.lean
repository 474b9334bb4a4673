import RadProt.Http.Send
import RadProt.Lib.Run

namespace RadProt.Http

open RadProt.Lib

def httpdMaxRetries : Nat := 4

inductive Intake
  | wait (hs : HttpState) (net : Net)
  | send (hs : HttpState) (net : Net)
  | close (hs : HttpState) (net : Net)

def Intake.net : Intake → Net
  | .wait _ net => net
  | .send _ net => net
  | .close _ net => net

def HttpState.queue (hs : HttpState) (p : Pbuf) : Pbuf :=
  match hs.req with
  | none => p
  | some req => req.cat p

/-- `http_parse_request`, and what `http_recv` does about its result. -/
def httpParseRequest (env : Env) (o : Outside) (hs : HttpState) (net : Net) (p : Pbuf) : Intake :=
  if hs.file.isSome then .wait { hs with req := none } net
  else
    let req := hs.queue p
    match parseRequest env.settings o.leftover req with
    | .inProgress => .wait { hs with req := some req } net
    | .incomplete => .close { hs with req := none } net
    | .badRequest => .close { hs with req := none } net
    | .redirect => .send { httpRedirect env hs with req := none } net
    | .file uri is09 => .send { httpFindFile env hs uri is09 with req := none } net
    | .post uri contentLen hdrLen =>
      let (hs, net) := httpPostStart env o hs net req uri contentLen hdrLen
      let hs := { hs with req := none }
      if hs.postContentLenLeft = 0 then .send hs net else .wait hs net

/-- `http_recv` with data, as far as the point where it sends or closes. -/
def httpTakeIn (env : Env) (o : Outside) (hs : HttpState) (net : Net) (p : Pbuf) : Intake :=
  if hs.postContentLenLeft > 0 then
    let (hs, net) := httpPostRxpbuf env o { hs with retries := 0 } net p
    if hs.postContentLenLeft = 0 then .send hs net else .wait hs net
  else if hs.handle.isNone then httpParseRequest env o hs net p
  else .wait hs net

def goOn (hs : HttpState) (net : Net) : Intake :=
  if hs.postContentLenLeft = 0 then .send hs net else .wait hs net

structure HttpState.Parses (hs : HttpState) : Prop where
  postContentLenLeft : hs.postContentLenLeft = 0
  handle : hs.handle = none
  file : hs.file = none

/-- What taking in `p` comes to, case by case. -/
inductive TakesIn (env : Env) (o : Outside) (hs : HttpState) (net : Net) (p : Pbuf) :
    Intake → Prop
  | body {hs' net'} (hpos : 0 < hs.postContentLenLeft)
      (hrx : httpPostRxpbuf env o { hs with retries := 0 } net p = (hs', net')) :
      TakesIn env o hs net p (goOn hs' net')
  | serving (hzero : hs.postContentLenLeft = 0) : TakesIn env o hs net p (.wait hs net)
  | ending (hzero : hs.postContentLenLeft = 0) (hhandle : hs.handle = none) :
      TakesIn env o hs net p (.wait { hs with req := none } net)
  | inProgress (h : hs.Parses) :
      TakesIn env o hs net p (.wait { hs with req := some (hs.queue p) } net)
  | refused (h : hs.Parses) : TakesIn env o hs net p (.close { hs with req := none } net)
  | redirect (h : hs.Parses) :
      TakesIn env o hs net p (.send { httpRedirect env hs with req := none } net)
  | file (h : hs.Parses) (uri : List UInt8) (is09 : Bool) :
      TakesIn env o hs net p (.send { httpFindFile env hs uri is09 with req := none } net)
  | post {uri contentLen hdrLen hs' net'} (h : hs.Parses)
      (hparse : parseRequest env.settings o.leftover (hs.queue p) = .post uri contentLen hdrLen)
      (hstart : httpPostStart env o hs net (hs.queue p) uri contentLen hdrLen = (hs', net')) :
      TakesIn env o hs net p (goOn { hs' with req := none } net')

theorem httpTakeIn_takesIn (env : Env) (o : Outside) (hs : HttpState) (net : Net) (p : Pbuf) :
    TakesIn env o hs net p (httpTakeIn env o hs net p) := by
  by_cases hpos : 0 < hs.postContentLenLeft
  · rw [httpTakeIn, if_pos hpos]
    exact .body hpos rfl
  have hzero : hs.postContentLenLeft = 0 := Nat.eq_zero_of_not_pos hpos
  rw [httpTakeIn, if_neg hpos]
  by_cases hhandle : hs.handle.isNone
  · rw [if_pos hhandle, httpParseRequest]
    have hhandle := Option.isNone_iff_eq_none.mp hhandle
    by_cases hfile : hs.file.isSome
    · rw [if_pos hfile]
      exact .ending hzero hhandle
    · have h : hs.Parses := ⟨hzero, hhandle, Option.not_isSome_iff_eq_none.mp hfile⟩
      rw [if_neg hfile]
      dsimp only
      cases hparse : parseRequest env.settings o.leftover (hs.queue p) with
      | inProgress => exact .inProgress h
      | incomplete => exact .refused h
      | badRequest => exact .refused h
      | redirect => exact .redirect h
      | file uri is09 => exact .file h uri is09
      | post uri contentLen hdrLen => exact .post h hparse rfl
  · rw [if_neg hhandle]
    exact .serving hzero

@[simp]
theorem net_goOn (hs : HttpState) (net : Net) : (goOn hs net).net = net := by
  unfold goOn
  split <;> rfl

def Intake.finish (env : Env) (o : Outside) : Intake → Conn
  | .wait hs net => { hs := some hs, net }
  | .send hs net => httpSend env o hs net
  | .close hs net => httpCloseConn env o (some hs) net

def httpRecv (env : Env) (o : Outside) (c : Conn) (p : Option Pbuf) (ok : Bool) : Conn :=
  match c.hs, p, ok with
  | some hs, some p, true => (httpTakeIn env o hs c.net p).finish env o
  | _, _, _ => httpCloseConn env o c.hs c.net

def httpSent (env : Env) (o : Outside) (c : Conn) : Conn :=
  match c.hs with
  | none => c
  | some hs => httpSend env o { hs with retries := 0 } c.net

def httpPoll (env : Env) (o : Outside) (c : Conn) : Conn :=
  match c.hs with
  | none => httpCloseConn env o none c.net
  | some hs =>
    let hs := { hs with retries := hs.retries + 1 }
    if hs.retries = httpdMaxRetries then httpCloseConn env o (some hs) c.net
    else if hs.handle.isSome then httpSend env o hs c.net
    else { hs := some hs, net := c.net }

/-- `http_err`: the pcb and its queue are already gone. -/
def httpErr (c : Conn) : Conn :=
  let net := { c.net with unacked := [] }
  match c.hs with
  | none => { c with net }
  | some hs => { hs := none, net := httpStateFree hs net }

inductive Event
  | recv (p : Option Pbuf) (ok : Bool) (o : Outside)
  | sent (len : Nat) (o : Outside)
  | poll (o : Outside)
  | err
  /-- Another connection starts or finishes a POST and takes over `current_connection`. -/
  | other

/-- TCP acknowledges some of the data that is outstanding before it calls `http_sent`. -/
def httpStep (env : Env) (c : Conn) : Event → Conn
  | .recv p ok o => httpRecv env o c p ok
  | .sent len o => httpSent env o { c with net.unacked := ack len c.net.unacked }
  | .poll o => httpPoll env o c
  | .err => httpErr c
  | .other => { c with net.current := false }

def Event.Enabled (c : Conn) : Event → Prop
  | .sent len _ => 0 < len ∧ len ≤ c.net.unackedLen
  | _ => True

def Step (env : Env) (c : Conn) (e : Event) (c' : Conn) : Prop :=
  e.Enabled c ∧ c' = httpStep env c e

end RadProt.Http
