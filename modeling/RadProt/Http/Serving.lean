import RadProt.Http.Answer
import RadProt.Http.Body
import RadProt.Http.Server

namespace RadProt.Http

open RadProt.Lib

abbrev Segment := Pbuf × Outside

abbrev receive (seg : Segment) : Event := .recv (some seg.1) true seg.2

def enqueue (req : Option Pbuf) (p : Pbuf) : Pbuf :=
  match req with
  | none => p
  | some req => req.cat p

def queueOf (ps : List Pbuf) : Option Pbuf := ps.foldl (fun req p => some (enqueue req p)) none

theorem queueOf_concat (ps : List Pbuf) (p : Pbuf) :
    queueOf (ps ++ [p]) = some (enqueue (queueOf ps) p) := by
  rw [queueOf, List.foldl_append]
  rfl

def awaiting (req : Option Pbuf) : HttpState := { httpStateInit with req }

/-- A POST request cut into segments: those before the header is complete, the one that completes
it, and the others up to the one that completes the body. -/
structure PostRequest (env : Env) where
  head : List Segment
  first : Segment
  rest : List Segment
  uri : List UInt8
  contentLen : Nat
  hdrLen : Nat
  waits : ∀ ps seg qs, head = ps ++ seg :: qs →
    parseRequest env.settings seg.2.leftover (enqueue (queueOf (ps.map Prod.fst)) seg.1) =
      .inProgress
  posts : parseRequest env.settings first.2.leftover
    (enqueue (queueOf (head.map Prod.fst)) first.1) = .post uri contentLen hdrLen
  whole : contentLen ≤
    total (bodyChunks ((enqueue (queueOf (head.map Prod.fst)) first.1).body hdrLen) rest)
  needed : rest ≠ [] →
    total (bodyChunks ((enqueue (queueOf (head.map Prod.fst)) first.1).body hdrLen) rest.dropLast) <
      contentLen

def jsonAnswer (env : Env) (body : List UInt8) : List UInt8 :=
  (headerString env .ok).bytes ++ (headerString env .contentLength).bytes ++
    (itoa body.length ++ crlf) ++ (httpContentType "application/json").bytes ++ body

def badRequestAnswer (env : Env) : List UInt8 :=
  (headerString env .badRequest).bytes ++ (headerString env .connClose).bytes

def Handled (uri : List UInt8) : Prop :=
  (postHandlers.any fun name => (ascii name).isPrefixOf (cString (strncpy 128 uri))) = true

instance (uri : List UInt8) : Decidable (Handled uri) := inferInstanceAs (Decidable (_ = true))

def postAnswer (env : Env) (uri : List UInt8) (current : Bool) (body : List UInt8) : List UInt8 :=
  if Handled uri then
    if current then jsonAnswer env (body.take (body.length % 65536)) else badRequestAnswer env
  else []

namespace PostRequest

variable {env : Env} (r : PostRequest env)

def segments : List Segment := r.head ++ r.first :: r.rest

def body : Option Pbuf := (enqueue (queueOf (r.head.map Prod.fst)) r.first.1).body r.hdrLen

def json : List UInt8 := (r.rest.getLast?.getD r.first).2.response

def answer (current : Bool) : List UInt8 := postAnswer env r.uri current r.json

def alone : Conn := (r.segments.map receive).foldl (httpStep env) httpAccept

variable {r} {done todo : List Segment} {seg : Segment}

theorem cases_segments (h : r.segments = done ++ seg :: todo) :
    (∃ qs, r.head = done ++ seg :: qs) ∨ (done = r.head ∧ seg = r.first ∧ todo = r.rest) ∨
      ∃ ps, done = r.head ++ r.first :: ps ∧ r.rest = ps ++ seg :: todo := by
  rcases List.append_eq_append_iff.mp h with ⟨ps, hdone, hps⟩ | ⟨qs, hhead, hqs⟩
  · cases ps with
    | nil =>
      obtain ⟨hfirst, hrest⟩ := List.cons.inj hps
      exact .inr (.inl ⟨by simpa using hdone, hfirst.symm, hrest.symm⟩)
    | cons p ps =>
      obtain ⟨rfl, hrest⟩ := List.cons.inj hps
      exact .inr (.inr ⟨ps, hdone, hrest⟩)
  · cases qs with
    | nil =>
      obtain ⟨hfirst, hrest⟩ := List.cons.inj hqs
      exact .inr (.inl ⟨by simpa using hhead.symm, hfirst, hrest⟩)
    | cons q qs =>
      obtain ⟨rfl, -⟩ := List.cons.inj hqs
      exact .inl ⟨qs, hhead⟩

theorem total_lt {ps : List Segment} (h : r.rest = ps ++ todo) (hne : todo ≠ []) :
    total (bodyChunks r.body ps) < r.contentLen := by
  have hneeded : total (bodyChunks r.body r.rest.dropLast) < r.contentLen :=
    r.needed (by simp [h, hne])
  rw [h, List.dropLast_append_of_ne_nil hne] at hneeded
  simp only [bodyChunks, List.map_append, total_append] at hneeded ⊢
  omega

theorem complete_iff {ps : List Segment} (h : r.rest = ps ++ todo) :
    r.contentLen ≤ total (bodyChunks r.body ps) ↔ todo = [] := by
  constructor
  · intro hle
    by_contra hne
    exact absurd hle (Nat.not_le_of_lt (total_lt h hne))
  · rintro rfl
    rw [List.append_nil] at h
    exact h ▸ r.whole

theorem total_concat (ps : List Segment) (seg : Segment) :
    total (bodyChunks r.body (ps ++ [seg])) = total (bodyChunks r.body ps) + seg.1.totLen := by
  simp [bodyChunks, Nat.add_assoc]

end PostRequest

section Collect

variable {env : Env} {o : Outside} {r : PostRequest env} {got : Nat} {hs hs' : HttpState}
  {net net' : Net} {p : Pbuf}

structure Collecting (r : PostRequest env) (got : Nat) (hs : HttpState) (net : Net) : Prop where
  handle : hs.handle = none
  file : hs.file = none
  hdrs : hs.hdrs = .replicate 6 none
  postUri : hs.postUri = strncpy 128 r.uri
  len : hs.postContentLen = r.contentLen
  left : hs.postContentLenLeft = r.contentLen - got
  unacked : net.unacked = []

theorem contentLengthText_of_lt {len : Nat} (h : len < 65536) :
    contentLengthText len = some ⟨.hdrContentLen, itoa len ++ crlf⟩ := by
  have hdigits : (itoa len).length ≤ 5 := by
    rw [itoa, List.length_map, Nat.length_toDigits_le_iff (by decide) (by decide)]
    omega
  have htake : (itoa len).take 11 = itoa len := List.take_of_length_le (by omega)
  simp only [contentLengthText, htake]
  rw [if_pos (by omega)]

theorem contentType_json :
    getContentTypeFromExtension (ascii "json") = some (httpContentType "application/json") := rfl

structure Outcome (r : PostRequest env) (got : Nat) (current : Bool) (o : Outside) (hs : HttpState)
    (net : Net) : Prop where
  more : got < r.contentLen → Collecting r got hs net
  last : r.contentLen ≤ got → hs.postContentLenLeft = 0 ∧ hs.handle = none ∧
    stream hs net = postAnswer env r.uri current o.response

namespace Collecting

theorem pending (h : Collecting r got hs net) : hs.pending = [] := by
  rw [List.eq_nil_iff_forall_not_mem]
  intro t ht
  obtain ⟨i, text, hi, -⟩ := HttpState.mem_pending.mp ht
  rw [h.hdrs, Vector.toList_replicate] at hi
  exact absurd (List.eq_of_mem_replicate (List.mem_of_getElem? hi)) (Option.some_ne_none text)

theorem stream_httpdPostResponse (h : Collecting r got hs net) (hunacked : net'.unacked = [])
    (id : Nat) (body : List UInt8) :
    stream (httpdPostResponse env hs net id body) net' =
      if net.current then jsonAnswer env (body.take (body.length % 65536))
      else badRequestAnswer env := by
  cases hcurrent : net.current with
  | true =>
    have hlen : body.length % 65536 < 65536 := Nat.mod_lt _ (by decide)
    have hmin : min (body.length % 65536) body.length = body.length % 65536 :=
      Nat.min_eq_left (Nat.mod_le _ _)
    simp [httpdPostResponse, hcurrent, stream, HttpState.outgoing, HttpState.pending, h.hdrs,
      contentLengthText_of_lt hlen, contentType_json, Net.queued, hunacked, jsonAnswer, hmin]
  | false =>
    simp [httpdPostResponse, hcurrent, stream, HttpState.outgoing, HttpState.pending, h.hdrs,
      Net.queued, hunacked, badRequestAnswer, h.file]

theorem process (h : Collecting r got hs net)
    (hprocess : httpdProcessPostData env o hs net = (hs', net')) :
    stream hs' net' = postAnswer env r.uri net.current o.response ∧ hs'.handle = none := by
  simp only [httpdProcessPostData, h.postUri] at hprocess
  rw [postAnswer]
  split at hprocess
  next hhandled =>
    obtain ⟨rfl, rfl⟩ := Prod.mk.inj hprocess
    rw [if_pos (show Handled r.uri from hhandled)]
    refine ⟨h.stream_httpdPostResponse h.unacked _ _, ?_⟩
    cases hcurrent : net.current <;> simp [httpdPostResponse, hcurrent, h.handle]
  next hhandled =>
    obtain ⟨rfl, rfl⟩ := Prod.mk.inj hprocess
    rw [if_neg (show ¬ Handled r.uri from hhandled)]
    refine ⟨?_, h.handle⟩
    rw [stream_of_done h.pending (.inl h.file)]
    simp [Net.queued, h.unacked]

theorem rx (h : Collecting r got hs net) (hrx : httpPostRxpbuf env o hs net p = (hs', net')) :
    Outcome r (got + p.totLen) net.current o hs' net' := by
  have hle : hs.postContentLenLeft ≤ hs.postContentLen := by
    rw [h.left, h.len]
    exact Nat.sub_le _ _
  have hstore : ∀ k, (storeChunk hs p).postContentLenLeft = r.contentLen - k →
      Collecting r k (storeChunk hs p) (net.emit (.postReceive p (chunkOffset hs p))) := fun k hk =>
    { handle := by simpa using h.handle
      file := by simpa using h.file
      hdrs := by
        rw [← h.hdrs, storeChunk]
        split <;> rfl
      postUri := by
        rw [← h.postUri, storeChunk]
        split <;> rfl
      len := by simpa using h.len
      left := hk
      unacked := h.unacked }
  rw [httpPostRxpbuf_eq hle] at hrx
  refine ⟨fun hmore => ?_, fun hlast => ?_⟩
  · have hoffset := chunkOffset_of_le hle (p := p) (by rw [h.left]; omega)
    have hleft : (storeChunk hs p).postContentLenLeft = r.contentLen - (got + p.totLen) := by
      rw [storeChunk_postContentLenLeft, hoffset, h.left]
      exact Nat.sub_sub ..
    rw [if_neg (by omega)] at hrx
    obtain ⟨rfl, rfl⟩ := Prod.mk.inj hrx
    exact hstore _ hleft
  · have hzero : (storeChunk hs p).postContentLenLeft = 0 := by
      rw [storeChunk_postContentLenLeft, h.left]
      split
      · omega
      · rfl
    rw [if_pos hzero] at hrx
    have hcollecting := hstore r.contentLen (by rw [hzero, Nat.sub_self])
    have hfinish := httpHandlePostFinished_finishes hcollecting.file hrx
    refine ⟨hfinish.postContentLenLeft.trans hzero, ?_⟩
    obtain ⟨hs₁, net₁, hprocess⟩ : ∃ hs₁ net₁, httpdProcessPostData env o (storeChunk hs p)
        (net.emit (.postReceive p (chunkOffset hs p))) = (hs₁, net₁) := ⟨_, _, rfl⟩
    obtain ⟨hstream, hhandle⟩ := hcollecting.process hprocess
    simp only [httpHandlePostFinished, hcollecting.file, httpdPostFinished, hprocess] at hrx
    obtain ⟨rfl, rfl⟩ := Prod.mk.inj hrx
    refine ⟨hhandle, Eq.trans ?_ hstream⟩
    split <;> rfl

end Collecting

theorem Collecting.begin {req : Option Pbuf} (hunacked : net.unacked = [])
    (h : httpdPostBegin (awaiting req) net r.uri r.contentLen = (hs', net')) :
    Collecting r 0
      { hs' with postContentLen := r.contentLen, postContentLenLeft := r.contentLen } net' := by
  simp only [httpdPostBegin] at h
  split at h
  · obtain ⟨rfl, rfl⟩ := Prod.mk.inj h
    exact ⟨rfl, rfl, rfl, rfl, rfl, rfl, hunacked⟩
  · obtain ⟨rfl, rfl⟩ := Prod.mk.inj h
    exact ⟨rfl, rfl, rfl, rfl, rfl, rfl, hunacked⟩

theorem outcome_httpPostStart {req : Option Pbuf} {inp : Pbuf} (hunacked : net.unacked = [])
    (hbody : inp.body r.hdrLen = r.body)
    (h : httpPostStart env o (awaiting req) net inp r.uri r.contentLen r.hdrLen = (hs', net')) :
    Outcome r (total (bodyChunks r.body [])) true o hs' net' := by
  obtain ⟨hs₁, net₁, hbegin, hcases⟩ := httpPostStart_cases h
  have hcollecting := Collecting.begin hunacked hbegin
  have hcurrent : net₁.current = true := (assigns_httpdPostBegin hbegin).current
  rw [hbody] at hcases
  obtain ⟨q, hq, hrx⟩ | ⟨hnone, hne, rfl, rfl⟩ := hcases
  · have hrx := hcollecting.rx hrx
    rw [hcurrent, Nat.zero_add] at hrx
    obtain hq | ⟨hnone, -, rfl⟩ := hq
    · rw [hq]
      simpa [bodyChunks] using hrx
    · rw [hnone]
      exact hrx
  · rw [hnone]
    exact ⟨fun _ => hcollecting, fun hle => absurd (Nat.eq_zero_of_le_zero hle) hne⟩

theorem Outcome.left_iff {current : Bool} (h : Outcome r got current o hs net) :
    hs.postContentLenLeft = 0 ↔ r.contentLen ≤ got := by
  constructor
  · intro hzero
    by_contra hlt
    have hleft := (h.more (Nat.lt_of_not_le hlt)).left
    omega
  · exact fun hle => (h.last hle).1

theorem Outcome.finish {current : Bool} (h : Outcome r got current o hs net) (req : Option Pbuf) :
    Assigns [] net ((goOn { hs with req } net).finish env o).net ∧
      (got < r.contentLen → ∃ hs', ((goOn { hs with req } net).finish env o).hs = some hs' ∧
        Collecting r got hs' ((goOn { hs with req } net).finish env o).net) ∧
      (r.contentLen ≤ got → ((goOn { hs with req } net).finish env o).answer =
        postAnswer env r.uri current o.response) := by
  by_cases hend : r.contentLen ≤ got
  · obtain ⟨hzero, hhandle, hstream⟩ := h.last hend
    have hgoOn : goOn { hs with req } net = .send { hs with req } net := if_pos hzero
    rw [hgoOn]
    refine ⟨assigns_httpSend_of_done hzero, fun hlt => absurd hend (Nat.not_le_of_lt hlt),
      fun _ => ?_⟩
    have hsend : (httpSend env o { hs with req } net).answer = stream { hs with req } net :=
      httpSend_answer hhandle
    exact hsend.trans hstream
  · have hgoOn : goOn { hs with req } net = .wait { hs with req } net :=
      if_neg (mt h.left_iff.mp hend)
    rw [hgoOn]
    have hcollecting := h.more (Nat.lt_of_not_le hend)
    exact ⟨.refl net, fun _ => ⟨_, rfl, { hcollecting with }⟩, fun hle => absurd hle hend⟩

end Collect

section Serve

variable {env : Env} {r : PostRequest env} {c : Conn} {done todo : List Segment} {seg : Segment}

structure Serving (r : PostRequest env) (done : List Segment) (c : Conn) : Prop where
  waiting : ∀ qs, r.head = done ++ qs →
    c.hs = some (awaiting (queueOf (done.map Prod.fst))) ∧ c.net.unacked = []
  collecting : ∀ ps todo, done = r.head ++ r.first :: ps → r.rest = ps ++ todo → todo ≠ [] →
    ∃ hs, c.hs = some hs ∧ Collecting r (total (bodyChunks r.body ps)) hs c.net

/-- What a segment does to the connection: `current_connection` is taken with the header and given
up with the body, and the response depends on who has it in between. -/
structure Served (r : PostRequest env) (done : List Segment) (seg : Segment) (todo : List Segment)
    (c c' : Conn) : Prop where
  serving : Serving r (done ++ [seg]) c'
  assigns : Assigns ((if done.length = r.head.length then [true] else []) ++
    if todo = [] then [false] else []) c.net c'.net
  answer : todo = [] → c'.answer =
    postAnswer env r.uri (decide (done.length = r.head.length) || c.net.current) seg.2.response

theorem Serving.start (env : Env) (r : PostRequest env) (current : Bool) :
    Serving r [] { httpAccept with net.current := current } where
  waiting qs _ := ⟨rfl, rfl⟩
  collecting ps todo h := by simp at h

theorem httpRecv_inProgress {o : Outside} {req : Option Pbuf} {p : Pbuf}
    (hsome : c.hs = some (awaiting req))
    (hparse : parseRequest env.settings o.leftover (enqueue req p) = .inProgress) :
    httpRecv env o c (some p) true = { hs := some (awaiting (some (enqueue req p))), net := c.net } := by
  have hqueue : (awaiting req).queue p = enqueue req p := rfl
  have htakeIn : httpTakeIn env o (awaiting req) c.net p =
      httpParseRequest env o (awaiting req) c.net p := rfl
  have hparsed : httpParseRequest env o (awaiting req) c.net p =
      .wait (awaiting (some (enqueue req p))) c.net := by
    rw [httpParseRequest, if_neg (by simp [awaiting, httpStateInit])]
    simp only [hqueue, hparse]
    rfl
  simp only [httpRecv, hsome, htakeIn, hparsed, Intake.finish]

theorem Serving.wait {qs : List Segment} (h : Serving r done c)
    (hhead : r.head = done ++ seg :: qs) (hne : todo ≠ []) :
    Served r done seg todo c (httpStep env c (receive seg)) := by
  obtain ⟨hsome, hunacked⟩ := h.waiting _ hhead
  have hstep : httpStep env c (receive seg) =
      { hs := some (awaiting (some (enqueue (queueOf (done.map Prod.fst)) seg.1))), net := c.net } :=
    httpRecv_inProgress hsome (r.waits _ _ _ hhead)
  have hlen : done.length < r.head.length := by
    rw [hhead, List.length_append, List.length_cons]
    omega
  rw [hstep]
  refine ⟨⟨fun qs' _ => ⟨?_, hunacked⟩, fun ps todo hdone => ?_⟩, ?_, fun h => absurd h hne⟩
  · rw [List.map_append, List.map_singleton, queueOf_concat]
  · have hlen' := congrArg List.length hdone
    simp only [List.length_append, List.length_cons, List.length_nil] at hlen'
    omega
  · rw [if_neg hlen.ne, if_neg hne]
    exact .refl c.net

theorem Outcome.served {hs : HttpState} {net : Net} {current : Bool} (ps : List Segment)
    (req : Option Pbuf) (h : Outcome r (total (bodyChunks r.body ps)) current seg.2 hs net)
    (hdone : done ++ [seg] = r.head ++ r.first :: ps) (hrest : r.rest = ps ++ todo)
    (hcurrent : current = (decide (done.length = r.head.length) || c.net.current))
    (hassigns : Assigns ((if done.length = r.head.length then [true] else []) ++
      if hs.postContentLenLeft = 0 then [false] else []) c.net net) :
    Served r done seg todo c ((goOn { hs with req } net).finish env seg.2) := by
  obtain ⟨hsend, hmore, hlast⟩ := h.finish req
  refine ⟨⟨fun qs hhead => ?_, fun ps' todo' hdone' hrest' hne => ?_⟩, ?_, fun hnil => ?_⟩
  · have hlen := congrArg List.length (hhead.trans (congrArg (· ++ qs) hdone))
    simp only [List.length_append, List.length_cons] at hlen
    omega
  · obtain ⟨-, rfl⟩ := List.cons.inj (List.append_cancel_left (hdone.symm.trans hdone'))
    exact hmore (PostRequest.total_lt hrest' hne)
  · simp only [h.left_iff, PostRequest.complete_iff hrest] at hassigns
    exact hassigns.then_none hsend
  · rw [← hcurrent]
    exact hlast ((PostRequest.complete_iff hrest).mpr hnil)

theorem Serving.header (h : Serving r r.head c) :
    Served r r.head r.first r.rest c (httpStep env c (receive r.first)) := by
  obtain ⟨hsome, hunacked⟩ := h.waiting [] (by simp)
  let req := queueOf (r.head.map Prod.fst)
  obtain ⟨hs, net, hstart⟩ : ∃ hs net, httpPostStart env r.first.2 (awaiting req) c.net
      (enqueue req r.first.1) r.uri r.contentLen r.hdrLen = (hs, net) := ⟨_, _, rfl⟩
  have hstep : httpStep env c (receive r.first) =
      (goOn { hs with req := none } net).finish env r.first.2 :=
    httpRecv_post hsome rfl rfl rfl r.posts hstart
  rw [hstep]
  refine Outcome.served [] none (outcome_httpPostStart hunacked rfl hstart) rfl rfl (by simp) ?_
  have hassigns := assigns_httpPostStart hstart
  rw [if_pos rfl]
  split
  next hzero => rwa [if_pos hzero] at hassigns
  next hmore => rwa [if_neg hmore] at hassigns

theorem Serving.chunk {ps : List Segment} (h : Serving r (r.head ++ r.first :: ps) c)
    (hrest : r.rest = ps ++ seg :: todo) :
    Served r (r.head ++ r.first :: ps) seg todo c (httpStep env c (receive seg)) := by
  obtain ⟨hs, hsome, hcollecting⟩ := h.collecting ps _ rfl hrest (List.cons_ne_nil _ _)
  have hpos : 0 < hs.postContentLenLeft := by
    rw [hcollecting.left]
    exact Nat.sub_pos_of_lt (PostRequest.total_lt hrest (List.cons_ne_nil _ _))
  obtain ⟨hs', net', hrx⟩ : ∃ hs' net',
      httpPostRxpbuf env seg.2 { hs with retries := 0 } c.net seg.1 = (hs', net') := ⟨_, _, rfl⟩
  have hreset : Collecting r (total (bodyChunks r.body ps)) { hs with retries := 0 } c.net :=
    { hcollecting with }
  have houtcome := hreset.rx hrx
  rw [← PostRequest.total_concat] at houtcome
  have hlen : (r.head ++ r.first :: ps).length ≠ r.head.length := by
    rw [List.length_append, List.length_cons]
    omega
  have hstep : httpStep env c (receive seg) = (goOn hs' net').finish env seg.2 :=
    httpRecv_chunk hsome hpos hrx
  rw [hstep]
  refine houtcome.served (ps ++ [seg]) hs'.req (by simp) (by simpa using hrest) ?_ ?_
  · rw [decide_eq_false hlen, Bool.false_or]
  · rw [if_neg hlen, List.nil_append]
    exact assigns_httpPostRxpbuf hrx

theorem Serving.step (h : Serving r done c) (hsegs : r.segments = done ++ seg :: todo) :
    Served r done seg todo c (httpStep env c (receive seg)) := by
  rcases PostRequest.cases_segments hsegs with ⟨qs, hhead⟩ | ⟨rfl, rfl, rfl⟩ | ⟨ps, rfl, hrest⟩
  · refine h.wait hhead ?_
    rintro rfl
    have hlen := congrArg List.length hsegs
    simp [PostRequest.segments, hhead] at hlen
  · exact h.header
  · exact h.chunk hrest

end Serve

theorem answer_of_others {env : Env} {c c' : Conn} {es : List Event} (h : Run (Step env) c es c')
    (hother : es.filter (fun e => !e.isOther) = []) : c'.answer = c.answer := by
  induction h with
  | nil => rfl
  | @cons c _ _ e es hstep _ ih =>
    obtain ⟨-, rfl⟩ := hstep
    cases e with
    | other => exact (ih hother).trans rfl
    | _ => simp [Event.isOther] at hother

namespace PostRequest

variable {env : Env} {r : PostRequest env} {done todo : List Segment} {seg : Segment}

theorem json_eq (h : r.segments = done ++ [seg]) : r.json = seg.2.response := by
  have hlast := congrArg List.getLast? h
  rw [segments, List.getLast?_append_cons, List.getLast?_cons, List.getLast?_concat] at hlast
  rw [json, Option.some.inj hlast]

theorem length_segments (r : PostRequest env) :
    r.segments.length = r.head.length + r.rest.length + 1 := by
  rw [segments, List.length_append, List.length_cons, Nat.add_assoc]

theorem answer_foldl {c : Conn} (h : Serving r done c) (hsegs : r.segments = done ++ todo)
    (hne : todo ≠ []) (hcurrent : r.head.length < done.length → c.net.current = true) :
    ((todo.map receive).foldl (httpStep env) c).answer = r.answer true := by
  induction todo generalizing done c with
  | nil => exact absurd rfl hne
  | cons seg todo ih =>
    have hserved := h.step hsegs
    rw [List.map_cons, List.foldl_cons]
    by_cases hnil : todo = []
    · subst hnil
      have hlen := congrArg List.length hsegs
      rw [length_segments, List.length_append, List.length_singleton] at hlen
      have hself : (decide (done.length = r.head.length) || c.net.current) = true := by
        by_cases hfirst : done.length = r.head.length
        · rw [decide_eq_true hfirst, Bool.true_or]
        · rw [hcurrent (by omega), Bool.or_true]
      rw [List.map_nil, List.foldl_nil, hserved.answer rfl, hself, answer, json_eq hsegs]
    · refine ih hserved.serving (by simpa using hsegs) hnil fun hlt => ?_
      rw [hserved.assigns.current, if_neg hnil, List.append_nil]
      split
      next => rfl
      next hfirst =>
        rw [List.length_append, List.length_singleton] at hlt
        exact hcurrent (by omega)

theorem alone_answer (r : PostRequest env) : r.alone.answer = r.answer true :=
  answer_foldl (Serving.start env r false) (List.nil_append _).symm
    (by simp [segments]) fun h => absurd h (Nat.not_lt_zero _)

end PostRequest

end RadProt.Http
