import RadProt.Http.Posting

namespace RadProt.Http

open RadProt.Lib

/-- What has become of one POST request: the `Content-Length` it declared, the body bytes it was
passed, those of them that were stored, and for each run of `httpd_process_post_data` how many
bytes had been passed and stored by then. -/
structure PostRecord where
  declared : Nat
  received : Nat
  stored : Nat
  runs : List (Nat × Nat)
  deriving DecidableEq

def notice (posts : List PostRecord) (e : Effect) : List PostRecord :=
  match e, posts with
  | .postBegin n, posts => { declared := n, received := 0, stored := 0, runs := [] } :: posts
  | .postReceive p offset, r :: rs =>
    { r with
      received := r.received + p.totLen
      stored := r.stored + if offset.isSome then p.len else 0 } :: rs
  | .processPostData _, r :: rs => { r with runs := r.runs ++ [(r.received, r.stored)] } :: rs
  | _, posts => posts

def posts (log : List Effect) : List PostRecord := log.foldl notice []

def PostRecord.Whole (r : PostRecord) : Prop :=
  r.runs = [] ∨ r.runs = [(r.declared, r.declared)]

@[simp] theorem posts_append (log es : List Effect) :
    posts (log ++ es) = es.foldl notice (posts log) := by
  simp [posts]

theorem notice_nullBytesLeft (ps : List PostRecord) : notice ps .nullBytesLeft = ps := by
  cases ps <;> rfl

theorem notice_alloc (ps : List PostRecord) (m : Memory) : notice ps (.alloc m) = ps := by
  cases ps <;> rfl

theorem notice_free (ps : List PostRecord) (m : Memory) : notice ps (.free m) = ps := by
  cases ps <;> rfl

attribute [simp] notice_nullBytesLeft notice_alloc notice_free

variable {env : Env} {o : Outside} {hs hs' : HttpState} {net net' : Net}

theorem foldl_notice_of_heap {es : List Effect} (h : ∀ e ∈ es, e.Heap) (ps : List PostRecord) :
    es.foldl notice ps = ps := by
  induction es with
  | nil => rfl
  | cons e es ih =>
    have he : notice ps e = ps := by
      cases e with
      | alloc m => exact notice_alloc ps m
      | free m => exact notice_free ps m
      | _ => exact absurd (h _ List.mem_cons_self) id
    rw [List.foldl_cons, he, ih fun e' he' => h e' (List.mem_cons_of_mem _ he')]

theorem Sends.posts_eq (h : Sends hs net hs' net') : posts net'.log = posts net.log := by
  obtain ⟨k, hk⟩ := h.log
  rw [hk, posts_append]
  clear hk
  induction k with
  | zero => rfl
  | succ k ih => simpa [List.replicate_succ] using ih

theorem Finishes.posts_eq (h : Finishes hs net hs' net') :
    posts net'.log = notice (posts net.log) (.processPostData hs.body) := by
  obtain ⟨es, hlog, hheap⟩ := h.log
  rw [hlog, posts_append, List.foldl_cons, foldl_notice_of_heap hheap]

@[simp] theorem httpStateFree_posts (hs : HttpState) (net : Net) :
    posts (httpStateFree hs net).log = posts net.log := by
  simp only [httpStateFree]
  split <;> simp

def PostRecord.Good (orderly : Prop) (r : PostRecord) : Prop :=
  r.runs.length ≤ 1 ∧ (orderly → r.Whole)

def PostRecord.Open (orderly : Prop) (hs : HttpState) (r : PostRecord) : Prop :=
  r.runs = [] ∧ (orderly →
    r.declared = hs.postContentLen ∧
      r.received = hs.postContentLen - hs.postContentLenLeft ∧ r.stored = r.received)

structure Tracks (orderly : Prop) (hs : HttpState) (net : Net) : Prop where
  good : ∀ r ∈ posts net.log, r.Good orderly
  pending : 0 < hs.postContentLenLeft →
    hs.handle = none ∧ hs.file = none ∧ hs.postContentLenLeft ≤ hs.postContentLen ∧
      ∃ r rs, posts net.log = r :: rs ∧ r.Open orderly hs

namespace Tracks

variable {orderly : Prop}

theorem of_done (hgood : ∀ r ∈ posts net.log, r.Good orderly) (hleft : hs.postContentLenLeft = 0) :
    Tracks orderly hs net where
  good := hgood
  pending h := by omega

theorem sends (h : Tracks orderly hs net) (hsends : Sends hs net hs' net') :
    Tracks orderly hs' net' where
  good := by
    rw [hsends.posts_eq]
    exact h.good
  pending hleft := by
    rw [hsends.postContentLenLeft] at hleft
    obtain ⟨hhandle, hfile, hle, r, rs, hposts, hruns, hopen⟩ := h.pending hleft
    refine ⟨by rw [hsends.handle, hhandle], ?_, ?_, r, rs, by rw [hsends.posts_eq, hposts], hruns, ?_⟩
    · simpa [hfile] using hsends.file
    · rwa [hsends.postContentLenLeft, hsends.postContentLen]
    · rwa [hsends.postContentLenLeft, hsends.postContentLen]

end Tracks

theorem Good.notice_process {orderly : Prop} {r : PostRecord} {rs : List PostRecord}
    {content : List (Option UInt8)} (hruns : r.runs = [])
    (hwhole : orderly → r.received = r.declared ∧ r.stored = r.declared)
    (hgood : ∀ r' ∈ rs, r'.Good orderly) :
    ∀ r' ∈ notice (r :: rs) (.processPostData content), r'.Good orderly := by
  intro r' hr'
  rcases List.mem_cons.mp hr' with rfl | hr'
  · refine ⟨by simp [hruns], fun ho => .inr ?_⟩
    obtain ⟨hreceived, hstored⟩ := hwhole ho
    simp [hruns, hreceived, hstored]
  · exact hgood r' hr'

def Pbuf.Fits (p : Pbuf) (left : Nat) : Prop := p.totLen ≤ left ∧ p.totLen = p.len

theorem tracks_httpPostRxpbuf {orderly : Prop} {p : Pbuf} {r : PostRecord} {rs : List PostRecord}
    (hs : HttpState) (hhandle : hs.handle = none) (hfile : hs.file = none)
    (hle : hs.postContentLenLeft ≤ hs.postContentLen)
    (hposts : posts net.log = r :: rs) (hopen : r.Open orderly hs)
    (hgood : ∀ r' ∈ rs, r'.Good orderly)
    (hchunk : orderly → p.Fits hs.postContentLenLeft)
    (h : httpPostRxpbuf env o hs net p = (hs', net')) : Tracks orderly hs' net' := by
  obtain ⟨hruns, hopen⟩ := hopen
  rw [httpPostRxpbuf_eq hle] at h
  split at h
  next hzero =>
    have hfinish := httpHandlePostFinished_finishes (by simpa using hfile) h
    refine .of_done ?_ (by rw [hfinish.postContentLenLeft, hzero])
    rw [hfinish.posts_eq, Net.emit_log, posts_append, hposts]
    refine Good.notice_process hruns (fun ho => ?_) hgood
    obtain ⟨hdeclared, hreceived, hstored⟩ := hopen ho
    obtain ⟨htot, hlen⟩ := hchunk ho
    rw [storeChunk_postContentLenLeft, chunkOffset_of_le hle htot] at hzero
    simp only [chunkOffset_of_le hle htot, Option.isSome_some, if_true] at hzero ⊢
    omega
  next hmore =>
    obtain ⟨rfl, rfl⟩ := by simpa using h
    have hsome : (chunkOffset hs p).isSome = true := by
      by_contra hnone
      exact hmore (by rw [storeChunk_postContentLenLeft, if_neg hnone])
    have hleft : (storeChunk hs p).postContentLenLeft = hs.postContentLenLeft - p.totLen := by
      rw [storeChunk_postContentLenLeft, if_pos hsome]
    let r₁ := { r with received := r.received + p.totLen, stored := r.stored + p.len }
    refine ⟨?_, fun _ => ⟨by simp [hhandle], by simp [hfile], ?_, r₁, rs, ?_, hruns, fun ho => ?_⟩⟩
    · rw [Net.emit_log, posts_append, hposts]
      intro r' hr'
      rcases List.mem_cons.mp hr' with rfl | hr'
      · exact ⟨by simp [hruns], fun _ => .inl hruns⟩
      · exact hgood r' hr'
    · rw [hleft, storeChunk_postContentLen]
      omega
    · rw [Net.emit_log, posts_append, hposts]
      simp [notice, hsome, r₁]
    · obtain ⟨hdeclared, hreceived, hstored⟩ := hopen ho
      obtain ⟨htot, hlen⟩ := hchunk ho
      simp only [hleft, storeChunk_postContentLen, r₁]
      omega

theorem httpdPostBegin_spec {uri : List UInt8} {contentLen : Nat}
    (h : httpdPostBegin hs net uri contentLen = (hs', net')) :
    hs'.handle = hs.handle ∧ hs'.file = hs.file ∧
      posts net'.log =
        { declared := contentLen, received := 0, stored := 0, runs := [] } :: posts net.log := by
  simp only [httpdPostBegin] at h
  split at h
  · obtain ⟨rfl, rfl⟩ := by simpa using h
    exact ⟨rfl, rfl, by simp [notice]⟩
  · obtain ⟨rfl, rfl⟩ := by simpa using h
    exact ⟨rfl, rfl, by simp [notice]⟩

theorem tracks_httpPostStart {orderly : Prop} {inp : Pbuf} {uri : List UInt8}
    {contentLen hdrLen : Nat} (hhandle : hs.handle = none) (hfile : hs.file = none)
    (hgood : ∀ r ∈ posts net.log, r.Good orderly)
    (hchunk : orderly → ∀ q, inp.body hdrLen = some q → q.Fits contentLen)
    (h : httpPostStart env o hs net inp uri contentLen hdrLen = (hs', net')) :
    Tracks orderly hs' net' := by
  obtain ⟨hs₁, net₁, hbegin, hcases⟩ := httpPostStart_cases h
  obtain ⟨hhandle₁, hfile₁, hposts₁⟩ := httpdPostBegin_spec hbegin
  let hs₂ : HttpState := { hs₁ with postContentLen := contentLen, postContentLenLeft := contentLen }
  let r : PostRecord := { declared := contentLen, received := 0, stored := 0, runs := [] }
  have hopen : r.Open orderly hs₂ := ⟨rfl, fun _ => ⟨rfl, by simp [r, hs₂], rfl⟩⟩
  obtain ⟨q, hbody, hrx⟩ | ⟨-, -, rfl, rfl⟩ := hcases
  · have hfits : orderly → q.Fits contentLen := fun ho => by
      obtain hq | ⟨-, -, rfl⟩ := hbody
      · exact hchunk ho q hq
      · exact ⟨Nat.zero_le _, rfl⟩
    exact tracks_httpPostRxpbuf hs₂ (hhandle₁.trans hhandle) (hfile₁.trans hfile) le_rfl hposts₁
      hopen hgood hfits hrx
  · refine ⟨?_, fun _ => ⟨hhandle₁.trans hhandle, hfile₁.trans hfile, le_rfl, r, _, hposts₁, hopen⟩⟩
    rw [hposts₁]
    intro r' hr'
    rcases List.mem_cons.mp hr' with rfl | hr'
    · exact ⟨Nat.zero_le _, fun _ => .inl rfl⟩
    · exact hgood r' hr'

def Intake.All (P : HttpState → Net → Prop) : Intake → Prop
  | .wait hs net => P hs net
  | .send hs net => P hs net ∧ hs.postContentLenLeft = 0
  | .close hs net => P hs net ∧ hs.postContentLenLeft = 0

def ChunksFit (env : Env) (o : Outside) (hs : HttpState) (p : Pbuf) : Prop :=
  (0 < hs.postContentLenLeft → p.Fits hs.postContentLenLeft) ∧
    (hs.postContentLenLeft = 0 → hs.handle = none → hs.file = none →
      ∀ uri contentLen hdrLen q,
        parseRequest env.settings o.leftover (hs.queue p) = .post uri contentLen hdrLen →
        (hs.queue p).body hdrLen = some q → q.Fits contentLen)

theorem all_goOn {P : HttpState → Net → Prop} (h : P hs net) : (goOn hs net).All P := by
  unfold goOn
  split
  next hzero => exact ⟨h, hzero⟩
  next => exact h

theorem TakesIn.tracks {orderly : Prop} {p : Pbuf} {i : Intake} (hi : TakesIn env o hs net p i)
    (h : Tracks orderly hs net) (hfits : orderly → ChunksFit env o hs p) :
    i.All (Tracks orderly) := by
  cases hi with
  | body hpos hrx =>
    obtain ⟨hhandle, hfile, hle, r, rs, hposts, hopen⟩ := h.pending hpos
    have hgood : ∀ r' ∈ rs, r'.Good orderly := fun r' hr' =>
      h.good r' (by rw [hposts]; exact List.mem_cons_of_mem _ hr')
    exact all_goOn (tracks_httpPostRxpbuf { hs with retries := 0 } hhandle hfile hle hposts hopen
      hgood (fun ho => (hfits ho).1 hpos) hrx)
  | serving => exact h
  | ending hzero => exact .of_done h.good hzero
  | inProgress hp => exact .of_done h.good hp.postContentLenLeft
  | refused hp => exact ⟨.of_done h.good hp.postContentLenLeft, hp.postContentLenLeft⟩
  | redirect hp => exact ⟨.of_done h.good hp.postContentLenLeft, hp.postContentLenLeft⟩
  | file hp uri is09 =>
    have hleft : (httpFindFile env hs uri is09).postContentLenLeft = 0 := by
      simp [hp.postContentLenLeft]
    exact ⟨.of_done h.good hleft, hleft⟩
  | post hp hparse hstart =>
    have htracks := tracks_httpPostStart hp.handle hp.file h.good
      (fun ho q hq => (hfits ho).2 hp.postContentLenLeft hp.handle hp.file _ _ _ q hparse hq) hstart
    exact all_goOn ⟨htracks.good, htracks.pending⟩

structure Tracked (orderly : Prop) (c : Conn) : Prop where
  good : ∀ r ∈ posts c.net.log, r.Good orderly
  tracks : ∀ hs, c.hs = some hs → Tracks orderly hs c.net

namespace Tracked

variable {orderly : Prop}

theorem of_tracks (h : Tracks orderly hs net) : Tracked orderly { hs := some hs, net } where
  good := h.good
  tracks _ hsome := by
    cases hsome
    exact h

theorem httpCloseConn (h : Tracks orderly hs net) (hdone : orderly → hs.postContentLenLeft = 0) :
    Tracked orderly (httpCloseConn env o (some hs) net) where
  good := by
    by_cases hleft : hs.postContentLenLeft = 0
    · simpa [Http.httpCloseConn, hleft] using h.good
    · obtain ⟨-, -, -, r, rs, hposts, hruns, -⟩ := h.pending (Nat.pos_of_ne_zero hleft)
      obtain ⟨hs', net', hfinished⟩ : ∃ hs' net', httpdPostFinished env o hs net = (hs', net') :=
        ⟨_, _, rfl⟩
      have hposts' := (httpdPostFinished_finishes hfinished).posts_eq
      have hgood : ∀ r' ∈ rs, r'.Good orderly := fun r' hr' =>
        h.good r' (by rw [hposts]; exact List.mem_cons_of_mem _ hr')
      simp only [Http.httpCloseConn, ne_eq, hleft, not_false_eq_true, if_true, hfinished,
        httpStateFree_posts]
      rw [hposts', hposts]
      exact Good.notice_process hruns (fun ho => absurd (hdone ho) hleft) hgood
  tracks _ hsome := by simp [Http.httpCloseConn] at hsome

theorem httpSend (h : Tracks orderly hs net)
    (hends : orderly → 0 < hs.postContentLenLeft → ¬ Ends env o hs) :
    Tracked orderly (httpSend env o hs net) := by
  obtain ⟨hs', net', hsends, heq⟩ | ⟨hend, hs', net', hsends, heq⟩ := httpSend_cases env o hs net
  · rw [heq]
    exact .of_tracks (h.sends hsends)
  · rw [heq]
    refine httpCloseConn (h.sends hsends) fun ho => ?_
    rw [hsends.postContentLenLeft]
    by_contra hleft
    exact hends ho (Nat.pos_of_ne_zero hleft) hend

theorem finish {i : Intake} (h : i.All (Tracks orderly)) : Tracked orderly (i.finish env o) := by
  cases i with
  | wait hs net => exact .of_tracks h
  | send hs net => exact httpSend h.1 fun _ hpos => absurd h.2 (by omega)
  | close hs net => exact httpCloseConn h.1 fun _ => h.2

end Tracked

/-- No callback interrupts a body: the chunks fit, and the connection is neither closed nor runs
out of things to send while bytes of the body are missing. -/
def Orderly (env : Env) (c : Conn) (e : Event) : Prop :=
  ∀ hs, c.hs = some hs →
    match e with
    | .recv (some p) true o => ChunksFit env o hs p
    | .recv _ _ _ => hs.postContentLenLeft = 0
    | .sent _ o => 0 < hs.postContentLenLeft → ¬ Ends env o { hs with retries := 0 }
    | .poll _ => 0 < hs.postContentLenLeft → hs.retries + 1 ≠ httpdMaxRetries
    | .err => True
    | .other => True

theorem Tracks.congr {orderly : Prop} (h : Tracks orderly hs net) (retries : Nat) (net' : Net)
    (log : net'.log = net.log) : Tracks orderly { hs with retries } net' where
  good := by
    rw [log]
    exact h.good
  pending hpos := by
    rw [log]
    exact h.pending hpos

theorem Tracked.step {orderly : Prop} {c c' : Conn} {e : Event} (h : Tracked orderly c)
    (hstep : Step env c e c') (horderly : orderly → Orderly env c e) : Tracked orderly c' := by
  obtain ⟨-, rfl⟩ := hstep
  obtain ⟨hs, net⟩ := c
  cases hs with
  | none =>
    have hclosed : ∀ net', net'.log = net.log → Tracked orderly { hs := none, net := net' } :=
      fun net' hlog => ⟨by rw [hlog]; exact h.good, by simp⟩
    cases e with
    | recv p ok o => cases p <;> cases ok <;> exact hclosed _ rfl
    | sent len o => exact hclosed _ rfl
    | poll o => exact hclosed _ rfl
    | err => exact hclosed _ rfl
    | other => exact hclosed _ rfl
  | some hs =>
    have htracks := h.tracks hs rfl
    have hord := fun ho => horderly ho hs rfl
    cases e with
    | recv p ok o =>
      cases p with
      | none => exact .httpCloseConn htracks hord
      | some p =>
        cases ok with
        | false => exact .httpCloseConn htracks hord
        | true => exact .finish ((httpTakeIn_takesIn env o hs net p).tracks htracks hord)
    | sent len o =>
      exact .httpSend (htracks.congr 0 { net with unacked := ack len net.unacked } rfl) hord
    | poll o =>
      have hpolled : Tracks orderly { hs with retries := hs.retries + 1 } net :=
        htracks.congr _ net rfl
      simp only [httpStep, httpPoll]
      split
      next hmax =>
        refine .httpCloseConn hpolled fun ho => ?_
        by_contra hleft
        exact hord ho (Nat.pos_of_ne_zero hleft) hmax
      next =>
        split
        next hhandle =>
          refine .httpSend hpolled fun _ hpos => ?_
          simp [(htracks.pending hpos).1] at hhandle
        next => exact .of_tracks hpolled
    | err =>
      refine ⟨?_, fun _ hsome => by simp [httpStep, httpErr] at hsome⟩
      simpa [httpStep, httpErr] using htracks.good
    | other =>
      exact .of_tracks (htracks.congr hs.retries { net with current := false } rfl)

theorem tracked_httpAccept (orderly : Prop) : Tracked orderly httpAccept where
  good := by simp [httpAccept, posts]
  tracks hs hsome := by
    cases hsome
    exact .of_done (by simp [httpAccept, posts]) rfl

theorem post_runs_at_most_once {c : Conn} {es : List Event} (h : Run (Step env) httpAccept es c) :
    ∀ r ∈ posts c.net.log, r.runs.length ≤ 1 := by
  have htracked : Tracked False c :=
    h.invariant (Tracked False) (fun _ _ _ hs hstep => hs.step hstep False.elim)
      (tracked_httpAccept False)
  exact fun r hr => (htracked.good r hr).1

/-- Where no callback interrupts a body, a request runs its handler once with its whole body
received and stored, or not at all. -/
theorem post_runs_whole {c : Conn} {es : List Event}
    (h : Run (Guarded (Orderly env) (Step env)) httpAccept es c) :
    ∀ r ∈ posts c.net.log, r.Whole := by
  have htracked : Tracked True c :=
    h.invariant (Tracked True) (fun _ _ _ hs hstep => hs.step hstep.2 fun _ => hstep.1)
      (tracked_httpAccept True)
  exact fun r hr => (htracked.good r hr).2 trivial

section Sample

def sampleSettings : ServerSettings where
  hostname := ascii "radprot"
  domainName := ascii "lan"
  ipAddress := 0x0100a8c0
  initialConfig := false
  ip4addrAton _ := none

def sampleEnv : Env where
  settings := sampleSettings
  fsOpen _ := none
  nullBytesLeft := 182
  lwipVersionString := ascii "2.2.0"

def sampleOutside (sndbuf : Nat) : Outside where
  sndbuf
  maxWriteLen := 2920
  maxWriteLen_pos := by decide
  response := ascii "\x7b\x7d"
  leftover := ⟨0, []⟩

def sampleRequest (body : List UInt8) : Pbuf where
  payload :=
    ascii "POST /restart.cgi HTTP/1.1\r\nHost: radprot\r\nContent-Length: 3\r\n\r\n" ++ body
  next := []

/-- The remote side closes after one byte of three, and the handler runs. -/
theorem post_interrupted :
    ∃ c, Run (Step sampleEnv) httpAccept
        [.recv (some (sampleRequest [97])) true (sampleOutside 11680),
          .recv none true (sampleOutside 11680)] c ∧
      posts c.net.log = [{ declared := 3, received := 1, stored := 1, runs := [(1, 1)] }] ∧
      ¬ ∀ r ∈ posts c.net.log, r.Whole := by
  refine ⟨_, .cons ⟨trivial, rfl⟩ (.cons ⟨trivial, rfl⟩ .nil), by decide, fun h => ?_⟩
  have hwhole := h { declared := 3, received := 1, stored := 1, runs := [(1, 1)] } (by decide)
  exact absurd hwhole (by simp [PostRecord.Whole])

theorem post_uninterrupted :
    ∃ c, Run (Guarded (Orderly sampleEnv) (Step sampleEnv)) httpAccept
        [.recv (some (sampleRequest [97, 98, 99])) true (sampleOutside 11680)] c ∧
      ∀ r ∈ posts c.net.log, r.Whole := by
  have hparse : parseRequest sampleSettings ⟨0, []⟩ (sampleRequest [97, 98, 99]) =
      .post (ascii "/restart.cgi") 3 64 := by decide
  have hfits : ChunksFit sampleEnv (sampleOutside 11680) httpStateInit (sampleRequest [97, 98, 99]) := by
    refine ⟨fun hpos => absurd hpos (by decide), fun _ _ _ uri contentLen hdrLen q hpost hbody => ?_⟩
    obtain ⟨-, rfl, rfl⟩ := Parsed.post.inj (hparse.symm.trans hpost)
    obtain rfl := Option.some.inj (hbody.symm.trans
      (show (sampleRequest [97, 98, 99]).body 64 = some ⟨[97, 98, 99], []⟩ by decide))
    exact ⟨by decide, by decide⟩
  have horderly : Orderly sampleEnv httpAccept
      (.recv (some (sampleRequest [97, 98, 99])) true (sampleOutside 11680)) := by
    rintro hs ⟨⟩
    exact hfits
  have hrun : Run (Guarded (Orderly sampleEnv) (Step sampleEnv)) httpAccept
      [.recv (some (sampleRequest [97, 98, 99])) true (sampleOutside 11680)]
      (httpStep sampleEnv httpAccept
        (.recv (some (sampleRequest [97, 98, 99])) true (sampleOutside 11680))) :=
    .single ⟨horderly, trivial, rfl⟩
  exact ⟨_, hrun, post_runs_whole hrun⟩

end Sample

end RadProt.Http
