import RadProt.Http.Server
import RadProt.Lib.Ledger

namespace RadProt.Http

open RadProt.Lib

universe u

def Effect.use : Effect → Option (Use Memory)
  | .alloc m => some (.acquire m)
  | .free m => some (.release m)
  | _ => none

def uses (log : List Effect) : List (Use Memory) := log.filterMap Effect.use

@[simp] theorem uses_append (log es : List Effect) : uses (log ++ es) = uses log ++ uses es :=
  List.filterMap_append

theorem uses_emit (net : Net) (e : Effect) :
    uses (net.emit e).log = uses net.log ++ e.use.toList := by
  rw [Net.emit_log, uses_append]
  cases e <;> rfl

namespace HttpState

def contents (hs : HttpState) : Set Memory := {m | ∃ c ∈ hs.postContent, m = .content c.id}

def responses (hs : HttpState) : Set Memory := {m | ∃ id ∈ hs.postResponseBuf, m = .response id}

def owned (hs : HttpState) : Set Memory :=
  if 0 < hs.postContentLenLeft then hs.contents else hs.responses

def HasHandler (hs : HttpState) : Prop :=
  (postHandlers.any fun name => (ascii name).isPrefixOf (cString hs.postUri)) = true

end HttpState

def EndsBody (env : Env) (hs : HttpState) : Event → Prop
  | .recv (some p) true _ => 0 < hs.postContentLenLeft ∧ hs.postContentLenLeft ≤ p.totLen
  | .recv _ _ _ => 0 < hs.postContentLenLeft
  | .sent _ o => 0 < hs.postContentLenLeft ∧ Ends env o { hs with retries := 0 }
  | .poll _ => 0 < hs.postContentLenLeft ∧ hs.retries + 1 = httpdMaxRetries
  | .err => False
  | .other => False

def BeginsEmpty (env : Env) (hs : HttpState) : Event → Prop
  | .recv (some p) true o => hs.postContentLenLeft = 0 ∧ hs.handle = none ∧ hs.file = none ∧
    ∃ uri hdrLen, parseRequest env.settings o.leftover (hs.queue p) = .post uri 0 hdrLen
  | _ => False

/-- The callback does not take the way past a buffer: an error in the middle of a body, a handler
that answers when another connection is the current one, an empty body after another one. -/
structure Regular (env : Env) (c : Conn) (e : Event) : Prop where
  err : ∀ hs, c.hs = some hs → e = .err → hs.postContentLenLeft = 0
  current : ∀ hs, c.hs = some hs → EndsBody env hs e → hs.HasHandler → c.net.current = true
  empty : ∀ hs, c.hs = some hs → BeginsEmpty env hs e → hs.postContent = none

structure Net.Accounts (net : Net) (held : Set Memory) : Prop where
  ledger : Ledger (uses net.log) held
  once : ∀ m, (uses net.log).count (.acquire m) ≤ 1
  fresh : ∀ n, net.nextId ≤ n →
    .acquire (.content n) ∉ uses net.log ∧ .acquire (.response n) ∉ uses net.log

namespace Net.Accounts

variable {net net' : Net} {held : Set Memory} {m : Memory} {e : Effect}

theorem congr (h : net.Accounts held) (hlog : uses net'.log = uses net.log)
    (hnext : net'.nextId = net.nextId) : net'.Accounts held where
  ledger := by
    rw [hlog]
    exact h.ledger
  once := by
    rw [hlog]
    exact h.once
  fresh := by
    rw [hlog, hnext]
    exact h.fresh

theorem emit (h : net.Accounts held) (he : e.use = none) : (net.emit e).Accounts held := by
  refine h.congr ?_ rfl
  rw [uses_emit, he]
  exact List.append_nil _

theorem alloc (h : net.Accounts held) (hm : m = .content net.nextId ∨ m = .response net.nextId) :
    ({ net with nextId := net.nextId + 1 }.emit (.alloc m)).Accounts (insert m held) := by
  have hnew : .acquire m ∉ uses net.log := by
    rcases hm with rfl | rfl
    · exact (h.fresh _ (Nat.le_refl _)).1
    · exact (h.fresh _ (Nat.le_refl _)).2
  have hlog : uses ({ net with nextId := net.nextId + 1 }.emit (.alloc m)).log =
      uses net.log ++ [.acquire m] := uses_emit _ _
  refine ⟨?_, fun k => ?_, fun n hn => ?_⟩
  · rw [hlog]
    exact h.ledger.acquire fun hheld => hnew (h.ledger.mem_acquire hheld)
  · rw [hlog, List.count_append]
    by_cases hk : k = m
    · subst hk
      simp [List.count_eq_zero_of_not_mem hnew]
    · have := h.once k
      simpa [Ne.symm hk] using this
  · have hn : net.nextId + 1 ≤ n := hn
    obtain ⟨hcontent, hresponse⟩ := h.fresh n (by omega)
    rw [hlog, List.mem_append, List.mem_append, List.mem_singleton, List.mem_singleton]
    rcases hm with rfl | rfl
    · refine ⟨fun hmem => ?_, by simpa using hresponse⟩
      obtain hmem | heq := hmem
      · exact hcontent hmem
      · obtain rfl : n = net.nextId := by simpa using heq
        omega
    · refine ⟨by simpa using hcontent, fun hmem => ?_⟩
      obtain hmem | heq := hmem
      · exact hresponse hmem
      · obtain rfl : n = net.nextId := by simpa using heq
        omega

theorem free (h : net.Accounts held) (hm : m ∈ held) :
    (net.emit (.free m)).Accounts (held \ {m}) := by
  have hlog : uses (net.emit (.free m)).log = uses net.log ++ [.release m] := uses_emit _ _
  refine ⟨?_, fun k => ?_, fun n hn => ?_⟩
  · rw [hlog]
    exact h.ledger.release hm
  · rw [hlog, List.count_append]
    simpa using h.once k
  · rw [hlog]
    simpa using h.fresh n hn

end Net.Accounts

structure Buffers (hs : HttpState) (net : Net) : Prop where
  accounts : net.Accounts hs.owned
  pending : 0 < hs.postContentLenLeft → hs.handle = none ∧ hs.file = none ∧
    hs.postResponseBuf = none ∧ hs.postContentLenLeft ≤ hs.postContentLen
  response : hs.postResponseBuf ≠ none → hs.file ≠ none

variable {env : Env} {o : Outside} {hs hs' : HttpState} {net net' : Net} {p : Pbuf}

namespace HttpState

theorem responses_of_none (h : hs.postResponseBuf = none) : hs.responses = ∅ := by
  simp [responses, h]

theorem responses_of_some {id : Nat} (h : hs.postResponseBuf = some id) :
    hs.responses = {.response id} := by
  ext m
  simp [responses, h]

theorem contents_of_none (h : hs.postContent = none) : hs.contents = ∅ := by
  simp [contents, h]

theorem contents_of_some {c : Content} (h : hs.postContent = some c) :
    hs.contents = {.content c.id} := by
  ext m
  simp [contents, h]

theorem owned_of_pending (h : 0 < hs.postContentLenLeft) : hs.owned = hs.contents := if_pos h

theorem owned_of_done (h : hs.postContentLenLeft = 0) : hs.owned = hs.responses :=
  if_neg (by omega)

end HttpState

theorem httpdPostResponse_current (env : Env) (hs : HttpState) (id : Nat) (body : List UInt8)
    (h : net.current = true) :
    (httpdPostResponse env hs net id body).postResponseBuf = some id ∧
      (httpdPostResponse env hs net id body).file = some ⟨.response id, body⟩ := by
  simp only [httpdPostResponse, h, if_true]
  exact ⟨trivial, trivial⟩

theorem accounts_httpdProcessPostData (h : httpdProcessPostData env o hs net = (hs', net'))
    (haccounts : net.Accounts hs.contents) (hresponse : hs.postResponseBuf = none)
    (hcurrent : hs.HasHandler → net.current = true) :
    net'.Accounts (hs.contents ∪ hs'.responses) ∧ hs'.postContent = hs.postContent ∧
      (hs'.postResponseBuf ≠ none → hs'.file ≠ none) := by
  have hemit := haccounts.emit (show (Effect.processPostData hs.body).use = none from rfl)
  simp only [httpdProcessPostData] at h
  split at h
  next hhandler =>
    obtain ⟨rfl, rfl⟩ := Prod.mk.inj h
    have hnow : (net.emit (.processPostData hs.body)).current = true := hcurrent hhandler
    obtain ⟨hbuf, hfile⟩ := httpdPostResponse_current env hs net.nextId o.response hnow
    refine ⟨?_, (httpdPostResponse_post ..).1, fun _ => ?_⟩
    · change Net.Accounts _ (hs.contents ∪ HttpState.responses (httpdPostResponse env hs
        (net.emit (.processPostData hs.body)) net.nextId o.response))
      rw [HttpState.responses_of_some hbuf, Set.union_singleton]
      exact hemit.alloc (.inr rfl)
    · exact fun hnone => Option.some_ne_none _ (hfile.symm.trans hnone)
  next =>
    obtain ⟨rfl, rfl⟩ := Prod.mk.inj h
    rw [HttpState.responses_of_none hresponse, Set.union_empty]
    exact ⟨hemit, rfl, fun hne => absurd hresponse hne⟩

theorem accounts_httpdPostFinished (h : httpdPostFinished env o hs net = (hs', net'))
    (haccounts : net.Accounts hs.contents) (hresponse : hs.postResponseBuf = none)
    (hcurrent : hs.HasHandler → net.current = true) :
    net'.Accounts hs'.responses ∧ (hs'.postResponseBuf ≠ none → hs'.file ≠ none) := by
  obtain ⟨hs₁, net₁, hprocess⟩ : ∃ hs₁ net₁, httpdProcessPostData env o hs net = (hs₁, net₁) :=
    ⟨_, _, rfl⟩
  obtain ⟨haccounts₁, hcontent, hfile⟩ :=
    accounts_httpdProcessPostData hprocess haccounts hresponse hcurrent
  simp only [httpdPostFinished, hprocess] at h
  obtain ⟨rfl, rfl⟩ := Prod.mk.inj h
  refine ⟨?_, hfile⟩
  cases hpost : hs.postContent with
  | none =>
    rw [hpost] at hcontent
    rw [HttpState.contents_of_none hpost, Set.empty_union] at haccounts₁
    simp only [hcontent]
    exact haccounts₁.congr rfl rfl
  | some c =>
    rw [hpost] at hcontent
    rw [HttpState.contents_of_some hpost, Set.singleton_union] at haccounts₁
    have hother : Memory.content c.id ∉ hs₁.responses := by
      rintro ⟨id, -, hid⟩
      cases hid
    have hfreed := haccounts₁.free (Set.mem_insert _ _)
    rw [Set.insert_sdiff_of_mem _ (Set.mem_singleton _), Set.sdiff_singleton_eq_self hother] at hfreed
    simp only [hcontent]
    exact hfreed.congr rfl rfl

namespace Buffers

theorem of_done (haccounts : net.Accounts hs.responses) (hleft : hs.postContentLenLeft = 0)
    (hresponse : hs.postResponseBuf ≠ none → hs.file ≠ none) : Buffers hs net where
  accounts := by
    rw [HttpState.owned_of_done hleft]
    exact haccounts
  pending hpos := by omega
  response := hresponse

theorem of_empty (haccounts : net.Accounts ∅) (hleft : hs.postContentLenLeft = 0)
    (hresponse : hs.postResponseBuf = none) : Buffers hs net := by
  refine of_done ?_ hleft fun hne => absurd hresponse hne
  rwa [HttpState.responses_of_none hresponse]

theorem empty (h : Buffers hs net) (hleft : hs.postContentLenLeft = 0) (hfile : hs.file = none) :
    net.Accounts ∅ ∧ hs.postResponseBuf = none := by
  have hresponse : hs.postResponseBuf = none := by
    by_contra hne
    exact h.response hne hfile
  have haccounts := h.accounts
  rw [HttpState.owned_of_done hleft, HttpState.responses_of_none hresponse] at haccounts
  exact ⟨haccounts, hresponse⟩

theorem sends (h : Buffers hs net) (hsends : Sends hs net hs' net') : Buffers hs' net' where
  accounts := by
    have howned : hs'.owned = hs.owned := by
      simp only [HttpState.owned, HttpState.contents, HttpState.responses, hsends.postContent,
        hsends.postContentLenLeft, hsends.postResponseBuf]
    rw [howned]
    refine h.accounts.congr ?_ hsends.nextId
    obtain ⟨k, hk⟩ := hsends.log
    have hnone : uses (.replicate k .nullBytesLeft) = [] := by
      refine List.filterMap_eq_nil_iff.mpr fun e he => ?_
      rw [List.eq_of_mem_replicate he]
      rfl
    rw [hk, uses_append, hnone, List.append_nil]
  pending hpos := by
    rw [hsends.postContentLenLeft] at hpos
    obtain ⟨hhandle, hfile, hresponse, hle⟩ := h.pending hpos
    refine ⟨hsends.handle.trans hhandle, ?_, hsends.postResponseBuf.trans hresponse, ?_⟩
    · simpa [hfile] using hsends.file
    · rwa [hsends.postContentLenLeft, hsends.postContentLen]
  response hne := by
    rw [hsends.postResponseBuf] at hne
    intro hnone
    have hfile := hsends.file
    rw [hnone, Option.map_none, eq_comm, Option.map_eq_none_iff] at hfile
    exact h.response hne hfile

theorem req (h : Buffers hs net) (req : Option Pbuf) : Buffers { hs with req } net :=
  ⟨h.accounts, h.pending, h.response⟩

theorem congr (h : Buffers hs net) (retries : Nat) (unacked : List Range) (current : Bool) :
    Buffers { hs with retries } { net with unacked, current } where
  accounts := h.accounts.congr rfl rfl
  pending := h.pending
  response := h.response

end Buffers

theorem accounts_httpStateFree (h : net.Accounts hs.responses) :
    (httpStateFree hs net).Accounts ∅ := by
  simp only [httpStateFree]
  split
  next id hid =>
    rw [HttpState.responses_of_some hid] at h
    simpa using h.free (Set.mem_singleton _)
  next hnone => rwa [HttpState.responses_of_none hnone] at h

theorem Buffers.httpCloseConn (h : Buffers hs net)
    (hcurrent : 0 < hs.postContentLenLeft → hs.HasHandler → net.current = true) :
    (httpCloseConn env o (some hs) net).net.Accounts ∅ := by
  simp only [Http.httpCloseConn]
  split
  next hpos =>
    have hpos := Nat.pos_of_ne_zero hpos
    have haccounts := h.accounts
    rw [HttpState.owned_of_pending hpos] at haccounts
    exact accounts_httpStateFree
      (accounts_httpdPostFinished rfl haccounts (h.pending hpos).2.2.1 (hcurrent hpos)).1
  next hzero =>
    have haccounts := h.accounts
    rw [HttpState.owned_of_done (not_not.mp hzero)] at haccounts
    exact accounts_httpStateFree haccounts

theorem storeChunk_contents : (storeChunk hs p).contents = hs.contents := by
  unfold storeChunk
  split
  next =>
    ext m
    simp [HttpState.contents]
  next => rfl

@[simp] theorem storeChunk_postResponseBuf :
    (storeChunk hs p).postResponseBuf = hs.postResponseBuf := by
  unfold storeChunk; split <;> rfl

@[simp] theorem storeChunk_postUri : (storeChunk hs p).postUri = hs.postUri := by
  unfold storeChunk; split <;> rfl

theorem storeChunk_left_eq_zero_iff
    (hle : hs.postContentLenLeft ≤ hs.postContentLen) :
    (storeChunk hs p).postContentLenLeft = 0 ↔ hs.postContentLenLeft ≤ p.totLen := by
  rw [storeChunk_postContentLenLeft]
  unfold chunkOffset
  by_cases hfit : p.totLen ≤ hs.postContentLen - (hs.postContentLenLeft - p.totLen)
  · simp [hfit]
    omega
  · simp [hfit]
    omega

theorem buffers_httpPostRxpbuf (hhandle : hs.handle = none) (hfile : hs.file = none)
    (hresponse : hs.postResponseBuf = none) (hle : hs.postContentLenLeft ≤ hs.postContentLen)
    (haccounts : net.Accounts hs.contents)
    (hcurrent : hs.postContentLenLeft ≤ p.totLen → hs.HasHandler → net.current = true)
    (h : httpPostRxpbuf env o hs net p = (hs', net')) : Buffers hs' net' := by
  have hemit := haccounts.emit
    (show (Effect.postReceive p (chunkOffset hs p)).use = none from rfl)
  rw [← storeChunk_contents (p := p)] at hemit
  rw [httpPostRxpbuf_eq hle] at h
  split at h
  next hzero =>
    have hlast := (storeChunk_left_eq_zero_iff hle).mp hzero
    have hfinishes := httpHandlePostFinished_finishes (by simpa using hfile) h
    simp only [httpHandlePostFinished, storeChunk_file, hfile] at h
    obtain ⟨haccounts', hfile'⟩ := accounts_httpdPostFinished h hemit (by simpa using hresponse)
      (fun hhandler => hcurrent hlast (by simpa [HttpState.HasHandler] using hhandler))
    exact .of_done haccounts' (hfinishes.postContentLenLeft.trans hzero) hfile'
  next hmore =>
    obtain ⟨rfl, rfl⟩ := Prod.mk.inj h
    have hpos := Nat.pos_of_ne_zero hmore
    refine ⟨?_, fun _ => ⟨by simpa using hhandle, by simpa using hfile, by simpa using hresponse, ?_⟩,
      fun hne => absurd (by simpa using hresponse) hne⟩
    · rw [HttpState.owned_of_pending hpos]
      exact hemit
    · rw [storeChunk_postContentLen, storeChunk_postContentLenLeft]
      split <;> omega

section Files

variable (env : Env) (hs : HttpState)

@[simp] theorem getHttpHeaders_postResponseBuf (uri : Option (List UInt8)) :
    (getHttpHeaders env hs uri).postResponseBuf = hs.postResponseBuf := by
  cases uri <;> simp only [getHttpHeaders]

@[simp] theorem httpInitFile_postResponseBuf (file : Option FsFile) (is09 : Bool)
    (uri : Option (List UInt8)) :
    (httpInitFile env hs file is09 uri).postResponseBuf = hs.postResponseBuf := by
  cases file with
  | none => simp [httpInitFile]
  | some f =>
    simp only [httpInitFile]
    split <;> simp

@[simp] theorem httpFindFile_postResponseBuf (uri : List UInt8) (is09 : Bool) :
    (httpFindFile env hs uri is09).postResponseBuf = hs.postResponseBuf := by
  simp only [httpFindFile]
  split
  · simp
  · split <;> simp

end Files

theorem accounts_httpdPostBegin {uri : List UInt8} {contentLen : Nat}
    (h : httpdPostBegin hs net uri contentLen = (hs', net')) (haccounts : net.Accounts ∅)
    (hempty : contentLen = 0 → hs.postContent = none) :
    net'.Accounts hs'.contents ∧ net'.current = true ∧ hs'.handle = hs.handle ∧
      hs'.file = hs.file ∧ hs'.postResponseBuf = hs.postResponseBuf := by
  have hcurrent : { net with current := true }.Accounts ∅ := haccounts.congr rfl rfl
  have hbegin := hcurrent.emit (show (Effect.postBegin contentLen).use = none from rfl)
  simp only [httpdPostBegin] at h
  split at h
  next hpos =>
    obtain ⟨rfl, rfl⟩ := Prod.mk.inj h
    refine ⟨?_, rfl, rfl, rfl, rfl⟩
    rw [HttpState.contents_of_some rfl]
    simpa using hbegin.alloc (.inl rfl)
  next hzero =>
    obtain ⟨rfl, rfl⟩ := Prod.mk.inj h
    refine ⟨?_, rfl, rfl, rfl, rfl⟩
    have hnone : HttpState.contents { hs with postUri := strncpy 128 uri } = ∅ :=
      HttpState.contents_of_none (hempty (by omega))
    rw [hnone]
    exact hbegin

theorem buffers_httpPostStart {inp : Pbuf} {uri : List UInt8} {contentLen hdrLen : Nat}
    (hhandle : hs.handle = none) (hfile : hs.file = none) (hresponse : hs.postResponseBuf = none)
    (haccounts : net.Accounts ∅) (hempty : contentLen = 0 → hs.postContent = none)
    (h : httpPostStart env o hs net inp uri contentLen hdrLen = (hs', net')) : Buffers hs' net' := by
  obtain ⟨hs₁, net₁, hbegin, hcases⟩ := httpPostStart_cases h
  obtain ⟨haccounts₁, hcurrent₁, hhandle₁, hfile₁, hresponse₁⟩ :=
    accounts_httpdPostBegin hbegin haccounts hempty
  obtain ⟨q, -, hrx⟩ | ⟨-, hne, rfl, rfl⟩ := hcases
  · let hs₂ : HttpState :=
      { hs₁ with postContentLen := contentLen, postContentLenLeft := contentLen }
    have hle : hs₂.postContentLenLeft ≤ hs₂.postContentLen := Nat.le_refl _
    have hhandle₂ : hs₂.handle = none := hhandle₁.trans hhandle
    exact buffers_httpPostRxpbuf hhandle₂ (hfile₁.trans hfile) (hresponse₁.trans hresponse) hle
      haccounts₁ (fun _ _ => hcurrent₁) hrx
  · refine ⟨?_, fun _ => ⟨hhandle₁.trans hhandle, hfile₁.trans hfile,
      hresponse₁.trans hresponse, Nat.le_refl _⟩, fun hsome => ?_⟩
    · rw [HttpState.owned_of_pending (Nat.pos_of_ne_zero hne)]
      exact haccounts₁
    · exact absurd (hresponse₁.trans hresponse) hsome

theorem TakesIn.buffers {i : Intake} (hi : TakesIn env o hs net p i) (h : Buffers hs net)
    (hcurrent : 0 < hs.postContentLenLeft → hs.postContentLenLeft ≤ p.totLen → hs.HasHandler →
      net.current = true)
    (hempty : hs.postContentLenLeft = 0 → hs.handle = none → hs.file = none → ∀ uri hdrLen,
      parseRequest env.settings o.leftover (hs.queue p) = .post uri 0 hdrLen →
        hs.postContent = none) :
    i.All Buffers := by
  cases hi with
  | body hpos hrx =>
    obtain ⟨hhandle, hfile, hresponse, hle⟩ := h.pending hpos
    have haccounts := h.accounts
    rw [HttpState.owned_of_pending hpos] at haccounts
    let hs₀ : HttpState := { hs with retries := 0 }
    have hhandle₀ : hs₀.handle = none := hhandle
    exact all_goOn
      (buffers_httpPostRxpbuf hhandle₀ hfile hresponse hle haccounts (hcurrent hpos) hrx)
  | serving => exact h
  | ending => exact h.req none
  | inProgress => exact h.req _
  | refused hp => exact ⟨h.req none, hp.postContentLenLeft⟩
  | redirect hp =>
    obtain ⟨haccounts, hresponse⟩ := h.empty hp.postContentLenLeft hp.file
    exact ⟨.of_empty haccounts hp.postContentLenLeft hresponse, hp.postContentLenLeft⟩
  | file hp uri is09 =>
    obtain ⟨haccounts, hresponse⟩ := h.empty hp.postContentLenLeft hp.file
    have hleft : (httpFindFile env hs uri is09).postContentLenLeft = 0 := by
      simp [hp.postContentLenLeft]
    exact ⟨.of_empty haccounts hleft (by simpa using hresponse), hleft⟩
  | @post uri contentLen hdrLen hs₁ net₁ hp hparse hstart =>
    obtain ⟨haccounts, hresponse⟩ := h.empty hp.postContentLenLeft hp.file
    have hbuffers := buffers_httpPostStart hp.handle hp.file hresponse haccounts
      (fun hlen => hempty hp.postContentLenLeft hp.handle hp.file uri hdrLen (hlen ▸ hparse)) hstart
    exact all_goOn (hbuffers.req none)

structure Buffered (c : Conn) : Prop where
  live : ∀ hs, c.hs = some hs → Buffers hs c.net
  closed : c.hs = none → c.net.Accounts ∅

namespace Buffered

theorem of_buffers (h : Buffers hs net) : Buffered { hs := some hs, net } where
  live _ hsome := by
    cases hsome
    exact h
  closed hnone := by cases hnone

theorem of_closed {c : Conn} (h : c.net.Accounts ∅) (hnone : c.hs = none) : Buffered c where
  live _ hsome := by cases hnone.symm.trans hsome
  closed _ := h

theorem httpCloseConn (h : Buffers hs net)
    (hcurrent : 0 < hs.postContentLenLeft → hs.HasHandler → net.current = true) :
    Buffered (httpCloseConn env o (some hs) net) :=
  of_closed (h.httpCloseConn hcurrent) rfl

theorem httpSend (h : Buffers hs net)
    (hcurrent : 0 < hs.postContentLenLeft → Ends env o hs → hs.HasHandler → net.current = true) :
    Buffered (httpSend env o hs net) := by
  obtain ⟨hs', net', hsends, heq⟩ | ⟨hend, hs', net', hsends, heq⟩ := httpSend_cases env o hs net
  · rw [heq]
    exact of_buffers (h.sends hsends)
  · rw [heq]
    refine httpCloseConn (h.sends hsends) fun hpos hhandler => ?_
    rw [hsends.postContentLenLeft] at hpos
    rw [HttpState.HasHandler, hsends.postUri] at hhandler
    exact hsends.current.trans (hcurrent hpos hend hhandler)

theorem finish {i : Intake} (h : i.All Buffers) : Buffered (i.finish env o) := by
  cases i with
  | wait hs net => exact of_buffers h
  | send hs net => exact httpSend h.1 fun hpos => absurd h.2 (by omega)
  | close hs net => exact httpCloseConn h.1 fun hpos => absurd h.2 (by omega)

theorem step {c c' : Conn} {e : Event} (h : Buffered c) (hregular : Regular env c e)
    (hstep : Step env c e c') : Buffered c' := by
  obtain ⟨-, rfl⟩ := hstep
  obtain ⟨hs, net⟩ := c
  cases hs with
  | none =>
    have hclosed : ∀ net', net'.log = net.log → net'.nextId = net.nextId →
        Buffered { hs := none, net := net' } :=
      fun net' hlog hnext => of_closed ((h.closed rfl).congr (congrArg uses hlog) hnext) rfl
    cases e with
    | recv p ok o => cases p <;> cases ok <;> exact hclosed _ rfl rfl
    | sent len o => exact hclosed _ rfl rfl
    | poll o => exact hclosed _ rfl rfl
    | err => exact hclosed _ rfl rfl
    | other => exact hclosed _ rfl rfl
  | some hs =>
    have hbuffers := h.live hs rfl
    have hcurrent := hregular.current hs rfl
    cases e with
    | recv p ok o =>
      cases p with
      | none => exact httpCloseConn hbuffers fun hpos => hcurrent hpos
      | some p =>
        cases ok with
        | false => exact httpCloseConn hbuffers fun hpos => hcurrent hpos
        | true =>
          refine finish ((httpTakeIn_takesIn env o hs net p).buffers hbuffers
            (fun hpos hlast => hcurrent ⟨hpos, hlast⟩) ?_)
          intro hzero hhandle hfile uri hdrLen hparse
          exact hregular.empty hs rfl ⟨hzero, hhandle, hfile, uri, hdrLen, hparse⟩
    | sent len o =>
      exact httpSend (hbuffers.congr 0 (ack len net.unacked) net.current)
        fun hpos hend => hcurrent ⟨hpos, hend⟩
    | poll o =>
      have hpolled := hbuffers.congr (hs.retries + 1) net.unacked net.current
      simp only [httpStep, httpPoll]
      split
      next hmax => exact httpCloseConn hpolled fun hpos => hcurrent ⟨hpos, hmax⟩
      next =>
        split
        next hhandle =>
          refine httpSend hpolled fun hpos => ?_
          simp [(hbuffers.pending hpos).1] at hhandle
        next => exact of_buffers hpolled
    | err =>
      have hzero := hregular.err hs rfl rfl
      have haccounts := hbuffers.accounts
      rw [HttpState.owned_of_done hzero] at haccounts
      have hacked : Net.Accounts { net with unacked := [] } hs.responses := haccounts.congr rfl rfl
      exact of_closed (accounts_httpStateFree hacked) rfl
    | other => exact of_buffers (hbuffers.congr hs.retries net.unacked false)

end Buffered

theorem buffered_httpAccept : Buffered httpAccept := by
  have haccounts : httpAccept.net.Accounts ∅ :=
    ⟨.nil, fun m => by simp [httpAccept, uses], fun n _ => by simp [httpAccept, uses]⟩
  exact .of_buffers (.of_empty haccounts rfl rfl)

/-- Only what is allocated is freed, no buffer twice, and each one by the time the state of the
connection is released. -/
structure FreedOnce (c : Conn) : Prop where
  sound : ∃ held, Ledger (uses c.net.log) held
  once : ∀ m, (uses c.net.log).count (.release m) ≤ 1
  released : c.hs = none → ∀ m, .acquire m ∈ uses c.net.log → (uses c.net.log).count (.release m) = 1

theorem Net.Accounts.count_release_le {held : Set Memory} (h : net.Accounts held) (m : Memory) :
    (uses net.log).count (.release m) ≤ 1 := by
  have honce := h.once m
  by_cases hm : m ∈ held
  · rw [h.ledger.count_of_mem hm] at honce
    omega
  · rwa [← h.ledger.count_of_notMem hm]

theorem Buffered.freedOnce {c : Conn} (h : Buffered c) : FreedOnce c := by
  obtain ⟨hs, net⟩ := c
  cases hs with
  | some hs =>
    have haccounts := (h.live hs rfl).accounts
    exact ⟨⟨_, haccounts.ledger⟩, haccounts.count_release_le, fun hnone => by cases hnone⟩
  | none =>
    have haccounts := h.closed rfl
    refine ⟨⟨_, haccounts.ledger⟩, haccounts.count_release_le, fun _ m hm => ?_⟩
    rw [← haccounts.ledger.count_of_notMem (Set.notMem_empty m)]
    exact Nat.le_antisymm (haccounts.once m) (List.count_pos_iff.mpr hm)

theorem regular_other (c : Conn) : Regular env c .other where
  err _ _ he := by cases he
  current _ _ hends := False.elim hends
  empty _ _ hbegins := False.elim hbegins

/-- On every connection of a server whose callbacks take the regular ways, every buffer is freed
once, before the state of the connection is or with it. -/
theorem Server.freed_once {κ : Type u} [DecidableEq κ] {s : Server κ} {es : List (κ × Event)}
    (h : Run (Guarded (fun s e => Regular env (s.conns e.1) e.2) (Server.Step env)) Server.start es s)
    (x : κ) : FreedOnce (s.conns x) := by
  obtain ⟨fs, hfs, -⟩ := Server.run_conn_guarded regular_other h x
  have hbuffered : Buffered (s.conns x) :=
    hfs.invariant Buffered (fun _ _ _ hc hstep => hc.step hstep.1 hstep.2) buffered_httpAccept
  exact hbuffered.freedOnce

section Sample

def sampleServer (es : List (Bool × Event)) : Server Bool :=
  es.foldl (fun s e => s.serve sampleEnv e.1 e.2) .start

def wholePost : List (Bool × Event) :=
  [(true, .recv (some (sampleRequest [97, 98, 99])) true (sampleOutside 11680)),
    (true, .sent 72 (sampleOutside 11680))]

theorem wholePost_freed :
    ((sampleServer wholePost).conns true).hs = none ∧
      uses ((sampleServer wholePost).conns true).net.log =
        [.acquire (.content 0), .acquire (.response 1), .release (.content 0),
          .release (.response 1)] ∧
      FreedOnce ((sampleServer wholePost).conns true) := by
  refine ⟨by decide +kernel, by decide +kernel, ?_⟩
  have hregular : Regular sampleEnv httpAccept
      (.recv (some (sampleRequest [97, 98, 99])) true (sampleOutside 11680)) := by
    refine ⟨fun _ _ he => (by cases he), ?_, ?_⟩
    · rintro hs ⟨⟩ hends
      exact absurd hends.1 (Nat.lt_irrefl 0)
    · rintro hs ⟨⟩ -
      rfl
  have hdone : ((sampleServer (wholePost.take 1)).conns true).hs.map
      HttpState.postContentLenLeft = some 0 := by decide +kernel
  have hregular' : Regular sampleEnv ((sampleServer (wholePost.take 1)).conns true)
      (.sent 72 (sampleOutside 11680)) := by
    refine ⟨fun _ _ he => (by cases he), fun hs hsome hends => ?_, fun _ _ hbegins => hbegins.elim⟩
    rw [hsome] at hdone
    exact absurd (Option.some.inj hdone) hends.1.ne'
  have hsent : 0 < 72 ∧ 72 ≤ ((sampleServer (wholePost.take 1)).conns true).net.unackedLen := by
    decide +kernel
  have hrun : Run (Guarded (fun s e => Regular sampleEnv (s.conns e.1) e.2)
      (Server.Step sampleEnv)) Server.start wholePost (sampleServer wholePost) :=
    .cons ⟨hregular, ⟨Event.noConfusion, trivial⟩, rfl⟩
      (.single ⟨hregular', ⟨Event.noConfusion, hsent⟩, rfl⟩)
  exact Server.freed_once hrun true

def brokenPost : List (Bool × Event) :=
  [(true, .recv (some (sampleRequest [97])) true (sampleOutside 11680)), (true, .err)]

def overtakenPost : List (Bool × Event) :=
  [(true, .recv (some (sampleRequest [97])) true (sampleOutside 11680)),
    (false, .recv (some (sampleRequest [97])) true (sampleOutside 11680)),
    (true, .recv (some ⟨[98, 99], []⟩) true (sampleOutside 11680))]

/-- The body's buffer is lost with the first one, the response with the second. -/
theorem buffers_lost :
    (Run (Server.Step sampleEnv) Server.start brokenPost (sampleServer brokenPost) ∧
      ¬ FreedOnce ((sampleServer brokenPost).conns true)) ∧
    Run (Server.Step sampleEnv) Server.start overtakenPost (sampleServer overtakenPost) ∧
      ¬ FreedOnce ((sampleServer overtakenPost).conns true) := by
  refine ⟨⟨.of_feasible ?_, fun h => ?_⟩, .of_feasible ?_, fun h => ?_⟩
  · exact ⟨⟨Event.noConfusion, trivial⟩, ⟨Event.noConfusion, trivial⟩, trivial⟩
  · exact absurd (h.released (by decide +kernel) (.content 0) (by decide +kernel)) (by decide +kernel)
  · exact ⟨⟨Event.noConfusion, trivial⟩, ⟨Event.noConfusion, trivial⟩,
      ⟨Event.noConfusion, trivial⟩, trivial⟩
  · exact absurd (h.released (by decide +kernel) (.response 1) (by decide +kernel)) (by decide +kernel)

end Sample

end RadProt.Http
