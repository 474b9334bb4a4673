import RadProt.Http.Sending

namespace RadProt.Http

open RadProt.Lib

def Effect.Heap : Effect → Prop
  | .alloc _ => True
  | .free (.content _) => True
  | _ => False

structure Finishes (hs : HttpState) (net : Net) (hs' : HttpState) (net' : Net) : Prop where
  postContent : hs'.postContent = hs.postContent
  postContentLen : hs'.postContentLen = hs.postContentLen
  postContentLenLeft : hs'.postContentLenLeft = hs.postContentLenLeft
  unacked : net'.unacked = net.unacked
  log : ∃ es, net'.log = net.log ++ .processPostData hs.body :: es ∧ ∀ e ∈ es, e.Heap

section Finish

variable {env : Env} {o : Outside} {hs hs' : HttpState} {net net' : Net}

theorem httpdPostResponse_post (env : Env) (hs : HttpState) (net : Net) (id : Nat)
    (body : List UInt8) :
    (httpdPostResponse env hs net id body).postContent = hs.postContent ∧
      (httpdPostResponse env hs net id body).postContentLen = hs.postContentLen ∧
      (httpdPostResponse env hs net id body).postContentLenLeft = hs.postContentLenLeft := by
  cases h : net.current <;> simp [httpdPostResponse, h]

theorem httpdProcessPostData_finishes (h : httpdProcessPostData env o hs net = (hs', net')) :
    Finishes hs net hs' net' := by
  simp only [httpdProcessPostData] at h
  split at h
  next =>
    obtain ⟨rfl, rfl⟩ := by simpa using h
    obtain ⟨hcontent, hlen, hleft⟩ :=
      httpdPostResponse_post env hs (net.emit (.processPostData hs.body)) net.nextId o.response
    exact {
      postContent := hcontent
      postContentLen := hlen
      postContentLenLeft := hleft
      unacked := rfl
      log := ⟨[.alloc (.response net.nextId)], by simp, by simp [Effect.Heap]⟩ }
  next =>
    obtain ⟨rfl, rfl⟩ := by simpa using h
    exact {
      postContent := rfl
      postContentLen := rfl
      postContentLenLeft := rfl
      unacked := rfl
      log := ⟨[], rfl, by simp⟩ }

theorem httpdPostFinished_finishes (h : httpdPostFinished env o hs net = (hs', net')) :
    Finishes hs net hs' net' := by
  obtain ⟨hs₁, net₁, hprocess⟩ : ∃ hs₁ net₁, httpdProcessPostData env o hs net = (hs₁, net₁) :=
    ⟨_, _, rfl⟩
  obtain ⟨hcontent, hlen, hleft, hunacked, es, hlog, hheap⟩ :=
    httpdProcessPostData_finishes hprocess
  simp only [httpdPostFinished, hprocess] at h
  split at h
  next content _ =>
    obtain ⟨rfl, rfl⟩ := by simpa using h
    refine ⟨hcontent, hlen, hleft, hunacked, es ++ [.free (.content content.id)], ?_, ?_⟩
    · simp [hlog]
    · intro e he
      rcases List.mem_append.mp he with he | he
      · exact hheap e he
      · simp [List.mem_singleton.mp he, Effect.Heap]
  next =>
    obtain ⟨rfl, rfl⟩ := by simpa using h
    exact ⟨hcontent, hlen, hleft, hunacked, es, hlog, hheap⟩

theorem httpHandlePostFinished_finishes (hfile : hs.file = none)
    (h : httpHandlePostFinished env o hs net = (hs', net')) : Finishes hs net hs' net' := by
  simp only [httpHandlePostFinished, hfile] at h
  exact httpdPostFinished_finishes h

end Finish

section Files

variable (env : Env) (hs : HttpState)

@[simp] theorem getHttpHeaders_postContentLenLeft (uri : Option (List UInt8)) :
    (getHttpHeaders env hs uri).postContentLenLeft = hs.postContentLenLeft := by
  cases uri <;> simp only [getHttpHeaders]

@[simp] theorem httpInitFile_postContentLenLeft (file : Option FsFile) (is09 : Bool)
    (uri : Option (List UInt8)) :
    (httpInitFile env hs file is09 uri).postContentLenLeft = hs.postContentLenLeft := by
  cases file with
  | none => simp [httpInitFile]
  | some f =>
    simp only [httpInitFile]
    split <;> simp

@[simp] theorem httpFindFile_postContentLenLeft (uri : List UInt8) (is09 : Bool) :
    (httpFindFile env hs uri is09).postContentLenLeft = hs.postContentLenLeft := by
  simp only [httpFindFile]
  split
  · simp
  · split <;> simp

@[simp] theorem httpRedirect_postContentLenLeft :
    (httpRedirect env hs).postContentLenLeft = hs.postContentLenLeft := rfl

end Files

def chunkOffset (hs : HttpState) (p : Pbuf) : Option Nat :=
  let before := hs.postContentLen - (hs.postContentLenLeft - p.totLen)
  if p.totLen ≤ before then some (before - p.totLen) else none

def storeChunk (hs : HttpState) (p : Pbuf) : HttpState :=
  match chunkOffset hs p with
  | some offset =>
    { hs with
      postContentLenLeft := hs.postContentLenLeft - p.totLen
      postContent := hs.postContent.map fun content =>
        { content with bytes := overwrite content.bytes offset p.copied } }
  | none => { hs with postContentLenLeft := 0 }

theorem chunkOffset_of_le {hs : HttpState} {p : Pbuf}
    (hle : hs.postContentLenLeft ≤ hs.postContentLen) (hp : p.totLen ≤ hs.postContentLenLeft) :
    chunkOffset hs p = some (hs.postContentLen - hs.postContentLenLeft) := by
  simp only [chunkOffset]
  rw [if_pos (by omega), Option.some_inj]
  omega

section Chunk

variable {env : Env} {o : Outside} {hs : HttpState} {net : Net} {p : Pbuf}

@[simp] theorem storeChunk_handle : (storeChunk hs p).handle = hs.handle := by
  unfold storeChunk; split <;> rfl

@[simp] theorem storeChunk_file : (storeChunk hs p).file = hs.file := by
  unfold storeChunk; split <;> rfl

@[simp] theorem storeChunk_postContentLen : (storeChunk hs p).postContentLen = hs.postContentLen := by
  unfold storeChunk; split <;> rfl

theorem storeChunk_postContentLenLeft :
    (storeChunk hs p).postContentLenLeft =
      if (chunkOffset hs p).isSome then hs.postContentLenLeft - p.totLen else 0 := by
  unfold storeChunk
  split
  next h => simp [h]
  next h => simp [h]

theorem httpPostRxpbuf_eq (hle : hs.postContentLenLeft ≤ hs.postContentLen) :
    httpPostRxpbuf env o hs net p =
      if (storeChunk hs p).postContentLenLeft = 0 then
        httpHandlePostFinished env o (storeChunk hs p)
          (net.emit (.postReceive p (chunkOffset hs p)))
      else (storeChunk hs p, net.emit (.postReceive p (chunkOffset hs p))) := by
  have hrefuse : ((hs.postContentLen : Int) - ↑(hs.postContentLenLeft - p.totLen) - p.totLen < 0 ∨
      (hs.postContentLen : Int) - ↑(hs.postContentLenLeft - p.totLen) - p.totLen + p.totLen >
        hs.postContentLen) ↔
      ¬ p.totLen ≤ hs.postContentLen - (hs.postContentLenLeft - p.totLen) := by omega
  have hoffset : ((hs.postContentLen : Int) - ↑(hs.postContentLenLeft - p.totLen) - p.totLen).toNat =
      hs.postContentLen - (hs.postContentLenLeft - p.totLen) - p.totLen := by omega
  simp only [httpPostRxpbuf, httpdPostReceiveData, hrefuse, hoffset, storeChunk, chunkOffset]
  by_cases hfit : p.totLen ≤ hs.postContentLen - (hs.postContentLenLeft - p.totLen)
  · simp [hfit]
  · simp [hfit]

theorem httpPostStart_cases {inp : Pbuf} {uri : List UInt8} {contentLen hdrLen : Nat}
    {hs' : HttpState} {net' : Net}
    (h : httpPostStart env o hs net inp uri contentLen hdrLen = (hs', net')) :
    ∃ hs₁ net₁, httpdPostBegin hs net uri contentLen = (hs₁, net₁) ∧
      ((∃ q, (inp.body hdrLen = some q ∨ inp.body hdrLen = none ∧ contentLen = 0 ∧ q = .empty) ∧
          httpPostRxpbuf env o
            { hs₁ with postContentLen := contentLen, postContentLenLeft := contentLen } net₁ q =
              (hs', net')) ∨
        inp.body hdrLen = none ∧ contentLen ≠ 0 ∧
          hs' = { hs₁ with postContentLen := contentLen, postContentLenLeft := contentLen } ∧
          net' = net₁) := by
  obtain ⟨hs₁, net₁, hbegin⟩ : ∃ hs₁ net₁, httpdPostBegin hs net uri contentLen = (hs₁, net₁) :=
    ⟨_, _, rfl⟩
  refine ⟨hs₁, net₁, hbegin, ?_⟩
  simp only [httpPostStart, hbegin] at h
  split at h
  next q hq => exact .inl ⟨q, .inl hq, h⟩
  next hnone =>
    split at h
    next hzero => exact .inl ⟨.empty, .inr ⟨hnone, hzero, rfl⟩, h⟩
    next hne =>
      obtain ⟨rfl, rfl⟩ := Prod.mk.inj h
      exact .inr ⟨hnone, hne, rfl, rfl⟩

end Chunk

end RadProt.Http
