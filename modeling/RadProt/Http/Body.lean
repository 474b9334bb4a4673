import RadProt.Http.PostRuns

namespace RadProt.Http

open RadProt.Lib

def Effect.isBody : Effect → Bool
  | .postReceive _ _ => true
  | .processPostData _ => true
  | _ => false

def bodyEffects (log : List Effect) : List Effect := log.filter Effect.isBody

/-- A handler reads `B` and nothing else, each chunk is read inside its own first payload, and
written inside the `n` bytes of the buffer. -/
def BodyIntact (n : Nat) (B : List UInt8) (es : List Effect) : Prop :=
  (∀ content, .processPostData content ∈ es → content = B.map some) ∧
    ∀ p offset, .postReceive p (some offset) ∈ es → p.totLen ≤ p.len ∧ offset + p.totLen ≤ n

@[simp] theorem bodyEffects_append (log es : List Effect) :
    bodyEffects (log ++ es) = bodyEffects log ++ bodyEffects es := List.filter_append ..

theorem overwrite_length {buffer data : List (Option UInt8)} {offset : Nat}
    (h : offset + data.length ≤ buffer.length) :
    (overwrite buffer offset data).length = buffer.length := by
  simp only [overwrite, List.length_append, List.length_take, List.length_drop]
  omega

theorem overwrite_behind (stored data : List UInt8) (m : Nat) :
    overwrite (stored.map some ++ .replicate m none) stored.length (data.map some) =
      (stored ++ data).map some ++ .replicate (m - data.length) none := by
  simp [overwrite, List.drop_append]

theorem overwrite_end (stored data : List UInt8) (m : Nat) (hfit : data.length ≤ stored.length + m)
    (hover : m ≤ data.length) :
    overwrite (stored.map some ++ .replicate m none) (stored.length + m - data.length)
        (data.map some) =
      (stored.take (stored.length + m - data.length) ++ data).map some := by
  have htake : stored.length + m - data.length - stored.length = 0 := by omega
  have hdrop : stored.length + m - data.length + data.length = stored.length + m := by omega
  simp [overwrite, List.take_append, htake, hdrop]

theorem copied_length {p : Pbuf} : p.copied.length = p.totLen := by
  have := p.len_le_totLen
  simp only [Pbuf.copied, List.length_append, List.length_map, List.length_replicate]
  simp only [Pbuf.len] at *
  omega

theorem copied_of_single {p : Pbuf} (h : p.totLen = p.len) : p.copied = p.bytes.map some := by
  have hnext : p.next.flatten = [] := by
    rw [Pbuf.totLen, Pbuf.bytes, List.length_append, Pbuf.len] at h
    exact List.length_eq_zero_iff.mp (by omega)
  simp [Pbuf.copied, h, Pbuf.bytes, hnext]

variable {env : Env} {o : Outside} {hs hs' : HttpState} {net net' : Net}

theorem Sends.bodyEffects_eq (h : Sends hs net hs' net') :
    bodyEffects net'.log = bodyEffects net.log := by
  obtain ⟨k, hk⟩ := h.log
  rw [hk, bodyEffects_append, bodyEffects, bodyEffects, List.append_right_eq_self]
  refine List.filter_eq_nil_iff.mpr fun e he => ?_
  rw [List.eq_of_mem_replicate he]
  simp [Effect.isBody]

theorem Finishes.bodyEffects_eq (h : Finishes hs net hs' net') :
    bodyEffects net'.log = bodyEffects net.log ++ [.processPostData hs.body] := by
  obtain ⟨es, hes, hheap⟩ := h.log
  have hnil : bodyEffects es = [] := by
    refine List.filter_eq_nil_iff.mpr fun e he => ?_
    have := hheap e he
    cases e <;> simp_all [Effect.isBody, Effect.Heap]
  rw [hes, List.append_cons, bodyEffects_append, hnil, bodyEffects_append]
  simp [bodyEffects, Effect.isBody]

def receipts : Nat → List Pbuf → List Effect
  | _, [] => []
  | offset, p :: ps => .postReceive p (some offset) :: receipts (offset + p.totLen) ps

def total (ps : List Pbuf) : Nat := (ps.map Pbuf.totLen).sum

@[simp] theorem total_nil : total [] = 0 := rfl

@[simp] theorem total_append (ps qs : List Pbuf) : total (ps ++ qs) = total ps + total qs := by
  simp [total]

@[simp] theorem total_singleton (p : Pbuf) : total [p] = p.totLen := by simp [total]

theorem receipts_append (offset : Nat) (ps qs : List Pbuf) :
    receipts offset (ps ++ qs) = receipts offset ps ++ receipts (offset + total ps) qs := by
  induction ps generalizing offset with
  | nil => simp [receipts]
  | cons p ps ih => simp [receipts, ih, total, Nat.add_assoc]

theorem mem_receipts {offset : Nat} {ps : List Pbuf} {e : Effect} (h : e ∈ receipts offset ps) :
    ∃ p ∈ ps, ∃ k, e = .postReceive p (some k) ∧ k + p.totLen ≤ offset + total ps := by
  induction ps generalizing offset with
  | nil => simp [receipts] at h
  | cons p ps ih =>
    rcases List.mem_cons.mp h with rfl | h
    · exact ⟨p, List.mem_cons_self, offset, rfl, by simp [total]⟩
    · obtain ⟨q, hq, k, rfl, hk⟩ := ih h
      exact ⟨q, List.mem_cons_of_mem _ hq, k, rfl, by simp [total] at hk ⊢; omega⟩

theorem exists_mem_receipts (offset : Nat) {ps : List Pbuf} {p : Pbuf} (h : p ∈ ps) :
    ∃ k, .postReceive p (some k) ∈ receipts offset ps := by
  induction ps generalizing offset with
  | nil => simp at h
  | cons q ps ih =>
    rcases List.mem_cons.mp h with rfl | h
    · exact ⟨offset, List.mem_cons_self⟩
    · obtain ⟨k, hk⟩ := ih _ h
      exact ⟨k, List.mem_cons_of_mem _ hk⟩

def Single (ps : List Pbuf) : Prop := ∀ p ∈ ps, p.totLen = p.len

theorem length_flatMap_bytes (ps : List Pbuf) : (ps.flatMap Pbuf.bytes).length = total ps := by
  rw [List.length_flatMap]
  rfl

structure Receiving (n : Nat) (ps : List Pbuf) (base : List Effect) (hs : HttpState) (net : Net) :
    Prop where
  handle : hs.handle = none
  file : hs.file = none
  len : hs.postContentLen = n
  le : total ps ≤ n
  left : hs.postContentLenLeft = n - total ps
  content : 0 < n → ∃ content, hs.postContent = some content ∧ content.bytes.length = n
  body : Single ps → hs.body = (ps.flatMap Pbuf.bytes).map some ++ .replicate (n - total ps) none
  log : bodyEffects net.log = base ++ receipts 0 ps

namespace Receiving

variable {n : Nat} {ps : List Pbuf} {base : List Effect} {p : Pbuf}

theorem hs_le (h : Receiving n ps base hs net) : hs.postContentLenLeft ≤ hs.postContentLen := by
  rw [h.left, h.len]
  omega

theorem body_length (h : Receiving n ps base hs net) : hs.body.length = n := by
  rw [HttpState.body, h.len, List.length_take]
  rcases Nat.eq_zero_or_pos n with rfl | hn
  · exact Nat.zero_min _
  · obtain ⟨content, hcontent, hlen⟩ := h.content hn
    simp [hcontent, hlen]

theorem body_storeChunk (h : Receiving n ps base hs net) {offset : Nat}
    (hoffset : chunkOffset hs p = some offset) (hfit : offset + p.totLen ≤ n) :
    (storeChunk hs p).body = overwrite hs.body offset p.copied := by
  rcases Nat.eq_zero_or_pos n with rfl | hn
  · have hcopied : p.copied = [] := List.length_eq_zero_iff.mp (by rw [copied_length]; omega)
    simp [HttpState.body, h.len, overwrite, hcopied]
  · obtain ⟨content, hcontent, hlen⟩ := h.content hn
    have hwritten : (overwrite content.bytes offset p.copied).length = n := by
      rw [overwrite_length (by rw [copied_length, hlen]; exact hfit), hlen]
    simp only [HttpState.body, storeChunk_postContentLen, h.len]
    simp only [storeChunk, hoffset, hcontent, Option.map_some, Option.getD_some]
    rw [List.take_of_length_le hwritten.le, List.take_of_length_le hlen.le]

theorem content_storeChunk (h : Receiving n ps base hs net) {offset : Nat}
    (hoffset : chunkOffset hs p = some offset) (hfit : offset + p.totLen ≤ n) (hn : 0 < n) :
    ∃ content, (storeChunk hs p).postContent = some content ∧ content.bytes.length = n := by
  obtain ⟨content, hcontent, hlen⟩ := h.content hn
  refine ⟨{ content with bytes := overwrite content.bytes offset p.copied }, ?_, ?_⟩
  · simp [storeChunk, hoffset, hcontent]
  · rw [overwrite_length (by rw [copied_length, hlen]; exact hfit), hlen]

theorem store (h : Receiving n ps base hs net) (hfit : total ps + p.totLen ≤ n) :
    Receiving n (ps ++ [p]) base (storeChunk hs p)
      (net.emit (.postReceive p (chunkOffset hs p))) := by
  have hoffset : chunkOffset hs p = some (total ps) := by
    rw [chunkOffset_of_le h.hs_le (by rw [h.left]; omega), h.len, h.left, Option.some_inj]
    omega
  refine {
    handle := by simpa using h.handle
    file := by simpa using h.file
    len := by simpa using h.len
    le := by simpa using hfit
    left := ?_
    content := fun hn => h.content_storeChunk hoffset hfit hn
    body := fun hsingle => ?_
    log := ?_ }
  · rw [storeChunk_postContentLenLeft, hoffset, h.left]
    simp
    omega
  · have hps : Single ps := fun q hq => hsingle q (List.mem_append_left _ hq)
    have hp : p.totLen = p.len := hsingle p (by simp)
    rw [h.body_storeChunk hoffset hfit, h.body hps, copied_of_single hp, ← length_flatMap_bytes ps,
      overwrite_behind, length_flatMap_bytes, total_append, total_singleton, Nat.sub_sub]
    simp [Pbuf.totLen]
  · rw [Net.emit_log, bodyEffects_append, h.log, receipts_append, hoffset]
    simp [bodyEffects, Effect.isBody, receipts]

theorem body_last (h : Receiving n ps base hs net) (hps : Single ps) (hp : p.totLen = p.len)
    (hlast : n ≤ total ps + p.totLen) (hfit : p.totLen ≤ n) :
    (storeChunk hs p).body =
      ((ps.flatMap Pbuf.bytes).take (n - p.totLen) ++ p.bytes).map some := by
  have hleft : hs.postContentLenLeft - p.totLen = 0 := by rw [h.left]; omega
  have hoffset : chunkOffset hs p = some (n - p.totLen) := by
    simp [chunkOffset, hleft, h.len, hfit]
  have hlen := length_flatMap_bytes ps
  have hle := h.le
  have htot : p.totLen = p.bytes.length := rfl
  rw [h.body_storeChunk hoffset (by omega), h.body hps, copied_of_single hp]
  have hend := overwrite_end (ps.flatMap Pbuf.bytes) p.bytes (n - total ps) (by omega) (by omega)
  rwa [show (ps.flatMap Pbuf.bytes).length + (n - total ps) - p.bytes.length = n - p.totLen by omega]
    at hend

theorem last (h : Receiving n ps base hs net) (hlast : n ≤ total ps + p.totLen)
    (hrx : httpPostRxpbuf env o hs net p = (hs', net')) :
    hs'.postContentLenLeft = 0 ∧
      bodyEffects net'.log = base ++ receipts 0 ps ++
        [.postReceive p (if p.totLen ≤ n then some (n - p.totLen) else none),
          .processPostData (storeChunk hs p).body] := by
  have hleft : hs.postContentLenLeft - p.totLen = 0 := by rw [h.left]; omega
  have hoffset : chunkOffset hs p = if p.totLen ≤ n then some (n - p.totLen) else none := by
    simp [chunkOffset, hleft, h.len]
  have hzero : (storeChunk hs p).postContentLenLeft = 0 := by
    rw [storeChunk_postContentLenLeft, hleft, ite_self]
  rw [httpPostRxpbuf_eq h.hs_le, if_pos hzero] at hrx
  have hfinish := httpHandlePostFinished_finishes (by simpa using h.file) hrx
  refine ⟨by rw [hfinish.postContentLenLeft, hzero], ?_⟩
  rw [hfinish.bodyEffects_eq, Net.emit_log, bodyEffects_append, h.log, hoffset, List.append_assoc]
  rfl

end Receiving

structure Finished (n : Nat) (ps : List Pbuf) (p : Pbuf) (es : List Effect)
    (content : List (Option UInt8)) : Prop where
  effects : es = receipts 0 ps ++
    [.postReceive p (if p.totLen ≤ n then some (n - p.totLen) else none), .processPostData content]
  le : total ps ≤ n
  last : n ≤ total ps + p.totLen
  short : 0 < n → total ps < n
  length : content.length = n
  accepted : Single (ps ++ [p]) → p.totLen ≤ n →
    content = ((ps.flatMap Pbuf.bytes).take (n - p.totLen) ++ p.bytes).map some
  refused : Single ps → n < p.totLen →
    content = (ps.flatMap Pbuf.bytes).map some ++ .replicate (n - total ps) none

theorem Receiving.finished {n : Nat} {ps : List Pbuf} {base : List Effect} {p : Pbuf}
    (h : Receiving n ps base hs net) (hshort : 0 < n → total ps < n)
    (hlast : n ≤ total ps + p.totLen) (hrx : httpPostRxpbuf env o hs net p = (hs', net')) :
    hs'.postContentLenLeft = 0 ∧
      ∃ es content, bodyEffects net'.log = base ++ es ∧ Finished n ps p es content := by
  obtain ⟨hzero, hlog⟩ := h.last hlast hrx
  have hleft : hs.postContentLenLeft - p.totLen = 0 := by rw [h.left]; omega
  have hrefused : n < p.totLen → (storeChunk hs p).body = hs.body := by
    intro hlong
    have hnone : chunkOffset hs p = none := by
      simp [chunkOffset, hleft, h.len]
      omega
    simp [HttpState.body, storeChunk, hnone]
  refine ⟨hzero, _, (storeChunk hs p).body, by rw [hlog, List.append_assoc], ?_⟩
  refine {
    effects := rfl
    le := h.le
    last := hlast
    short := hshort
    length := ?_
    accepted := fun hsingle hfit => h.body_last (fun q hq => hsingle q (by simp [hq]))
      (hsingle p (by simp)) hlast hfit
    refused := fun hsingle hlong => by rw [hrefused hlong, h.body hsingle] }
  by_cases hfit : p.totLen ≤ n
  · have hoffset : chunkOffset hs p = some (n - p.totLen) := by
      simp [chunkOffset, hleft, h.len, hfit]
    rw [h.body_storeChunk hoffset (by omega), overwrite_length, h.body_length]
    rw [copied_length, h.body_length]
    omega
  · rw [hrefused (by omega), h.body_length]

def bodyOf (n : Nat) (ps : List Pbuf) : List UInt8 := (ps.flatMap Pbuf.bytes).take n

namespace Finished

variable {n : Nat} {ps : List Pbuf} {p : Pbuf} {es : List Effect} {content : List (Option UInt8)}

theorem take_bodyOf (h : Finished n ps p es content) :
    (bodyOf n (ps ++ [p])).take (n - p.totLen) = (ps.flatMap Pbuf.bytes).take (n - p.totLen) := by
  have hlen := length_flatMap_bytes ps
  have hlast := h.last
  rw [bodyOf, List.take_take, Nat.min_eq_left (Nat.sub_le _ _), List.flatMap_append,
    List.take_append_of_le_length (by omega)]

theorem single_of_intact (h : Finished n ps p es content) {B : List UInt8}
    (hintact : BodyIntact n B es) : Single ps := by
  intro q hq
  obtain ⟨k, hk⟩ := exists_mem_receipts 0 hq
  have hread := (hintact.2 q k (by rw [h.effects]; exact List.mem_append_left _ hk)).1
  have := q.len_le_totLen
  omega

theorem content_mem (h : Finished n ps p es content) : .processPostData content ∈ es := by
  rw [h.effects]
  simp

theorem content_eq (h : Finished n ps p es content) {content' : List (Option UInt8)}
    (hmem : .processPostData content' ∈ es) : content' = content := by
  rw [h.effects] at hmem
  rcases List.mem_append.mp hmem with hmem | hmem
  · obtain ⟨_, -, _, heq, -⟩ := mem_receipts hmem
    simp at heq
  · simpa using hmem

theorem receive_le (h : Finished n ps p es content) {q : Pbuf} {k : Nat}
    (hmem : .postReceive q (some k) ∈ es) : k + q.totLen ≤ n ∧ q ∈ ps ++ [p] := by
  rw [h.effects] at hmem
  rcases List.mem_append.mp hmem with hmem | hmem
  · obtain ⟨q', hq', k', heq, hk'⟩ := mem_receipts hmem
    obtain ⟨rfl, hk⟩ := by simpa using heq
    have := h.le
    exact ⟨by omega, List.mem_append_left _ hq'⟩
  · obtain ⟨rfl, hfit, rfl⟩ := by simpa using hmem
    exact ⟨by omega, by simp⟩

theorem fits_of_intact (h : Finished n ps p es content) (hn : 0 < n) {B : List UInt8}
    (hintact : BodyIntact n B es) : p.totLen ≤ n := by
  by_contra hlong
  have hnone : none ∈ content := by
    rw [h.refused (h.single_of_intact hintact) (by omega)]
    have := h.short hn
    exact List.mem_append_right _ (List.mem_replicate.mpr ⟨by omega, rfl⟩)
  rw [hintact.1 content h.content_mem] at hnone
  simp at hnone

theorem single_all_of_intact (h : Finished n ps p es content) (hfit : p.totLen ≤ n)
    {B : List UInt8} (hintact : BodyIntact n B es) : Single (ps ++ [p]) := by
  have hreceive : .postReceive p (some (n - p.totLen)) ∈ es := by
    rw [h.effects]
    simp [hfit]
  have hp : p.totLen = p.len := le_antisymm (hintact.2 p _ hreceive).1 p.len_le_totLen
  intro q hq
  rcases List.mem_append.mp hq with hq | hq
  · exact h.single_of_intact hintact q hq
  · rw [List.mem_singleton.mp hq, hp]

theorem intact_iff (h : Finished n ps p es content) :
    BodyIntact n (bodyOf n (ps ++ [p])) es ↔
      n = 0 ∨ Single (ps ++ [p]) ∧ p.totLen ≤ n ∧
        p.bytes = (bodyOf n (ps ++ [p])).drop (n - p.totLen) := by
  constructor
  · intro hintact
    rcases Nat.eq_zero_or_pos n with hzero | hn
    · exact .inl hzero
    have hfit := h.fits_of_intact hn hintact
    have hsingle := h.single_all_of_intact hfit hintact
    have hread := hintact.1 content h.content_mem
    rw [h.accepted hsingle hfit] at hread
    have hbody := List.map_injective_iff.mpr (fun _ _ => Option.some.inj) hread
    rw [← h.take_bodyOf] at hbody
    exact .inr ⟨hsingle, hfit, List.append_cancel_left (hbody.trans (List.take_append_drop _ _).symm)⟩
  · intro hcond
    refine ⟨fun content' hmem => ?_, fun q k hmem => ?_⟩
    · obtain rfl := h.content_eq hmem
      rcases hcond with hzero | ⟨hsingle, hfit, hlast⟩
      · have hnil : content' = [] := List.length_eq_zero_iff.mp (h.length.trans hzero)
        simp [hnil, bodyOf, hzero]
      · rw [h.accepted hsingle hfit, ← h.take_bodyOf, hlast, List.take_append_drop]
    · obtain ⟨hle, hq⟩ := h.receive_le hmem
      refine ⟨?_, hle⟩
      rcases hcond with hzero | ⟨hsingle, -, -⟩
      · omega
      · exact (hsingle q hq).le

end Finished

theorem httpCloseConn_bodyEffects (hdone : hs.postContentLenLeft = 0) :
    bodyEffects (httpCloseConn env o (some hs) net).net.log = bodyEffects net.log := by
  simp only [httpCloseConn, hdone, ne_eq, not_true_eq_false, if_false, httpStateFree]
  split
  next => rw [Net.emit_log, bodyEffects_append]; simp [bodyEffects, Effect.isBody]
  next => rfl

theorem httpSend_bodyEffects (hdone : hs.postContentLenLeft = 0) :
    bodyEffects (httpSend env o hs net).net.log = bodyEffects net.log := by
  obtain ⟨hs', net', hsends, heq⟩ | ⟨-, hs', net', hsends, heq⟩ := httpSend_cases env o hs net
  · rw [heq, hsends.bodyEffects_eq]
  · rw [heq, httpCloseConn_bodyEffects (by rw [hsends.postContentLenLeft, hdone]),
      hsends.bodyEffects_eq]

def Taking (n : Nat) (ps : List Pbuf) (base : List Effect) (c : Conn) : Prop :=
  ∃ hs, c.hs = some hs ∧ Receiving n ps base hs c.net

def Taken (n : Nat) (ps : List Pbuf) (p : Pbuf) (base : List Effect) (c : Conn) : Prop :=
  ∃ es content, bodyEffects c.net.log = base ++ es ∧ Finished n ps p es content

theorem httpRecv_chunk {c : Conn} {p : Pbuf} (hsome : c.hs = some hs)
    (hpos : 0 < hs.postContentLenLeft)
    (hrx : httpPostRxpbuf env o { hs with retries := 0 } c.net p = (hs', net')) :
    httpRecv env o c (some p) true = (goOn hs' net').finish env o := by
  simp only [httpRecv, hsome, httpTakeIn, hpos, if_true, hrx, goOn]

theorem httpRecv_post {c : Conn} {p : Pbuf} {uri : List UInt8} {n hdrLen : Nat}
    (hsome : c.hs = some hs) (hhandle : hs.handle = none) (hfile : hs.file = none)
    (hleft : hs.postContentLenLeft = 0)
    (hparse : parseRequest env.settings o.leftover (hs.queue p) = .post uri n hdrLen)
    (hstart : httpPostStart env o hs c.net (hs.queue p) uri n hdrLen = (hs', net')) :
    httpRecv env o c (some p) true = (goOn { hs' with req := none } net').finish env o := by
  have hfile' : hs.file.isSome = false := by rw [hfile]; rfl
  have hrecv : httpRecv env o c (some p) true =
      (httpParseRequest env o hs c.net p).finish env o := by
    simp [httpRecv, hsome, httpTakeIn, hleft, hhandle]
  simp only [hrecv, httpParseRequest, hfile', Bool.false_eq_true, if_false, hparse, hstart, goOn]

theorem Receiving.recv {n : Nat} {ps : List Pbuf} {base : List Effect} {p : Pbuf}
    (h : Receiving n ps base hs net) (hshort : 0 < n → total ps < n)
    (hrx : httpPostRxpbuf env o hs net p = (hs', net')) (req : Option Pbuf) :
    let c := (goOn { hs' with req } net').finish env o
    (total ps + p.totLen < n → Taking n (ps ++ [p]) base c) ∧
      (n ≤ total ps + p.totLen → Taken n ps p base c) := by
  refine ⟨fun hmore => ?_, fun hlast => ?_⟩
  · have hstore := h.store hmore.le
    have hleft : (storeChunk hs p).postContentLenLeft ≠ 0 := by
      rw [hstore.left, total_append, total_singleton]
      omega
    rw [httpPostRxpbuf_eq h.hs_le, if_neg hleft] at hrx
    obtain ⟨rfl, rfl⟩ := Prod.mk.inj hrx
    rw [goOn, if_neg hleft]
    exact ⟨_, rfl, { hstore with }⟩
  · obtain ⟨hzero, es, content, hlog, hfinished⟩ := h.finished hshort hlast hrx
    have hdone : { hs' with req }.postContentLenLeft = 0 := hzero
    refine ⟨es, content, ?_, hfinished⟩
    rw [goOn, if_pos hdone, Intake.finish, httpSend_bodyEffects hdone, hlog]

theorem Taking.recv {n : Nat} {ps : List Pbuf} {base : List Effect} {c : Conn} (p : Pbuf)
    (env : Env) (o : Outside) (h : Taking n ps base c) (hshort : total ps < n) :
    (total ps + p.totLen < n → Taking n (ps ++ [p]) base (httpRecv env o c (some p) true)) ∧
      (n ≤ total ps + p.totLen → Taken n ps p base (httpRecv env o c (some p) true)) := by
  obtain ⟨hs, hsome, hreceiving⟩ := h
  have hpos : 0 < hs.postContentLenLeft := by rw [hreceiving.left]; omega
  have hreset : Receiving n ps base { hs with retries := 0 } c.net := { hreceiving with }
  obtain ⟨hs', net', hrx⟩ : ∃ hs' net',
      httpPostRxpbuf env o { hs with retries := 0 } c.net p = (hs', net') := ⟨_, _, rfl⟩
  rw [httpRecv_chunk hsome hpos hrx]
  exact hreset.recv (fun _ => hshort) hrx hs'.req

theorem Receiving.begin {n : Nat} {uri : List UInt8}
    (h : httpdPostBegin hs net uri n = (hs', net')) (hhandle : hs.handle = none)
    (hfile : hs.file = none) :
    Receiving n [] (bodyEffects net.log)
      { hs' with postContentLen := n, postContentLenLeft := n } net' := by
  simp only [httpdPostBegin] at h
  split at h
  next hn =>
    obtain ⟨rfl, rfl⟩ := Prod.mk.inj h
    exact {
      handle := hhandle
      file := hfile
      len := rfl
      le := Nat.zero_le n
      left := rfl
      content := fun _ => ⟨_, rfl, List.length_replicate⟩
      body := fun _ => by simp [HttpState.body]
      log := by simp [bodyEffects, receipts, Effect.isBody] }
  next hn =>
    obtain rfl : n = 0 := by omega
    obtain ⟨rfl, rfl⟩ := Prod.mk.inj h
    exact {
      handle := hhandle
      file := hfile
      len := rfl
      le := Nat.zero_le 0
      left := rfl
      content := fun hpos => absurd hpos hn
      body := fun _ => by simp [HttpState.body]
      log := by simp [bodyEffects, receipts, Effect.isBody] }

theorem httpRecv_header (env : Env) (o : Outside) {c : Conn} {p : Pbuf} {uri : List UInt8}
    {n hdrLen : Nat} (hsome : c.hs = some hs) (hhandle : hs.handle = none) (hfile : hs.file = none)
    (hleft : hs.postContentLenLeft = 0)
    (hparse : parseRequest env.settings o.leftover (hs.queue p) = .post uri n hdrLen) :
    (total ((hs.queue p).body hdrLen).toList < n →
        Taking n ((hs.queue p).body hdrLen).toList (bodyEffects c.net.log)
          (httpRecv env o c (some p) true)) ∧
      (n ≤ total ((hs.queue p).body hdrLen).toList →
        ∃ ps last, Taken n ps last (bodyEffects c.net.log) (httpRecv env o c (some p) true) ∧
          (((hs.queue p).body hdrLen).toList = ps ++ [last] ∨
            n = 0 ∧ ((hs.queue p).body hdrLen).toList = [])) := by
  obtain ⟨hs₁, net₁, hbegin⟩ : ∃ hs₁ net₁, httpdPostBegin hs c.net uri n = (hs₁, net₁) :=
    ⟨_, _, rfl⟩
  have hreceiving := Receiving.begin hbegin hhandle hfile
  obtain ⟨hs', net', hstart⟩ : ∃ hs' net',
      httpPostStart env o hs c.net (hs.queue p) uri n hdrLen = (hs', net') := ⟨_, _, rfl⟩
  rw [httpRecv_post hsome hhandle hfile hleft hparse hstart]
  simp only [httpPostStart, hbegin] at hstart
  cases hq : (hs.queue p).body hdrLen with
  | some q =>
    rw [hq] at hstart
    obtain ⟨hmore, hlast⟩ := hreceiving.recv id hstart none
    rw [total_nil, Nat.zero_add] at hmore hlast
    simp only [Option.toList_some, total_singleton]
    exact ⟨hmore, fun hle => ⟨[], q, hlast hle, .inl rfl⟩⟩
  | none =>
    simp only [hq] at hstart
    simp only [Option.toList_none, total_nil]
    refine ⟨fun hn => ?_, fun hzero => ?_⟩
    · have hne : n ≠ 0 := Nat.ne_of_gt hn
      rw [if_neg hne] at hstart
      obtain ⟨rfl, rfl⟩ := Prod.mk.inj hstart
      rw [goOn, if_neg hne]
      exact ⟨_, rfl, { hreceiving with }⟩
    · obtain rfl : n = 0 := Nat.eq_zero_of_le_zero hzero
      rw [if_pos rfl] at hstart
      have hlast := (hreceiving.recv id hstart none).2 (Nat.zero_le _)
      exact ⟨[], .empty, hlast, .inr ⟨rfl, trivial⟩⟩

def received (segs : List (Pbuf × Outside)) : List Event :=
  segs.map fun s => .recv (some s.1) true s.2

theorem Taking.run {n : Nat} {ps : List Pbuf} {base : List Effect} {c c' : Conn}
    {segs : List (Pbuf × Outside)} (h : Taking n ps base c)
    (hrun : Run (Step env) c (received segs) c')
    (hshort : total ps + total (segs.map Prod.fst) < n) :
    Taking n (ps ++ segs.map Prod.fst) base c' := by
  induction segs generalizing ps c with
  | nil =>
    cases hrun
    simpa using h
  | cons s segs ih =>
    simp only [received, List.map_cons] at hrun hshort
    have htotal : total (s.1 :: segs.map Prod.fst) = s.1.totLen + total (segs.map Prod.fst) := by
      simp [total]
    rw [htotal] at hshort
    cases hrun with
    | cons hstep hrest =>
      obtain ⟨-, rfl⟩ := hstep
      have hnext := (h.recv s.1 env s.2 (by omega)).1 (by omega)
      have htaking := ih hnext hrest (by rw [total_append, total_singleton]; omega)
      simpa using htaking

def bodyChunks (first : Option Pbuf) (segs : List (Pbuf × Outside)) : List Pbuf :=
  first.toList ++ segs.map Prod.fst

theorem taken_of_run {c c' : Conn} {p : Pbuf} {segs : List (Pbuf × Outside)} {uri : List UInt8}
    {n hdrLen : Nat} (hsome : c.hs = some hs) (hhandle : hs.handle = none) (hfile : hs.file = none)
    (hleft : hs.postContentLenLeft = 0)
    (hparse : parseRequest env.settings o.leftover (hs.queue p) = .post uri n hdrLen)
    (hwhole : n ≤ total (bodyChunks ((hs.queue p).body hdrLen) segs))
    (hneeded : segs ≠ [] → total (bodyChunks ((hs.queue p).body hdrLen) segs.dropLast) < n)
    (hrun : Run (Step env) c (received ((p, o) :: segs)) c') :
    ∃ ps last, Taken n ps last (bodyEffects c.net.log) c' ∧
      (bodyChunks ((hs.queue p).body hdrLen) segs = ps ++ [last] ∨
        n = 0 ∧ bodyChunks ((hs.queue p).body hdrLen) segs = []) := by
  have hheader := httpRecv_header env o hsome hhandle hfile hleft hparse
  cases hrun with
  | cons hstep hrest =>
    obtain ⟨-, rfl⟩ := hstep
    rcases List.eq_nil_or_concat' segs with rfl | ⟨init, s, rfl⟩
    · cases hrest
      simp only [bodyChunks, List.map_nil, List.append_nil] at hwhole ⊢
      exact hheader.2 hwhole
    · have hshort := hneeded (by simp)
      simp only [List.dropLast_concat, bodyChunks, List.map_append, List.map_singleton,
        total_append, total_singleton] at hwhole hshort ⊢
      rw [List.map_append, List.map_singleton] at hrest
      obtain ⟨c₂, hinit, hlast⟩ := hrest.append_inv
      cases hlast with
      | cons hstep hdone =>
        obtain ⟨-, rfl⟩ := hstep
        cases hdone
        have htaking := (hheader.1 (by omega)).run hinit hshort
        have hend := (htaking.recv s.1 env s.2 (by rw [total_append]; exact hshort)).2
          (by rw [total_append]; omega)
        exact ⟨_, s.1, hend, .inl (by rw [List.append_assoc])⟩

/-- The body reaches the handler intact if and only if it is empty, or all chunks lie in one
buffer each and the last one, no longer than the body, holds the last bytes of it. -/
theorem post_body_intact_iff {c c' : Conn} {p : Pbuf} {segs : List (Pbuf × Outside)}
    {uri : List UInt8} {n hdrLen : Nat} (hsome : c.hs = some hs) (hhandle : hs.handle = none)
    (hfile : hs.file = none) (hleft : hs.postContentLenLeft = 0)
    (hparse : parseRequest env.settings o.leftover (hs.queue p) = .post uri n hdrLen)
    (hwhole : n ≤ total (bodyChunks ((hs.queue p).body hdrLen) segs))
    (hneeded : segs ≠ [] → total (bodyChunks ((hs.queue p).body hdrLen) segs.dropLast) < n)
    (hrun : Run (Step env) c (received ((p, o) :: segs)) c') :
    ∃ es, bodyEffects c'.net.log = bodyEffects c.net.log ++ es ∧
      (∃ content, .processPostData content ∈ es) ∧
      (BodyIntact n (bodyOf n (bodyChunks ((hs.queue p).body hdrLen) segs)) es ↔
        n = 0 ∨ Single (bodyChunks ((hs.queue p).body hdrLen) segs) ∧
          ∀ last ∈ (bodyChunks ((hs.queue p).body hdrLen) segs).getLast?,
            last.totLen ≤ n ∧
              last.bytes =
                (bodyOf n (bodyChunks ((hs.queue p).body hdrLen) segs)).drop (n - last.totLen)) := by
  obtain ⟨ps, last, ⟨es, content, hes, hfinished⟩, hchunks⟩ :=
    taken_of_run hsome hhandle hfile hleft hparse hwhole hneeded hrun
  refine ⟨es, hes, ⟨content, by rw [hfinished.effects]; simp⟩, ?_⟩
  rcases hchunks with hchunks | ⟨hzero, hchunks⟩
  · rw [hchunks, hfinished.intact_iff]
    simp
  · have hintact := hfinished.intact_iff.mpr (.inl hzero)
    subst hzero
    simpa [hchunks, bodyOf] using hintact

section Sample

/-- A body of three bytes, two of them in a second buffer of the chain: they are not read. -/
theorem post_body_chained :
    ∃ c, Run (Step sampleEnv) httpAccept
        (received [({ sampleRequest [97] with next := [[98, 99]] }, sampleOutside 11680)]) c ∧
      .processPostData [some 97, none, none] ∈ bodyEffects c.net.log ∧
      ¬ BodyIntact 3 [97, 98, 99] (bodyEffects c.net.log) := by
  refine ⟨_, .single ⟨trivial, rfl⟩, by decide, fun h => ?_⟩
  exact absurd (h.1 [some 97, none, none] (by decide)) (by decide)

theorem post_body_segments :
    ∃ c, Run (Step sampleEnv) httpAccept
        (received [(sampleRequest [97, 98], sampleOutside 11680),
          ({ payload := [99], next := [] }, sampleOutside 11680)]) c ∧
      BodyIntact 3 [97, 98, 99] (bodyEffects c.net.log) := by
  let segs : List (Pbuf × Outside) := [({ payload := [99], next := [] }, sampleOutside 11680)]
  have hparse : parseRequest sampleSettings ⟨0, []⟩ (sampleRequest [97, 98]) =
      .post (ascii "/restart.cgi") 3 64 := by decide
  have hchunks : bodyChunks ((sampleRequest [97, 98]).body 64) segs =
      [{ payload := [97, 98], next := [] }, { payload := [99], next := [] }] := rfl
  obtain ⟨c, hrun⟩ : ∃ c, Run (Step sampleEnv) httpAccept
      (received ((sampleRequest [97, 98], sampleOutside 11680) :: segs)) c :=
    ⟨_, .cons ⟨trivial, rfl⟩ (.single ⟨trivial, rfl⟩)⟩
  obtain ⟨es, hes, -, hiff⟩ := post_body_intact_iff (c := httpAccept) rfl rfl rfl rfl hparse
    (by decide) (by decide) hrun
  refine ⟨c, hrun, ?_⟩
  have hsingle : Single (bodyChunks ((sampleRequest [97, 98]).body 64) segs) := by
    rw [hchunks]
    simp [Single, Pbuf.totLen, Pbuf.bytes, Pbuf.len]
  have hintact := hiff.mpr (.inr ⟨hsingle, fun last hlast => ?_⟩)
  · rwa [hes]
  · obtain rfl := Option.mem_some.mp hlast
    exact ⟨by decide, by decide⟩

end Sample

end RadProt.Http
