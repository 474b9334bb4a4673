import Mathlib.Data.List.ReduceOption
import RadProt.Http.Callbacks

namespace RadProt.Http

open RadProt.Lib

def Memory.Owned : Memory → Prop
  | .hdrCustom => True
  | .response _ => True
  | _ => False

namespace HttpState

def pending (hs : HttpState) : List Text :=
  match hs.hdrs.toList.drop hs.hdrIndex with
  | [] => []
  | t :: ts =>
    (t.map fun t => { t with bytes := t.bytes.drop hs.hdrPos }).toList ++ ts.reduceOption

def headerLeft (hs : HttpState) : Nat := (hs.pending.map fun t => t.bytes.length).sum

def outgoing (hs : HttpState) : List Text :=
  hs.pending ++ (hs.file.map fun t => { t with bytes := t.bytes.take hs.left }).toList

def Unsent (hs : HttpState) (m : Memory) : Prop :=
  ∃ t ∈ hs.outgoing, t.memory = m ∧ t.bytes ≠ []

theorem mem_pending {hs : HttpState} {t : Text} :
    t ∈ hs.pending ↔ ∃ i text, hs.hdrs.toList[hs.hdrIndex + i]? = some (some text) ∧
      t = { text with bytes := text.bytes.drop (if i = 0 then hs.hdrPos else 0) } := by
  simp only [pending, ← List.getElem?_drop]
  cases hs.hdrs.toList.drop hs.hdrIndex with
  | nil => simp
  | cons first rest =>
    rw [List.mem_append, Option.mem_toList, Option.map_eq_some_iff, List.reduceOption_mem_iff,
      List.mem_iff_getElem?]
    constructor
    · rintro (⟨text, rfl, rfl⟩ | ⟨i, hi⟩)
      · exact ⟨0, text, rfl, by simp⟩
      · exact ⟨i + 1, t, by simpa using hi, by simp⟩
    · rintro ⟨i, text, hi, rfl⟩
      cases i with
      | zero => exact .inl ⟨text, by simpa using hi, by simp⟩
      | succ i => exact .inr ⟨i, by simpa using hi⟩

theorem pending_of_le {hs : HttpState} (h : numFileHdrStrings ≤ hs.hdrIndex) : hs.pending = [] := by
  have hdrop : hs.hdrs.toList.drop hs.hdrIndex = [] := by
    simpa [numFileHdrStrings] using h
  simp [pending, hdrop]

theorem headerLeft_of_le {hs : HttpState} (h : numFileHdrStrings ≤ hs.hdrIndex) :
    hs.headerLeft = 0 := by
  simp [headerLeft, pending_of_le h]

theorem pending_cons {hs : HttpState} {text : Text}
    (h : hs.hdrs.toList[hs.hdrIndex]? = some (some text)) :
    hs.pending = { text with bytes := text.bytes.drop hs.hdrPos } ::
      (hs.hdrs.toList.drop (hs.hdrIndex + 1)).reduceOption := by
  obtain ⟨hi, hget⟩ := List.getElem?_eq_some_iff.mp h
  rw [pending, List.drop_eq_getElem_cons hi, hget]
  rfl

theorem pending_of_hdrPos {hs : HttpState} (h : hs.hdrPos = 0) :
    hs.pending = (hs.hdrs.toList.drop hs.hdrIndex).reduceOption := by
  rw [pending]
  cases hs.hdrs.toList.drop hs.hdrIndex with
  | nil => rfl
  | cons first rest => cases first <;> simp [h]

end HttpState

theorem reduceOption_drop_findIdx {α : Type*} (l : List (Option α)) :
    (l.drop (l.findIdx (·.isSome))).reduceOption = l.reduceOption := by
  induction l with
  | nil => rfl
  | cons first rest ih => cases first <;> simp [List.findIdx_cons, ih]

theorem HttpState.pending_skipNull {hs : HttpState} {i : Nat}
    (index : hs.hdrIndex = skipNull hs.hdrs i) (pos : hs.hdrPos = 0) :
    hs.pending = (hs.hdrs.toList.drop i).reduceOption := by
  rw [pending_of_hdrPos pos, index, skipNull, ← List.drop_drop, reduceOption_drop_findIdx]

/-- What sending does: it hands over unsent bytes and leaves the rest of the state alone. -/
structure Sends (hs : HttpState) (net : Net) (hs' : HttpState) (net' : Net) : Prop where
  handle : hs'.handle = hs.handle
  file : hs'.file.map Text.memory = hs.file.map Text.memory
  req : hs'.req = hs.req
  retries : hs'.retries = hs.retries
  postUri : hs'.postUri = hs.postUri
  postContent : hs'.postContent = hs.postContent
  postContentLen : hs'.postContentLen = hs.postContentLen
  postContentLenLeft : hs'.postContentLenLeft = hs.postContentLenLeft
  postResponseBuf : hs'.postResponseBuf = hs.postResponseBuf
  unsent : ∀ m, m.Owned → hs'.Unsent m → hs.Unsent m
  written : ∃ ws, net'.unacked = net.unacked ++ ws ∧ ∀ r ∈ ws, r.memory.Owned → hs.Unsent r.memory
  current : net'.current = net.current
  nextId : net'.nextId = net.nextId
  log : ∃ k, net'.log = net.log ++ .replicate k .nullBytesLeft

namespace Sends

variable {hs hs' hs'' : HttpState} {net net' net'' : Net}

theorem refl (hs : HttpState) (net : Net) : Sends hs net hs net where
  handle := rfl
  file := rfl
  req := rfl
  retries := rfl
  postUri := rfl
  postContent := rfl
  postContentLen := rfl
  postContentLenLeft := rfl
  postResponseBuf := rfl
  unsent _ _ h := h
  written := ⟨[], by simp, by simp⟩
  current := rfl
  nextId := rfl
  log := ⟨0, by simp⟩

theorem trans (h : Sends hs net hs' net') (k : Sends hs' net' hs'' net'') :
    Sends hs net hs'' net'' where
  handle := k.handle.trans h.handle
  file := k.file.trans h.file
  req := k.req.trans h.req
  retries := k.retries.trans h.retries
  postUri := k.postUri.trans h.postUri
  postContent := k.postContent.trans h.postContent
  postContentLen := k.postContentLen.trans h.postContentLen
  postContentLenLeft := k.postContentLenLeft.trans h.postContentLenLeft
  postResponseBuf := k.postResponseBuf.trans h.postResponseBuf
  unsent m hm hu := h.unsent m hm (k.unsent m hm hu)
  written := by
    obtain ⟨ws, hws, hown⟩ := h.written
    obtain ⟨ws', hws', hown'⟩ := k.written
    refine ⟨ws ++ ws', by rw [hws', hws, List.append_assoc], fun r hr hm => ?_⟩
    rcases List.mem_append.mp hr with hr | hr
    · exact hown r hr hm
    · exact h.unsent _ hm (hown' r hr hm)
  current := k.current.trans h.current
  nextId := k.nextId.trans h.nextId
  log := by
    obtain ⟨n, hn⟩ := h.log
    obtain ⟨n', hn'⟩ := k.log
    exact ⟨n + n', by rw [hn', hn, List.append_assoc, List.replicate_append_replicate]⟩

end Sends

theorem Net.write_unacked (net : Net) (m : Memory) (copied : Bool) (bytes : List UInt8) :
    ∃ ws, (net.write m copied bytes).unacked = net.unacked ++ ws ∧
      ∀ r ∈ ws, r.memory = m ∧ r.bytes = bytes ∧ bytes ≠ [] := by
  simp only [Net.write]
  split
  next h => exact ⟨[], by simp, by simp⟩
  next h => exact ⟨[⟨m, copied, bytes⟩], rfl, by simp [h]⟩

@[simp] theorem Net.write_log (net : Net) (m : Memory) (copied : Bool) (bytes : List UInt8) :
    (net.write m copied bytes).log = net.log := by
  simp only [Net.write]
  split <;> rfl

@[simp] theorem Net.write_current (net : Net) (m : Memory) (copied : Bool) (bytes : List UInt8) :
    (net.write m copied bytes).current = net.current := by
  simp only [Net.write]
  split <;> rfl

@[simp] theorem Net.write_nextId (net : Net) (m : Memory) (copied : Bool) (bytes : List UInt8) :
    (net.write m copied bytes).nextId = net.nextId := by
  simp only [Net.write]
  split <;> rfl

theorem httpWrite_le (length room maxWriteLen : Nat) : httpWrite length room maxWriteLen ≤ length := by
  simp only [httpWrite]
  omega

theorem httpWrite_le_room (length room maxWriteLen : Nat) :
    httpWrite length room maxWriteLen ≤ room := by
  simp only [httpWrite]
  omega

section Headers

variable {o : Outside} {hs hs' : HttpState} {net net' : Net}

theorem Sends.header {t : Text} {rest : List Text} {i pos k : Nat} {copied : Bool}
    (hpending : hs.pending = t :: rest)
    (hpending' : { hs with hdrIndex := i, hdrPos := pos }.pending = rest ∨
      { hs with hdrIndex := i, hdrPos := pos }.pending = { t with bytes := t.bytes.drop k } :: rest) :
    Sends hs net { hs with hdrIndex := i, hdrPos := pos }
      (net.write t.memory copied (t.bytes.take k)) where
  handle := rfl
  file := rfl
  req := rfl
  retries := rfl
  postUri := rfl
  postContent := rfl
  postContentLen := rfl
  postContentLenLeft := rfl
  postResponseBuf := rfl
  unsent m _ hu := by
    obtain ⟨t', ht', rfl, hne⟩ := hu
    rcases List.mem_append.mp ht' with ht' | ht'
    · have hcases : t' ∈ rest ∨ t' = { t with bytes := t.bytes.drop k } := by
        rcases hpending' with h | h <;> rw [h] at ht'
        · exact .inl ht'
        · exact (List.mem_cons.mp ht').symm
      rcases hcases with hrest | rfl
      · exact ⟨t', List.mem_append_left _ (by simp [hpending, hrest]), rfl, hne⟩
      · exact ⟨t, List.mem_append_left _ (by simp [hpending]), rfl,
          fun h => hne (by simp [h])⟩
    · exact ⟨t', List.mem_append_right _ ht', rfl, hne⟩
  written := by
    obtain ⟨ws, hws, hall⟩ := net.write_unacked t.memory copied (t.bytes.take k)
    refine ⟨ws, hws, fun r hr _ => ?_⟩
    obtain ⟨hm, -, hne⟩ := hall r hr
    exact ⟨t, List.mem_append_left _ (by simp [hpending]), hm.symm, fun h => hne (by simp [h])⟩
  current := net.write_current _ _ _
  nextId := net.write_nextId _ _ _
  log := ⟨0, by simp⟩

theorem sendHeader_spec {room k : Nat} (h : sendHeader o hs net room = (hs', net', k)) :
    Sends hs net hs' net' ∧ hs.headerLeft = hs'.headerLeft + k ∧ k ≤ room ∧
      hs'.left = hs.left ∧ hs'.file = hs.file := by
  unfold sendHeader at h
  split at h
  next =>
    obtain ⟨rfl, rfl, rfl⟩ := by simpa using h
    exact ⟨.refl hs net, rfl, Nat.zero_le _, rfl, rfl⟩
  next text hjoin =>
    have hget : hs.hdrs.toList[hs.hdrIndex]? = some (some text) := by
      simpa [Option.join_eq_some_iff] using hjoin
    have hpending := HttpState.pending_cons hget
    have hwrite := httpWrite_le (text.bytes.length - hs.hdrPos) room o.maxWriteLen
    have hroom := httpWrite_le_room (text.bytes.length - hs.hdrPos) room o.maxWriteLen
    dsimp only at h
    split at h
    next hend =>
      obtain ⟨rfl, rfl, rfl⟩ := by simpa using h
      let hs₁ : HttpState :=
        { hs with hdrIndex := skipNull hs.hdrs (hs.hdrIndex + 1), hdrPos := 0 }
      have hpending' : hs₁.pending = (hs.hdrs.toList.drop (hs.hdrIndex + 1)).reduceOption :=
        HttpState.pending_skipNull rfl rfl
      refine ⟨.header hpending (.inl hpending'), ?_, hroom, rfl, rfl⟩
      change hs.headerLeft = hs₁.headerLeft + _
      simp only [HttpState.headerLeft, hpending, hpending', List.map_cons, List.sum_cons,
        List.length_drop]
      omega
    next hmore =>
      obtain ⟨rfl, rfl, rfl⟩ := by simpa using h
      let k := httpWrite (text.bytes.length - hs.hdrPos) room o.maxWriteLen
      let hs₁ : HttpState := { hs with hdrPos := hs.hdrPos + k }
      have hpending' : hs₁.pending = { text with bytes := text.bytes.drop (hs.hdrPos + k) } ::
          (hs.hdrs.toList.drop (hs.hdrIndex + 1)).reduceOption :=
        HttpState.pending_cons hget
      refine ⟨.header hpending (.inr ?_), ?_, hroom, rfl, rfl⟩
      · rw [hpending', List.drop_drop]
      · change hs.headerLeft = hs₁.headerLeft + k
        simp only [HttpState.headerLeft, hpending, hpending', List.map_cons, List.sum_cons,
          List.length_drop]
        omega

theorem sendHeaders_spec {rounds room room' : Nat}
    (h : sendHeaders o rounds hs net room = (hs', net', room')) :
    Sends hs net hs' net' ∧ hs.headerLeft + room' ≤ hs'.headerLeft + room ∧
      hs'.left = hs.left ∧ hs'.file = hs.file := by
  induction rounds generalizing hs net room with
  | zero =>
    obtain ⟨rfl, rfl, rfl⟩ := by simpa [sendHeaders] using h
    exact ⟨.refl hs net, le_rfl, rfl, rfl⟩
  | succ rounds ih =>
    simp only [sendHeaders] at h
    split at h
    next =>
      obtain ⟨rfl, rfl, rfl⟩ := by simpa using h
      exact ⟨.refl hs net, le_rfl, rfl, rfl⟩
    next =>
      obtain ⟨hs₁, net₁, k, hk⟩ : ∃ hs₁ net₁ k, sendHeader o hs net room = (hs₁, net₁, k) :=
        ⟨_, _, _, rfl⟩
      obtain ⟨hsends, hleft, hroom, hl, hf⟩ := sendHeader_spec hk
      rw [hk] at h
      dsimp only at h
      split at h
      next hzero =>
        obtain ⟨rfl, rfl, rfl⟩ := by simpa using h
        exact ⟨hsends, by omega, hl, hf⟩
      next =>
        obtain ⟨hsends', hleft', hl', hf'⟩ := ih h
        exact ⟨hsends.trans hsends', by omega, hl'.trans hl, hf'.trans hf⟩

theorem Sends.hdrs {hdrs : Vector (Option Text) 6}
    (h : ∀ (i : Nat) (t : Text), hdrs.toList[i]? = some (some t) → t.memory.Owned →
      hs.hdrs.toList[i]? = some (some t)) :
    Sends hs net { hs with hdrs } net where
  handle := rfl
  file := rfl
  req := rfl
  retries := rfl
  postUri := rfl
  postContent := rfl
  postContentLen := rfl
  postContentLenLeft := rfl
  postResponseBuf := rfl
  unsent m hm hu := by
    obtain ⟨t', ht', rfl, hne⟩ := hu
    rcases List.mem_append.mp ht' with ht' | ht'
    · obtain ⟨i, text, hi, rfl⟩ := HttpState.mem_pending.mp ht'
      have hpending := HttpState.mem_pending.mpr ⟨i, text, h _ _ hi hm, rfl⟩
      exact ⟨_, List.mem_append_left _ hpending, rfl, hne⟩
    · exact ⟨t', List.mem_append_right _ ht', rfl, hne⟩
  written := ⟨[], by simp, by simp⟩
  current := rfl
  nextId := rfl
  log := ⟨0, by simp⟩

theorem contentLengthText_memory {len : Nat} {text : Text} (h : contentLengthText len = some text) :
    text.memory = .hdrContentLen := by
  simp only [contentLengthText, Option.ite_none_right_eq_some, Option.some.injEq] at h
  rw [← h.2]

theorem headerString_memory (env : Env) (s : HeaderString) : (headerString env s).memory = .rom := by
  cases s <;> rfl

theorem setUpHeaders_sends (env : Env) (hs : HttpState) (net : Net) :
    Sends hs net (setUpHeaders env hs) net := by
  simp only [setUpHeaders, getHttpContentLength]
  split
  · split
    · exact .refl hs net
    next f hf =>
      split
      · split
        next text htext =>
          refine .hdrs fun i t hi hm => ?_
          simp only [Vector.toList_setIfInBounds, List.getElem?_set] at hi
          split at hi
          · obtain ⟨-, rfl⟩ := by simpa using hi
            simp [headerString_memory, Memory.Owned] at hm
          · split at hi
            · obtain ⟨-, rfl⟩ := by simpa using hi
              simp [contentLengthText_memory htext, Memory.Owned] at hm
            · exact hi
        · exact .refl hs net
      · exact .refl hs net
  · exact .refl hs net

theorem setUpHeaders_data (env : Env) (hs : HttpState) :
    (setUpHeaders env hs).left = hs.left ∧ (setUpHeaders env hs).file = hs.file := by
  simp only [setUpHeaders, getHttpContentLength]
  split
  · split
    · exact ⟨rfl, rfl⟩
    · split
      · split <;> exact ⟨rfl, rfl⟩
      · exact ⟨rfl, rfl⟩
  · exact ⟨rfl, rfl⟩

end Headers

def headersToSend (env : Env) (hs : HttpState) : Nat :=
  if hs.hdrIndex < numFileHdrStrings then (setUpHeaders env hs).headerLeft else 0

/-- The send buffer takes all that is left of the response, and the response is over then. -/
def Ends (env : Env) (o : Outside) (hs : HttpState) : Prop :=
  headersToSend env hs ≤ o.sndbuf ∧
    ((hs.file = none ∨ hs.left = 0) ∧ httpCheckEof env hs = false ∨
      headersToSend env hs + hs.left ≤ o.sndbuf ∧ hs.left ≤ 65535 ∧ hs.left ≤ o.maxWriteLen ∧
        fsBytesLeft env hs.handle ≤ 0)

instance (env : Env) (o : Outside) (hs : HttpState) : Decidable (Ends env o hs) :=
  inferInstanceAs (Decidable (_ ∧ _))

section Send

variable {env : Env} {o : Outside} {hs : HttpState} {net : Net}

theorem httpCheckEof_congr (env : Env) {hs' : HttpState} (h : hs'.handle = hs.handle) :
    httpCheckEof env hs' = httpCheckEof env hs := by
  rw [httpCheckEof, httpCheckEof, h]

theorem Sends.data {t : Text} {len : Nat} (hfile : hs.file = some t) (hlen : len ≤ hs.left) :
    Sends hs net
      { hs with file := some { t with bytes := t.bytes.drop len }, left := hs.left - len }
      (net.write t.memory false (t.bytes.take len)) where
  handle := rfl
  file := by simp [hfile]
  req := rfl
  retries := rfl
  postUri := rfl
  postContent := rfl
  postContentLen := rfl
  postContentLenLeft := rfl
  postResponseBuf := rfl
  unsent m _ hu := by
    obtain ⟨t', ht', rfl, hne⟩ := hu
    rcases List.mem_append.mp ht' with ht' | ht'
    · exact ⟨t', List.mem_append_left _ ht', rfl, hne⟩
    · obtain rfl : t' = { t with bytes := (t.bytes.drop len).take (hs.left - len) } := by
        simpa using ht'
      refine ⟨{ t with bytes := t.bytes.take hs.left }, List.mem_append_right _ ?_, rfl, ?_⟩
      · simp [hfile]
      · rw [List.take_drop, Nat.add_sub_of_le hlen] at hne
        intro h
        have hnil : t.bytes.take hs.left = [] := h
        exact hne (by rw [hnil, List.drop_nil])
  written := by
    obtain ⟨ws, hws, hall⟩ := net.write_unacked t.memory false (t.bytes.take len)
    refine ⟨ws, hws, fun r hr _ => ?_⟩
    obtain ⟨hm, -, hne⟩ := hall r hr
    refine ⟨{ t with bytes := t.bytes.take hs.left }, List.mem_append_right _ ?_, hm.symm, ?_⟩
    · simp [hfile]
    · intro h
      have hnil : t.bytes.take hs.left = [] := h
      exact hne (by rw [← Nat.min_eq_left hlen, ← List.take_take, hnil, List.take_nil])
  current := net.write_current _ _ _
  nextId := net.write_nextId _ _ _
  log := ⟨0, by simp⟩

theorem Sends.noData (h : hs.file = none) (left : Nat) : Sends hs net { hs with left } net where
  handle := rfl
  file := rfl
  req := rfl
  retries := rfl
  postUri := rfl
  postContent := rfl
  postContentLen := rfl
  postContentLenLeft := rfl
  postResponseBuf := rfl
  unsent m _ hu := by
    obtain ⟨t, ht, rfl, hne⟩ := hu
    rcases List.mem_append.mp ht with ht | ht
    · exact ⟨t, List.mem_append_left _ ht, rfl, hne⟩
    · simp [h] at ht
  written := ⟨[], by simp, by simp⟩
  current := rfl
  nextId := rfl
  log := ⟨0, by simp⟩

theorem Sends.nullBytesLeft : Sends hs net hs (net.emit .nullBytesLeft) where
  handle := rfl
  file := rfl
  req := rfl
  retries := rfl
  postUri := rfl
  postContent := rfl
  postContentLen := rfl
  postContentLenLeft := rfl
  postResponseBuf := rfl
  unsent _ _ h := h
  written := ⟨[], by simp, by simp⟩
  current := rfl
  nextId := rfl
  log := ⟨1, rfl⟩

theorem httpSendDataNonssi_spec {hs' : HttpState} {net' : Net} {room : Nat}
    (h : httpSendDataNonssi o hs net room = (hs', net')) :
    Sends hs net hs' net' ∧
      (hs'.left = 0 → hs.left ≤ room ∧ hs.left ≤ 65535 ∧ hs.left ≤ o.maxWriteLen) := by
  have hlen : httpWrite (min hs.left 65535) room o.maxWriteLen ≤ hs.left := by
    simp only [httpWrite]
    omega
  simp only [httpSendDataNonssi] at h
  split at h
  next t hfile =>
    obtain ⟨rfl, rfl⟩ := by simpa using h
    exact ⟨.data hfile hlen, fun hzero => by simp only [httpWrite] at hzero; omega⟩
  next hfile =>
    obtain ⟨rfl, rfl⟩ := by simpa using h
    exact ⟨.noData hfile _, fun hzero => by simp only [httpWrite] at hzero; omega⟩

theorem httpSendData_cases (env : Env) (o : Outside) (hs : HttpState) (net : Net) (room : Nat) :
    (∃ hs' net', Sends hs net hs' net' ∧
      httpSendData env o hs net room = { hs := some hs', net := net' }) ∨
    ((hs.left = 0 ∧ httpCheckEof env hs = false ∨
        hs.left ≤ room ∧ hs.left ≤ 65535 ∧ hs.left ≤ o.maxWriteLen ∧
          fsBytesLeft env hs.handle ≤ 0) ∧
      ∃ hs' net', Sends hs net hs' net' ∧
        httpSendData env o hs net room = httpCloseConn env o (some hs') net') := by
  rw [httpSendData]
  split
  next hend => exact .inr ⟨.inl hend, hs, net, .refl hs net, rfl⟩
  next =>
    obtain ⟨hs₁, net₁, hdata⟩ : ∃ hs₁ net₁, httpSendDataNonssi o hs net room = (hs₁, net₁) :=
      ⟨_, _, rfl⟩
    obtain ⟨hsends, hroom⟩ := httpSendDataNonssi_spec hdata
    rw [hdata]
    dsimp only
    split
    next hzero =>
      have hsends' : Sends hs net hs₁
          (if hs₁.handle.isNone then net₁.emit .nullBytesLeft else net₁) := by
        split
        · exact hsends.trans .nullBytesLeft
        · exact hsends
      split
      next hle =>
        obtain ⟨hr, hmax, hmss⟩ := hroom hzero
        exact .inr ⟨.inr ⟨hr, hmax, hmss, hsends.handle ▸ hle⟩, _, _, hsends', rfl⟩
      next => exact .inl ⟨_, _, hsends', rfl⟩
    next => exact .inl ⟨_, _, hsends, rfl⟩

theorem httpSend_cases (env : Env) (o : Outside) (hs : HttpState) (net : Net) :
    (∃ hs' net', Sends hs net hs' net' ∧
      httpSend env o hs net = { hs := some hs', net := net' }) ∨
    (Ends env o hs ∧ ∃ hs' net', Sends hs net hs' net' ∧
      httpSend env o hs net = httpCloseConn env o (some hs') net') := by
  rw [httpSend]
  split
  next hindex =>
    obtain ⟨hs₁, net₁, room, hheaders⟩ : ∃ hs₁ net₁ room,
        sendHeaders o o.sndbuf (setUpHeaders env hs) net o.sndbuf = (hs₁, net₁, room) :=
      ⟨_, _, _, rfl⟩
    obtain ⟨hsends, hroom, hleft, hfile⟩ := sendHeaders_spec hheaders
    obtain ⟨hleft₀, hfile₀⟩ := setUpHeaders_data env hs
    have hsends₁ := (setUpHeaders_sends env hs net).trans hsends
    have heof := httpCheckEof_congr env hsends₁.handle
    rw [hheaders]
    dsimp only
    split
    next => exact .inl ⟨_, _, hsends₁, rfl⟩
    next hdone =>
      have hout : headersToSend env hs + room ≤ o.sndbuf := by
        rw [HttpState.headerLeft_of_le (Nat.le_of_not_lt hdone)] at hroom
        rw [headersToSend, if_pos hindex]
        omega
      split
      next hend =>
        have hnone : hs.file = none := by rw [← hfile₀, ← hfile]; simpa using hend.1
        exact .inr ⟨⟨by omega, .inl ⟨.inl hnone, heof ▸ hend.2⟩⟩, _, _, hsends₁, rfl⟩
      next =>
        obtain ⟨hs₂, net₂, hsends₂, heq⟩ | ⟨hwhy, hs₂, net₂, hsends₂, heq⟩ :=
          httpSendData_cases env o hs₁ net₁ room
        · exact .inl ⟨_, _, hsends₁.trans hsends₂, heq⟩
        · refine .inr ⟨⟨by omega, ?_⟩, _, _, hsends₁.trans hsends₂, heq⟩
          rw [hleft, hleft₀, heof, hsends₁.handle] at hwhy
          rcases hwhy with ⟨hzero, heof⟩ | ⟨hr, hmax, hmss, hbytes⟩
          · exact .inl ⟨.inr hzero, heof⟩
          · exact .inr ⟨by omega, hmax, hmss, hbytes⟩
  next hindex =>
    have hout : headersToSend env hs = 0 := by rw [headersToSend, if_neg hindex]
    obtain ⟨hs₂, net₂, hsends₂, heq⟩ | ⟨hwhy, hs₂, net₂, hsends₂, heq⟩ :=
      httpSendData_cases env o hs net o.sndbuf
    · exact .inl ⟨_, _, hsends₂, heq⟩
    · refine .inr ⟨⟨by omega, ?_⟩, _, _, hsends₂, heq⟩
      rcases hwhy with ⟨hzero, heof⟩ | ⟨hr, hmax, hmss, hbytes⟩
      · exact .inl ⟨.inr hzero, heof⟩
      · exact .inr ⟨by omega, hmax, hmss, hbytes⟩

end Send

end RadProt.Http
