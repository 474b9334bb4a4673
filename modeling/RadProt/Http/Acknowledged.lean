import RadProt.Http.Buffers
import RadProt.Http.Ownership
import RadProt.Http.Serving

namespace RadProt.Http

open RadProt.Lib

def HttpState.Redirects (hs : HttpState) : Prop :=
  hs.hdrs[0].map Text.memory = some .hdrCustom

instance (hs : HttpState) : Decidable hs.Redirects := inferInstanceAs (Decidable (_ = _))

def HttpState.behindCustom (hs : HttpState) : Nat :=
  if hs.hdrIndex = 0 then 0
  else
    ((hs.hdrs.toList.take hs.hdrIndex).tail.reduceOption.map fun t => t.bytes.length).sum +
      hs.hdrPos

/-- TCP has been given a part of the body: less of it is left than `Content-Length` says. -/
def HttpState.BodyBegun (hs : HttpState) : Prop :=
  hs.postResponseBuf.isSome ∧ hs.hdrs[3] ≠ contentLengthText hs.left

instance (hs : HttpState) : Decidable hs.BodyBegun := inferInstanceAs (Decidable (_ ∧ _))

/-- Acknowledgements have come far enough into the response: nothing is outstanding of a body, and
of a redirect only what stands behind its first line. -/
def HttpState.Settled (hs : HttpState) (unackedLen : Nat) : Prop :=
  (hs.BodyBegun → unackedLen = 0) ∧ (hs.Redirects → unackedLen ≤ hs.behindCustom)

instance (hs : HttpState) (unackedLen : Nat) : Decidable (hs.Settled unackedLen) :=
  inferInstanceAs (Decidable (_ ∧ _))

/-- Where this send is the last one, the response is settled, and neither a body nor the first line
of a redirect is still to be handed over. -/
def SendSettled (env : Env) (o : Outside) (hs : HttpState) (unackedLen : Nat) : Prop :=
  Ends env o hs →
    hs.Settled unackedLen ∧ (hs.postResponseBuf.isSome → hs.left = 0) ∧
      (hs.Redirects → 0 < hs.hdrIndex)

instance (env : Env) (o : Outside) (hs : HttpState) (unackedLen : Nat) :
    Decidable (SendSettled env o hs unackedLen) := inferInstanceAs (Decidable (_ → _))

/-- A response is prepared in place of the one before: the new one may be sent, and a redirect that
it takes the place of is far enough. -/
def AnswerSettled (env : Env) (o : Outside) (hs hs' : HttpState) (unackedLen : Nat) : Prop :=
  SendSettled env o hs' unackedLen ∧
    (hs.Redirects → ¬ hs'.Redirects → unackedLen ≤ hs.behindCustom)

instance (env : Env) (o : Outside) (hs hs' : HttpState) (unackedLen : Nat) :
    Decidable (AnswerSettled env o hs hs' unackedLen) := inferInstanceAs (Decidable (_ ∧ _))

instance (hs : HttpState) : Decidable hs.HasHandler := inferInstanceAs (Decidable (_ = _))

def PostSettled (env : Env) (o : Outside) (hs : HttpState) (net : Net) : Prop :=
  (hs.HasHandler →
    AnswerSettled env o hs (httpdPostResponse env hs net net.nextId o.response) net.unackedLen) ∧
  (¬ hs.HasHandler → SendSettled env o hs net.unackedLen)

instance (env : Env) (o : Outside) (hs : HttpState) (net : Net) :
    Decidable (PostSettled env o hs net) := inferInstanceAs (Decidable (_ ∧ _))

/-- What the parser makes of a request decides which response is prepared, and whether one is. -/
def Parsed.Settled (env : Env) (o : Outside) (hs : HttpState) (net : Net) (req : Pbuf) :
    Parsed → Prop
  | .inProgress => True
  | .incomplete => hs.Settled net.unackedLen
  | .badRequest => hs.Settled net.unackedLen
  | .redirect => AnswerSettled env o hs (httpRedirect env hs) net.unackedLen
  | .file uri is09 => AnswerSettled env o hs (httpFindFile env hs uri is09) net.unackedLen
  | .post uri contentLen hdrLen =>
    contentLen ≤ ((req.body hdrLen).getD .empty).totLen →
      PostSettled env o (httpdPostBegin hs net uri contentLen).1
        (httpdPostBegin hs net uri contentLen).2

instance (env : Env) (o : Outside) (hs : HttpState) (net : Net) (req : Pbuf) :
    DecidablePred (Parsed.Settled env o hs net req)
  | .inProgress => inferInstanceAs (Decidable True)
  | .incomplete => inferInstanceAs (Decidable (hs.Settled _))
  | .badRequest => inferInstanceAs (Decidable (hs.Settled _))
  | .redirect => inferInstanceAs (Decidable (AnswerSettled _ _ _ _ _))
  | .file _ _ => inferInstanceAs (Decidable (AnswerSettled _ _ _ _ _))
  | .post _ _ _ => inferInstanceAs (Decidable (_ → _))

/-- The data end a POST's body, or what has come in is parsed. -/
def HttpState.DataSettled (env : Env) (o : Outside) (hs : HttpState) (net : Net) (p : Pbuf) :
    Prop :=
  (0 < hs.postContentLenLeft → hs.postContentLenLeft ≤ p.totLen → PostSettled env o hs net) ∧
  (hs.Parses →
    (parseRequest env.settings o.leftover (hs.queue p)).Settled env o hs net (hs.queue p))

/-- No callback ends a response or closes the connection before the acknowledgements have come far
enough. -/
def AckedInTime (env : Env) (c : Conn) (e : Event) : Prop :=
  ∀ hs, c.hs = some hs →
    match e with
    | .recv (some p) true o => hs.DataSettled env o c.net p
    | .recv _ _ _ => hs.Settled c.net.unackedLen
    | .sent len o => SendSettled env o hs (c.net.unackedLen - len)
    | .poll o =>
      if hs.retries + 1 = httpdMaxRetries then hs.Settled c.net.unackedLen
      else hs.handle.isSome → SendSettled env o hs c.net.unackedLen
    | .err => True
    | .other => True

variable {env : Env} {o : Outside} {hs hs' : HttpState} {net net' : Net}

section Queue

def bytesIn (rs : List Range) : Nat := (rs.map fun r => r.bytes.length).sum

@[simp] theorem bytesIn_nil : bytesIn [] = 0 := rfl

@[simp] theorem bytesIn_cons (r : Range) (rs : List Range) :
    bytesIn (r :: rs) = r.bytes.length + bytesIn rs := by
  simp [bytesIn]

@[simp] theorem bytesIn_append (rs rs' : List Range) :
    bytesIn (rs ++ rs') = bytesIn rs + bytesIn rs' := by
  simp [bytesIn]

theorem Net.unackedLen_eq (net : Net) : net.unackedLen = bytesIn net.unacked := rfl

theorem bytesIn_ack (n : Nat) (rs : List Range) : bytesIn (ack n rs) = bytesIn rs - n := by
  induction rs generalizing n with
  | nil => cases n <;> simp [ack]
  | cons r rs ih =>
    cases n with
    | zero => rfl
    | succ n =>
      simp only [ack]
      split
      next hle =>
        rw [ih, bytesIn_cons]
        omega
      next hlt =>
        simp only [bytesIn_cons, List.length_drop]
        omega

theorem suffix_ack {n : Nat} {rs back : List Range} {r : Range} (h : r :: back <:+ ack n rs) :
    ∃ r₀, r₀ :: back <:+ rs ∧ r₀.memory = r.memory := by
  induction rs generalizing n with
  | nil => cases n <;> simp [ack] at h
  | cons first rest ih =>
    cases n with
    | zero => exact ⟨r, h, rfl⟩
    | succ n =>
      simp only [ack] at h
      split at h
      next =>
        obtain ⟨r₀, hr₀, hmemory⟩ := ih h
        exact ⟨r₀, hr₀.trans (List.suffix_cons _ _), hmemory⟩
      next =>
        rcases List.suffix_cons_iff.mp h with heq | h
        · obtain ⟨rfl, rfl⟩ := List.cons.inj heq
          exact ⟨first, List.suffix_rfl, rfl⟩
        · exact ⟨r, h.trans (List.suffix_cons _ _), rfl⟩

theorem nonempty_ack {n : Nat} {rs : List Range} (h : ∀ r ∈ rs, r.bytes ≠ []) :
    ∀ r ∈ ack n rs, r.bytes ≠ [] := by
  induction rs generalizing n with
  | nil => cases n <;> simp [ack]
  | cons first rest ih =>
    have hrest : ∀ r ∈ rest, r.bytes ≠ [] := fun r hr => h r (List.mem_cons_of_mem _ hr)
    cases n with
    | zero => exact h
    | succ n =>
      simp only [ack]
      split
      next => exact ih hrest
      next hlt =>
        intro r hr
        rcases List.mem_cons.mp hr with rfl | hr
        · simpa [List.drop_eq_nil_iff] using hlt
        · exact hrest r hr

variable {m : Memory} {copied : Bool} {bytes : List UInt8}

theorem mem_write {r : Range} (h : r ∈ (net.write m copied bytes).unacked) :
    r ∈ net.unacked ∨ r.memory = m ∧ r.bytes = bytes ∧ bytes ≠ [] := by
  obtain ⟨ws, hws, hall⟩ := net.write_unacked m copied bytes
  rw [hws] at h
  exact (List.mem_append.mp h).imp_right (hall r)

theorem suffix_write {r : Range} {back : List Range}
    (h : r :: back <:+ (net.write m copied bytes).unacked) :
    (∃ back₀, r :: back₀ <:+ net.unacked ∧ bytesIn back = bytesIn back₀ + bytes.length) ∨
      r.memory = m ∧ back = [] := by
  simp only [Net.write] at h
  split at h
  next hnil => exact .inl ⟨back, h, by simp [hnil]⟩
  next =>
    obtain hnil | ⟨front, hfront, hsuffix⟩ := List.suffix_concat_iff.mp h
    · cases hnil
    · cases front with
      | nil =>
        obtain ⟨rfl, rfl⟩ := List.cons.inj hfront
        exact .inr ⟨rfl, rfl⟩
      | cons first back₀ =>
        obtain ⟨rfl, rfl⟩ := List.cons.inj hfront
        exact .inl ⟨back₀, hsuffix, by simp⟩

end Queue

def CustomFirst (hdrs : Vector (Option Text) 6) : Prop :=
  ∀ (i : Nat) (t : Text), hdrs.toList[i]? = some (some t) → t.memory.Owned →
    i = 0 ∧ t.memory = .hdrCustom

theorem CustomFirst.setHdr {hdrs : Vector (Option Text) 6} (h : CustomFirst hdrs) {i : Nat}
    {text : Option Text} (htext : ∀ t, text = some t → ¬ t.memory.Owned) :
    CustomFirst (setHdr hdrs i text) := by
  intro j t hj howned
  rw [Vector.toList_setIfInBounds, List.getElem?_set] at hj
  split at hj
  next =>
    split at hj
    next => exact absurd howned (htext t (Option.some.inj hj))
    next => cases hj
  next => exact h j t hj howned

theorem CustomFirst.set {hdrs : Vector (Option Text) 6} (h : CustomFirst hdrs) (i : Nat)
    {text : Text} (htext : text.memory = .rom) : CustomFirst (Http.setHdr hdrs i (some text)) :=
  h.setHdr fun t ht => by simp [← Option.some.inj ht, htext, Memory.Owned]

theorem CustomFirst.unset {hdrs : Vector (Option Text) 6} (h : CustomFirst hdrs) (i : Nat) :
    CustomFirst (Http.setHdr hdrs i none) :=
  h.setHdr fun _ ht => by cases ht

/-- What TCP has been given of the connection's memory, in terms of the state. -/
structure Kept (hs : HttpState) (net : Net) : Prop where
  nonempty : ∀ r ∈ net.unacked, r.bytes ≠ []
  custom : ∀ r back, r :: back <:+ net.unacked → r.memory = .hdrCustom →
    hs.Redirects ∧ hs.behindCustom ≤ bytesIn back
  response : ∀ r ∈ net.unacked, ∀ id, r.memory = .response id → hs.BodyBegun
  strings : CustomFirst hs.hdrs
  file : ∀ t, hs.file = some t → t.memory.Owned →
    hs.postResponseBuf.isSome ∧ ∃ id, t.memory = .response id
  setUp : hs.Redirects → (hs.hdrs.get 2).isSome
  body : hs.postResponseBuf.isSome → hs.file.isSome ∧ (hs.hdrs.get 2).isSome ∧
    ∃ total < 65536, hs.hdrs[3] = contentLengthText total ∧ hs.left ≤ total

def Kept.Of (c : Conn) : Prop := ∀ hs, c.hs = some hs → Kept hs c.net

namespace Kept

theorem not_ownedUnacked (h : Kept hs net) (hsettled : hs.Settled net.unackedLen) :
    ¬ net.OwnedUnacked := by
  rintro ⟨r, hr, -, howned⟩
  obtain ⟨front, back, hsplit⟩ := List.append_of_mem hr
  have hpos := List.length_pos_of_ne_nil (h.nonempty r hr)
  have hlen : net.unackedLen = bytesIn front + (r.bytes.length + bytesIn back) := by
    rw [Net.unackedLen_eq, hsplit, bytesIn_append, bytesIn_cons]
  cases hm : r.memory with
  | hdrCustom =>
    obtain ⟨hredirects, hbehind⟩ := h.custom r back ⟨front, hsplit.symm⟩ hm
    have := hsettled.2 hredirects
    omega
  | response id =>
    have := hsettled.1 (h.response r hr id hm)
    omega
  | rom => simp [hm, Memory.Owned] at howned
  | content id => simp [hm, Memory.Owned] at howned
  | hdrContentLen => simp [hm, Memory.Owned] at howned

theorem not_ownedUnsent (h : Kept hs net) (hbody : hs.postResponseBuf.isSome → hs.left = 0)
    (hredirect : hs.Redirects → 0 < hs.hdrIndex) : ¬ hs.OwnedUnsent := by
  rintro ⟨m, howned, t, ht, rfl, hne⟩
  rcases List.mem_append.mp ht with ht | ht
  · obtain ⟨i, text, hi, rfl⟩ := HttpState.mem_pending.mp ht
    obtain ⟨hzero, hm⟩ := h.strings _ _ hi howned
    have hindex : hs.hdrIndex = 0 := by omega
    refine absurd (hredirect ?_) (by omega)
    have hfirst : hs.hdrs[0] = some text := by simpa [hzero] using hi
    rw [HttpState.Redirects, hfirst, Option.map_some, hm]
  · obtain ⟨text, hfile, rfl⟩ := by simpa using ht
    have hzero := hbody (h.file text hfile howned).1
    simp [hzero] at hne

theorem sendSafe (h : Kept hs net) (hsettled : SendSettled env o hs net.unackedLen) :
    SendSafe env o hs net := by
  intro hends
  obtain ⟨hacked, hbody, hredirect⟩ := hsettled hends
  exact ⟨h.not_ownedUnacked hacked, h.not_ownedUnsent hbody hredirect⟩

theorem ack (h : Kept hs net) (n : Nat) : Kept hs { net with unacked := ack n net.unacked } where
  nonempty := nonempty_ack h.nonempty
  custom r back hsuffix hm := by
    obtain ⟨r₀, hr₀, hmemory⟩ := suffix_ack hsuffix
    exact h.custom r₀ back hr₀ (hmemory.trans hm)
  response r hr id hm := by
    obtain ⟨r₀, hr₀, hmemory, -⟩ := mem_ack hr
    exact h.response r₀ hr₀ id (hmemory.symm.trans hm)
  strings := h.strings
  file := h.file
  setUp := h.setUp
  body := h.body

theorem no_response (h : Kept hs net) (hfile : hs.file = none) :
    hs.postResponseBuf = none ∧ ∀ r ∈ net.unacked, ∀ id, r.memory ≠ .response id := by
  have hnone : hs.postResponseBuf = none := by
    by_contra hsome
    have hfile' := (h.body (Option.isSome_iff_ne_none.mpr hsome)).1
    simp [hfile] at hfile'
  exact ⟨hnone, fun r hr id hm => by simpa [hnone] using (h.response r hr id hm).1⟩

theorem no_custom (h : Kept hs net) (hsettled : hs.Redirects → net.unackedLen ≤ hs.behindCustom) :
    ∀ r ∈ net.unacked, r.memory ≠ .hdrCustom := by
  intro r hr hm
  obtain ⟨front, back, hsplit⟩ := List.append_of_mem hr
  obtain ⟨hredirects, hbehind⟩ := h.custom r back ⟨front, hsplit.symm⟩ hm
  have hpos := List.length_pos_of_ne_nil (h.nonempty r hr)
  have hle := hsettled hredirects
  rw [Net.unackedLen_eq, hsplit, bytesIn_append, bytesIn_cons] at hle
  omega

end Kept

section Send

theorem reduceOption_take_findIdx {α : Type*} (l : List (Option α)) :
    (l.take (l.findIdx (·.isSome))).reduceOption = [] := by
  induction l with
  | nil => rfl
  | cons first rest ih => cases first <;> simp [List.findIdx_cons, ih]

theorem behindCustom_skipNull {t : Text}
    (h : hs.hdrs.toList[hs.hdrIndex]? = some (some t)) :
    HttpState.behindCustom { hs with hdrIndex := skipNull hs.hdrs (hs.hdrIndex + 1), hdrPos := 0 } +
      (if hs.hdrIndex = 0 then 0 else hs.hdrPos) =
        hs.behindCustom + if hs.hdrIndex = 0 then 0 else t.bytes.length := by
  obtain ⟨hi, hget⟩ := List.getElem?_eq_some_iff.mp h
  have hskip : (hs.hdrs.toList.take (skipNull hs.hdrs (hs.hdrIndex + 1))).tail.reduceOption =
      (hs.hdrs.toList.take (hs.hdrIndex + 1)).tail.reduceOption := by
    have hne : hs.hdrs.toList.take (hs.hdrIndex + 1) ≠ [] := by
      rw [List.take_add_one, h]
      simp
    rw [skipNull, List.take_add, List.tail_append_of_ne_nil hne, List.reduceOption_append,
      reduceOption_take_findIdx, List.append_nil]
  have hne : skipNull hs.hdrs (hs.hdrIndex + 1) ≠ 0 := by
    rw [skipNull]
    omega
  simp only [HttpState.behindCustom, if_neg hne, hskip]
  rw [List.take_add_one, h]
  by_cases hzero : hs.hdrIndex = 0
  · simp [hzero]
  · have htake : hs.hdrs.toList.take hs.hdrIndex ≠ [] := by
      intro hnil
      have := congrArg List.length hnil
      rw [List.length_take, List.length_nil] at this
      omega
    rw [if_neg hzero, if_neg hzero, if_neg hzero, List.tail_append_of_ne_nil htake,
      List.reduceOption_append]
    simp
    omega

theorem Kept.header (h : Kept hs net) {t : Text} {i pos : Nat} {copied : Bool}
    {bytes : List UInt8} (hget : hs.hdrs.toList[hs.hdrIndex]? = some (some t))
    (hbehind : { hs with hdrIndex := i, hdrPos := pos }.behindCustom ≤
      hs.behindCustom + bytes.length)
    (hfirst : hs.hdrIndex = 0 → { hs with hdrIndex := i, hdrPos := pos }.behindCustom = 0) :
    Kept { hs with hdrIndex := i, hdrPos := pos } (net.write t.memory copied bytes) where
  nonempty r hr := by
    rcases mem_write hr with hr | ⟨-, hbytes, hne⟩
    · exact h.nonempty r hr
    · exact hbytes ▸ hne
  custom r back hsuffix hm := by
    rcases suffix_write hsuffix with ⟨back₀, hback₀, hlen⟩ | ⟨hmemory, rfl⟩
    · obtain ⟨hredirects, hle⟩ := h.custom r back₀ hback₀ hm
      exact ⟨hredirects, by omega⟩
    · have ht : t.memory = .hdrCustom := hmemory.symm.trans hm
      have hindex := (h.strings _ _ hget (by rw [ht]; trivial)).1
      have hzero : hs.hdrs[0] = some t := by simpa [hindex] using hget
      refine ⟨?_, (hfirst hindex).le⟩
      change hs.hdrs[0].map Text.memory = some .hdrCustom
      rw [hzero, Option.map_some, ht]
  response r hr id hm := by
    rcases mem_write hr with hr | ⟨hmemory, -⟩
    · exact h.response r hr id hm
    · have ht : t.memory = .response id := hmemory.symm.trans hm
      have hcustom := (h.strings _ _ hget (by rw [ht]; trivial)).2
      rw [ht] at hcustom
      cases hcustom
  strings := h.strings
  file := h.file
  setUp := h.setUp
  body := h.body

theorem Kept.sendHeader {room k : Nat} (h : Kept hs net)
    (hsend : sendHeader o hs net room = (hs', net', k)) : Kept hs' net' := by
  unfold Http.sendHeader at hsend
  split at hsend
  next =>
    obtain ⟨rfl, rfl, -⟩ := by simpa using hsend
    exact h
  next text hjoin =>
    have hget : hs.hdrs.toList[hs.hdrIndex]? = some (some text) := by
      simpa [Option.join_eq_some_iff] using hjoin
    have hwrite := httpWrite_le (text.bytes.length - hs.hdrPos) room o.maxWriteLen
    generalize httpWrite (text.bytes.length - hs.hdrPos) room o.maxWriteLen = n at hsend hwrite
    have hlength : ((text.bytes.drop hs.hdrPos).take n).length = n := by
      rw [List.length_take, List.length_drop]
      exact Nat.min_eq_left hwrite
    dsimp only at hsend
    split at hsend
    next hend =>
      obtain ⟨rfl, rfl, -⟩ := by simpa using hsend
      have hskip := behindCustom_skipNull hget
      refine h.header hget ?_ fun hzero => ?_
      · rw [hlength]
        split at hskip <;> omega
      · have hfirst : hs.behindCustom = 0 := if_pos hzero
        simpa [hzero, hfirst] using hskip
    next hmore =>
      obtain ⟨rfl, rfl, -⟩ := by simpa using hsend
      refine h.header (i := hs.hdrIndex) hget ?_ fun hzero => if_pos hzero
      rw [hlength]
      simp only [HttpState.behindCustom]
      split <;> omega

theorem Kept.sendHeaders {rounds room room' : Nat} (h : Kept hs net)
    (hsend : sendHeaders o rounds hs net room = (hs', net', room')) : Kept hs' net' := by
  induction rounds generalizing hs net room with
  | zero =>
    obtain ⟨rfl, rfl, -⟩ := by simpa [Http.sendHeaders] using hsend
    exact h
  | succ rounds ih =>
    simp only [Http.sendHeaders] at hsend
    split at hsend
    next =>
      obtain ⟨rfl, rfl, -⟩ := by simpa using hsend
      exact h
    next =>
      obtain ⟨hs₁, net₁, k, hk⟩ : ∃ hs₁ net₁ k, Http.sendHeader o hs net room = (hs₁, net₁, k) :=
        ⟨_, _, _, rfl⟩
      rw [hk] at hsend
      dsimp only at hsend
      split at hsend
      next =>
        obtain ⟨rfl, rfl, -⟩ := by simpa using hsend
        exact h.sendHeader hk
      next => exact ih (h.sendHeader hk) hsend

theorem setUpHeaders_cases (env : Env) (hs : HttpState) :
    setUpHeaders env hs = hs ∨ hs.hdrs.get 2 = none ∧ ∃ text, text.memory = .hdrContentLen ∧
      setUpHeaders env hs = { hs with
        hdrs := setHdr (setHdr hs.hdrs 3 (some text)) 2
          (some (headerString env .contentLength)) } := by
  simp only [setUpHeaders, getHttpContentLength]
  split
  next hnone =>
    split
    · exact .inl rfl
    · split
      · split
        next text htext =>
          exact .inr ⟨Option.isNone_iff_eq_none.mp hnone, text, contentLengthText_memory htext, rfl⟩
        · exact .inl rfl
      · exact .inl rfl
  next => exact .inl rfl

theorem Kept.setUpHeaders (h : Kept hs net) : Kept (setUpHeaders env hs) net := by
  obtain heq | ⟨hnone, text, htext, heq⟩ := setUpHeaders_cases env hs
  · rwa [heq]
  · rw [heq]
    have hredirects : ¬ hs.Redirects := fun hr => by simpa [hnone] using h.setUp hr
    have hresponse : ¬ hs.postResponseBuf.isSome := fun hbuf => by
      simpa [hnone] using (h.body hbuf).2.1
    exact
      { nonempty := h.nonempty
        custom := fun r back hsuffix hm => absurd (h.custom r back hsuffix hm).1 hredirects
        response := fun r hr id hm => absurd (h.response r hr id hm).1 hresponse
        strings := (h.strings.setHdr fun t ht => by
          simp [← Option.some.inj ht, htext, Memory.Owned]).set 2 (headerString_memory env _)
        file := h.file
        setUp := fun _ => by simp [Vector.get_eq_getElem]
        body := fun hbuf => absurd hbuf hresponse }

theorem contentLengthText_inj {m n : Nat} (hm : m < 65536) (hn : n < 65536)
    (h : contentLengthText m = contentLengthText n) : m = n := by
  rw [contentLengthText_of_lt hm, contentLengthText_of_lt hn] at h
  have hbytes := congrArg Text.bytes (Option.some.inj h)
  exact itoa_injective (List.append_cancel_right hbytes)

theorem contentLengthText_ne_sub {text : Option Text} {total left n : Nat} (htotal : total < 65536)
    (hle : left ≤ total) (hn : n ≤ left) (hset : text = contentLengthText total)
    (hless : 0 < n ∨ text ≠ contentLengthText left) : text ≠ contentLengthText (left - n) := by
  intro heq
  have hsame := contentLengthText_inj htotal (by omega) (hset.symm.trans heq)
  rcases hless with hpos | hne
  · omega
  · have hall : total = left := by omega
    exact hne (hall ▸ hset)

theorem Kept.body_sent (h : Kept hs net) {t : Text} {n : Nat} {copied : Bool}
    {bytes rest : List UInt8} (hfile : hs.file = some t) (hn : n ≤ hs.left)
    (hbytes : bytes ≠ [] → 0 < n) :
    Kept { hs with file := some { t with bytes := rest }, left := hs.left - n }
      (net.write t.memory copied bytes) where
  nonempty r hr := by
    rcases mem_write hr with hr | ⟨-, hwritten, hne⟩
    · exact h.nonempty r hr
    · exact hwritten ▸ hne
  custom r back hsuffix hm := by
    rcases suffix_write hsuffix with ⟨back₀, hback₀, hlen⟩ | ⟨hmemory, -⟩
    · obtain ⟨hredirects, hle⟩ := h.custom r back₀ hback₀ hm
      exact ⟨hredirects, hle.trans (by omega)⟩
    · have ht : t.memory = .hdrCustom := hmemory.symm.trans hm
      obtain ⟨-, id, hid⟩ := h.file t hfile (by rw [ht]; trivial)
      cases ht.symm.trans hid
  response r hr id hm := by
    rcases mem_write hr with hr | ⟨hmemory, -, hne⟩
    · obtain ⟨hbuf, hbegun⟩ := h.response r hr id hm
      obtain ⟨-, -, total, htotal, hset, hle⟩ := h.body hbuf
      exact ⟨hbuf, contentLengthText_ne_sub htotal hle hn hset (.inr hbegun)⟩
    · have ht : t.memory = .response id := hmemory.symm.trans hm
      have hbuf := (h.file t hfile (by rw [ht]; trivial)).1
      obtain ⟨-, -, total, htotal, hset, hle⟩ := h.body hbuf
      exact ⟨hbuf, contentLengthText_ne_sub htotal hle hn hset (.inl (hbytes hne))⟩
  strings := h.strings
  file t' ht' howned := by
    obtain rfl := Option.some.inj ht'
    exact h.file t hfile howned
  setUp := h.setUp
  body hbuf := by
    obtain ⟨-, hset₂, total, htotal, hset, hle⟩ := h.body hbuf
    exact ⟨rfl, hset₂, total, htotal, hset, (Nat.sub_le _ _).trans hle⟩

/-- Without a response the headers of the one before may go on, over whatever file. -/
theorem Kept.of_no_response (h : Kept hs net) (hfile : hs.file = none)
    (hhdrs : hs'.hdrs = hs.hdrs) (hbehind : hs'.behindCustom = hs.behindCustom)
    (hbuf : hs'.postResponseBuf = hs.postResponseBuf)
    (file : ∀ t, hs'.file = some t → ¬ t.memory.Owned) : Kept hs' net := by
  obtain ⟨hnone, hresponse⟩ := h.no_response hfile
  have hredirects : hs'.Redirects ↔ hs.Redirects := by
    rw [HttpState.Redirects, HttpState.Redirects, hhdrs]
  exact
    { nonempty := h.nonempty
      custom := fun r back hsuffix hm => by
        rw [hredirects, hbehind]
        exact h.custom r back hsuffix hm
      response := fun r hr id hm => absurd hm (hresponse r hr id)
      strings := hhdrs ▸ h.strings
      file := fun t ht howned => absurd howned (file t ht)
      setUp := fun hr => by
        rw [hhdrs]
        exact h.setUp (hredirects.mp hr)
      body := fun hsome => by simp [hbuf, hnone] at hsome }

theorem Kept.httpSendDataNonssi {room : Nat} (h : Kept hs net)
    (hsend : httpSendDataNonssi o hs net room = (hs', net')) : Kept hs' net' := by
  have hlen : httpWrite (min hs.left 65535) room o.maxWriteLen ≤ hs.left := by
    simp only [httpWrite]
    omega
  simp only [Http.httpSendDataNonssi] at hsend
  generalize httpWrite (min hs.left 65535) room o.maxWriteLen = n at hsend hlen
  split at hsend
  next t hfile =>
    obtain ⟨rfl, rfl⟩ := by simpa using hsend
    exact h.body_sent hfile hlen fun hne => Nat.pos_of_ne_zero fun hzero => hne (by simp [hzero])
  next hfile =>
    obtain ⟨rfl, rfl⟩ := by simpa using hsend
    exact h.of_no_response hfile rfl rfl rfl fun t ht => by simp [hfile] at ht

theorem Kept.of_some (h : Kept hs net) : Kept.Of { hs := some hs, net } := by
  rintro hs' ⟨⟩
  exact h

theorem Kept.of_httpCloseConn (hs : HttpState) (net : Net) :
    Kept.Of (httpCloseConn env o (some hs) net) := by
  intro hs' hsome
  simp at hsome

theorem Kept.httpSendData {room : Nat} (h : Kept hs net) :
    Kept.Of (httpSendData env o hs net room) := by
  rw [Http.httpSendData]
  split
  next => exact of_httpCloseConn hs net
  next =>
    obtain ⟨hs₁, net₁, hdata⟩ : ∃ hs₁ net₁, Http.httpSendDataNonssi o hs net room = (hs₁, net₁) :=
      ⟨_, _, rfl⟩
    have h₁ := h.httpSendDataNonssi hdata
    rw [hdata]
    dsimp only
    split
    next =>
      split
      next => exact of_httpCloseConn _ _
      next =>
        refine of_some ?_
        split
        · exact ⟨h₁.nonempty, h₁.custom, h₁.response, h₁.strings, h₁.file, h₁.setUp, h₁.body⟩
        · exact h₁
    next => exact of_some h₁

theorem Kept.httpSend (h : Kept hs net) : Kept.Of (httpSend env o hs net) := by
  rw [Http.httpSend]
  split
  next =>
    obtain ⟨hs₁, net₁, room, hheaders⟩ : ∃ hs₁ net₁ room,
        Http.sendHeaders o o.sndbuf (Http.setUpHeaders env hs) net o.sndbuf = (hs₁, net₁, room) :=
      ⟨_, _, _, rfl⟩
    have h₁ := h.setUpHeaders.sendHeaders hheaders
    rw [hheaders]
    dsimp only
    split
    next => exact of_some h₁
    next =>
      split
      next => exact of_httpCloseConn _ _
      next => exact h₁.httpSendData
  next => exact h.httpSendData

end Send

section TakeIn

structure HttpState.SameResponse (hs hs' : HttpState) : Prop where
  handle : hs'.handle = hs.handle
  file : hs'.file = hs.file
  left : hs'.left = hs.left
  hdrs : hs'.hdrs = hs.hdrs
  hdrPos : hs'.hdrPos = hs.hdrPos
  hdrIndex : hs'.hdrIndex = hs.hdrIndex
  postResponseBuf : hs'.postResponseBuf = hs.postResponseBuf

namespace HttpState.SameResponse

theorem refl (hs : HttpState) : hs.SameResponse hs := ⟨rfl, rfl, rfl, rfl, rfl, rfl, rfl⟩

theorem trans {hs'' : HttpState} (h : hs.SameResponse hs') (k : hs'.SameResponse hs'') :
    hs.SameResponse hs'' where
  handle := k.handle.trans h.handle
  file := k.file.trans h.file
  left := k.left.trans h.left
  hdrs := k.hdrs.trans h.hdrs
  hdrPos := k.hdrPos.trans h.hdrPos
  hdrIndex := k.hdrIndex.trans h.hdrIndex
  postResponseBuf := k.postResponseBuf.trans h.postResponseBuf

theorem bookkeeping (hs : HttpState) (req : Option Pbuf) (retries : Nat) :
    hs.SameResponse { hs with req, retries } := ⟨rfl, rfl, rfl, rfl, rfl, rfl, rfl⟩

theorem storeChunk (hs : HttpState) (p : Pbuf) : hs.SameResponse (Http.storeChunk hs p) := by
  unfold Http.storeChunk
  split <;> exact ⟨rfl, rfl, rfl, rfl, rfl, rfl, rfl⟩

theorem httpdPostBegin (hs : HttpState) (net : Net) (uri : List UInt8) (contentLen : Nat) :
    hs.SameResponse (Http.httpdPostBegin hs net uri contentLen).1 := by
  unfold Http.httpdPostBegin
  dsimp only
  split <;> exact ⟨rfl, rfl, rfl, rfl, rfl, rfl, rfl⟩

theorem redirects_iff (h : hs.SameResponse hs') : hs'.Redirects ↔ hs.Redirects := by
  rw [Redirects, Redirects, h.hdrs]

theorem behindCustom (h : hs.SameResponse hs') : hs'.behindCustom = hs.behindCustom := by
  rw [HttpState.behindCustom, HttpState.behindCustom, h.hdrs, h.hdrPos, h.hdrIndex]

theorem bodyBegun_iff (h : hs.SameResponse hs') : hs'.BodyBegun ↔ hs.BodyBegun := by
  rw [BodyBegun, BodyBegun, h.hdrs, h.left, h.postResponseBuf]

theorem headerLeft (h : hs.SameResponse hs') : hs'.headerLeft = hs.headerLeft := by
  rw [HttpState.headerLeft, HttpState.headerLeft, pending, pending, h.hdrs, h.hdrPos, h.hdrIndex]

theorem setUpHeaders (h : hs.SameResponse hs') :
    (Http.setUpHeaders env hs).SameResponse (Http.setUpHeaders env hs') := by
  simp only [Http.setUpHeaders, getHttpContentLength, h.hdrs, h.handle]
  split
  · split
    · exact h
    · split
      · split
        · exact ⟨rfl, h.file, h.left, rfl, h.hdrPos, h.hdrIndex, h.postResponseBuf⟩
        · exact h
      · exact h
  · exact h

theorem ends_iff (h : hs.SameResponse hs') : Ends env o hs' ↔ Ends env o hs := by
  simp only [Ends, headersToSend, httpCheckEof, h.setUpHeaders.headerLeft, h.handle, h.file,
    h.left, h.hdrIndex]

theorem sendSettled_iff (h : hs.SameResponse hs') (n : Nat) :
    SendSettled env o hs' n ↔ SendSettled env o hs n := by
  simp only [SendSettled, Settled, h.ends_iff, h.bodyBegun_iff, h.redirects_iff, h.behindCustom,
    h.postResponseBuf, h.left, h.hdrIndex]

theorem answerSettled_iff {hs₁ hs₁' : HttpState} (h : hs.SameResponse hs')
    (h₁ : hs₁.SameResponse hs₁') (n : Nat) :
    AnswerSettled env o hs' hs₁' n ↔ AnswerSettled env o hs hs₁ n := by
  simp only [AnswerSettled, h₁.sendSettled_iff, h₁.redirects_iff, h.redirects_iff, h.behindCustom]

theorem httpdPostResponse (h : hs.SameResponse hs') (hcurrent : net'.current = net.current)
    (id : Nat) (body : List UInt8) :
    (Http.httpdPostResponse env hs net id body).SameResponse
      (Http.httpdPostResponse env hs' net' id body) := by
  obtain ⟨handle, file, left, hdrs, hdrPos, hdrIndex, postResponseBuf⟩ := h
  simp only [Http.httpdPostResponse, hcurrent]
  split
  · exact ⟨handle, rfl, rfl, by simp only [hdrs], rfl, rfl, rfl⟩
  · exact ⟨handle, file, left, by simp only [hdrs], rfl, rfl, postResponseBuf⟩

theorem postSettled_iff (h : hs.SameResponse hs') (huri : hs'.postUri = hs.postUri) :
    PostSettled env o hs' net ↔ PostSettled env o hs net := by
  simp only [PostSettled, HasHandler, huri, h.sendSettled_iff,
    h.answerSettled_iff (h.httpdPostResponse rfl _ _)]

end HttpState.SameResponse

def Intake.Settled (env : Env) (o : Outside) (hs : HttpState) : Intake → Prop
  | .wait _ _ => True
  | .send hs' net => AnswerSettled env o hs hs' net.unackedLen
  | .close hs' net => hs'.Settled net.unackedLen

theorem settled_goOn (h : hs'.postContentLenLeft = 0 → AnswerSettled env o hs hs' net'.unackedLen) :
    (goOn hs' net').Settled env o hs := by
  rw [goOn]
  split
  next hzero => exact h hzero
  next => trivial

/-- What comes of a chunk: more is awaited, or the POST is answered if it has a handler. -/
theorem httpPostRxpbuf_cases {p : Pbuf} (h : httpPostRxpbuf env o hs net p = (hs', net'))
    (hle : hs.postContentLenLeft ≤ hs.postContentLen) (hfile : hs.file = none) :
    hs.SameResponse hs' ∧ hs'.postContentLenLeft ≠ 0 ∨
      hs.postContentLenLeft ≤ p.totLen ∧ hs'.postContentLenLeft = 0 ∧
        (¬ hs.HasHandler ∧ hs.SameResponse hs' ∨
          hs.HasHandler ∧ ∃ hs₁ net₁, hs.SameResponse hs₁ ∧ net₁.current = net.current ∧
            hs' = httpdPostResponse env hs₁ net₁ net.nextId o.response) := by
  have hstored : hs.SameResponse (storeChunk hs p) := .storeChunk hs p
  rw [httpPostRxpbuf_eq hle] at h
  split at h
  next hzero =>
    have hdone := (httpHandlePostFinished_finishes (by simpa using hfile) h).postContentLenLeft
    refine .inr ⟨(storeChunk_left_eq_zero_iff hle).mp hzero, hdone.trans hzero, ?_⟩
    simp only [httpHandlePostFinished, storeChunk_file, hfile, httpdPostFinished,
      httpdProcessPostData, storeChunk_postUri] at h
    split at h
    next hhandler =>
      obtain ⟨rfl, -⟩ := Prod.mk.inj h
      exact .inr ⟨hhandler, storeChunk hs p, _, hstored, rfl, rfl⟩
    next hhandler =>
      obtain ⟨rfl, -⟩ := Prod.mk.inj h
      exact .inl ⟨hhandler, hstored⟩
  next hmore =>
    obtain ⟨rfl, -⟩ := Prod.mk.inj h
    exact .inl ⟨hstored, hmore⟩

theorem answerSettled_httpPostRxpbuf {hs₀ : HttpState} {p : Pbuf}
    (hrx : httpPostRxpbuf env o hs net p = (hs', net'))
    (hle : hs.postContentLenLeft ≤ hs.postContentLen) (hfile : hs.file = none)
    (hsame : hs₀.SameResponse hs)
    (h : hs.postContentLenLeft ≤ p.totLen → PostSettled env o hs net)
    (hzero : hs'.postContentLenLeft = 0) : AnswerSettled env o hs₀ hs' net.unackedLen := by
  rcases httpPostRxpbuf_cases hrx hle hfile with
    ⟨-, hmore⟩ | ⟨hlast, -, ⟨hhandler, hkeeps⟩ | ⟨hhandler, hs₁, net₁, hkeeps, hcurrent, rfl⟩⟩
  · exact absurd hzero hmore
  · refine ⟨(hkeeps.sendSettled_iff _).mpr ((h hlast).2 hhandler), fun hredirects hnot => ?_⟩
    exact absurd ((hsame.trans hkeeps).redirects_iff.mpr hredirects) hnot
  · have hanswer := (hsame.answerSettled_iff (.refl _) _).mp ((h hlast).1 hhandler)
    have hprepared : (httpdPostResponse env hs net net.nextId o.response).SameResponse
        (httpdPostResponse env hs₁ net₁ net.nextId o.response) :=
      hkeeps.httpdPostResponse hcurrent net.nextId o.response
    exact ((HttpState.SameResponse.refl hs₀).answerSettled_iff hprepared _).mpr hanswer

theorem answerSettled_httpPostStart {req : Pbuf} {uri : List UInt8} {contentLen hdrLen : Nat}
    (hstart : httpPostStart env o hs net req uri contentLen hdrLen = (hs', net'))
    (hfile : hs.file = none)
    (h : (Parsed.post uri contentLen hdrLen).Settled env o hs net req)
    (hzero : hs'.postContentLenLeft = 0) : AnswerSettled env o hs hs' net.unackedLen := by
  have hbegun := HttpState.SameResponse.httpdPostBegin hs net uri contentLen
  obtain ⟨hs₁, net₁, hbegin, hcases⟩ := httpPostStart_cases hstart
  simp only [Parsed.Settled, hbegin] at h
  rw [hbegin] at hbegun
  have hcounted : hs₁.SameResponse
      { hs₁ with postContentLen := contentLen, postContentLenLeft := contentLen } :=
    ⟨rfl, rfl, rfl, rfl, rfl, rfl, rfl⟩
  obtain ⟨q, hq, hrx⟩ | ⟨-, hne, rfl, -⟩ := hcases
  · rw [Net.unackedLen_eq, ← (httpdPostBegin_queue hbegin).1, ← Net.unackedLen_eq]
    refine answerSettled_httpPostRxpbuf hrx le_rfl (hbegun.file.trans hfile)
      (hbegun.trans hcounted) (fun hlast => ?_) hzero
    refine (hcounted.postSettled_iff rfl).mpr (h ?_)
    rcases hq with hq | ⟨hq, -, rfl⟩
    · rwa [hq]
    · rwa [hq]
  · exact absurd hzero hne

theorem settled_httpParseRequest {p : Pbuf} (h : hs.DataSettled env o net p)
    (hzero : hs.postContentLenLeft = 0) (hhandle : hs.handle = none) :
    (httpParseRequest env o hs net p).Settled env o hs := by
  have hanswer {hs' : HttpState} (h : AnswerSettled env o hs hs' net.unackedLen) :
      AnswerSettled env o hs { hs' with req := none } net.unackedLen :=
    ((HttpState.SameResponse.refl hs).answerSettled_iff (.bookkeeping hs' none _) _).mpr h
  rw [httpParseRequest]
  split
  next => trivial
  next hfile =>
    have hparses : hs.Parses := ⟨hzero, hhandle, Option.not_isSome_iff_eq_none.mp hfile⟩
    have hparsed := h.2 hparses
    dsimp only
    cases hparse : parseRequest env.settings o.leftover (hs.queue p) with
    | inProgress => trivial
    | incomplete =>
      rw [hparse] at hparsed
      exact hparsed
    | badRequest =>
      rw [hparse] at hparsed
      exact hparsed
    | redirect =>
      rw [hparse] at hparsed
      exact hanswer hparsed
    | file uri is09 =>
      rw [hparse] at hparsed
      exact hanswer hparsed
    | post uri contentLen hdrLen =>
      rw [hparse] at hparsed
      dsimp only
      generalize hstart : httpPostStart env o hs net (hs.queue p) uri contentLen hdrLen = started
      obtain ⟨hs', net'⟩ := started
      change (goOn { hs' with req := none } net').Settled env o hs
      refine settled_goOn fun hdone => ?_
      rw [Net.unackedLen_eq, (httpPostStart_queue hstart hparses.file).1, ← Net.unackedLen_eq]
      exact hanswer (answerSettled_httpPostStart hstart hparses.file hparsed hdone)

theorem settled_httpTakeIn {p : Pbuf} (h : hs.DataSettled env o net p)
    (htracks : Tracks False hs net) : (httpTakeIn env o hs net p).Settled env o hs := by
  rw [httpTakeIn]
  split
  next hpos =>
    obtain ⟨-, hfile, hle, -⟩ := htracks.pending hpos
    obtain ⟨hs', net', hrx⟩ : ∃ hs' net',
        httpPostRxpbuf env o { hs with retries := 0 } net p = (hs', net') := ⟨_, _, rfl⟩
    have hsame : hs.SameResponse { hs with retries := 0 } := .bookkeeping hs hs.req 0
    rw [hrx]
    refine settled_goOn fun hdone => ?_
    rw [Net.unackedLen_eq, (httpPostRxpbuf_queue hrx hfile hle).1, ← Net.unackedLen_eq]
    exact answerSettled_httpPostRxpbuf hrx hle hfile hsame
      (fun hlast => (hsame.postSettled_iff rfl).mpr (h.1 hpos hlast)) hdone
  next hpos =>
    split
    next hhandle =>
      exact settled_httpParseRequest h (Nat.eq_zero_of_not_pos hpos)
        (Option.isNone_iff_eq_none.mp hhandle)
    next => trivial

theorem Kept.congr (h : Kept hs net) (hsame : hs.SameResponse hs')
    (hqueue : net'.unacked = net.unacked) : Kept hs' net' where
  nonempty := hqueue ▸ h.nonempty
  custom r back hsuffix hm := by
    rw [hsame.redirects_iff, hsame.behindCustom]
    exact h.custom r back (hqueue ▸ hsuffix) hm
  response r hr id hm := hsame.bodyBegun_iff.mpr (h.response r (hqueue ▸ hr) id hm)
  strings := hsame.hdrs ▸ h.strings
  file t ht howned := by
    rw [hsame.postResponseBuf]
    exact h.file t (hsame.file ▸ ht) howned
  setUp hredirects := by
    rw [hsame.hdrs]
    exact h.setUp (hsame.redirects_iff.mp hredirects)
  body hbuf := by
    rw [hsame.file, hsame.hdrs, hsame.left]
    exact h.body (hsame.postResponseBuf ▸ hbuf)

theorem Kept.bookkeeping (h : Kept hs net) (req : Option Pbuf) (retries : Nat) :
    Kept { hs with req, retries } net :=
  h.congr (.bookkeeping hs req retries) rfl

theorem Kept.of_none (h : Kept hs net) (hfile : hs.file = none)
    (hcustom : ∀ r ∈ net.unacked, r.memory ≠ .hdrCustom) (strings : CustomFirst hs'.hdrs)
    (file : ∀ t, hs'.file = some t → t.memory.Owned →
      hs'.postResponseBuf.isSome ∧ ∃ id, t.memory = .response id)
    (setUp : hs'.Redirects → (hs'.hdrs.get 2).isSome)
    (body : hs'.postResponseBuf.isSome → hs'.file.isSome ∧ (hs'.hdrs.get 2).isSome ∧
      ∃ total < 65536, hs'.hdrs[3] = contentLengthText total ∧ hs'.left ≤ total) :
    Kept hs' net where
  nonempty := h.nonempty
  custom r _ hsuffix hm := absurd hm (hcustom r (hsuffix.subset List.mem_cons_self))
  response r hr id hm := absurd hm ((h.no_response hfile).2 r hr id)
  strings := strings
  file := file
  setUp := setUp
  body := body

theorem getContentTypeFromExtension_memory {ext : List UInt8} {text : Text}
    (h : getContentTypeFromExtension ext = some text) : text.memory = .rom := by
  have hall : ∀ entry ∈ httpHeaders, entry.2.memory = .rom := by decide
  obtain ⟨entry, hentry, rfl⟩ := Option.map_eq_some_iff.mp h
  exact hall entry (List.mem_of_find?_eq_some hentry)

theorem Kept.httpdPostResponse (h : Kept hs net) (hfile : hs.file = none)
    (hcustom : ∀ r ∈ net.unacked, r.memory ≠ .hdrCustom) (id : Nat) (body : List UInt8) :
    Kept (httpdPostResponse env hs net' id body) net := by
  cases hcurrent : net'.current with
  | false =>
    simp only [Http.httpdPostResponse, hcurrent]
    refine h.of_none hfile hcustom ?_ ?_ ?_ ?_
    · exact (h.strings.set 0 (headerString_memory env _)).set 2 (headerString_memory env _)
    · exact h.file
    · simp [Vector.get_eq_getElem]
    · simp [(h.no_response hfile).1]
  | true =>
    have hlt : body.length % 65536 < 65536 := Nat.mod_lt _ (by decide)
    have hstrings := ((h.strings.set 0 (headerString_memory env .ok)).set 2
      (headerString_memory env .contentLength)).set 4
        (getContentTypeFromExtension_memory contentType_json)
    simp only [Http.httpdPostResponse, hcurrent, if_true, contentLengthText_of_lt hlt]
    refine h.of_none hfile hcustom ?_ ?_ ?_ ?_
    · exact hstrings.setHdr fun t ht => by simp [← Option.some.inj ht, Memory.Owned]
    · rintro t ⟨⟩ -
      exact ⟨rfl, id, rfl⟩
    · simp [Vector.get_eq_getElem]
    · intro _
      refine ⟨rfl, by simp [Vector.get_eq_getElem], body.length % 65536, hlt, ?_, le_rfl⟩
      simp [contentLengthText_of_lt hlt]

theorem Kept.httpRedirect (h : Kept hs net) (hfile : hs.file = none) :
    Kept (httpRedirect env hs) net := by
  obtain ⟨hbuf, hresponse⟩ := h.no_response hfile
  have hstrings : CustomFirst (Http.httpRedirect env hs).hdrs := by
    refine CustomFirst.set ?_ 2 (headerString_memory env _)
    intro j t hj howned
    rw [Vector.toList_setIfInBounds, List.getElem?_set] at hj
    split at hj
    next hzero =>
      obtain ⟨-, rfl⟩ := by simpa using hj
      exact ⟨hzero.symm, rfl⟩
    next => exact h.strings j t hj howned
  exact
    { nonempty := h.nonempty
      custom := fun _ _ _ _ => ⟨by simp [HttpState.Redirects, Http.httpRedirect], Nat.zero_le _⟩
      response := fun r hr id hm => absurd hm (hresponse r hr id)
      strings := hstrings
      file := h.file
      setUp := fun _ => by simp [Http.httpRedirect, Vector.get_eq_getElem]
      body := fun hsome => by simp [Http.httpRedirect, hbuf] at hsome }

theorem customFirst_getHttpHeaders (h : CustomFirst hs.hdrs) (uri : Option (List UInt8)) :
    CustomFirst (getHttpHeaders env hs uri).hdrs := by
  have hcommon := ((h.set 1 (headerString_memory env .server)).unset 2).unset 3
  cases uri with
  | none =>
    exact (hcommon.set 0 (headerString_memory env _)).set 5 (headerString_memory env _)
  | some uri =>
    refine (hcommon.set 0 ?_).set 4 ?_
    · split
      · exact headerString_memory env _
      · split
        · exact headerString_memory env _
        · split
          · rfl
          · exact headerString_memory env _
    · split
      · rfl
      next ext _ =>
        cases htype : getContentTypeFromExtension ext with
        | none => rfl
        | some text => exact getContentTypeFromExtension_memory htype

theorem not_redirects_getHttpHeaders (uri : Option (List UInt8)) :
    ¬ (getHttpHeaders env hs uri).Redirects := by
  cases uri with
  | none => simp [HttpState.Redirects, getHttpHeaders, headerString_memory]
  | some uri =>
    simp only [HttpState.Redirects, getHttpHeaders]
    split
    · simp [headerString_memory]
    · split
      · simp [headerString_memory]
      · split <;> simp [headerString_memory]

theorem Kept.getHttpHeaders (h : Kept hs net) (hfile : hs.file = none)
    (hcustom : ∀ r ∈ net.unacked, r.memory ≠ .hdrCustom) (hhdrs : hs'.hdrs = hs.hdrs)
    (hfile' : ∀ t, hs'.file = some t → t.memory = .rom)
    (hbuf : hs'.postResponseBuf = hs.postResponseBuf) (uri : Option (List UInt8)) :
    Kept (getHttpHeaders env hs' uri) net := by
  have hsame : (Http.getHttpHeaders env hs' uri).file = hs'.file ∧
      (Http.getHttpHeaders env hs' uri).postResponseBuf = hs'.postResponseBuf := by
    cases uri <;> simp only [Http.getHttpHeaders, and_self]
  refine h.of_none hfile hcustom (customFirst_getHttpHeaders (hhdrs ▸ h.strings) uri) ?_ ?_ ?_
  · intro t ht howned
    rw [hsame.1] at ht
    simp [hfile' t ht, Memory.Owned] at howned
  · exact fun hredirects => absurd hredirects (not_redirects_getHttpHeaders uri)
  · intro hsome
    rw [hsame.2, hbuf, (h.no_response hfile).1] at hsome
    cases hsome

theorem Kept.httpInitFile (h : Kept hs net) (hfile : hs.file = none) (file : Option FsFile)
    (is09 : Bool) (uri : Option (List UInt8))
    (hcustom : ¬ (httpInitFile env hs file is09 uri).Redirects →
      ∀ r ∈ net.unacked, r.memory ≠ .hdrCustom) : Kept (httpInitFile env hs file is09 uri) net := by
  cases file with
  | none =>
    refine h.getHttpHeaders hfile (hcustom (not_redirects_getHttpHeaders uri)) ?_ ?_ ?_ uri
    · rfl
    · exact fun t ht => by cases ht
    · rfl
  | some f =>
    simp only [Http.httpInitFile] at hcustom ⊢
    split
    next =>
      -- the headers of the earlier response go on
      refine h.of_no_response hfile rfl rfl rfl ?_
      rintro t ⟨⟩
      exact id
    next hincluded =>
      rw [if_neg hincluded] at hcustom
      refine h.getHttpHeaders hfile (hcustom (not_redirects_getHttpHeaders uri)) ?_ ?_ ?_ uri
      · rfl
      · rintro t ⟨⟩
        rfl
      · rfl

theorem Kept.httpFindFile (h : Kept hs net) (hfile : hs.file = none) (uri : List UInt8)
    (is09 : Bool) (hcustom : ¬ (httpFindFile env hs uri is09).Redirects →
      ∀ r ∈ net.unacked, r.memory ≠ .hdrCustom) : Kept (httpFindFile env hs uri is09) net := by
  simp only [Http.httpFindFile] at hcustom ⊢
  split
  next name hname =>
    rw [hname] at hcustom
    exact h.httpInitFile hfile _ _ _ hcustom
  next hname =>
    rw [hname] at hcustom
    dsimp only at hcustom
    split
    next f hf =>
      rw [hf] at hcustom
      exact h.httpInitFile hfile _ _ _ hcustom
    next hf =>
      rw [hf] at hcustom
      exact h.httpInitFile hfile _ _ _ hcustom

inductive Responds (env : Env) (o : Outside) (hs : HttpState) : HttpState → Prop
  | same {hs' : HttpState} (h : hs.SameResponse hs') : Responds env o hs hs'
  | answer {hs₁ : HttpState} (net : Net) (id : Nat) (h : hs.SameResponse hs₁)
      (hdone : (httpdPostResponse env hs₁ net id o.response).postContentLenLeft = 0) :
      Responds env o hs (httpdPostResponse env hs₁ net id o.response)

theorem responds_httpPostRxpbuf {hs₀ : HttpState} {p : Pbuf}
    (h : httpPostRxpbuf env o hs net p = (hs', net'))
    (hle : hs.postContentLenLeft ≤ hs.postContentLen) (hfile : hs.file = none)
    (hsame : hs₀.SameResponse hs) : Responds env o hs₀ hs' := by
  rcases httpPostRxpbuf_cases h hle hfile with
    ⟨hkeeps, -⟩ | ⟨-, hdone, ⟨-, hkeeps⟩ | ⟨-, hs₁, net₁, hkeeps, -, rfl⟩⟩
  · exact .same (hsame.trans hkeeps)
  · exact .same (hsame.trans hkeeps)
  · exact .answer _ _ (hsame.trans hkeeps) hdone

theorem responds_httpPostStart {inp : Pbuf} {uri : List UInt8} {contentLen hdrLen : Nat}
    (h : httpPostStart env o hs net inp uri contentLen hdrLen = (hs', net'))
    (hfile : hs.file = none) : Responds env o hs hs' := by
  have hsame : hs.SameResponse { (httpdPostBegin hs net uri contentLen).1 with
      postContentLen := contentLen, postContentLenLeft := contentLen } :=
    (HttpState.SameResponse.httpdPostBegin hs net uri contentLen).trans
      ⟨rfl, rfl, rfl, rfl, rfl, rfl, rfl⟩
  obtain ⟨hs₁, net₁, hbegin, hcases⟩ := httpPostStart_cases h
  rw [hbegin] at hsame
  obtain ⟨q, -, hrx⟩ | ⟨-, -, rfl, -⟩ := hcases
  · exact responds_httpPostRxpbuf hrx le_rfl (hsame.file.trans hfile) hsame
  · exact .same hsame

theorem not_redirects_httpdPostResponse (net : Net) (id : Nat) (body : List UInt8) :
    ¬ (httpdPostResponse env hs net id body).Redirects := by
  cases hcurrent : net.current with
  | false =>
    simp [HttpState.Redirects, httpdPostResponse, hcurrent, headerString_memory]
  | true =>
    have hlt : body.length % 65536 < 65536 := Nat.mod_lt _ (by decide)
    simp [HttpState.Redirects, httpdPostResponse, hcurrent, contentLengthText_of_lt hlt,
      headerString_memory]

def Intake.Kept : Intake → Prop
  | .wait hs net => Http.Kept hs net
  | .send hs net => Http.Kept hs net
  | .close hs net => Http.Kept hs net

theorem kept_goOn {hs₁ : HttpState} (h : Kept hs net) (hfile : hs.file = none)
    (hresponds : Responds env o hs hs₁) (hsame : hs₁.SameResponse hs')
    (hleft : hs'.postContentLenLeft = hs₁.postContentLenLeft)
    (hqueue : net'.unacked = net.unacked) (hsettled : (goOn hs' net').Settled env o hs) :
    (goOn hs' net').Kept := by
  have hkept : Kept hs₁ net := by
    cases hresponds with
    | same hsame₁ => exact h.congr hsame₁ rfl
    | answer net₁ id hsame₁ hdone =>
      rw [goOn, if_pos (hleft.trans hdone)] at hsettled
      have hnot : ¬ hs'.Redirects := fun hredirects =>
        not_redirects_httpdPostResponse net₁ id o.response (hsame.redirects_iff.mp hredirects)
      have hcustom := h.no_custom fun hredirects => by
        have hle := hsettled.2 hredirects hnot
        rwa [Net.unackedLen_eq, hqueue] at hle
      exact (h.congr hsame₁ rfl).httpdPostResponse (hsame₁.file.trans hfile) hcustom id o.response
  rw [goOn]
  split
  · exact hkept.congr hsame hqueue
  · exact hkept.congr hsame hqueue

theorem TakesIn.kept {p : Pbuf} {i : Intake} (hi : TakesIn env o hs net p i)
    (htracks : Tracks False hs net) (h : Kept hs net) (hsettled : i.Settled env o hs) :
    i.Kept := by
  have hqueue := (hi.queueKept htracks).1
  cases hi with
  | body hpos hrx =>
    obtain ⟨-, hfile, hle, -⟩ := htracks.pending hpos
    rw [net_goOn] at hqueue
    have hresponds : Responds env o hs _ :=
      responds_httpPostRxpbuf hrx hle hfile (.bookkeeping hs hs.req 0)
    exact kept_goOn h hfile hresponds (.refl _) rfl hqueue hsettled
  | serving => exact h
  | ending => exact h.bookkeeping none _
  | inProgress => exact h.bookkeeping _ _
  | refused => exact h.bookkeeping none _
  | redirect hp => exact (h.httpRedirect hp.file).bookkeeping none _
  | file hp uri is09 =>
    refine (h.httpFindFile hp.file uri is09 fun hnot => ?_).bookkeeping none _
    exact h.no_custom fun hredirects => hsettled.2 hredirects hnot
  | post hp hparse hstart =>
    rw [net_goOn] at hqueue
    exact kept_goOn h hp.file (responds_httpPostStart hstart hp.file) (.bookkeeping _ none _) rfl
      hqueue hsettled

theorem Intake.Kept.safe {i : Intake} (h : i.Kept) (hsettled : i.Settled env o hs) :
    i.Safe env o := by
  cases i with
  | wait hs net => trivial
  | send hs net => exact Http.Kept.sendSafe h hsettled.1
  | close hs net => exact Http.Kept.not_ownedUnacked h hsettled

theorem Intake.Kept.finish {i : Intake} (h : i.Kept) : Kept.Of (i.finish env o) := by
  cases i with
  | wait hs net => exact Kept.of_some h
  | send hs net => exact Http.Kept.httpSend h
  | close hs net => exact Kept.of_httpCloseConn hs net

end TakeIn

theorem AckedInTime.ackedFirst {c : Conn} {e : Event} (hin : AckedInTime env c e) (hheld : Held c)
    (h : Kept.Of c) : AckedFirst env c e := by
  intro hs hsome
  have hkept := h hs hsome
  have hsettled := hin hs hsome
  cases e with
  | recv p ok o =>
    cases p with
    | none => exact hkept.not_ownedUnacked hsettled
    | some p =>
      cases ok with
      | false => exact hkept.not_ownedUnacked hsettled
      | true =>
        have htracks := hheld.tracked.tracks hs hsome
        have hi := httpTakeIn_takesIn env o hs c.net p
        have htaken := settled_httpTakeIn hsettled htracks
        exact (hi.kept htracks hkept htaken).safe htaken
  | sent len o =>
    have hacked : Kept { hs with retries := 0 } { c.net with unacked := ack len c.net.unacked } :=
      (hkept.ack len).bookkeeping _ 0
    refine hacked.sendSafe ?_
    rw [Net.unackedLen_eq, bytesIn_ack, (HttpState.SameResponse.bookkeeping hs _ 0).sendSettled_iff]
    exact hsettled
  | poll o =>
    by_cases hmax : hs.retries + 1 = httpdMaxRetries
    · simp only [hmax, if_true] at hsettled ⊢
      exact hkept.not_ownedUnacked hsettled
    · simp only [hmax, if_false] at hsettled ⊢
      intro hhandle
      have hpolled : Kept { hs with retries := hs.retries + 1 } c.net := hkept.bookkeeping _ _
      refine hpolled.sendSafe ?_
      rw [(HttpState.SameResponse.bookkeeping hs _ _).sendSettled_iff]
      exact hsettled hhandle
  | err => trivial
  | other => trivial

theorem Kept.Of.step {c c' : Conn} {e : Event} (h : Kept.Of c) (hheld : Held c)
    (hstep : Step env c e c') (hin : AckedInTime env c e) : Kept.Of c' := by
  obtain ⟨-, rfl⟩ := hstep
  obtain ⟨hs, net⟩ := c
  cases hs with
  | none =>
    have hclosed : ∀ net', Kept.Of { hs := none, net := net' } := fun _ _ hsome => by cases hsome
    cases e with
    | recv p ok o => cases p <;> cases ok <;> exact hclosed _
    | sent len o => exact hclosed _
    | poll o => exact hclosed _
    | err => exact hclosed _
    | other => exact hclosed _
  | some hs =>
    have hkept := h hs rfl
    have hsettled := hin hs rfl
    cases e with
    | recv p ok o =>
      cases p with
      | none => exact of_httpCloseConn hs net
      | some p =>
        cases ok with
        | false => exact of_httpCloseConn hs net
        | true =>
          have htracks := hheld.tracked.tracks hs rfl
          have hi := httpTakeIn_takesIn env o hs net p
          exact (hi.kept htracks hkept (settled_httpTakeIn hsettled htracks)).finish
    | sent len o =>
      have hacked :
          Kept { hs with retries := 0 } { net with unacked := Http.ack len net.unacked } :=
        (hkept.ack len).bookkeeping _ 0
      exact hacked.httpSend
    | poll o =>
      have hpolled : Kept { hs with retries := hs.retries + 1 } net :=
        hkept.bookkeeping _ _
      simp only [httpStep, httpPoll]
      split
      · exact of_httpCloseConn _ _
      · split
        · exact hpolled.httpSend
        · exact of_some hpolled
    | err => exact fun _ hsome => by cases hsome
    | other => exact of_some (hkept.congr (.refl hs) rfl)

theorem kept_httpAccept : Kept.Of httpAccept := by
  rintro hs ⟨⟩
  exact
    { nonempty := fun r hr => by cases hr
      custom := fun r back hsuffix _ => by simp [httpAccept] at hsuffix
      response := fun r hr => by cases hr
      strings := fun i t hi => by
        have hmem := List.mem_of_getElem? hi
        simp [httpStateInit] at hmem
      file := fun t ht => by cases ht
      setUp := fun hredirects => by simp [HttpState.Redirects, httpStateInit] at hredirects
      body := fun hsome => by cases hsome }

/-- Where the acknowledgements come far enough before a response ends, whatever TCP references is
still allocated. -/
theorem unacked_alive {c : Conn} {es : List Event}
    (h : Run (Guarded (AckedInTime env) (Step env)) httpAccept es c) :
    ∀ r ∈ c.net.unacked, r.copied = false → r.Alive c := by
  have hinv : Held c ∧ Kept.Of c := by
    refine h.invariant (fun c => Held c ∧ Kept.Of c) (fun _ _ _ hs hstep => ?_)
      ⟨held_httpAccept, kept_httpAccept⟩
    obtain ⟨hheld, hkept⟩ := hs
    exact ⟨hheld.step hstep.2 (hstep.1.ackedFirst hheld hkept), hkept.step hheld hstep.2 hstep.1⟩
  exact fun r hr hcopied => hinv.1.alive hr hcopied

section Sample

def initialEnv : Env := { sampleEnv with settings := { sampleSettings with initialConfig := true } }

/-- The first bytes of a response are acknowledged, and all of it is freed; a redirect is freed when
its last byte is handed over. -/
theorem response_freed_unacked :
    (∃ c, Run (Step sampleEnv) httpAccept
        [.recv (some (sampleRequest [97, 98, 99])) true (sampleOutside 11680),
          .sent 10 (sampleOutside 11680)] c ∧
      ∃ r ∈ c.net.unacked, r.copied = false ∧ ¬ r.Alive c) ∧
    ∃ c, Run (Step initialEnv) httpAccept
        [.recv (some { payload := ascii "GET / HTTP/1.1\r\nHost: a.b\r\n\r\n", next := [] }) true
          (sampleOutside 11680)] c ∧
      ∃ r ∈ c.net.unacked, r.copied = false ∧ ¬ r.Alive c := by
  constructor
  · refine ⟨_, .cons ⟨trivial, rfl⟩ (.single ⟨⟨by decide, by decide +kernel⟩, rfl⟩),
      ⟨.response 1, false, ascii "\x7b\x7d"⟩, by decide +kernel, rfl, fun h => ?_⟩
    exact h (by decide +kernel)
  · refine ⟨_, .single ⟨trivial, rfl⟩, ⟨.hdrCustom, false,
      ascii "HTTP/1.0 302 Found\r\nLocation: http://radprot.lan\r\n"⟩, by decide +kernel, rfl,
      fun h => ?_⟩
    have hsome : Option.isSome _ = true := h
    exact absurd hsome (by decide +kernel)

theorem response_kept_unacked :
    ∃ c, Run (Guarded (AckedInTime sampleEnv) (Step sampleEnv)) httpAccept
        [.recv (some (sampleRequest [97, 98, 99])) true (sampleOutside 71),
          .sent 71 (sampleOutside 1)] c ∧
      ⟨.response 1, false, ascii "\x7d"⟩ ∈ c.net.unacked ∧
      ∀ r ∈ c.net.unacked, r.copied = false → r.Alive c := by
  let e : Event := .recv (some (sampleRequest [97, 98, 99])) true (sampleOutside 71)
  have hreceived : AckedInTime sampleEnv httpAccept e := by
    rintro hs ⟨⟩
    exact ⟨fun hpos => absurd hpos (by decide), fun _ => by decide +kernel⟩
  have hsettled : ∀ hs ∈ (httpStep sampleEnv httpAccept e).hs,
      SendSettled sampleEnv (sampleOutside 1) hs
        ((httpStep sampleEnv httpAccept e).net.unackedLen - 71) := by decide +kernel
  have hrun := Run.cons
    (show Guarded (AckedInTime sampleEnv) (Step sampleEnv) httpAccept e _ from
      ⟨hreceived, trivial, rfl⟩)
    (Run.single (show Guarded (AckedInTime sampleEnv) (Step sampleEnv) _
      (.sent 71 (sampleOutside 1)) _ from
        ⟨hsettled, ⟨by decide, by decide +kernel⟩, rfl⟩))
  exact ⟨_, hrun, by decide +kernel, unacked_alive hrun⟩

end Sample

end RadProt.Http
