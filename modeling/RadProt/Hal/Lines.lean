import Mathlib.Data.List.Induction
import RadProt.Hal.Reading

namespace RadProt.Hal

open RadProt.Lib

/-- Pieces of a stream: those that are complete, and what has come of the next. -/
structure Split where
  done : List (List UInt8)
  rest : List UInt8

/-- A piece ends at a terminator, of which only the first counts, or behind a byte marked so. -/
def Split.feed (s : Split) (x : UInt8 × Bool) : Split :=
  if isTerminator x.1 then
    if s.rest = [] then s else { done := s.done ++ [s.rest], rest := [] }
  else if x.2 then { done := s.done ++ [s.rest ++ [x.1]], rest := [] }
  else { done := s.done, rest := s.rest ++ [x.1] }

def split (stream : List (UInt8 × Bool)) : Split := stream.foldl Split.feed { done := [], rest := [] }

def lines (stream : List UInt8) : Split := split (stream.map fun c => (c, false))

@[simp] theorem split_append (stream : List (UInt8 × Bool)) (x : UInt8 × Bool) :
    split (stream ++ [x]) = (split stream).feed x := by simp [split]

def InLine (stream piece : List UInt8) : Prop :=
  piece <:+: stream ∧ ∀ c ∈ piece, isTerminator c = false

theorem InLine.mono {stream piece : List UInt8} (h : InLine stream piece) (more : List UInt8) :
    InLine (stream ++ more) piece :=
  ⟨h.1.trans (List.prefix_append stream more).isInfix, h.2⟩

theorem suffix_snoc {stream piece : List UInt8} (h : piece <:+ stream) (c : UInt8) :
    piece ++ [c] <:+ stream ++ [c] := by
  obtain ⟨init, rfl⟩ := h
  exact ⟨init, (List.append_assoc ..).symm⟩

theorem InLine.snoc {stream piece : List UInt8} {c : UInt8} (hsuffix : piece <:+ stream)
    (hpiece : ∀ b ∈ piece, isTerminator b = false) (hc : isTerminator c = false) :
    InLine (stream ++ [c]) (piece ++ [c]) := by
  refine ⟨(suffix_snoc hsuffix c).isInfix, fun b hb => ?_⟩
  rcases List.mem_append.mp hb with hb | hb
  · exact hpiece b hb
  · rw [List.mem_singleton.mp hb, hc]

theorem inLine_split (stream : List (UInt8 × Bool)) :
    (∀ piece ∈ (split stream).done, InLine (stream.map Prod.fst) piece) ∧
      (split stream).rest <:+ stream.map Prod.fst ∧
        ∀ c ∈ (split stream).rest, isTerminator c = false := by
  induction stream using List.reverseRecOn with
  | nil =>
    exact ⟨fun _ h => absurd h List.not_mem_nil, List.nil_suffix,
      fun _ h => absurd h List.not_mem_nil⟩
  | append_singleton stream x ih =>
    obtain ⟨hdone, hsuffix, hrest⟩ := ih
    obtain ⟨c, cut⟩ := x
    have hmono : ∀ piece ∈ (split stream).done, InLine (stream.map Prod.fst ++ [c]) piece :=
      fun piece hp => (hdone piece hp).mono [c]
    rw [split_append, Split.feed, List.map_append, List.map_singleton]
    by_cases hc : isTerminator c = true
    · rw [if_pos hc]
      by_cases hnil : (split stream).rest = []
      · rw [if_pos hnil, hnil]
        exact ⟨hmono, List.nil_suffix, fun _ h => nomatch h⟩
      · rw [if_neg hnil]
        refine ⟨fun piece hp => ?_, List.nil_suffix, fun _ h => nomatch h⟩
        rcases List.mem_append.mp hp with hp | hp
        · exact hmono piece hp
        · obtain rfl := List.mem_singleton.mp hp
          exact InLine.mono ⟨hsuffix.isInfix, hrest⟩ [c]
    · have hsnoc := InLine.snoc hsuffix hrest (Bool.eq_false_iff.mpr hc)
      rw [if_neg hc]
      cases cut with
      | true =>
        refine ⟨fun piece hp => ?_, List.nil_suffix, fun _ h => nomatch h⟩
        rcases List.mem_append.mp hp with hp | hp
        · exact hmono piece hp
        · obtain rfl := List.mem_singleton.mp hp
          exact hsnoc
      | false => exact ⟨hmono, suffix_snoc hsuffix c, hsnoc.2⟩

/-- The receiver and what has gone through it: the bytes received, each with whether it found
exactly two bytes left in the ring, and the strings returned. -/
structure System where
  serial : Serial
  received : List (UInt8 × Bool)
  returned : List (List UInt8)

def System.init (cells : Nat → UInt8) : System where
  serial := .new 256 cells
  received := []
  returned := []

inductive Event
  | char (c : UInt8)
  /-- `read_from_receive_buffer` into 256 bytes, by a `read_string` that does not time out. -/
  | read
  deriving DecidableEq

def cutsAt (s : Serial) (c : UInt8) : Bool := !isTerminator c && s.uartBuffer.spaceLeft = 2

def Event.Enabled (s : System) : Event → Prop
  | .char _ => True
  | .read => s.serial.stringFinished = true

instance (s : System) : (e : Event) → Decidable (e.Enabled s)
  | .char _ => inferInstanceAs (Decidable True)
  | .read => inferInstanceAs (Decidable (_ = _))

def serialStep (s : System) : Event → System
  | .char c =>
    { s with
      serial := (handleReceivedChar s.serial c).1
      received := s.received ++ [(c, cutsAt s.serial c)] }
  | .read =>
    let (bytes, serial) := readFromReceiveBuffer s.serial 256
    { s with serial, returned := s.returned ++ [cString bytes] }

def Step (s : System) (e : Event) (t : System) : Prop := e.Enabled s ∧ t = serialStep s e

def HasRoom (s : System) : Event → Prop
  | .char c =>
    isTerminator c = true ∧ s.serial.receivedChars = 0 ∨
      s.serial.uartBuffer.currentSize < s.serial.uartBuffer.capacity
  | .read => True

instance (s : System) : (e : Event) → Decidable (HasRoom s e)
  | .char _ => inferInstanceAs (Decidable (_ ∨ _))
  | .read => inferInstanceAs (Decidable True)

def FindsOne (s : System) : Event → Prop
  | .char _ => True
  | .read => s.serial.uartBuffer.contents.count 0 ≤ 1

instance (s : System) : (e : Event) → Decidable (FindsOne s e)
  | .char _ => inferInstanceAs (Decidable True)
  | .read => inferInstanceAs (Decidable (_ ≤ _))

structure WellFormed (stream : List UInt8) : Prop where
  zero_notMem : 0 ∉ stream
  length_le : ∀ piece, InLine stream piece → piece.length ≤ 254

theorem WellFormed.of_append {stream more : List UInt8} (h : WellFormed (stream ++ more)) :
    WellFormed stream where
  zero_notMem hz := h.zero_notMem (List.mem_append_left _ hz)
  length_le piece hp := h.length_le piece (hp.mono more)

/-- What the ring and the flags stand for: the pieces not read yet, each with its NUL, and the
piece that is coming in. -/
structure Serves (s : System) (pending : List (List UInt8)) : Prop where
  valid : s.serial.uartBuffer.Valid
  capacity : s.serial.uartBuffer.capacity = 256
  timeout : s.serial.timeoutDetected = false
  done : (split s.received).done = s.returned ++ pending
  contents : s.serial.uartBuffer.contents =
    pending.flatMap (· ++ [0]) ++ (split s.received).rest
  receivedChars : s.serial.receivedChars = (split s.received).rest.length
  finished : s.serial.stringFinished = true → pending ≠ []

def Flagged (s : System) (pending : List (List UInt8)) : Prop :=
  pending ≠ [] → s.serial.stringFinished = true

namespace Serves

variable {s : System} {pending : List (List UInt8)}

theorem init (cells : Nat → UInt8) : Serves (System.init cells) [] where
  valid := RingBuffer.valid_new (by decide) cells
  capacity := rfl
  timeout := rfl
  done := rfl
  contents := rfl
  receivedChars := rfl
  finished := nofun

theorem complete {t : System} {line : List UInt8} (h : Serves s pending)
    (hdone : (split t.received).done = (split s.received).done ++ [line])
    (hrest : (split t.received).rest = []) (hreturned : t.returned = s.returned)
    (hvalid : t.serial.uartBuffer.Valid) (hcapacity : t.serial.uartBuffer.capacity = 256)
    (hcontents : t.serial.uartBuffer.contents = pending.flatMap (· ++ [0]) ++ line ++ [0])
    (htimeout : t.serial.timeoutDetected = false) (hchars : t.serial.receivedChars = 0) :
    Serves t (pending ++ [line]) where
  valid := hvalid
  capacity := hcapacity
  timeout := htimeout
  done := by rw [hdone, h.done, hreturned, List.append_assoc]
  contents := by rw [hcontents, hrest]; simp
  receivedChars := by rw [hchars, hrest]; rfl
  finished := fun _ => by simp

theorem terminator (h : Serves s pending) {c : UInt8} (hc : isTerminator c = true)
    (hroom : HasRoom s (.char c)) :
    ∃ pending', Serves (serialStep s (.char c)) pending' ∧
      (Flagged s pending → Flagged (serialStep s (.char c)) pending') := by
  have htimeout : ¬ s.serial.timeoutDetected = true := by simp [h.timeout]
  have hsplit : split (serialStep s (.char c)).received =
      if (split s.received).rest = [] then split s.received
      else { done := (split s.received).done ++ [(split s.received).rest], rest := [] } := by
    rw [serialStep, split_append, Split.feed, if_pos hc]
  by_cases hnil : (split s.received).rest = []
  · have hchars : s.serial.receivedChars = 0 := by rw [h.receivedChars, hnil]; rfl
    have hserial : (serialStep s (.char c)).serial = s.serial := by
      simp [serialStep, handleReceivedChar, h.timeout, hc, hchars]
    rw [if_pos hnil] at hsplit
    refine ⟨pending, ?_, fun hflagged hne => hserial.symm ▸ hflagged hne⟩
    constructor
    case done => rw [hsplit]; exact h.done
    case contents => rw [hsplit, hserial]; exact h.contents
    case receivedChars => rw [hsplit, hserial]; exact h.receivedChars
    all_goals rw [hserial]
    case valid => exact h.valid
    case capacity => exact h.capacity
    case timeout => exact h.timeout
    case finished => exact h.finished
  · have hchars : 0 < s.serial.receivedChars := by
      rw [h.receivedChars]
      exact List.length_pos_iff.mpr hnil
    have hlt : s.serial.uartBuffer.currentSize < s.serial.uartBuffer.capacity :=
      hroom.resolve_left fun hz => absurd hz.2 (Nat.ne_of_gt hchars)
    rw [if_neg hnil] at hsplit
    have hserial : (serialStep s (.char c)).serial =
        { s.serial with
          uartBuffer := (s.serial.uartBuffer.push 0).2
          stringFinished := true
          receivedChars := 0 } := by
      simp [serialStep, handleReceivedChar, h.timeout, hc, hchars]
    refine ⟨_, h.complete (by rw [hsplit]) (by rw [hsplit]) rfl ?_ ?_ ?_ ?_ ?_,
      fun _ _ => by rw [hserial]⟩
    all_goals rw [hserial]
    · exact h.valid.push 0
    · exact (s.serial.uartBuffer.capacity_push 0).trans h.capacity
    · rw [RingBuffer.contents_push h.valid hlt, h.contents]
    · exact h.timeout

theorem byte (h : Serves s pending) {c : UInt8} (hc : ¬ isTerminator c = true)
    (hroom : HasRoom s (.char c)) :
    ∃ pending', Serves (serialStep s (.char c)) pending' ∧
      (Flagged s pending → Flagged (serialStep s (.char c)) pending') := by
  have hlt : s.serial.uartBuffer.currentSize < s.serial.uartBuffer.capacity :=
    hroom.resolve_left fun hz => hc hz.1
  have htimeout : ¬ s.serial.timeoutDetected = true := by simp [h.timeout]
  have hpush := RingBuffer.contents_push h.valid hlt c
  by_cases hcut : s.serial.uartBuffer.spaceLeft = 2
  · have hmark : cutsAt s.serial c = true := by simp [cutsAt, hc, hcut]
    have hnext : (s.serial.uartBuffer.push c).2.currentSize <
        (s.serial.uartBuffer.push c).2.capacity := by
      rw [RingBuffer.currentSize_push hlt, RingBuffer.capacity_push]
      unfold RingBuffer.spaceLeft at hcut
      omega
    have hsplit : split (serialStep s (.char c)).received =
        { done := (split s.received).done ++ [(split s.received).rest ++ [c]], rest := [] } := by
      rw [serialStep, split_append, Split.feed, if_neg hc, if_pos hmark]
    have hserial : (serialStep s (.char c)).serial =
        { s.serial with
          uartBuffer := ((s.serial.uartBuffer.push c).2.push 0).2
          stringFinished := true
          receivedChars := 0 } := by
      rw [serialStep, handleReceivedChar, if_neg htimeout, if_neg hc, if_pos hcut]
    refine ⟨_, h.complete (by rw [hsplit]) (by rw [hsplit]) rfl ?_ ?_ ?_ ?_ ?_,
      fun _ _ => by rw [hserial]⟩
    all_goals rw [hserial]
    · exact (h.valid.push c).push 0
    · simp [h.capacity]
    · rw [RingBuffer.contents_push (h.valid.push c) hnext, hpush, h.contents]
      simp
    · exact h.timeout
  · have hmark : ¬ cutsAt s.serial c = true := by simp [cutsAt, hcut]
    have hsplit : split (serialStep s (.char c)).received =
        { done := (split s.received).done, rest := (split s.received).rest ++ [c] } := by
      rw [serialStep, split_append, Split.feed, if_neg hc, if_neg hmark]
    have hserial : (serialStep s (.char c)).serial =
        { s.serial with
          uartBuffer := (s.serial.uartBuffer.push c).2
          receivedChars := s.serial.receivedChars + 1 } := by
      rw [serialStep, handleReceivedChar, if_neg htimeout, if_neg hc, if_neg hcut]
    refine ⟨pending, ?_, fun hflagged hne => by rw [hserial]; exact hflagged hne⟩
    constructor
    case done => rw [hsplit]; exact h.done
    case contents => rw [hsplit, hserial, hpush, h.contents, List.append_assoc]
    case receivedChars => rw [hsplit, hserial, h.receivedChars, List.length_append]; rfl
    all_goals rw [hserial]
    case valid => exact h.valid.push c
    case capacity => exact (s.serial.uartBuffer.capacity_push c).trans h.capacity
    case timeout => exact h.timeout
    case finished => exact h.finished

theorem inLine (h : Serves s pending) {piece : List UInt8} (hp : piece ∈ pending) :
    InLine (s.received.map Prod.fst) piece :=
  (inLine_split s.received).1 piece (by rw [h.done]; exact List.mem_append_right _ hp)

theorem zero_notMem_pending (h : Serves s pending) (hstream : WellFormed (s.received.map Prod.fst))
    {piece : List UInt8} (hp : piece ∈ pending) : 0 ∉ piece :=
  fun hz => hstream.zero_notMem ((h.inLine hp).1.subset hz)

theorem zero_notMem_rest (hstream : WellFormed (s.received.map Prod.fst)) :
    0 ∉ (split s.received).rest :=
  fun hz => hstream.zero_notMem ((inLine_split s.received).2.1.subset hz)

theorem count_zero (h : Serves s pending) (hstream : WellFormed (s.received.map Prod.fst)) :
    s.serial.uartBuffer.contents.count 0 = pending.length := by
  have hpieces : ∀ ps : List (List UInt8), (∀ p ∈ ps, 0 ∉ p) →
      (ps.flatMap (· ++ [0])).count 0 = ps.length := by
    intro ps hps
    induction ps with
    | nil => rfl
    | cons p ps ih =>
      rw [List.flatMap_cons, List.count_append, ih fun q hq => hps q (List.mem_cons_of_mem _ hq),
        List.count_append, List.count_eq_zero_of_not_mem (hps p List.mem_cons_self)]
      simp [Nat.add_comm]
  rw [h.contents, List.count_append,
    List.count_eq_zero_of_not_mem (zero_notMem_rest hstream), Nat.add_zero]
  exact hpieces pending fun p hp => h.zero_notMem_pending hstream hp

theorem read (h : Serves s pending) (hstream : WellFormed (s.received.map Prod.fst))
    (henabled : Event.read.Enabled s) :
    ∃ pending', Serves (serialStep s .read) pending' ∧
      (FindsOne s .read → Flagged (serialStep s .read) pending') := by
  obtain ⟨line, pending', rfl⟩ := List.exists_cons_of_ne_nil (h.finished henabled)
  have hcontents : s.serial.uartBuffer.contents =
      line ++ 0 :: (pending'.flatMap (· ++ [0]) ++ (split s.received).rest) := by
    rw [h.contents]
    simp
  have h0 : 0 ∉ line := h.zero_notMem_pending hstream List.mem_cons_self
  have hlen := hstream.length_le line (h.inLine List.mem_cons_self)
  obtain ⟨hbytes, hrest, hvalid, hcapacity⟩ := readFromReceiveBuffer_refines h.valid 256
  rw [hcontents, popQueue_line h0 (by omega)] at hbytes hrest
  refine ⟨pending', ?_, fun hone hne => ?_⟩
  · constructor
    case valid => exact hvalid
    case capacity => exact hcapacity.trans h.capacity
    case timeout => exact h.timeout
    case done =>
      simp only [serialStep, hbytes, h.done]
      rw [cString_append h0, cString_zero_cons, List.append_nil, List.append_assoc,
        List.singleton_append]
    case contents => exact hrest
    case receivedChars => exact h.receivedChars
    case finished => exact fun hfinished => absurd hfinished Bool.false_ne_true
  · have hcount : (line :: pending').length ≤ 1 := by
      rw [← h.count_zero hstream]
      exact hone
    exact absurd (List.length_eq_zero_iff.mp (Nat.le_zero.mp (Nat.le_of_succ_le_succ hcount))) hne

theorem step {e : Event} (h : Serves s pending) (hstream : WellFormed (s.received.map Prod.fst))
    (henabled : e.Enabled s) (hroom : HasRoom s e) :
    ∃ pending', Serves (serialStep s e) pending' ∧
      (FindsOne s e → Flagged s pending → Flagged (serialStep s e) pending') := by
  cases e with
  | char c =>
    by_cases hc : isTerminator c = true
    · obtain ⟨pending', h', hflagged⟩ := h.terminator hc hroom
      exact ⟨pending', h', fun _ => hflagged⟩
    · obtain ⟨pending', h', hflagged⟩ := h.byte hc hroom
      exact ⟨pending', h', fun _ => hflagged⟩
  | read =>
    obtain ⟨pending', h', hflagged⟩ := h.read hstream henabled
    exact ⟨pending', h', fun hone _ => hflagged hone⟩

theorem zero_mem_iff (h : Serves s pending) (hstream : WellFormed (s.received.map Prod.fst)) :
    0 ∈ s.serial.uartBuffer.contents ↔ pending ≠ [] := by
  rw [← List.count_pos_iff, h.count_zero hstream, List.length_pos_iff]

end Serves

def Event.char? : Event → Option UInt8
  | .char c => some c
  | .read => none

def chars (es : List Event) : List UInt8 := es.filterMap Event.char?

variable {s t : System} {es : List Event} {cells : Nat → UInt8}

theorem received_of_run (hrun : Run Step s es t) :
    t.received.map Prod.fst = s.received.map Prod.fst ++ chars es := by
  induction hrun with
  | nil => exact (List.append_nil _).symm
  | @cons s t u e es hstep _ ih =>
    obtain ⟨-, rfl⟩ := hstep
    rw [ih]
    cases e with
    | char c => simp [serialStep, chars, Event.char?]
    | read => rfl

theorem serves_of_run (hstream : WellFormed (s.received.map Prod.fst ++ chars es))
    (hrun : Run (Guarded HasRoom Step) s es t) {pending : List (List UInt8)}
    (h : Serves s pending) :
    ∃ pending', Serves t pending' ∧
      (Run (Guarded FindsOne Step) s es t → Flagged s pending → Flagged t pending') := by
  induction hrun generalizing pending with
  | nil => exact ⟨pending, h, fun _ => id⟩
  | @cons s t u e es hstep _ ih =>
    obtain ⟨hroom, henabled, rfl⟩ := hstep
    have hnext : WellFormed ((serialStep s e).received.map Prod.fst ++ chars es) := by
      cases e with
      | char c => simpa [serialStep, chars, Event.char?] using hstream
      | read => exact hstream
    obtain ⟨pending₁, h₁, hflagged₁⟩ := h.step hstream.of_append henabled hroom
    obtain ⟨pending', h', hflagged'⟩ := ih hnext h₁
    refine ⟨pending', h', fun hone hflagged => ?_⟩
    obtain ⟨s₁, ⟨hfinds, -, rfl⟩, hrest⟩ := hone.cons_inv
    exact hflagged' hrest (hflagged₁ hfinds hflagged)

/-- While no byte meets a full ring, the strings returned are, in order, the pieces of the lines
received, cut only behind a byte that found exactly two bytes left, and `string_finished_` is set
only while a line is complete in the ring; while no read finds a second line either, it tells
whether one is. -/
theorem strings_in_order (hstream : WellFormed (chars es))
    (hrun : Run (Guarded HasRoom Step) (System.init cells) es s) :
    (s.serial.stringFinished = true → 0 ∈ s.serial.uartBuffer.contents) ∧
      (Run (Guarded FindsOne Step) (System.init cells) es s →
        (s.serial.stringFinished = true ↔ 0 ∈ s.serial.uartBuffer.contents)) ∧
      s.received.map Prod.fst = chars es ∧
      s.returned <+: (split s.received).done ∧
      (∀ str ∈ s.returned, InLine (chars es) str) ∧
      ((∀ x ∈ s.received, x.2 = false) → s.returned <+: (lines (chars es)).done) := by
  obtain ⟨pending, h, hflagged⟩ :=
    serves_of_run (s := System.init cells) hstream hrun (.init cells)
  have hreceived : s.received.map Prod.fst = chars es := received_of_run hrun.of_guarded
  have hpieces : s.returned <+: (split s.received).done := by
    rw [h.done]
    exact List.prefix_append _ _
  have hzero := h.zero_mem_iff (hreceived ▸ hstream)
  refine ⟨fun hfinished => hzero.mpr (h.finished hfinished), fun hone => ?_, hreceived, hpieces,
    ?_, ?_⟩
  · exact ⟨fun hfinished => hzero.mpr (h.finished hfinished),
      fun hmem => hflagged hone (fun hne => absurd rfl hne) (hzero.mp hmem)⟩
  · intro str hstr
    rw [← hreceived]
    exact (inLine_split s.received).1 str (hpieces.subset hstr)
  · intro hmarks
    have hsame : s.received = (chars es).map fun c => (c, false) := by
      rw [← hreceived, List.map_map]
      conv_lhs => rw [← List.map_id s.received]
      apply List.map_congr_left
      intro x hx
      exact Prod.ext rfl (hmarks x hx)
    rw [lines, ← hsame]
    exact hpieces

def serialRun (es : List Event) : System := es.foldl serialStep (System.init fun _ => 0)

def backlog : List Event :=
  [.char 97, .char 13, .char 10, .char 98, .char 13, .read, .char 99, .char 13, .read]

theorem backlog_in_order :
    (serialRun backlog).returned = [[97], [98]] ∧
      (serialRun backlog).returned <+: (lines [97, 13, 10, 98, 13, 99, 13]).done := by
  have hstream : WellFormed (chars backlog) := by
    refine ⟨by decide, fun piece hp => ?_⟩
    exact Nat.le_trans hp.1.length_le (by decide)
  have hrun : Run (Guarded HasRoom Step) (System.init fun _ => 0) backlog (serialRun backlog) :=
    .guarded_of_feasible (by decide +kernel)
  have hreceived : (serialRun backlog).received.map Prod.snd = List.replicate 7 false := by
    decide +kernel
  refine ⟨by decide +kernel, (strings_in_order hstream hrun).2.2.2.2.2 fun x hx => ?_⟩
  exact List.eq_of_mem_replicate (hreceived ▸ List.mem_map_of_mem hx)

theorem run_chars (s : System) (cs : List UInt8) :
    Run Step s (cs.map Event.char) ((cs.map Event.char).foldl serialStep s) := by
  induction cs generalizing s with
  | nil => exact .nil
  | cons c cs ih => exact .cons ⟨trivial, rfl⟩ (ih _)

def twoLines : List Event := [.char 97, .char 13, .char 98, .char 13, .read]

def longLine : List Event :=
  (List.replicate 100 (97 : UInt8) ++ [13] ++ List.replicate 200 98 ++ [13]).map Event.char ++
    (.read :: ([99, 13].map Event.char ++ [.read]))

/-- The flag says that no line is complete although one is, and a line is returned without its
end. -/
theorem line_left_behind_and_cut :
    (Run Step (System.init fun _ => 0) twoLines (serialRun twoLines) ∧
        (serialRun twoLines).serial.stringFinished = false ∧
        0 ∈ (serialRun twoLines).serial.uartBuffer.contents) ∧
      Run Step (System.init fun _ => 0) longLine (serialRun longLine) ∧
        (serialRun longLine).returned = [List.replicate 100 97, List.replicate 154 98] ∧
        (lines (chars longLine)).done =
          [List.replicate 100 97, List.replicate 200 98, [99]] := by
  refine ⟨⟨?_, by decide⟩, ?_, by decide +kernel, by decide +kernel⟩
  · exact .cons ⟨trivial, rfl⟩ (.cons ⟨trivial, rfl⟩ (.cons ⟨trivial, rfl⟩ (.cons ⟨trivial, rfl⟩
      (.cons ⟨rfl, rfl⟩ .nil))))
  · unfold serialRun longLine
    rw [List.foldl_append]
    apply (run_chars _ _).append
    refine .cons ⟨by decide +kernel, rfl⟩ ?_
    rw [List.foldl_cons, List.foldl_append]
    apply (run_chars _ _).append
    exact .single ⟨by decide +kernel, rfl⟩

end RadProt.Hal
