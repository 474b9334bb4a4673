import RadProt.Hal.Reading

namespace RadProt.Hal

open RadProt.Lib

structure Sound (s : Serial) : Prop where
  valid : s.uartBuffer.Valid
  capacity : s.uartBuffer.capacity = 256

namespace Sound

variable {s : Serial}

theorem new (cells : Nat → UInt8) : Sound (.new 256 cells) :=
  ⟨RingBuffer.valid_new (by decide) cells, rfl⟩

theorem push (h : Sound s) (c : UInt8) {t : Serial} (ht : t.uartBuffer = (s.uartBuffer.push c).2) :
    Sound t :=
  ⟨ht ▸ h.valid.push c, ht ▸ (s.uartBuffer.capacity_push c).trans h.capacity⟩

theorem handleReceivedChar (h : Sound s) (c : UInt8) : Sound (handleReceivedChar s c).1 := by
  rw [Hal.handleReceivedChar]
  split
  next => exact ⟨h.valid.reset, h.capacity⟩
  next =>
    split
    next =>
      split
      next => exact h.push 0 rfl
      next => exact h
    next =>
      split
      next =>
        exact Sound.push (s := { s with uartBuffer := (s.uartBuffer.push c).2 }) (h.push c rfl) 0 rfl
      next => exact h.push c rfl

theorem receive (h : Sound s) (chars : List UInt8) : Sound (receive s chars) := by
  induction chars generalizing s with
  | nil => exact h
  | cons c chars ih => exact ih (h.handleReceivedChar c)

theorem readFromReceiveBuffer (h : Sound s) (bufferSize : Nat) :
    Sound (readFromReceiveBuffer s bufferSize).2 := by
  obtain ⟨-, -, hvalid, hcapacity⟩ := readFromReceiveBuffer_refines h.valid bufferSize
  exact ⟨hvalid, hcapacity.trans h.capacity⟩

theorem drained (h : Sound s) (between : List UInt8) (bufferSize : Nat) :
    Sound (Hal.readFromReceiveBuffer (Hal.receive { s with timeoutDetected := true } between)
      bufferSize).2 :=
  readFromReceiveBuffer
    (receive (s := { s with timeoutDetected := true }) ⟨h.valid, h.capacity⟩ between) bufferSize

theorem timeoutBranch (h : Sound s) (between after : List UInt8) (bufferSize : Nat) :
    Sound (timeoutBranch s between after bufferSize) :=
  (h.drained between bufferSize).receive after

theorem readString (h : Sound s) {bufferSize : Nat} {wakes : List Wake} {r : List UInt8 × Serial}
    (hr : readString bufferSize s wakes = some r) : Sound r.2 := by
  induction wakes generalizing s with
  | nil =>
    rw [Hal.readString] at hr
    split at hr
    next => exact Option.some.inj hr ▸ h.readFromReceiveBuffer bufferSize
    next => cases hr
  | cons wake wakes ih =>
    cases wake with
    | notified chars =>
      rw [Hal.readString] at hr
      split at hr
      next => exact Option.some.inj hr ▸ h.readFromReceiveBuffer bufferSize
      next => exact ih (h.receive chars) hr
    | timedOut before between after =>
      rw [Hal.readString] at hr
      split at hr
      next => exact Option.some.inj hr ▸ h.readFromReceiveBuffer bufferSize
      next => exact Option.some.inj hr ▸ (h.receive before).timeoutBranch between after bufferSize

end Sound

theorem prefix_push {r : RingBuffer UInt8} (h : r.Valid) (c : UInt8) :
    r.contents <+: (r.push c).2.contents := by
  rcases Nat.lt_or_eq_of_le h.size_le with hlt | hfull
  · rw [RingBuffer.contents_push h hlt]
    exact List.prefix_append _ _
  · simp only [RingBuffer.push_of_full hfull, List.prefix_rfl]

structure Extends (s t : Serial) : Prop where
  timeout : t.timeoutDetected = false
  contents : s.uartBuffer.contents <+: t.uartBuffer.contents
  finished : s.stringFinished = true → t.stringFinished = true

variable {s t : Serial}

theorem extends_handleReceivedChar (h : Sound s) (hs : s.timeoutDetected = false) (c : UInt8) :
    Extends s (handleReceivedChar s c).1 := by
  rw [handleReceivedChar, if_neg (by simp [hs])]
  split
  next =>
    split
    next => exact ⟨hs, prefix_push h.valid 0, fun _ => rfl⟩
    next => exact ⟨hs, List.prefix_rfl, id⟩
  next =>
    split
    next =>
      exact ⟨hs, (prefix_push h.valid c).trans (prefix_push (h.valid.push c) 0), fun _ => rfl⟩
    next => exact ⟨hs, prefix_push h.valid c, id⟩

theorem extends_receive (h : Sound s) (hs : s.timeoutDetected = false) (chars : List UInt8) :
    Extends s (receive s chars) := by
  induction chars generalizing s with
  | nil => exact ⟨hs, List.prefix_rfl, id⟩
  | cons c chars ih =>
    have hc := extends_handleReceivedChar h hs c
    have hrest := ih (h.handleReceivedChar c) hc.timeout
    exact ⟨hrest.timeout, hc.contents.trans hrest.contents, hrest.finished ∘ hc.finished⟩

structure IsLine (w : List UInt8) : Prop where
  length_pos : 0 < w.length
  length_le : w.length ≤ 254
  zero_notMem : 0 ∉ w
  not_terminator : ∀ c ∈ w, isTerminator c = false

theorem receive_append (s : Serial) (xs ys : List UInt8) :
    receive s (xs ++ ys) = receive (receive s xs) ys := List.foldl_append

theorem receive_fits {w : List UInt8} (h : Sound s) (hs : s.timeoutDetected = false)
    (hw : ∀ c ∈ w, isTerminator c = false)
    (hfits : s.uartBuffer.contents.length + w.length ≤ 254) :
    (receive s w).uartBuffer.contents = s.uartBuffer.contents ++ w ∧
      (receive s w).receivedChars = s.receivedChars + w.length ∧
      (receive s w).stringFinished = s.stringFinished := by
  induction w generalizing s with
  | nil => exact ⟨(List.append_nil _).symm, rfl, rfl⟩
  | cons c w ih =>
    have hc : ¬ isTerminator c = true := by simp [hw c List.mem_cons_self]
    rw [RingBuffer.length_contents, List.length_cons] at hfits
    have hspace : ¬ s.uartBuffer.spaceLeft = 2 := by
      rw [RingBuffer.spaceLeft, h.capacity]
      omega
    have hlt : s.uartBuffer.currentSize < s.uartBuffer.capacity := by rw [h.capacity]; omega
    have hserial : (handleReceivedChar s c).1 =
        { s with
          uartBuffer := (s.uartBuffer.push c).2
          receivedChars := s.receivedChars + 1 } := by
      rw [handleReceivedChar, if_neg (by simp [hs]), if_neg hc, if_neg hspace]
    have hpush := RingBuffer.contents_push h.valid hlt c
    obtain ⟨hcontents, hchars, hfinished⟩ := ih (h.handleReceivedChar c) (by rw [hserial]; exact hs)
      (fun b hb => hw b (List.mem_cons_of_mem _ hb))
      (by rw [hserial, hpush, List.length_append, RingBuffer.length_contents, List.length_singleton]
          omega)
    rw [hserial] at hcontents hchars hfinished
    rw [show receive s (c :: w) = receive (handleReceivedChar s c).1 w from rfl, hserial]
    refine ⟨?_, ?_, hfinished⟩
    · rw [hcontents, hpush, List.append_assoc, List.singleton_append]
    · rw [hchars, List.length_cons, Nat.add_assoc, Nat.add_comm 1]

def Overlong (bytes : List UInt8) : Prop := 255 ≤ bytes.length ∧ 0 ∉ bytes.take 255

theorem Overlong.mono {xs ys : List UInt8} (h : Overlong xs) (hxs : xs <+: ys) : Overlong ys := by
  obtain ⟨more, rfl⟩ := hxs
  refine ⟨Nat.le_trans h.1 (by simp), ?_⟩
  rw [List.take_append_of_le_length h.1]
  exact h.2

theorem overlong_of_notMem {xs : List UInt8} (hlen : 255 ≤ xs.length) (h : 0 ∉ xs) : Overlong xs :=
  ⟨hlen, fun hz => h (List.mem_of_mem_take hz)⟩

theorem zero_notMem_snoc {xs : List UInt8} (h : 0 ∉ xs) {c : UInt8} (hc : c ≠ 0) : 0 ∉ xs ++ [c] := by
  rw [List.mem_append, List.mem_singleton, not_or]
  exact ⟨h, hc.symm⟩

theorem handleReceivedChar_byte (h : Sound s) (hs : s.timeoutDetected = false)
    (h0 : 0 ∉ s.uartBuffer.contents) {c : UInt8} (hc : isTerminator c = false) (hc0 : c ≠ 0) :
    ((handleReceivedChar s c).1.uartBuffer.contents = s.uartBuffer.contents ++ [c] ∧
        (handleReceivedChar s c).1.receivedChars = s.receivedChars + 1) ∨
      Overlong (handleReceivedChar s c).1.uartBuffer.contents := by
  have hlen := RingBuffer.length_contents s.uartBuffer
  rcases Nat.lt_or_eq_of_le h.valid.size_le with hlt | hfull
  · have hpush := RingBuffer.contents_push h.valid hlt c
    by_cases hcut : s.uartBuffer.spaceLeft = 2
    · right
      have hserial : (handleReceivedChar s c).1.uartBuffer =
          ((s.uartBuffer.push c).2.push 0).2 := by
        rw [handleReceivedChar, if_neg (by simp [hs]), if_neg (by simp [hc]), if_pos hcut]
      have hsize : s.uartBuffer.currentSize = 254 := by
        rw [RingBuffer.spaceLeft, h.capacity] at hcut
        omega
      rw [hserial]
      have hoverlong : 255 ≤ (s.uartBuffer.contents ++ [c]).length →
          0 ∉ s.uartBuffer.contents ++ [c] → Overlong (s.uartBuffer.contents ++ [c]) :=
        overlong_of_notMem
      refine Overlong.mono (hoverlong ?_ ?_) ?_
      · rw [List.length_append, hlen, hsize]
        exact Nat.le_refl _
      · exact zero_notMem_snoc h0 hc0
      · rw [← hpush]
        exact prefix_push (h.valid.push c) 0
    · left
      rw [handleReceivedChar, if_neg (by simp [hs]), if_neg (by simp [hc]), if_neg hcut]
      exact ⟨hpush, rfl⟩
  · right
    refine Overlong.mono (overlong_of_notMem ?_ h0)
      (extends_handleReceivedChar h hs c).contents
    rw [hlen, hfull, h.capacity]
    decide

theorem receive_spills {w : List UInt8} (h : Sound s) (hs : s.timeoutDetected = false)
    (h0 : 0 ∉ s.uartBuffer.contents) (hw : ∀ c ∈ w, isTerminator c = false) (hw0 : 0 ∉ w) :
    ((receive s w).uartBuffer.contents = s.uartBuffer.contents ++ w ∧
        (receive s w).receivedChars = s.receivedChars + w.length) ∨
      Overlong (receive s w).uartBuffer.contents := by
  induction w generalizing s with
  | nil => exact .inl ⟨(List.append_nil _).symm, rfl⟩
  | cons c w ih =>
    have hc0 : c ≠ 0 := fun hz => hw0 (hz ▸ List.mem_cons_self)
    have hsound := h.handleReceivedChar c
    have htimeout := (extends_handleReceivedChar h hs c).timeout
    obtain ⟨hcontents, hchars⟩ | hover :=
      handleReceivedChar_byte h hs h0 (hw c List.mem_cons_self) hc0
    · have hrest := ih hsound htimeout (by rw [hcontents]; exact zero_notMem_snoc h0 hc0)
        (fun b hb => hw b (List.mem_cons_of_mem _ hb)) fun hz => hw0 (List.mem_cons_of_mem _ hz)
      rw [hcontents, hchars, List.append_assoc, List.singleton_append, Nat.add_assoc,
        Nat.add_comm 1] at hrest
      exact hrest
    · exact .inr (hover.mono (extends_receive hsound htimeout w).contents)

theorem handleReceivedChar_end (hs : s.timeoutDetected = false) (hchars : 0 < s.receivedChars) :
    handleReceivedChar s 13 =
      ({ s with
         uartBuffer := (s.uartBuffer.push 0).2
         stringFinished := true
         receivedChars := 0 }, true) := by
  rw [handleReceivedChar, if_neg (by simp [hs]), if_pos (by decide), if_pos hchars]

theorem receive_line_spills {w : List UInt8} (h : Sound s) (hs : s.timeoutDetected = false)
    (h0 : 0 ∉ s.uartBuffer.contents) (hw : IsLine w) :
    (receive s (w ++ [13])).uartBuffer.contents = s.uartBuffer.contents ++ w ++ [0] ∨
      Overlong (receive s (w ++ [13])).uartBuffer.contents := by
  have hsound := h.receive w
  have htimeout := (extends_receive h hs w).timeout
  rw [receive_append]
  have hlast := (extends_handleReceivedChar hsound htimeout 13).contents
  obtain ⟨hcontents, hchars⟩ | hover := receive_spills h hs h0 hw.not_terminator hw.zero_notMem
  · rcases Nat.lt_or_eq_of_le hsound.valid.size_le with hlt | hfull
    · left
      have hpos : 0 < (receive s w).receivedChars := by
        have := hw.length_pos
        omega
      change (handleReceivedChar (receive s w) 13).1.uartBuffer.contents = _
      rw [handleReceivedChar_end htimeout hpos]
      exact (RingBuffer.contents_push hsound.valid hlt 0).trans (by rw [hcontents])
    · right
      refine Overlong.mono (overlong_of_notMem ?_ ?_) hlast
      · rw [RingBuffer.length_contents, hfull, hsound.capacity]
        decide
      · rw [hcontents, List.mem_append, not_or]
        exact ⟨h0, hw.zero_notMem⟩
  · exact .inr (hover.mono hlast)

def Noted (s : Serial) : Prop := s.stringFinished = true ∨ 0 < s.receivedChars

theorem noted_handleReceivedChar (hs : s.timeoutDetected = false) {c : UInt8}
    (hc : isTerminator c = false) : Noted (handleReceivedChar s c).1 := by
  rw [handleReceivedChar, if_neg (by simp [hs]), if_neg (by simp [hc])]
  split
  next => exact .inl rfl
  next => exact .inr (Nat.succ_pos _)

theorem finished_receive {w : List UInt8} (h : Sound s) (hs : s.timeoutDetected = false)
    (hpos : 0 < w.length) (hw : ∀ c ∈ w, isTerminator c = false) :
    (receive s (w ++ [13])).stringFinished = true := by
  have hnoted : Noted (receive s w) := by
    rw [← List.dropLast_concat_getLast (List.ne_nil_of_length_pos hpos), receive_append]
    exact noted_handleReceivedChar (extends_receive h hs _).timeout
      (hw _ (List.getLast_mem _))
  have htimeout := (extends_receive h hs w).timeout
  rw [receive_append]
  obtain hfinished | hchars := hnoted
  · exact (extends_handleReceivedChar (h.receive w) htimeout 13).finished hfinished
  · change (handleReceivedChar (receive s w) 13).1.stringFinished = true
    rw [handleReceivedChar_end htimeout hchars]

theorem receive_whole {w : List UInt8} (h : Sound s) (hs : s.timeoutDetected = false)
    (hempty : s.uartBuffer.contents = []) (hpos : 0 < w.length) (hlen : w.length ≤ 254)
    (hw : ∀ c ∈ w, isTerminator c = false) :
    (receive s (w ++ [13])).uartBuffer.contents = w ++ [0] := by
  obtain ⟨hcontents, hchars, -⟩ := receive_fits h hs hw
    (by rw [hempty, List.length_nil, Nat.zero_add]; exact hlen)
  rw [hempty, List.nil_append] at hcontents
  have hsound := h.receive w
  have hlt : (receive s w).uartBuffer.currentSize < (receive s w).uartBuffer.capacity := by
    rw [← RingBuffer.length_contents, hcontents, hsound.capacity]
    omega
  rw [receive_append]
  change (handleReceivedChar (receive s w) 13).1.uartBuffer.contents = _
  rw [handleReceivedChar_end (extends_receive h hs w).timeout (by omega)]
  exact (RingBuffer.contents_push hsound.valid hlt 0).trans (by rw [hcontents])

theorem readFromReceiveBuffer_bytes (h : Sound s) :
    (readFromReceiveBuffer s 256).1 = (untilNul s.uartBuffer.contents).take 255 :=
  (readFromReceiveBuffer_refines h.valid 256).1.trans (popQueue_stored _ 255)

theorem readFromReceiveBuffer_line (h : Sound s) {w : List UInt8} (hw : IsLine w)
    (hfront : w ++ [0] <+: s.uartBuffer.contents) : (readFromReceiveBuffer s 256).1 = w ++ [0] := by
  obtain ⟨rest, hrest⟩ := hfront
  rw [readFromReceiveBuffer_bytes h, ← hrest, List.append_assoc, List.singleton_append,
    untilNul_line hw.zero_notMem]
  apply List.take_of_length_le
  rw [List.length_append, List.length_singleton]
  exact Nat.succ_le_succ hw.length_le

theorem front_of_read (h : Sound s) {w : List UInt8}
    (hread : (readFromReceiveBuffer s 256).1 = w ++ [0]) : w ++ [0] <+: s.uartBuffer.contents := by
  rw [← hread, readFromReceiveBuffer_bytes h]
  exact (List.take_prefix 255 _).trans (prefix_untilNul _)

theorem readString_notified (s : Serial) (chunks : List (List UInt8)) :
    (∃ seen, seen <+: chunks.flatten ∧ (receive s seen).stringFinished = true ∧
        readString 256 s (chunks.map .notified) =
          some (readFromReceiveBuffer (receive s seen) 256)) ∨
      (receive s chunks.flatten).stringFinished = false ∧
        readString 256 s (chunks.map .notified) = none := by
  induction chunks generalizing s with
  | nil =>
    rw [List.map_nil, readString]
    cases hs : s.stringFinished with
    | true => exact .inl ⟨[], List.prefix_rfl, hs, rfl⟩
    | false => exact .inr ⟨hs, rfl⟩
  | cons chunk chunks ih =>
    rw [List.map_cons, readString]
    cases hs : s.stringFinished with
    | true => exact .inl ⟨[], List.nil_prefix, hs, rfl⟩
    | false =>
      rw [List.flatten_cons]
      obtain ⟨seen, hseen, hfinished, hread⟩ | ⟨hwaiting, hread⟩ := ih (receive s chunk)
      · refine .inl ⟨chunk ++ seen, (List.prefix_append_right_inj chunk).mpr hseen, ?_⟩
        rw [receive_append]
        exact ⟨hfinished, hread⟩
      · rw [receive_append]
        exact .inr ⟨hwaiting, hread⟩

/-- The next `read_string` returns exactly the line `w` and its terminator, however the bytes of
the line and of its CR come in, some of them before the call and the others while it waits. -/
def ReadsLine (s : Serial) (w : List UInt8) : Prop :=
  ∀ (early : List UInt8) (chunks : List (List UInt8)), early ++ chunks.flatten = w ++ [13] →
    (readString 256 (receive s early) (chunks.map .notified)).map Prod.fst = some (w ++ [0])

theorem readsLine_of_front {w : List UInt8} (h : Sound s) (hw : IsLine w)
    (hfinished : (receive s (w ++ [13])).stringFinished = true)
    (hfront : ∀ seen, seen <+: w ++ [13] → (receive s seen).stringFinished = true →
      w ++ [0] <+: (receive s seen).uartBuffer.contents) : ReadsLine s w := by
  intro early chunks hchunks
  obtain ⟨seen, hseen, hseenFinished, hread⟩ | ⟨hwaiting, -⟩ :=
    readString_notified (receive s early) chunks
  · rw [← receive_append] at hread hseenFinished
    have hprefix : early ++ seen <+: w ++ [13] :=
      hchunks ▸ (List.prefix_append_right_inj early).mpr hseen
    rw [hread, Option.map_some,
      readFromReceiveBuffer_line (h.receive _) hw (hfront _ hprefix hseenFinished)]
  · rw [← receive_append, hchunks, hfinished] at hwaiting
    cases hwaiting

theorem ReadsLine.front {w : List UInt8} (h : Sound s) (hs : s.stringFinished = false)
    (hread : ReadsLine s w) :
    (receive s (w ++ [13])).stringFinished = true ∧
      w ++ [0] <+: (receive s (w ++ [13])).uartBuffer.contents := by
  have hone := hread [] [w ++ [13]] (by simp)
  change (readString 256 s _).map Prod.fst = _ at hone
  rw [List.map_singleton, readString, hs, if_neg Bool.false_ne_true] at hone
  simp only [readString] at hone
  split at hone
  next hfinished =>
    exact ⟨hfinished, front_of_read (h.receive _) (Option.some.inj hone)⟩
  next => cases hone

theorem readsLine_of_empty {w : List UInt8} (h : Sound s) (hs : s.timeoutDetected = false)
    (hfinished : s.stringFinished = false) (hempty : s.uartBuffer.contents = []) (hw : IsLine w) :
    ReadsLine s w := by
  refine readsLine_of_front h hw (finished_receive h hs hw.length_pos hw.not_terminator) ?_
  intro seen hseen hseenFinished
  have hlen := hw.length_le
  rcases List.prefix_concat_iff.mp hseen with rfl | hpart
  · simp only [receive_whole h hs hempty hw.length_pos hlen hw.not_terminator, List.prefix_rfl]
  · have hle := hpart.length_le
    obtain ⟨-, -, hsame⟩ := receive_fits h hs (w := seen)
      (fun c hc => hw.not_terminator c (hpart.subset hc)) (by rw [hempty, List.length_nil]; omega)
    rw [hsame, hfinished] at hseenFinished
    cases hseenFinished

theorem readsLine_of_same {w : List UInt8} (h : Sound s) (hs : s.timeoutDetected = false)
    (hsame : w ++ [0] <+: s.uartBuffer.contents) (hw : IsLine w) : ReadsLine s w :=
  readsLine_of_front h hw (finished_receive h hs hw.length_pos hw.not_terminator)
    fun seen _ _ => hsame.trans (extends_receive h hs seen).contents

theorem eq_nil_of_prefix_line {r w more : List UInt8} (hr : 0 ∉ r) (hw : 0 ∉ w)
    (h : w ++ [0] <+: r ++ w ++ 0 :: more) : r = [] := by
  have hline : cString (w ++ [0]) = cString (r ++ w ++ 0 :: more) := by
    obtain ⟨rest, hrest⟩ := h
    rw [← hrest, List.append_assoc, cString_append hw, cString_append hw]
    rfl
  have hrw : 0 ∉ r ++ w := by
    rw [List.mem_append, not_or]
    exact ⟨hr, hw⟩
  rw [cString_append hw, cString_append hrw] at hline
  have hlen := congrArg List.length hline
  simp only [cString_zero_cons, List.append_nil, List.length_append] at hlen
  exact List.length_eq_zero_iff.mp (by omega)

theorem readsLine_iff_of_waiting {w : List UInt8} (h : Sound s) (hs : s.timeoutDetected = false)
    (hfinished : s.stringFinished = false) (hw : IsLine w) :
    ReadsLine s w ↔
      s.uartBuffer.contents = [] ∨ w ++ [0] <+: s.uartBuffer.contents := by
  refine ⟨fun hread => ?_, ?_⟩
  · obtain ⟨-, hfront⟩ := hread.front h hfinished
    have hold := (extends_receive h hs (w ++ [13])).contents
    rcases List.prefix_or_prefix_of_prefix hfront hold with hsame | hpart
    · exact .inr hsame
    · by_cases hall : s.uartBuffer.contents = w ++ [0]
      · exact .inr (hall ▸ List.prefix_rfl)
      · have hpre : s.uartBuffer.contents <+: w := by
          rcases List.prefix_concat_iff.mp hpart with heq | hpre
          · exact absurd heq hall
          · exact hpre
        have h0 : 0 ∉ s.uartBuffer.contents := fun hz => hw.zero_notMem (hpre.subset hz)
        left
        obtain hcontents | hover := receive_line_spills h hs h0 hw
        · have hline : w ++ [0] <+: s.uartBuffer.contents ++ w ++ 0 :: [] := hcontents ▸ hfront
          exact eq_nil_of_prefix_line h0 hw.zero_notMem hline
        · refine absurd ?_ hover.2
          have hlen : (w ++ [0]).length ≤ 255 := by
            rw [List.length_append, List.length_singleton]
            exact Nat.succ_le_succ hw.length_le
          exact (List.prefix_take_iff.mpr ⟨hfront, hlen⟩).subset (by simp)
  · rintro (hempty | hsame)
    · exact readsLine_of_empty h hs hfinished hempty hw
    · exact readsLine_of_same h hs hsame hw

theorem contents_push_ne_nil {r : RingBuffer UInt8} (h : r.Valid) (hcapacity : r.capacity = 256)
    (c : UInt8) : (r.push c).2.contents ≠ [] := by
  rcases Nat.lt_or_eq_of_le h.size_le with hlt | hfull
  · rw [RingBuffer.contents_push h hlt]
    exact List.concat_ne_nil _ _
  · rw [RingBuffer.push_of_full hfull]
    intro hnil
    have hsize := r.length_contents
    rw [hnil, hfull, hcapacity] at hsize
    exact absurd hsize (by decide)

def Filled (s : Serial) : Prop := s.stringFinished = true → s.uartBuffer.contents ≠ []

theorem Filled.handleReceivedChar (h : Sound s) (hs : Filled s) (c : UInt8) :
    Filled (handleReceivedChar s c).1 := by
  have hpush := contents_push_ne_nil h.valid h.capacity c
  rw [Hal.handleReceivedChar]
  split
  next => exact fun hfinished => absurd hfinished Bool.false_ne_true
  next =>
    split
    next =>
      split
      next => exact fun _ => contents_push_ne_nil h.valid h.capacity 0
      next => exact hs
    next =>
      split
      next =>
        exact fun _ => contents_push_ne_nil (h.valid.push c)
          ((s.uartBuffer.capacity_push c).trans h.capacity) 0
      next => exact fun _ => hpush

theorem Filled.receive (h : Sound s) (hs : Filled s) (chars : List UInt8) :
    Filled (receive s chars) := by
  induction chars generalizing s with
  | nil => exact hs
  | cons c chars ih => exact ih (h.handleReceivedChar c) (hs.handleReceivedChar h c)

theorem readsLine_iff {w : List UInt8} (h : Sound s) (hs : s.timeoutDetected = false)
    (hfilled : Filled s) (hw : IsLine w) :
    ReadsLine s w ↔
      s.uartBuffer.contents = [] ∨ w ++ [0] <+: s.uartBuffer.contents := by
  cases hfinished : s.stringFinished with
  | false => exact readsLine_iff_of_waiting h hs hfinished hw
  | true =>
    constructor
    · -- the line that is noted already is returned at once
      intro hread
      have hone := hread [] [w ++ [13]] (by simp)
      change (readString 256 s _).map Prod.fst = _ at hone
      rw [List.map_singleton, readString, hfinished, if_pos rfl] at hone
      exact .inr (front_of_read h (Option.some.inj hone))
    · rintro (hempty | hsame)
      · exact absurd hempty (hfilled hfinished)
      · exact readsLine_of_same h hs hsame hw

theorem timeoutDetected_receive (h : Sound s) (hs : s.timeoutDetected = true)
    (chars : List UInt8) : (receive s chars).timeoutDetected = false ↔ chars ≠ [] := by
  cases chars with
  | nil => exact iff_of_false (fun hfalse => nomatch hs.symm.trans hfalse) fun hne => hne rfl
  | cons c rest =>
    have hc : (handleReceivedChar s c).1.timeoutDetected = false := by
      rw [handleReceivedChar, if_pos hs]
    exact iff_of_true (extends_receive (h.handleReceivedChar c) hc rest).timeout
      (List.cons_ne_nil c rest)

theorem timeoutDetected_timeoutBranch (h : Sound s) (between after : List UInt8)
    (bufferSize : Nat) :
    (timeoutBranch s between after bufferSize).timeoutDetected = false ↔
      between ≠ [] ∨ after ≠ [] := by
  have hdrained := h.drained between bufferSize
  have hflag := timeoutDetected_receive (s := { s with timeoutDetected := true })
    ⟨h.valid, h.capacity⟩ rfl between
  cases hcase : (receive { s with timeoutDetected := true } between).timeoutDetected with
  | true =>
    have hbetween : ¬ between ≠ [] := fun hne => nomatch hcase.symm.trans (hflag.mpr hne)
    rw [or_iff_right hbetween]
    exact timeoutDetected_receive hdrained hcase after
  | false =>
    exact iff_of_true (extends_receive hdrained hcase after).timeout (.inl (hflag.mp hcase))

theorem filled_timeoutBranch (h : Sound s) (between after : List UInt8) (bufferSize : Nat) :
    Filled (timeoutBranch s between after bufferSize) :=
  Filled.receive (h.drained between bufferSize)
    (fun hfinished => absurd hfinished Bool.false_ne_true) after

theorem receive_noted_timeout {c : UInt8} {w : List UInt8} (h : Sound s)
    (hs : s.timeoutDetected = true) (hw : IsLine (c :: w)) :
    (receive s (c :: w ++ [13])).uartBuffer.contents = (if w = [] then [] else w ++ [0]) := by
  have hreset : (handleReceivedChar s c).1 =
      { uartBuffer := s.uartBuffer.reset
        stringFinished := false
        receivedChars := 0
        timeoutDetected := false } := by rw [handleReceivedChar, if_pos hs]
  have hsound := h.handleReceivedChar c
  have hlen := hw.length_le
  change (receive (handleReceivedChar s c).1 (w ++ [13])).uartBuffer.contents = _
  rw [hreset] at hsound ⊢
  cases w with
  | nil => rfl
  | cons b w =>
    rw [if_neg (List.cons_ne_nil b w)]
    exact receive_whole hsound rfl rfl (Nat.succ_pos _) (Nat.le_of_succ_le hlen)
      fun x hx => hw.not_terminator x (List.mem_cons_of_mem _ hx)

theorem not_readsLine_of_timeout {w : List UInt8} (h : Sound s) (hs : s.timeoutDetected = true)
    (hfinished : s.stringFinished = false) (hw : IsLine w) : ¬ ReadsLine s w := by
  intro hread
  obtain ⟨-, hfront⟩ := hread.front h hfinished
  cases w with
  | nil => exact absurd hw.length_pos (Nat.lt_irrefl 0)
  | cons c w =>
    have hlen := hfront.length_le
    rw [receive_noted_timeout h hs hw] at hlen
    split at hlen
    next => exact absurd hlen (by simp)
    next => exact absurd hlen (by simp)

inductive Serial.Event
  | char (c : UInt8)
  | readString (wakes : List Wake)

inductive Serial.Step : Serial → Serial.Event → Serial → Prop
  | char {s c} : Serial.Step s (.char c) (handleReceivedChar s c).1
  | readString {s wakes bytes t} : readString 256 s wakes = some (bytes, t) →
      Serial.Step s (.readString wakes) t

variable {cells : Nat → UInt8} {es : List Serial.Event}

theorem sound_of_run (hrun : Run Serial.Step (.new 256 cells) es s) : Sound s := by
  refine hrun.invariant Sound (fun s e t h hstep => ?_) (.new cells)
  cases hstep with
  | char => exact h.handleReceivedChar _
  | readString hread => exact h.readString hread

/-- After a timeout a line is read as it is sent exactly if another byte came in since the timeout
was noted, and nothing is in the ring when `read_string` returns (or the very same line is). -/
theorem readsLine_after_timeout_iff {w : List UInt8} (hrun : Run Serial.Step (.new 256 cells) es s)
    (between after : List UInt8) (hw : IsLine w) :
    ReadsLine (timeoutBranch s between after 256) w ↔
      (between ≠ [] ∨ after ≠ []) ∧
        ((timeoutBranch s between after 256).uartBuffer.contents = [] ∨
          w ++ [0] <+: (timeoutBranch s between after 256).uartBuffer.contents) := by
  have hs := sound_of_run hrun
  have hsound := hs.timeoutBranch between after 256
  have hflag := timeoutDetected_timeoutBranch hs between after 256
  cases hcase : (timeoutBranch s between after 256).timeoutDetected with
  | true =>
    have hnone : ¬ (between ≠ [] ∨ after ≠ []) := fun h => nomatch hcase.symm.trans (hflag.mpr h)
    have hwaiting : (timeoutBranch s between after 256).stringFinished = false := by
      obtain rfl := not_not.mp (not_or.mp hnone).2
      rfl
    exact iff_of_false (not_readsLine_of_timeout hsound hcase hwaiting hw)
      fun hcond => hnone hcond.1
  | false =>
    rw [readsLine_iff hsound hcase (filled_timeoutBranch hs between after 256) hw]
    exact (and_iff_right (hflag.mp hcase)).symm

theorem isLine_ab : IsLine [97, 98] where
  length_pos := by decide
  length_le := by decide
  zero_notMem := by decide
  not_terminator := List.forall_mem_cons.mpr ⟨rfl, List.forall_mem_singleton.mpr rfl⟩

theorem readsLine_ab :
    ReadsLine (timeoutBranch (.new 256 fun _ => 0) [] [120] 256) [97, 98] :=
  (readsLine_after_timeout_iff .nil [] [120] isLine_ab).mpr ⟨by decide, .inl (by decide)⟩

/-- A byte `x` and no terminator, then a timeout: the `a` of the next line `ab` is lost. -/
theorem first_byte_lost :
    ∃ s, Run Serial.Step (.new 256 fun _ => 0) [.char 120] s ∧ IsLine [97, 98] ∧
      readString 256 s [.timedOut [] [] []] = some ([], timeoutBranch s [] [] 256) ∧
      ¬ ReadsLine (timeoutBranch s [] [] 256) [97, 98] ∧
      (readString 256 (timeoutBranch s [] [] 256) [.notified [97, 98, 13]]).map Prod.fst =
        some [98, 0] := by
  refine ⟨_, .single .char, isLine_ab, rfl, fun hread => ?_, by decide⟩
  have hone := hread [] [[97, 98, 13]] rfl
  revert hone
  decide

end RadProt.Hal
