import RadProt.Lib.Copy
import RadProt.Hal.Serial

namespace RadProt.Hal

open RadProt.Lib RadProt.Lib.Access

def untilNul : List UInt8 → List UInt8
  | [] => []
  | c :: rest => if c = 0 then [c] else c :: untilNul rest

theorem prefix_untilNul (bytes : List UInt8) : untilNul bytes <+: bytes := by
  induction bytes with
  | nil => exact List.nil_prefix
  | cons c rest ih =>
    rw [untilNul]
    split
    next => exact ⟨rest, rfl⟩
    next => exact (List.prefix_cons_inj c).mpr ih

theorem untilNul_line {line : List UInt8} (h : 0 ∉ line) (rest : List UInt8) :
    untilNul (line ++ 0 :: rest) = line ++ [0] := by
  induction line with
  | nil => rfl
  | cons c line ih =>
    have hc : c ≠ 0 := fun hz => h (hz ▸ List.mem_cons_self)
    rw [List.cons_append, untilNul, if_neg hc, ih fun hz => h (List.mem_cons_of_mem _ hz),
      List.cons_append]

/-- What the loop of `read_from_receive_buffer` does to the queue that the ring stands for: the
bytes it stores, and those it leaves. -/
def popQueue : List UInt8 → (bufferSize : Nat) → List UInt8 × List UInt8
  | [], _ => ([], [])
  | c :: rest, bufferSize =>
    if 1 < bufferSize then
      if c = 0 then ([c], rest)
      else (c :: (popQueue rest (bufferSize - 1)).1, (popQueue rest (bufferSize - 1)).2)
    else ([], rest)

def Fits (bytes : List UInt8) (bufferSize : Nat) : Prop :=
  bytes.length < bufferSize ∨ 0 ∈ bytes.take (bufferSize - 1)

instance (bytes : List UInt8) (bufferSize : Nat) : Decidable (Fits bytes bufferSize) :=
  inferInstanceAs (Decidable (_ ∨ _))

section Queue

variable {bytes line rest : List UInt8} {bufferSize room : Nat}

theorem popQueue_stored (bytes : List UInt8) (room : Nat) :
    (popQueue bytes (room + 1)).1 = (untilNul bytes).take room := by
  induction bytes generalizing room with
  | nil => exact List.take_nil.symm
  | cons c rest ih =>
    cases room with
    | zero => rfl
    | succ room =>
      rw [popQueue, if_pos (by omega), untilNul]
      by_cases hc : c = 0
      · rw [if_pos hc, if_pos hc, List.take_succ_cons, List.take_nil]
      · rw [if_neg hc, if_neg hc, List.take_succ_cons, Nat.add_sub_cancel, ih]

theorem popQueue_line (h0 : 0 ∉ line) (hsize : line.length + 1 < bufferSize) :
    popQueue (line ++ 0 :: rest) bufferSize = (line ++ [0], rest) := by
  induction line generalizing bufferSize with
  | nil =>
    have hroom : 1 < bufferSize := hsize
    rw [List.nil_append, popQueue, if_pos hroom, if_pos rfl, List.nil_append]
  | cons c line ih =>
    have hc : c ≠ 0 := fun hz => h0 (hz ▸ List.mem_cons_self)
    rw [List.length_cons] at hsize
    rw [List.cons_append, popQueue, if_pos (by omega), if_neg hc,
      ih (fun hz => h0 (List.mem_cons_of_mem _ hz)) (by omega)]
    rfl

theorem not_fits_one (c : UInt8) (rest : List UInt8) : ¬ Fits (c :: rest) 1 := by
  simp [Fits]

theorem fits_cons_iff {c : UInt8} (hc : c ≠ 0) (hsize : 1 < bufferSize) :
    Fits (c :: rest) bufferSize ↔ Fits rest (bufferSize - 1) := by
  obtain ⟨room, rfl⟩ : ∃ room, bufferSize = room + 2 := ⟨bufferSize - 2, by omega⟩
  simp only [Fits, List.length_cons, Nat.add_lt_add_iff_right, Nat.add_sub_cancel,
    show room + 2 - 1 = room + 1 from rfl, List.take_succ_cons, List.mem_cons, hc.symm, false_or]

/-- What is stored and what is left make up the queue, but for a byte that is taken out when the
buffer is full. -/
theorem popQueue_splits (hsize : 1 ≤ bufferSize) :
    Fits bytes bufferSize ∧ (popQueue bytes bufferSize).1 ++ (popQueue bytes bufferSize).2 = bytes ∨
      ¬ Fits bytes bufferSize ∧ ∃ c,
        (popQueue bytes bufferSize).1 ++ c :: (popQueue bytes bufferSize).2 = bytes := by
  induction bytes generalizing bufferSize with
  | nil => exact .inl ⟨.inl hsize, rfl⟩
  | cons c rest ih =>
    obtain rfl | hroom := Nat.eq_or_lt_of_le hsize
    · exact .inr ⟨not_fits_one c rest, c, rfl⟩
    rw [popQueue, if_pos hroom]
    by_cases hc : c = 0
    · obtain ⟨room, rfl⟩ : ∃ room, bufferSize = room + 2 := ⟨bufferSize - 2, by omega⟩
      rw [if_pos hc]
      exact .inl ⟨.inr (hc ▸ List.mem_cons_self), rfl⟩
    · rw [if_neg hc, fits_cons_iff hc hroom]
      obtain ⟨hfits, hall⟩ | ⟨hfits, lost, hall⟩ := @ih (bufferSize - 1) (by omega)
      · exact .inl ⟨hfits, congrArg (c :: ·) hall⟩
      · exact .inr ⟨hfits, lost, congrArg (c :: ·) hall⟩

end Queue

theorem popLoop_refines {r : RingBuffer UInt8} {fuel bufferSize : Nat} {bytes : List UInt8}
    (hvalid : r.Valid) (hcontents : r.contents = bytes) (hfuel : bytes.length ≤ fuel) :
    (popLoop fuel r bufferSize).1 = (popQueue bytes bufferSize).1 ∧
      (popLoop fuel r bufferSize).2.contents = (popQueue bytes bufferSize).2 ∧
      (popLoop fuel r bufferSize).2.Valid ∧
      (popLoop fuel r bufferSize).2.capacity = r.capacity := by
  induction fuel generalizing r bufferSize bytes with
  | zero =>
    obtain rfl : bytes = [] := List.length_eq_zero_iff.mp (Nat.le_zero.mp hfuel)
    exact ⟨rfl, hcontents, hvalid, rfl⟩
  | succ fuel ih =>
    cases bytes with
    | nil =>
      have hempty : r.currentSize = 0 := by rw [← RingBuffer.length_contents, hcontents]; rfl
      rw [popLoop, RingBuffer.pop_of_empty hempty]
      exact ⟨rfl, hcontents, hvalid, rfl⟩
    | cons c rest =>
      obtain ⟨hitem, hrest⟩ := RingBuffer.pop_eq_of_contents hvalid hcontents
      have hpop : r.pop = (some c, r.pop.2) := Prod.ext hitem rfl
      rw [popLoop, hpop, popQueue]
      by_cases hroom : 1 < bufferSize
      · simp only [if_pos hroom]
        by_cases hc : c = 0
        · simp only [if_pos hc, true_and]
          exact ⟨hrest, hvalid.pop, r.capacity_pop⟩
        · obtain ⟨hstored, hleft, hkeep, hcapacity⟩ :=
            @ih r.pop.2 (bufferSize - 1) rest hvalid.pop hrest (Nat.le_of_succ_le_succ hfuel)
          simp only [if_neg hc]
          exact ⟨congrArg (c :: ·) hstored, hleft, hkeep, hcapacity.trans r.capacity_pop⟩
      · simp only [if_neg hroom, true_and]
        exact ⟨hrest, hvalid.pop, r.capacity_pop⟩

theorem readFromReceiveBuffer_refines {s : Serial} (h : s.uartBuffer.Valid) (bufferSize : Nat) :
    (readFromReceiveBuffer s bufferSize).1 = (popQueue s.uartBuffer.contents bufferSize).1 ∧
      (readFromReceiveBuffer s bufferSize).2.uartBuffer.contents =
        (popQueue s.uartBuffer.contents bufferSize).2 ∧
      (readFromReceiveBuffer s bufferSize).2.uartBuffer.Valid ∧
      (readFromReceiveBuffer s bufferSize).2.uartBuffer.capacity = s.uartBuffer.capacity :=
  popLoop_refines h rfl (Nat.le_of_eq (RingBuffer.length_contents _))

/-- The loop of `read_from_receive_buffer` with the memory it stores to, at most `fuel` times
around: the bytes counted, and the ring it leaves. -/
def storeLoop : (fuel : Nat) → RingBuffer UInt8 → (buffer bufferSize bytes : Nat) →
    Access (Nat × RingBuffer UInt8)
  | 0, r, _, _, bytes => return (bytes, r)
  | fuel + 1, r, buffer, bufferSize, bytes =>
    match r.pop with
    | (none, r) => return (bytes, r)
    | (some c, r) =>
      if 1 < bufferSize then do
        store buffer c
        if c = 0 then return (bytes + 1, r)
        else storeLoop fuel r (buffer + 1) (bufferSize - 1) (bytes + 1)
      -- the byte is out of the ring, and is stored nowhere
      else return (bytes, r)

def Serial.readFromReceiveBuffer (s : Serial) (buffer bufferSize : Nat) :
    Access (Nat × Serial) := do
  let (bytes, r) ← storeLoop s.uartBuffer.currentSize s.uartBuffer buffer bufferSize 0
  return (bytes, { s with uartBuffer := r, stringFinished := false })

theorem storeLoop_leaves {P : Nat → Prop} (fuel : Nat) (r : RingBuffer UInt8)
    {buffer bufferSize : Nat} (bytes : Nat) (m : Nat → UInt8)
    (hP : ∀ a, Span buffer (bufferSize - 1) a → P a) :
    Leaves P m (storeLoop fuel r buffer bufferSize bytes)
      (bytes + (popLoop fuel r bufferSize).1.length, (popLoop fuel r bufferSize).2)
      (overwrite m buffer (popLoop fuel r bufferSize).1) := by
  have hstop : ∀ m buffer bytes (r : RingBuffer UInt8), Leaves P m (return (bytes, r))
      (bytes + ([] : List UInt8).length, r) (overwrite m buffer []) := by
    intro m buffer bytes r
    rw [overwrite_nil]
    exact .pure _
  induction fuel generalizing r buffer bufferSize bytes m with
  | zero => exact hstop m buffer bytes r
  | succ fuel ih =>
    rw [storeLoop, popLoop]
    cases hpop : r.pop with
    | mk item left =>
      cases item with
      | none => exact hstop m buffer bytes left
      | some c =>
        dsimp only
        by_cases hroom : 1 < bufferSize
        · have hstore := Leaves.store (m := m) (b := c) (hP buffer ⟨le_rfl, by omega⟩)
          rw [if_pos hroom, if_pos hroom]
          by_cases hc : c = 0
          · rw [if_pos hc, if_pos hc]
            exact hstore.bind (.pure _)
          · rw [if_neg hc, if_neg hc]
            have hspan : ∀ a, Span (buffer + 1) (bufferSize - 1 - 1) a → P a := fun a ha =>
              hP a ⟨by have := ha.1; omega, by have := ha.2; omega⟩
            have hbytes := overwrite_append m buffer [c] (popLoop fuel left (bufferSize - 1)).1
            have hrest := ih left (bytes + 1) (overwrite m buffer [c]) hspan
            rw [show buffer + 1 = buffer + [c].length from rfl, hbytes, Nat.add_assoc,
              Nat.add_comm 1] at hrest
            exact hstore.bind hrest
        · rw [if_neg hroom, if_neg hroom]
          exact hstop m buffer bytes left

theorem Serial.readFromReceiveBuffer_leaves (s : Serial) (buffer bufferSize : Nat)
    (m : Nat → UInt8) :
    Leaves (Span buffer (bufferSize - 1)) m (s.readFromReceiveBuffer buffer bufferSize)
      ((Hal.readFromReceiveBuffer s bufferSize).1.length,
        (Hal.readFromReceiveBuffer s bufferSize).2)
      (overwrite m buffer (Hal.readFromReceiveBuffer s bufferSize).1) := by
  have hloop := storeLoop_leaves s.uartBuffer.currentSize s.uartBuffer 0 m
    (fun a (ha : Span buffer (bufferSize - 1) a) => ha)
  rw [Nat.zero_add] at hloop
  refine hloop.bind ?_
  exact .pure _

/-- A read that takes `stored` out of the ring and nothing else: it writes these bytes one behind
the other, at most `bufferSize - 1` of them and none behind a NUL, and returns their number. -/
structure ReadsWhole (s : Serial) (buffer bufferSize : Nat) (m : Nat → UInt8)
    (stored : List UInt8) (s' : Serial) : Prop where
  leaves : Leaves (Span buffer (bufferSize - 1)) m (s.readFromReceiveBuffer buffer bufferSize)
    (stored.length, s') (overwrite m buffer stored)
  splits : stored ++ s'.uartBuffer.contents = s.uartBuffer.contents
  length_le : stored.length ≤ bufferSize - 1
  zero_last : 0 ∉ stored.dropLast

section Whole

variable {s : Serial} {bufferSize : Nat}

theorem readFromReceiveBuffer_bounds (s : Serial) (hsize : 1 ≤ bufferSize) :
    (readFromReceiveBuffer s bufferSize).1.length ≤ bufferSize - 1 ∧
      0 ∉ (readFromReceiveBuffer s bufferSize).1.dropLast := by
  obtain ⟨hlength, line, h0, hline⟩ :=
    popLoop_stores s.uartBuffer.currentSize s.uartBuffer (Nat.lt_of_succ_le hsize)
  refine ⟨Nat.le_sub_one_of_lt hlength, fun hz => h0 ?_⟩
  change 0 ∈ (popLoop s.uartBuffer.currentSize s.uartBuffer bufferSize).1.dropLast at hz
  obtain hline | hline := hline
  · rw [hline] at hz
    exact List.dropLast_subset _ hz
  · rwa [hline, List.dropLast_concat] at hz

theorem readFromReceiveBuffer_splits (h : s.uartBuffer.Valid) (hsize : 1 ≤ bufferSize) :
    Fits s.uartBuffer.contents bufferSize ∧
        (readFromReceiveBuffer s bufferSize).1 ++
          (readFromReceiveBuffer s bufferSize).2.uartBuffer.contents = s.uartBuffer.contents ∨
      ¬ Fits s.uartBuffer.contents bufferSize ∧ ∃ c,
        (readFromReceiveBuffer s bufferSize).1 ++
          c :: (readFromReceiveBuffer s bufferSize).2.uartBuffer.contents =
            s.uartBuffer.contents := by
  obtain ⟨hstored, hleft, -, -⟩ := readFromReceiveBuffer_refines h bufferSize
  rw [hstored, hleft]
  exact popQueue_splits hsize

/-- `read_from_receive_buffer` loses nothing exactly where its loop ends before the buffer is
full. -/
theorem reads_whole_iff (h : s.uartBuffer.Valid) (hsize : 1 ≤ bufferSize) (buffer : Nat)
    (m : Nat → UInt8) :
    (∃ stored s', ReadsWhole s buffer bufferSize m stored s') ↔
      Fits s.uartBuffer.contents bufferSize := by
  have hrun := s.readFromReceiveBuffer_leaves buffer bufferSize m
  constructor
  · rintro ⟨stored, s', hwhole⟩
    obtain ⟨hfits, -⟩ | ⟨-, c, hlost⟩ := readFromReceiveBuffer_splits h hsize
    · exact hfits
    · obtain ⟨hlength, rfl⟩ := Prod.mk.inj (hrun.value.symm.trans hwhole.leaves.value)
      have hall := congrArg List.length (hlost.trans hwhole.splits.symm)
      simp only [List.length_append, List.length_cons] at hall
      omega
  · intro hfits
    obtain ⟨hlength, hzero⟩ := readFromReceiveBuffer_bounds s hsize
    obtain ⟨-, hall⟩ | ⟨hlost, -⟩ := readFromReceiveBuffer_splits h hsize
    · exact ⟨_, _, hrun, hall, hlength, hzero⟩
    · exact absurd hfits hlost

def holdsAbc : Serial :=
  { Serial.new 4 fun _ => 0 with
    uartBuffer := ((((RingBuffer.new 4 fun _ => 0).push 97).2.push 98).2.push 99).2 }

theorem reads_whole_iff_holdsAbc :
    (∃ stored s', ReadsWhole holdsAbc 0 4 (fun _ => 255) stored s') ∧
      ¬ ∃ stored s', ReadsWhole holdsAbc 0 3 (fun _ => 255) stored s' := by
  have hvalid : holdsAbc.uartBuffer.Valid :=
    (((RingBuffer.valid_new (by decide) _).push 97).push 98).push 99
  refine ⟨(reads_whole_iff hvalid (by decide) 0 _).mpr (.inl (by decide)), fun hwhole => ?_⟩
  exact absurd ((reads_whole_iff hvalid (by decide) 0 _).mp hwhole) (by decide)

/-- Into two bytes `a` is stored; `b` is gone, and `c` is left. -/
theorem read_loses_byte :
    holdsAbc.uartBuffer.contents = [97, 98, 99] ∧
      (holdsAbc.readFromReceiveBuffer 0 2 fun _ => 255).value.1 = 1 ∧
      ((holdsAbc.readFromReceiveBuffer 0 2 fun _ => 255).memory 0 = 97 ∧
        ∀ a, (holdsAbc.readFromReceiveBuffer 0 2 fun _ => 255).memory (a + 1) = 255) ∧
      (holdsAbc.readFromReceiveBuffer 0 2 fun _ => 255).value.2.uartBuffer.contents = [99] ∧
      ¬ ∃ stored s', ReadsWhole holdsAbc 0 2 (fun _ => 255) stored s' := by
  refine ⟨by decide, rfl, ⟨rfl, fun a => rfl⟩, by decide, ?_⟩
  rintro ⟨stored, s', hwhole⟩
  have hvalue := hwhole.leaves.value
  have hleft : s'.uartBuffer.contents = [99] :=
    congrArg (fun v => v.2.uartBuffer.contents) hvalue.symm
  have hlength : stored.length = 1 := congrArg Prod.fst hvalue.symm
  have hall := congrArg List.length hwhole.splits
  rw [List.length_append, hlength, hleft] at hall
  exact absurd hall (by decide)

end Whole

end RadProt.Hal
