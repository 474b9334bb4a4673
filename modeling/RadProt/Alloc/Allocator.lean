import RadProt.Lib.Except
import RadProt.Lib.Heap
import RadProt.Lib.Run

namespace RadProt.Alloc

open RadProt.Lib

abbrev Memory := Heap Nat UInt8

abbrev Fault := Heap.Fault Nat

structure Grant where
  block : Nat
  bytes : Nat → UInt8

def Grant.content (g : Grant) (size : Nat) : List UInt8 := (List.range size).map g.bytes

/-- `pvPortMalloc` of FreeRTOS, where `granted` is what it finds, if anything. -/
def pvPortMalloc (granted : Option Grant) (size : Nat) (h : Memory) : Option Nat × Memory :=
  match granted with
  | some g => (some g.block, h.set g.block (g.content size))
  | none => (none, h)

def vPortFree (ptr : Option Nat) (h : Memory) : Except Fault Memory :=
  match ptr with
  | some b => h.free b
  | none => .ok h

def allocate (granted : Option Grant) (size : Nat) (h : Memory) : Option Nat × Memory :=
  pvPortMalloc granted size h

def deallocate (pointer : Option Nat) (h : Memory) : Except Fault Memory := vPortFree pointer h

/-- `reallocate`. It does not know the size of the old block, and copies `newSize` bytes. -/
def reallocate (granted : Option Grant) (ptr : Option Nat) (newSize : Nat) (h : Memory) :
    Except Fault (Option Nat × Memory) :=
  if newSize = 0 then do
    let h ← vPortFree ptr h
    return (none, h)
  else
    match pvPortMalloc granted newSize h with
    | (some newPtr, h) =>
      match ptr with
      | some b => do
        let h ← Heap.copy newPtr b newSize h
        let h ← vPortFree (some b) h
        return (some newPtr, h)
      | none => .ok (some newPtr, h)
    -- the caller still owns the old block
    | (none, h) => .ok (none, h)

def Fresh (h : Memory) (granted : Option Grant) : Prop :=
  ∀ g, granted = some g → h.block g.block = none

def Live (h : Memory) (ptr : Option Nat) : Prop :=
  ∀ b, ptr = some b → ∃ bytes, h.block b = some bytes

section Reallocate

variable {h : Memory} {g : Grant} {granted : Option Grant} {ptr : Nat} {bytes : List UInt8}
  {newSize : Nat}

@[simp] theorem Grant.length_content (g : Grant) (size : Nat) : (g.content size).length = size := by
  simp [Grant.content]

theorem vPortFree_eq_ok {p : Option Nat} (hlive : Live h p) : ∃ h', vPortFree p h = .ok h' := by
  cases p with
  | none => exact ⟨h, rfl⟩
  | some b =>
    obtain ⟨bytes, hb⟩ := hlive b rfl
    exact ⟨_, Heap.free_eq_ok hb⟩

theorem reallocate_zero (granted : Option Grant) (p : Option Nat) (h : Memory) :
    reallocate granted p 0 h = (vPortFree p h).map fun h => (none, h) := by
  rw [reallocate, if_pos rfl]
  cases vPortFree p h <;> rfl

theorem reallocate_none (hpos : 0 < newSize) (p : Option Nat) (h : Memory) :
    reallocate none p newSize h = .ok (none, h) := by
  rw [reallocate, if_neg hpos.ne']
  rfl

theorem reallocate_null (hpos : 0 < newSize) (g : Grant) (h : Memory) :
    reallocate (some g) none newSize h =
      .ok (some g.block, h.set g.block (g.content newSize)) := by
  rw [reallocate, if_neg hpos.ne']
  rfl

theorem reallocate_some (hpos : 0 < newSize) (g : Grant) (ptr : Nat) (h : Memory) :
    reallocate (some g) (some ptr) newSize h = do
      let h ← Heap.copy g.block ptr newSize (h.set g.block (g.content newSize))
      let h ← h.free ptr
      return (some g.block, h) := by
  rw [reallocate, if_neg hpos.ne']
  rfl

theorem ne_of_fresh (hlive : h.block ptr = some bytes) (hfresh : h.block g.block = none) :
    ptr ≠ g.block := by
  rintro rfl
  cases hfresh.symm.trans hlive

theorem reallocate_of_le (hlive : h.block ptr = some bytes) (hfresh : h.block g.block = none)
    (hpos : 0 < newSize) (hle : newSize ≤ bytes.length) :
    reallocate (some g) (some ptr) newSize h =
      .ok (some g.block, (h.set g.block (bytes.take newSize)).erase ptr) := by
  have hne := ne_of_fresh hlive hfresh
  have hold : (h.set g.block (g.content newSize)).block ptr = some bytes :=
    (Heap.block_set_of_ne hne).trans hlive
  have hcopied : (h.set g.block (bytes.take newSize)).block ptr = some bytes :=
    (Heap.block_set_of_ne hne).trans hlive
  have hcopy : Heap.copy g.block ptr newSize (h.set g.block (g.content newSize)) =
      .ok (h.set g.block (bytes.take newSize)) := by
    rw [Heap.copy_eq_ok hne hold (Heap.block_set ..) hle (Grant.length_content g newSize).ge,
      List.drop_of_length_le (Grant.length_content g newSize).le, List.append_nil, Heap.set_set]
  rw [reallocate_some hpos, hcopy]
  change (Heap.free _ _).bind _ = _
  rw [Heap.free_eq_ok hcopied]
  rfl

theorem reallocate_of_lt (hlive : h.block ptr = some bytes) (hfresh : h.block g.block = none)
    (hlt : bytes.length < newSize) :
    reallocate (some g) (some ptr) newSize h = .error (.read ptr bytes.length) := by
  have hne := ne_of_fresh hlive hfresh
  have hold : (h.set g.block (g.content newSize)).block ptr = some bytes :=
    (Heap.block_set_of_ne hne).trans hlive
  rw [reallocate_some (by omega),
    Heap.copy_eq_error hne hold (Heap.block_set ..) hlt (Grant.length_content g newSize).ge]
  rfl

/-- What a reallocation of a live block is to do: move what fits to a new block and free the old
one, or leave everything as it is. -/
structure Reallocates (h : Memory) (ptr : Nat) (bytes : List UInt8) (newSize : Nat)
    (granted : Option Grant) : Prop where
  moved : ∀ g, granted = some g → ∃ h' moved,
    reallocate granted (some ptr) newSize h = .ok (some g.block, h') ∧
      h'.block g.block = some moved ∧ moved.length = newSize ∧
      moved.take (min bytes.length newSize) = bytes.take (min bytes.length newSize) ∧
      h'.block ptr = none ∧ ∀ b, b ≠ ptr → b ≠ g.block → h'.block b = h.block b
  failed : granted = none → reallocate granted (some ptr) newSize h = .ok (none, h)

theorem reallocates_of_le (hlive : h.block ptr = some bytes) (hfresh : Fresh h granted)
    (hpos : 0 < newSize) (hle : newSize ≤ bytes.length) :
    Reallocates h ptr bytes newSize granted where
  moved := by
    rintro g rfl
    have hne := ne_of_fresh hlive (hfresh g rfl)
    refine ⟨_, bytes.take newSize, reallocate_of_le hlive (hfresh g rfl) hpos hle,
      ?_, ?_, ?_, ?_, ?_⟩
    · rw [Heap.block_erase_of_ne hne.symm, Heap.block_set]
    · rw [List.length_take, Nat.min_eq_left hle]
    · rw [Nat.min_eq_right hle, List.take_take, Nat.min_self]
    · exact Heap.block_erase ..
    · intro b hold hnew
      rw [Heap.block_erase_of_ne hold, Heap.block_set_of_ne hnew]
  failed := by
    rintro rfl
    exact reallocate_none hpos ..

theorem reallocates_iff (hlive : h.block ptr = some bytes) (hfresh : Fresh h granted)
    (hpos : 0 < newSize) :
    Reallocates h ptr bytes newSize granted ↔ newSize ≤ bytes.length ∨ granted = none := by
  constructor
  · intro hdone
    cases granted with
    | none => exact .inr rfl
    | some g =>
      by_contra hgrow
      have hlt : bytes.length < newSize := Nat.lt_of_not_le fun hle => hgrow (.inl hle)
      obtain ⟨_, _, hok, _⟩ := hdone.moved g rfl
      cases (reallocate_of_lt hlive (hfresh g rfl) hlt).symm.trans hok
  · rintro (hle | rfl)
    · exact reallocates_of_le hlive hfresh hpos hle
    · refine ⟨fun g hg => ?_, fun _ => reallocate_none hpos ..⟩
      cases hg

end Reallocate

/-! Runs of the allocator; every call comes with what `pvPortMalloc` finds. -/

inductive Call
  | allocate (granted : Option Grant) (size : Nat)
  | deallocate (pointer : Option Nat)
  | reallocate (granted : Option Grant) (ptr : Option Nat) (newSize : Nat)

def Call.exec : Call → Memory → Except Fault Memory
  | .allocate granted size, h => .ok (Alloc.allocate granted size h).2
  | .deallocate pointer, h => Alloc.deallocate pointer h
  | .reallocate granted ptr newSize, h => (Alloc.reallocate granted ptr newSize h).map Prod.snd

def Call.Allowed : Call → Memory → Prop
  | .allocate granted _, h => Fresh h granted
  | .deallocate pointer, h => Live h pointer
  | .reallocate granted ptr _, h => Fresh h granted ∧ Live h ptr

def Step (s : Except Fault Memory) (c : Call) (t : Except Fault Memory) : Prop :=
  ∃ h, s = .ok h ∧ c.Allowed h ∧ t = c.exec h

def Grows (s : Except Fault Memory) (c : Call) : Prop :=
  ∃ h g ptr bytes newSize, s = .ok h ∧ c = .reallocate (some g) (some ptr) newSize ∧
    h.block ptr = some bytes ∧ bytes.length < newSize

section Runs

variable {h : Memory} {c : Call} {cs : List Call} {s t : Except Fault Memory}

theorem not_grows_of_exec {h' : Memory} (hallowed : c.Allowed h) (hok : c.exec h = .ok h') :
    ¬ Grows (.ok h) c := by
  rintro ⟨_, g, ptr, bytes, newSize, ⟨⟩, rfl, hold, hlt⟩
  rw [Call.exec, reallocate_of_lt hold (hallowed.1 g rfl) hlt] at hok
  cases hok

theorem exec_of_not_grows (hallowed : c.Allowed h) (hgrow : ¬ Grows (.ok h) c) :
    ∃ h', c.exec h = .ok h' := by
  cases c with
  | allocate granted size => exact ⟨_, rfl⟩
  | deallocate pointer => exact vPortFree_eq_ok hallowed
  | reallocate granted ptr newSize =>
    rw [Call.exec]
    obtain rfl | hpos := Nat.eq_zero_or_pos newSize
    · obtain ⟨h', hfree⟩ := vPortFree_eq_ok hallowed.2
      exact ⟨h', by rw [reallocate_zero, hfree]; rfl⟩
    cases granted with
    | none => exact ⟨h, by rw [reallocate_none hpos]; rfl⟩
    | some g =>
      cases ptr with
      | none => exact ⟨_, by rw [reallocate_null hpos]; rfl⟩
      | some ptr =>
        obtain ⟨bytes, hold⟩ := hallowed.2 ptr rfl
        have hle : newSize ≤ bytes.length :=
          Nat.le_of_not_lt fun hlt => hgrow ⟨h, g, ptr, bytes, newSize, rfl, rfl, hold, hlt⟩
        exact ⟨_, by rw [reallocate_of_le hold (hallowed.1 g rfl) hpos hle]; rfl⟩

theorem run_ok_iff (hrun : Run Step (.ok h) cs t) :
    (∃ h', t = .ok h') ↔ Run (Guarded (fun s c => ¬ Grows s c) Step) (.ok h) cs t := by
  constructor
  · intro hok
    refine (hrun.guarded_of_last (fun _ => True) (fun s => ∃ h', s = .ok h')
      (fun _ _ _ _ _ => trivial) ?_ trivial hok).2
    rintro s c t - ⟨h, rfl, hallowed, rfl⟩ ⟨h', hok⟩
    exact ⟨⟨h, rfl⟩, not_grows_of_exec hallowed hok⟩
  · intro hguarded
    refine hguarded.invariant (fun s => ∃ h', s = .ok h') ?_ ⟨h, rfl⟩
    rintro s c t - ⟨hgrow, h, rfl, hallowed, rfl⟩
    exact exec_of_not_grows hallowed hgrow

/-- Exactly the reallocations that do not grow a block do what they are to do, and exactly the runs
without one that does stay inside the live blocks. -/
theorem reallocate_inside_iff (h : Memory) :
    (∀ ptr bytes newSize granted, h.block ptr = some bytes → 0 < newSize → Fresh h granted →
      (Reallocates h ptr bytes newSize granted ↔ newSize ≤ bytes.length ∨ granted = none)) ∧
    ∀ cs t, Run Step (.ok h) cs t →
      ((∃ h', t = .ok h') ↔ Run (Guarded (fun s c => ¬ Grows s c) Step) (.ok h) cs t) :=
  ⟨fun _ _ _ _ hlive hpos hfresh => reallocates_iff hlive hfresh hpos, fun _ _ => run_ok_iff⟩

def oneByte : Memory := Heap.empty.set 0 [7]

theorem block_oneByte : oneByte.block 0 = some [7] := Heap.block_set ..

theorem fresh_oneByte : Fresh oneByte (some ⟨1, fun _ => 0⟩) := by
  rintro g ⟨⟩
  rfl

theorem reallocate_oneByte :
    reallocate (some ⟨1, fun _ => 0⟩) (some 0) 2 oneByte = .error (.read 0 1) :=
  reallocate_of_lt block_oneByte rfl (by decide)

def growing : List Call :=
  [.allocate (some ⟨0, fun _ => 7⟩) 1, .reallocate (some ⟨1, fun _ => 0⟩) (some 0) 2]

theorem run_growing : Run Step (.ok Heap.empty) growing (.error (.read 0 1)) := by
  refine .cons ⟨_, rfl, ?_, rfl⟩ (.single ⟨oneByte, rfl, ⟨fresh_oneByte, ?_⟩, ?_⟩)
  · rintro g ⟨⟩
    exact Heap.block_empty
  · rintro b ⟨⟩
    exact ⟨_, block_oneByte⟩
  · rw [Call.exec, reallocate_oneByte]
    rfl

theorem reallocate_inside_iff_oneByte :
    Reallocates oneByte 0 [7] 1 (some ⟨1, fun _ => 0⟩) ∧
      ¬ Run (Guarded (fun s c => ¬ Grows s c) Step) (.ok Heap.empty) growing
        (.error (.read 0 1)) := by
  refine ⟨?_, fun hguarded => ?_⟩
  · exact ((reallocate_inside_iff oneByte).1 0 [7] 1 _ block_oneByte (by decide)
      fresh_oneByte).mpr (.inl (by decide))
  · obtain ⟨_, hok⟩ := ((reallocate_inside_iff .empty).2 growing _ run_growing).mpr hguarded
    cases hok

/-- Growing a block of one byte to two reads past its end, also after the calls that lead there. -/
theorem reallocate_reads_outside :
    reallocate (some ⟨1, fun _ => 0⟩) (some 0) 2 oneByte = .error (.read 0 1) ∧
      ¬ Reallocates oneByte 0 [7] 2 (some ⟨1, fun _ => 0⟩) ∧
      Run Step (.ok Heap.empty) growing (.error (.read 0 1)) := by
  refine ⟨reallocate_oneByte, fun hdone => ?_, run_growing⟩
  obtain ⟨_, _, hok, _⟩ := hdone.moved _ rfl
  cases reallocate_oneByte.symm.trans hok

end Runs

end RadProt.Alloc
