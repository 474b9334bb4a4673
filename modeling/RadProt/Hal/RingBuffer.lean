import Mathlib.Data.List.Basic
import Mathlib.Data.Nat.ModEq
import Mathlib.Logic.Function.Basic

namespace RadProt.Hal

variable {α : Type}

/-- `RingBuffer`; `buffer` stands for the `capacity` cells, which `new` leaves as they are. -/
structure RingBuffer (α : Type) where
  buffer : Nat → α
  capacity : Nat
  readPtr : Nat
  writePtr : Nat
  currentSize : Nat

namespace RingBuffer

def new (capacity : Nat) (buffer : Nat → α) : RingBuffer α where
  buffer
  capacity
  readPtr := 0
  writePtr := 0
  currentSize := 0

def isEmpty (r : RingBuffer α) : Bool := r.currentSize = 0

def isFull (r : RingBuffer α) : Bool := r.currentSize = r.capacity

def spaceLeft (r : RingBuffer α) : Int := r.capacity - r.currentSize

def size (r : RingBuffer α) : Nat := r.currentSize

def push (r : RingBuffer α) (item : α) : Bool × RingBuffer α :=
  if r.isFull then (false, r)
  else
    (true,
      { r with
        buffer := Function.update r.buffer r.writePtr item
        writePtr := (r.writePtr + 1) % r.capacity
        currentSize := r.currentSize + 1 })

def pop (r : RingBuffer α) : Option α × RingBuffer α :=
  if r.isEmpty then (none, r)
  else
    (some (r.buffer r.readPtr),
      { r with
        readPtr := (r.readPtr + 1) % r.capacity
        currentSize := r.currentSize - 1 })

def reset (r : RingBuffer α) : RingBuffer α :=
  { r with readPtr := 0, writePtr := 0, currentSize := 0 }

structure Valid (r : RingBuffer α) : Prop where
  readPtr_lt : r.readPtr < r.capacity
  size_le : r.currentSize ≤ r.capacity
  writePtr_eq : r.writePtr = (r.readPtr + r.currentSize) % r.capacity

/-- The queue that the ring stands for, oldest item first. -/
def contents (r : RingBuffer α) : List α :=
  (List.range r.currentSize).map fun i => r.buffer ((r.readPtr + i) % r.capacity)

variable {r : RingBuffer α} {item : α}

@[simp] theorem length_contents (r : RingBuffer α) : r.contents.length = r.currentSize := by
  simp [contents]

theorem valid_new {capacity : Nat} (h : 0 < capacity) (buffer : Nat → α) :
    (new capacity buffer).Valid where
  readPtr_lt := h
  size_le := Nat.zero_le _
  writePtr_eq := (Nat.zero_mod capacity).symm

theorem Valid.reset (h : r.Valid) : r.reset.Valid where
  readPtr_lt := Nat.lt_of_le_of_lt (Nat.zero_le _) h.readPtr_lt
  size_le := Nat.zero_le _
  writePtr_eq := (Nat.zero_mod r.capacity).symm

@[simp] theorem capacity_push (r : RingBuffer α) (item : α) :
    (r.push item).2.capacity = r.capacity := by
  rw [push]
  split <;> rfl

@[simp] theorem capacity_pop (r : RingBuffer α) : r.pop.2.capacity = r.capacity := by
  rw [pop]
  split <;> rfl

theorem push_of_full (h : r.currentSize = r.capacity) : r.push item = (false, r) :=
  if_pos (decide_eq_true h)

theorem push_of_lt (h : r.currentSize < r.capacity) :
    r.push item =
      (true,
        { r with
          buffer := Function.update r.buffer r.writePtr item
          writePtr := (r.writePtr + 1) % r.capacity
          currentSize := r.currentSize + 1 }) :=
  if_neg (by simp [isFull, Nat.ne_of_lt h])

theorem currentSize_push (h : r.currentSize < r.capacity) (item : α) :
    (r.push item).2.currentSize = r.currentSize + 1 := by rw [push_of_lt h]

theorem Valid.push (h : r.Valid) (item : α) : (r.push item).2.Valid := by
  rcases Nat.lt_or_eq_of_le h.size_le with hlt | hfull
  · rw [push_of_lt hlt]
    refine ⟨h.readPtr_lt, hlt, ?_⟩
    simp [h.writePtr_eq, Nat.add_assoc]
  · rw [push_of_full hfull]
    exact h

theorem index_inj {n a i j : Nat} (hi : i < n) (hj : j < n) (h : (a + i) % n = (a + j) % n) :
    i = j :=
  Nat.ModEq.eq_of_lt_of_lt (Nat.ModEq.add_left_cancel' a h) hi hj

theorem contents_push (h : r.Valid) (hlt : r.currentSize < r.capacity) (item : α) :
    (r.push item).2.contents = r.contents ++ [item] := by
  rw [push_of_lt hlt]
  simp only [contents, List.range_succ, List.map_append, List.map_singleton]
  congr 1
  · apply List.map_congr_left
    intro i hi
    apply Function.update_of_ne
    rw [h.writePtr_eq]
    intro heq
    have hi := List.mem_range.mp hi
    exact Nat.ne_of_lt hi (index_inj (Nat.lt_trans hi hlt) hlt heq)
  · rw [h.writePtr_eq, Function.update_self]

theorem pop_of_empty (h : r.currentSize = 0) : r.pop = (none, r) := if_pos (decide_eq_true h)

theorem pop_of_pos (h : 0 < r.currentSize) :
    r.pop =
      (some (r.buffer r.readPtr),
        { r with
          readPtr := (r.readPtr + 1) % r.capacity
          currentSize := r.currentSize - 1 }) :=
  if_neg (by simp [isEmpty, Nat.ne_of_gt h])

theorem Valid.pop (h : r.Valid) : r.pop.2.Valid := by
  rcases Nat.eq_zero_or_pos r.currentSize with hempty | hpos
  · rw [pop_of_empty hempty]
    exact h
  · rw [pop_of_pos hpos]
    have hlt := h.readPtr_lt
    have hle := h.size_le
    refine ⟨Nat.mod_lt _ (by omega), by simp only; omega, ?_⟩
    simp only [h.writePtr_eq, Nat.mod_add_mod]
    congr 1
    omega

theorem contents_pop (h : r.Valid) (hpos : 0 < r.currentSize) :
    r.contents = r.buffer r.readPtr :: r.pop.2.contents := by
  obtain ⟨n, hn⟩ : ∃ n, r.currentSize = n + 1 := ⟨r.currentSize - 1, by omega⟩
  rw [pop_of_pos hpos]
  simp only [contents, hn, Nat.add_sub_cancel, List.range_succ_eq_map, List.map_cons, List.map_map,
    Nat.add_zero, Nat.mod_eq_of_lt h.readPtr_lt]
  congr 1
  apply List.map_congr_left
  intro i _
  rw [Function.comp_apply, Nat.mod_add_mod, Nat.succ_eq_add_one, Nat.add_right_comm, Nat.add_assoc]

theorem pop_eq_of_contents {xs : List α} (h : r.Valid) (hcontents : r.contents = item :: xs) :
    r.pop.1 = some item ∧ r.pop.2.contents = xs := by
  have hlen : r.currentSize = xs.length + 1 := by
    rw [← length_contents, hcontents, List.length_cons]
  have hpos : 0 < r.currentSize := by omega
  obtain ⟨hitem, hxs⟩ := List.cons.inj (hcontents.symm.trans (contents_pop h hpos))
  exact ⟨by rw [pop_of_pos hpos, hitem], hxs.symm⟩

end RingBuffer

end RadProt.Hal
