import RadProt.Lib.Queue
import RadProt.Hal.RingBuffer

namespace RadProt.Hal.RingBuffer

open RadProt.Lib

variable {α : Type}

def step (r : RingBuffer α) : Queue.Op α → Queue.Answer α × RingBuffer α
  | .push item => (.pushed (r.push item).1, (r.push item).2)
  | .pop => (.popped r.pop.1, r.pop.2)
  | .reset => (.emptied, r.reset)

structure Represents (capacity : Nat) (r : RingBuffer α) (q : List α) : Prop where
  valid : r.Valid
  capacity_eq : r.capacity = capacity
  contents_eq : r.contents = q

section Refines

variable {capacity : Nat} {r : RingBuffer α} {q : List α}

theorem Represents.length_eq (h : r.Represents capacity q) : q.length = r.currentSize := by
  rw [← h.contents_eq, length_contents]

theorem Represents.size_le (h : r.Represents capacity q) : r.currentSize ≤ capacity := by
  rw [← h.capacity_eq]
  exact h.valid.size_le

theorem Represents.writePtr_eq (h : r.Represents capacity q) :
    r.writePtr = (r.readPtr + r.currentSize) % capacity := by
  rw [← h.capacity_eq]
  exact h.valid.writePtr_eq

theorem represents_new (h : 1 ≤ capacity) (cells : Nat → α) :
    (new capacity cells).Represents capacity [] := ⟨valid_new h cells, rfl, rfl⟩

theorem Represents.push (h : r.Represents capacity q) (item : α) :
    Queue.Answer.pushed (r.push item).1 = (Queue.step capacity q (.push item)).1 ∧
      (r.push item).2.Represents capacity (Queue.step capacity q (.push item)).2 := by
  have hvalid := h.valid.push item
  rw [Queue.step, h.length_eq, ← h.capacity_eq]
  rcases Nat.lt_or_eq_of_le h.valid.size_le with hlt | hfull
  · have hcontents := contents_push h.valid hlt item
    rw [if_pos hlt]
    rw [h.contents_eq] at hcontents
    exact ⟨by rw [push_of_lt hlt], hvalid, r.capacity_push item, hcontents⟩
  · rw [if_neg (Nat.not_lt_of_ge hfull.ge), push_of_full hfull]
    exact ⟨rfl, h.valid, rfl, h.contents_eq⟩

theorem Represents.pop (h : r.Represents capacity q) :
    Queue.Answer.popped r.pop.1 = (Queue.step capacity q .pop).1 ∧
      r.pop.2.Represents capacity (Queue.step capacity q .pop).2 := by
  cases q with
  | nil =>
    rw [pop_of_empty h.length_eq.symm]
    exact ⟨rfl, h⟩
  | cons item q =>
    obtain ⟨hitem, hrest⟩ := pop_eq_of_contents h.valid h.contents_eq
    exact ⟨congrArg Queue.Answer.popped hitem, h.valid.pop, r.capacity_pop.trans h.capacity_eq,
      hrest⟩

theorem Represents.reset (h : r.Represents capacity q) : r.reset.Represents capacity [] :=
  ⟨h.valid.reset, h.capacity_eq, rfl⟩

theorem Represents.step (h : r.Represents capacity q) (op : Queue.Op α) :
    (r.step op).1 = (Queue.step capacity q op).1 ∧
      (r.step op).2.Represents capacity (Queue.step capacity q op).2 := by
  cases op with
  | push item => exact h.push item
  | pop => exact h.pop
  | reset => exact ⟨rfl, h.reset⟩

theorem push_fails_iff (h : r.Represents capacity q) (item : α) :
    (r.push item).1 = false ↔ q.length = capacity := by
  rw [h.length_eq, ← h.capacity_eq]
  rcases Nat.lt_or_eq_of_le h.valid.size_le with hlt | hfull
  · rw [push_of_lt hlt]
    exact iff_of_false Bool.true_eq_false.mp hlt.ne
  · rw [push_of_full hfull]
    exact iff_of_true rfl hfull

theorem push_of_fails (item : α) (hfails : (r.push item).1 = false) : (r.push item).2 = r := by
  rw [push] at hfails ⊢
  split at hfails
  next hfull => rw [if_pos hfull]
  next => cases hfails

theorem pop_fails_iff (h : r.Represents capacity q) : r.pop.1 = none ↔ q = [] := by
  rw [← List.length_eq_zero_iff, h.length_eq]
  obtain hempty | hpos := Nat.eq_zero_or_pos r.currentSize
  · rw [pop_of_empty hempty]
    exact iff_of_true rfl hempty
  · rw [pop_of_pos hpos]
    exact iff_of_false (Option.some_ne_none _) hpos.ne'

theorem pop_of_fails (hfails : r.pop.1 = none) : r.pop.2 = r := by
  rw [pop] at hfails ⊢
  split at hfails
  next hempty => rw [if_pos hempty]
  next => cases hfails

end Refines

def run (capacity : Nat) (cells : Nat → α) (ops : List (Queue.Op α)) :
    List (Queue.Answer α) × RingBuffer α :=
  responses step (new capacity cells) ops

structure Fifo (capacity : Nat) (ops : List (Queue.Op α)) (answers : List (Queue.Answer α))
    (r : RingBuffer α) : Prop where
  writePtr_eq : r.writePtr = (r.readPtr + r.currentSize) % capacity
  size_le : r.currentSize ≤ capacity
  answers_eq : answers = (responses (Queue.step capacity) [] ops).1
  contents_eq : r.contents = (responses (Queue.step capacity) [] ops).2
  /-- What was accepted since the last reset has come out, in that order, or is still there. -/
  order : (Queue.history ops answers).entered = (Queue.history ops answers).left ++ r.contents
  pushFails : ∀ item, (r.push item).1 = false ↔ r.contents.length = capacity
  pushKeeps : ∀ item, (r.push item).1 = false → (r.push item).2 = r
  popFails : r.pop.1 = none ↔ r.contents = []
  popKeeps : r.pop.1 = none → r.pop.2 = r

section Runs

variable {capacity : Nat}

theorem run_refines (h : 1 ≤ capacity) (cells : Nat → α) (ops : List (Queue.Op α)) :
    (run capacity cells ops).1 = (responses (Queue.step capacity) [] ops).1 ∧
      (run capacity cells ops).2.Represents capacity (responses (Queue.step capacity) [] ops).2 :=
  responses_related (Represents capacity) (fun _ _ op hr => hr.step op) (represents_new h cells) ops

/-- Whatever is done with it, the ring is a queue. -/
theorem run_fifo (h : 1 ≤ capacity) (cells : Nat → α) (ops : List (Queue.Op α)) :
    Fifo capacity ops (run capacity cells ops).1 (run capacity cells ops).2 := by
  obtain ⟨hanswers, hr⟩ := run_refines h cells ops
  constructor
  case writePtr_eq => exact hr.writePtr_eq
  case size_le => exact hr.size_le
  case answers_eq => exact hanswers
  case contents_eq => exact hr.contents_eq
  case order =>
    rw [hanswers, hr.contents_eq]
    exact Queue.balanced_responses capacity ops
  case pushFails =>
    rw [hr.contents_eq]
    exact push_fails_iff hr
  case pushKeeps => exact push_of_fails
  case popFails =>
    rw [hr.contents_eq]
    exact pop_fails_iff hr
  case popKeeps => exact pop_of_fails

theorem run_fifo_wraps :
    Fifo 2 [.push 1, .push 2, .push 3, .pop, .push 4]
        [.pushed true, .pushed true, .pushed false, .popped (some 1), .pushed true]
        (run 2 (fun _ => 0) [.push 1, .push 2, .push 3, .pop, .push 4]).2 ∧
      (run 2 (fun _ => 0) [.push 1, .push 2, .push 3, .pop, .push 4]).2.contents = [2, 4] := by
  have hfifo := run_fifo (show 1 ≤ 2 by decide) (fun _ => 0)
    [.push 1, .push 2, .push 3, .pop, .push 4]
  exact ⟨hfifo, hfifo.contents_eq⟩

end Runs

end RadProt.Hal.RingBuffer
