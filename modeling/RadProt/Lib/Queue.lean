import Mathlib.Data.List.Basic

namespace RadProt.Lib

universe u v w

/-- The answers of a machine to a list of inputs, and the state it ends in. -/
def responses {σ : Type u} {ι : Type v} {ω : Type w} (step : σ → ι → ω × σ) :
    σ → List ι → List ω × σ
  | s, [] => ([], s)
  | s, i :: is =>
    ((step s i).1 :: (responses step (step s i).2 is).1, (responses step (step s i).2 is).2)

section Responses

variable {σ τ : Type u} {ι : Type v} {ω : Type w} {f : σ → ι → ω × σ} {g : τ → ι → ω × τ}

/-- The simulation rule: machines whose related states answer alike and stay related answer alike
to every list of inputs. -/
theorem responses_related (R : σ → τ → Prop)
    (step : ∀ s t i, R s t → (f s i).1 = (g t i).1 ∧ R (f s i).2 (g t i).2) {s : σ} {t : τ}
    (h : R s t) (is : List ι) :
    (responses f s is).1 = (responses g t is).1 ∧
      R (responses f s is).2 (responses g t is).2 := by
  induction is generalizing s t with
  | nil => exact ⟨rfl, h⟩
  | cons i is ih =>
    obtain ⟨hanswer, hnext⟩ := step s t i h
    obtain ⟨hanswers, hend⟩ := ih hnext
    exact ⟨congrArg₂ List.cons hanswer hanswers, hend⟩

end Responses

namespace Queue

variable {α : Type u}

inductive Op (α : Type u)
  | push (item : α)
  | pop
  | reset

inductive Answer (α : Type u)
  | pushed (done : Bool)
  | popped (item : Option α)
  | emptied

def step (capacity : Nat) (q : List α) : Op α → Answer α × List α
  | .push item => if q.length < capacity then (.pushed true, q ++ [item]) else (.pushed false, q)
  | .pop => (.popped q.head?, q.tail)
  | .reset => (.emptied, [])

structure History (α : Type u) where
  entered : List α
  left : List α

def History.empty : History α where
  entered := []
  left := []

def History.record (h : History α) : Op α × Answer α → History α
  | (.push item, .pushed true) => { h with entered := h.entered ++ [item] }
  | (.pop, .popped (some item)) => { h with left := h.left ++ [item] }
  | (.reset, _) => .empty
  | _ => h

def History.Balanced (h : History α) (q : List α) : Prop := h.entered = h.left ++ q

def history (ops : List (Op α)) (answers : List (Answer α)) : History α :=
  (ops.zip answers).foldl History.record .empty

section Laws

variable {capacity : Nat} {q : List α} {h : History α}

theorem balanced_step (hq : h.Balanced q) (op : Op α) :
    (h.record (op, (step capacity q op).1)).Balanced (step capacity q op).2 := by
  cases op with
  | push item =>
    rw [step]
    split
    next => exact (congrArg (· ++ [item]) hq).trans (List.append_assoc ..)
    next => exact hq
  | pop =>
    cases q with
    | nil => exact hq
    | cons item q => exact hq.trans (List.append_cons ..)
  | reset => exact rfl

/-- First in, first out: nothing is lost, doubled or overtaken. -/
theorem balanced_responses (capacity : Nat) (ops : List (Op α)) :
    (history ops (responses (step capacity) [] ops).1).Balanced
      (responses (step capacity) [] ops).2 := by
  have hrun : ∀ (h : History α) (q : List α), h.Balanced q →
      ((ops.zip (responses (step capacity) q ops).1).foldl History.record h).Balanced
        (responses (step capacity) q ops).2 := by
    intro h q hq
    induction ops generalizing h q with
    | nil => exact hq
    | cons op ops ih => exact ih _ _ (balanced_step hq op)
  exact hrun .empty [] rfl

end Laws

end Queue

end RadProt.Lib
