import Mathlib.Data.Fin.Tuple.Basic

namespace RadProt.Lib

universe u v

variable {ε : Type u} {α β : Type v}

theorem bind_eq_ok {x : Except ε α} {f : α → Except ε β} {b : β} :
    (x >>= f) = .ok b ↔ ∃ a, x = .ok a ∧ f a = .ok b := by
  cases x <;> simp [bind, Except.bind]

@[simp] theorem pure_eq_ok {a b : α} : (pure a : Except ε α) = .ok b ↔ a = b := by
  simp [pure, Except.pure]

theorem exists_bind_iff {x : Except ε α} {f : α → Except ε β} {Q : Prop}
    (hf : ∀ a, (∃ b, f a = .ok b) ↔ Q) :
    (∃ b, (x >>= f) = .ok b) ↔ (∃ a, x = .ok a) ∧ Q := by
  constructor
  · rintro ⟨b, hb⟩
    obtain ⟨a, ha, hfa⟩ := bind_eq_ok.mp hb
    exact ⟨⟨a, ha⟩, (hf a).mp ⟨b, hfa⟩⟩
  · rintro ⟨⟨a, ha⟩, hQ⟩
    obtain ⟨b, hb⟩ := (hf a).mpr hQ
    exact ⟨b, bind_eq_ok.mpr ⟨a, ha, hb⟩⟩

theorem exists_pure_iff {a : α} : (∃ b, (pure a : Except ε α) = .ok b) ↔ True :=
  iff_true_intro ⟨a, rfl⟩

def fillM : (n : Nat) → (Fin n → Except ε α) → Except ε (Vector α n)
  | 0, _ => pure #v[]
  | n + 1, f => do
    let init ← fillM n fun i => f i.castSucc
    let last ← f (Fin.last n)
    return init.push last

theorem fillM_eq_ok_iff {n : Nat} {f : Fin n → Except ε α} {v : Vector α n} :
    fillM n f = .ok v ↔ ∀ i : Fin n, f i = .ok v[i] := by
  induction n with
  | zero => simp [fillM, Vector.eq_empty]
  | succ n ih =>
    simp only [fillM, bind_eq_ok, pure_eq_ok, ih]
    constructor
    · rintro ⟨init, hinit, last, hlast, rfl⟩ i
      refine Fin.lastCases ?_ (fun j => ?_) i
      · simpa using hlast
      · simpa using hinit j
    · intro h
      refine ⟨v.pop, fun i => ?_, v[n], by simpa using h (Fin.last n), Vector.push_pop_back v⟩
      simpa using h i.castSucc

theorem exists_fillM_eq_ok {n : Nat} {f : Fin n → Except ε α} :
    (∃ v, fillM n f = .ok v) ↔ ∀ i, ∃ a, f i = .ok a := by
  constructor
  · rintro ⟨v, hv⟩ i
    exact ⟨_, fillM_eq_ok_iff.mp hv i⟩
  · intro h
    choose g hg using h
    exact ⟨Vector.ofFn g, fillM_eq_ok_iff.mpr fun i => by simpa using hg i⟩

end RadProt.Lib
