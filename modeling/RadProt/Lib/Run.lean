import Mathlib.Data.List.Basic

namespace RadProt.Lib

universe u v

variable {σ : Type u} {ε : Type v}

/-- Runs of a labelled step relation, the labels in the order they were taken. -/
inductive Run (step : σ → ε → σ → Prop) : σ → List ε → σ → Prop
  | nil {s} : Run step s [] s
  | cons {s t u e es} : step s e t → Run step t es u → Run step s (e :: es) u

def Guarded (G : σ → ε → Prop) (step : σ → ε → σ → Prop) : σ → ε → σ → Prop :=
  fun s e t => G s e ∧ step s e t

/-- Every label of `es` is enabled when its turn comes, `next` being what a label does. -/
def Feasible (enabled : σ → ε → Prop) (next : σ → ε → σ) : σ → List ε → Prop
  | _, [] => True
  | s, e :: es => enabled s e ∧ Feasible enabled next (next s e) es

instance decidableFeasible (enabled : σ → ε → Prop) (next : σ → ε → σ)
    [∀ s e, Decidable (enabled s e)] : ∀ s es, Decidable (Feasible enabled next s es)
  | _, [] => inferInstanceAs (Decidable True)
  | s, e :: es =>
    have := decidableFeasible enabled next (next s e) es
    inferInstanceAs (Decidable (enabled s e ∧ Feasible enabled next (next s e) es))

namespace Run

variable {step : σ → ε → σ → Prop} {s t u : σ} {e : ε} {es fs : List ε}

theorem single (h : step s e t) : Run step s [e] t := .cons h .nil

theorem cons_inv (h : Run step s (e :: es) u) : ∃ t, step s e t ∧ Run step t es u := by
  cases h with
  | cons hs hr => exact ⟨_, hs, hr⟩

theorem of_feasible {enabled : σ → ε → Prop} {next : σ → ε → σ} {s : σ} {es : List ε}
    (h : Feasible enabled next s es) :
    Run (fun s e t => enabled s e ∧ t = next s e) s es (es.foldl next s) := by
  induction es generalizing s with
  | nil => exact .nil
  | cons e es ih => exact .cons ⟨h.1, rfl⟩ (ih h.2)

theorem guarded_of_feasible {G enabled : σ → ε → Prop} {next : σ → ε → σ} {s : σ} {es : List ε}
    (h : Feasible (fun s e => G s e ∧ enabled s e) next s es) :
    Run (Guarded G fun s e t => enabled s e ∧ t = next s e) s es (es.foldl next s) := by
  induction es generalizing s with
  | nil => exact .nil
  | cons e es ih => exact .cons ⟨h.1.1, h.1.2, rfl⟩ (ih h.2)

theorem append (h : Run step s es t) (k : Run step t fs u) : Run step s (es ++ fs) u := by
  induction h with
  | nil => exact k
  | cons hs _ ih => exact .cons hs (ih k)

theorem append_inv (h : Run step s (es ++ fs) u) : ∃ t, Run step s es t ∧ Run step t fs u := by
  induction es generalizing s with
  | nil => exact ⟨s, .nil, h⟩
  | cons e es ih =>
    cases h with
    | cons hs hr =>
      obtain ⟨t, hes, hfs⟩ := ih hr
      exact ⟨t, .cons hs hes, hfs⟩

theorem mono {step' : σ → ε → σ → Prop} (hsub : ∀ s e t, step s e t → step' s e t)
    (h : Run step s es t) : Run step' s es t := by
  induction h with
  | nil => exact .nil
  | cons hs _ ih => exact .cons (hsub _ _ _ hs) ih

/-- The induction rule: what every step keeps, every run keeps. -/
theorem invariant (I : σ → Prop) (keep : ∀ s e t, I s → step s e t → I t)
    (h : Run step s es t) (hs : I s) : I t := by
  induction h with
  | nil => exact hs
  | cons he _ ih => exact ih (keep _ _ _ hs he)

/-- The induction rule for a relation between the two ends of a run. -/
theorem related (R : σ → σ → Prop) (refl : ∀ s, R s s)
    (trans : ∀ s e t u, step s e t → R t u → R s u) (h : Run step s es t) : R s t := by
  induction h with
  | nil => exact refl _
  | cons he _ ih => exact trans _ _ _ _ he ih

theorem of_guarded {G : σ → ε → Prop} (h : Run (Guarded G step) s es t) : Run step s es t :=
  h.mono fun _ _ _ hs => hs.2

theorem guarded {G : ε → Prop} (h : Run step s es t) (hG : ∀ e ∈ es, G e) :
    Run (Guarded (fun _ e => G e) step) s es t := by
  induction h with
  | nil => exact .nil
  | cons hs _ ih =>
    exact .cons ⟨hG _ List.mem_cons_self, hs⟩ (ih fun e he => hG e (List.mem_cons_of_mem _ he))

theorem guarded_of_invariant {G : σ → ε → Prop} (I : σ → Prop)
    (keep : ∀ s e t, I s → step s e t → I t) (guard : ∀ s e t, I s → step s e t → G s e)
    (h : Run step s es t) (hs : I s) : Run (Guarded G step) s es t := by
  induction h with
  | nil => exact .nil
  | cons he _ ih => exact .cons ⟨guard _ _ _ hs he, he⟩ (ih (keep _ _ _ hs he))

theorem latched {G : ε → Prop} (I D : σ → Prop) (keepI : ∀ s e t, I s → step s e t → I t)
    (keep : ∀ s e t, I s → D s → step s e t → D t)
    (set : ∀ s e t, I s → ¬ G e → step s e t → D t) (h : Run step s es t) (hs : I s)
    (hbad : D s ∨ ∃ e ∈ es, ¬ G e) : D t := by
  induction h with
  | nil => exact hbad.resolve_right fun ⟨e, he, _⟩ => nomatch he
  | cons he _ ih =>
    apply ih (keepI _ _ _ hs he)
    obtain hD | ⟨e, hmem, hG⟩ := hbad
    · exact .inl (keep _ _ _ hs hD he)
    · rcases List.mem_cons.mp hmem with rfl | hmem
      · exact .inl (set _ _ _ hs hG he)
      · exact .inr ⟨e, hmem, hG⟩

/-- Where a step reaches `D` only from `D` and only by meeting `G`, a run that ends in `D` met
`G` at every step. -/
theorem guarded_of_last {G : σ → ε → Prop} (I D : σ → Prop)
    (keepI : ∀ s e t, I s → step s e t → I t)
    (back : ∀ s e t, I s → step s e t → D t → D s ∧ G s e) (h : Run step s es t) (hs : I s)
    (ht : D t) : D s ∧ Run (Guarded G step) s es t := by
  induction h with
  | nil => exact ⟨ht, .nil⟩
  | cons he _ ih =>
    obtain ⟨hD, hrun⟩ := ih (keepI _ _ _ hs he) ht
    obtain ⟨hD', hG⟩ := back _ _ _ hs he hD
    exact ⟨hD', .cons ⟨hG, he⟩ hrun⟩

/-- Where every step from `I` meets `G` and keeps `I`, or else sets `D` for good, a run that does
not end in `D` met `G` at every step. -/
theorem guarded_or {G : σ → ε → Prop} (I D : σ → Prop)
    (good : ∀ s e t, I s → step s e t → G s e ∧ I t ∨ D t)
    (keep : ∀ s e t, D s → step s e t → D t) (h : Run step s es t) (hs : I s) :
    Run (Guarded G step) s es t ∧ I t ∨ D t := by
  induction h with
  | nil => exact .inl ⟨.nil, hs⟩
  | @cons s _ _ e es he hrest ih =>
    obtain ⟨hG, hI⟩ | hD := good _ _ _ hs he
    · obtain ⟨hrun, hend⟩ | hend := ih hI
      · exact .inl ⟨.cons ⟨hG, he⟩ hrun, hend⟩
      · exact .inr hend
    · exact .inr (hrest.invariant D keep hD)

end Run

end RadProt.Lib
