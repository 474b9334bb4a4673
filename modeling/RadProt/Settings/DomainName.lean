import RadProt.Lib.Dotted
import RadProt.Lib.Split

namespace RadProt.Settings

open RadProt.Lib

/-- `get_next_domain_name_component`: where the component starts, its length, and the position
stored for the next call. -/
def getNextDomainNameComponent (domainName : List UInt8) (position : Nat) :
    Option (Nat × Nat × Nat) :=
  let rest := domainName.drop position
  match strchr rest 46 with
  | some p => some (position, p, position + p + 1)
  | none =>
    if cString rest ≠ [] then
      some (position, (cString rest).length, position + (cString rest).length)
    else none

section Step

variable {domainName s rest : List UInt8} {position : Nat}

theorem component_nil (h : cString (domainName.drop position) = []) :
    getNextDomainNameComponent domainName position = none := by
  simp [getNextDomainNameComponent, strchr, h]

theorem findIdx?_dot (hdot : 46 ∉ s) : s.findIdx? (· = 46) = none := by
  rw [List.findIdx?_eq_none_iff]
  intro b hb
  simpa using fun hb46 : b = 46 => hdot (hb46 ▸ hb)

theorem component_last (h : cString (domainName.drop position) = s) (hne : s ≠ []) (hdot : 46 ∉ s) :
    getNextDomainNameComponent domainName position =
      some (position, s.length, position + s.length) := by
  simp [getNextDomainNameComponent, strchr, h, findIdx?_dot hdot, hne]

theorem component_dot (h : cString (domainName.drop position) = s ++ 46 :: rest) (hdot : 46 ∉ s) :
    getNextDomainNameComponent domainName position =
      some (position, s.length, position + s.length + 1) := by
  have hfind : (s ++ 46 :: rest).findIdx? (· = 46) = some s.length := by
    rw [List.findIdx?_append, findIdx?_dot hdot]
    simp [List.findIdx?_cons]
  simp [getNextDomainNameComponent, strchr, h, hfind]

end Step

inductive Calls (domainName : List UInt8) : Nat → List (Nat × Nat × Nat) → Prop
  | done {position} : getNextDomainNameComponent domainName position = none →
      Calls domainName position []
  | next {position start length stored calls} :
      getNextDomainNameComponent domainName position = some (start, length, stored) →
      Calls domainName stored calls → Calls domainName position ((start, length, stored) :: calls)

section Calls

variable {domainName : List UInt8}

theorem Calls.unique {position : Nat} {calls calls' : List (Nat × Nat × Nat)}
    (h : Calls domainName position calls) (h' : Calls domainName position calls') :
    calls' = calls := by
  induction h generalizing calls' with
  | done hnone =>
    cases h' with
    | done => rfl
    | next hsome => cases hnone.symm.trans hsome
  | next hsome _ ih =>
    cases h' with
    | done hnone => cases hsome.symm.trans hnone
    | next hsome' hrest =>
      cases hsome.symm.trans hsome'
      rw [ih hrest]

theorem exists_calls {before rest : List UInt8} (h : cString domainName = before ++ rest) :
    ∃ calls, Calls domainName before.length calls ∧
      calls.map (fun c => (c.1, c.2.1)) = spans before.length (pieces 46 rest) ∧
      ∀ c ∈ calls, c.1 + c.2.1 ≤ (cString domainName).length ∧
        c.2.2 ≤ (cString domainName).length := by
  induction rest using split_induction (46 : UInt8) generalizing before with
  | nil =>
    exact ⟨[], .done (component_nil (cString_drop_length h)), rfl,
      fun _ hc => absurd hc List.not_mem_nil⟩
  | last s hne hdot =>
    have hlength : (cString domainName).length = before.length + s.length := by
      rw [h, List.length_append]
    have hend : cString (domainName.drop (before.length + s.length)) = [] := by
      rw [← List.length_append]
      exact cString_drop_length (h.trans (List.append_nil _).symm)
    refine ⟨_, .next (component_last (cString_drop_length h) hne hdot) (.done (component_nil hend)),
      ?_, ?_⟩
    · rw [pieces_of_notMem hne hdot]
      rfl
    · intro c hc
      rw [List.mem_singleton.mp hc]
      exact ⟨hlength.ge, hlength.ge⟩
  | piece s rest hdot ih =>
    have hname : cString domainName = before ++ s ++ [46] ++ rest := by rw [h]; simp
    have hbefore : (before ++ s ++ [46]).length = before.length + s.length + 1 := by
      simp [Nat.add_assoc]
    obtain ⟨calls, hcalls, hspans, hinside⟩ := ih hname
    rw [hbefore] at hcalls hspans
    refine ⟨_, .next (component_dot (cString_drop_length h) hdot) hcalls, ?_, ?_⟩
    · rw [List.map_cons, hspans, pieces_append_cons hdot, spans]
    · have hlength := congrArg List.length hname
      rw [List.length_append, hbefore] at hlength
      intro c hc
      obtain rfl | hc := List.mem_cons.mp hc
      · exact ⟨by simp only; omega, by simp only; omega⟩
      · exact hinside c hc

/-- The calls from position 0 on come to an end, and return the pieces of the name one after the
other, all of it inside the name. -/
theorem components_pieces (domainName : List UInt8) :
    ∃ calls, Calls domainName 0 calls ∧ (∀ calls', Calls domainName 0 calls' → calls' = calls) ∧
      calls.map (fun c => (c.1, c.2.1)) = spans 0 (pieces 46 (cString domainName)) ∧
      calls.map (fun c => ((cString domainName).drop c.1).take c.2.1) =
        pieces 46 (cString domainName) ∧
      ∀ c ∈ calls, c.1 + c.2.1 ≤ (cString domainName).length ∧
        c.2.2 ≤ (cString domainName).length := by
  obtain ⟨calls, hcalls, hspans, hinside⟩ :=
    exists_calls (show cString domainName = [] ++ cString domainName from rfl)
  refine ⟨calls, hcalls, fun _ h' => hcalls.unique h', hspans, ?_, hinside⟩
  have hslices := slices_spans (46 : UInt8) [] (cString domainName)
  rw [List.nil_append, ← hspans, List.map_map] at hslices
  exact hslices

end Calls

def Plain (label : List UInt8) : Prop := 46 ∉ label ∧ 0 ∉ label

instance (label : List UInt8) : Decidable (Plain label) := inferInstanceAs (Decidable (_ ∧ _))

def StandsAt (domainName : List UInt8) (position : Nat) (labels : List (List UInt8)) : Prop :=
  domainName.drop position = dotted labels ∧ ∀ label ∈ labels, label ≠ [] ∧ Plain label

theorem StandsAt.nil {domainName : List UInt8} {position : Nat}
    (h : StandsAt domainName position []) : getNextDomainNameComponent domainName position = none :=
  component_nil (by rw [h.1]; rfl)

theorem StandsAt.cons {domainName : List UInt8} {position : Nat} {label : List UInt8}
    {labels : List (List UInt8)} (h : StandsAt domainName position (label :: labels)) :
    ∃ next, getNextDomainNameComponent domainName position = some (position, label.length, next) ∧
      StandsAt domainName next labels := by
  obtain ⟨hdrop, hlabels⟩ := h
  obtain ⟨hne, hdot, hzero⟩ := hlabels label List.mem_cons_self
  have hrest := fun l hl => hlabels l (List.mem_cons_of_mem _ hl)
  by_cases hnil : labels = []
  · subst hnil
    have hlast : cString (domainName.drop position) = label := by
      rw [hdrop, dotted_singleton, cString_eq_self hzero]
    refine ⟨position + label.length, component_last hlast hne hdot, ?_, hrest⟩
    rw [← List.drop_drop, hdrop, dotted_singleton, List.drop_length, dotted_nil]
  · have hnext : cString (domainName.drop position) = label ++ 46 :: cString (dotted labels) := by
      rw [hdrop, dotted_cons hnil, cString_append hzero]
      rfl
    refine ⟨position + label.length + 1, component_dot hnext hdot, ?_, hrest⟩
    rw [Nat.add_assoc, ← List.drop_drop, hdrop, dotted_cons hnil, ← List.drop_drop,
      List.drop_left, List.drop_succ_cons, List.drop_zero]

end RadProt.Settings
