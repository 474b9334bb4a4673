import Mathlib.Data.Finmap
import Mathlib.Data.List.ReduceOption

namespace RadProt.Lib

universe u v

variable {κ : Type u} {ν : Type v}

theorem insert_erase [DecidableEq κ] {m : Finmap fun _ : κ => ν} {k : κ} {v : ν}
    (h : m.lookup k = some v) : (m.erase k).insert k v = m := by
  refine Finmap.ext_lookup fun j => ?_
  by_cases hj : j = k
  · rw [hj, Finmap.lookup_insert, h]
  · rw [Finmap.lookup_insert_of_ne _ hj, Finmap.lookup_erase_ne hj]

theorem erase_of_notMem [DecidableEq κ] {m : Finmap fun _ : κ => ν} {k : κ} (h : k ∉ m) :
    m.erase k = m := by
  refine Finmap.ext_lookup fun j => ?_
  by_cases hj : j = k
  · rw [hj, Finmap.lookup_erase, Finmap.lookup_eq_none.mpr h]
  · rw [Finmap.lookup_erase_ne hj]

/-- The cells of a table hold the entries of `m`, each in a cell of its own. -/
def Tabulates (cells : List (Option (Σ _ : κ, ν))) (m : Finmap fun _ : κ => ν) : Prop :=
  m.entries = ↑cells.reduceOption

section Cells

variable {α : Type u} {cells : List (Option α)} {i : Nat} {c : Option α}

theorem exists_around (h : cells[i]? = some c) :
    ∃ l r, cells = l ++ c :: r ∧ ∀ x, cells.set i x = l ++ x :: r := by
  obtain ⟨hi, hc⟩ := List.getElem?_eq_some_iff.mp h
  refine ⟨cells.take i, cells.drop (i + 1), ?_, fun x => ?_⟩
  · rw [← hc, ← List.drop_eq_getElem_cons, List.take_append_drop]
  · exact List.set_eq_take_append_cons_drop ▸ if_pos hi

end Cells

namespace Tabulates

variable {cells : List (Option (Σ _ : κ, ν))} {m : Finmap fun _ : κ => ν} {i : Nat} {k : κ}
  {v w : ν}

theorem replicate (n : Nat) : Tabulates (List.replicate n none) (∅ : Finmap fun _ : κ => ν) := by
  rw [Tabulates, List.reduceOption_replicate_none]
  rfl

variable [DecidableEq κ]

theorem mem_iff (h : Tabulates cells m) : k ∈ m ↔ ∃ v, some ⟨k, v⟩ ∈ cells := by
  rw [Finmap.mem_iff]
  refine exists_congr fun v => ?_
  rw [Finmap.lookup_eq_some_iff, h, Multiset.mem_coe, List.reduceOption_mem_iff]

omit [DecidableEq κ] in
theorem card_keys (h : Tabulates cells m) : m.keys.card = cells.reduceOption.length := by
  have hcard : m.keys.card = m.entries.card := Multiset.card_map ..
  rw [hcard, h, Multiset.coe_card]

omit [DecidableEq κ] in
theorem none_mem_iff (h : Tabulates cells m) : none ∈ cells ↔ m.keys.card < cells.length := by
  rw [h.card_keys, List.reduceOption_length_lt_iff]

theorem insert_new (h : Tabulates cells m) (hi : cells[i]? = some none) (hk : k ∉ m) :
    Tabulates (cells.set i (some ⟨k, v⟩)) (m.insert k v) := by
  obtain ⟨l, r, hcells, hset⟩ := exists_around hi
  rw [Tabulates, Finmap.entries_insert_of_notMem hk, h, hset, hcells, Multiset.cons_coe,
    Multiset.coe_eq_coe, List.reduceOption_append, List.reduceOption_append,
    List.reduceOption_cons_of_none, List.reduceOption_cons_of_some]
  exact List.perm_middle.symm

theorem lookup (h : Tabulates cells m) (hi : cells[i]? = some (some ⟨k, v⟩)) :
    m.lookup k = some v := by
  rw [Finmap.lookup_eq_some_iff, h, Multiset.mem_coe, List.reduceOption_mem_iff]
  exact List.mem_of_getElem? hi

theorem erase (h : Tabulates cells m) (hi : cells[i]? = some (some ⟨k, v⟩)) :
    Tabulates (cells.set i none) (m.erase k) := by
  obtain ⟨l, r, hcells, hset⟩ := exists_around hi
  have hm : (m.erase k).insert k v = m := insert_erase (h.lookup hi)
  rw [Tabulates, ← hm, Finmap.entries_insert_of_notMem Finmap.notMem_erase_self, hcells,
    List.reduceOption_append, List.reduceOption_cons_of_some,
    Multiset.coe_eq_coe.mpr List.perm_middle, ← Multiset.cons_coe, Multiset.cons_inj_right] at h
  rw [Tabulates, h, hset, List.reduceOption_append, List.reduceOption_cons_of_none]

theorem insert_again (h : Tabulates cells m) (hi : cells[i]? = some (some ⟨k, v⟩)) :
    Tabulates (cells.set i (some ⟨k, w⟩)) (m.insert k w) := by
  have hlt := (List.getElem?_eq_some_iff.mp hi).1
  have hfree : (cells.set i none)[i]? = some none := by simp [hlt]
  have hnew := insert_new (v := w) (h.erase hi) hfree Finmap.notMem_erase_self
  rwa [List.set_set, ← Finmap.insert_insert (b := v), insert_erase (h.lookup hi)] at hnew

end Tabulates

end RadProt.Lib
