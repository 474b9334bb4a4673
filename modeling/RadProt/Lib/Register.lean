import Mathlib.Data.Finset.Card
import Mathlib.Data.Finset.Dedup
import Mathlib.Data.List.Sort

namespace RadProt.Lib

universe u v

variable {α : Type u} {κ : Type v} [LinearOrder κ]

def Ascending (key : α → κ) (xs : List α) : Prop := xs.Pairwise fun a b => key a < key b

/-- An ordered set with room for `capacity` entries, as the list that an iteration gives: an entry
gets a place of its own unless its key is there already. -/
structure OrderedSet (key : α → κ) (capacity : Nat) where
  insert : List α → α → List α
  insert_of_mem : ∀ {xs : List α} {x : α}, Ascending key xs → xs.length < capacity →
    key x ∈ xs.map key → insert xs x = xs
  insert_of_notMem : ∀ {xs : List α} {x : α}, Ascending key xs → xs.length < capacity →
    key x ∉ xs.map key → Ascending key (insert xs x) ∧ (insert xs x).Perm (x :: xs)

def register {key : α → κ} {capacity : Nat} (set : OrderedSet key capacity) (xs : List α) (x : α) :
    List α :=
  if xs.length < capacity then set.insert xs x else xs

/-- `x` is the first of `heard` with its key, and fewer than `capacity` keys come before it. -/
def InTime (key : α → κ) (capacity : Nat) (heard : List α) (x : α) : Prop :=
  ∃ before after, heard = before ++ x :: after ∧ key x ∉ before.map key ∧
    (before.map key).toFinset.card < capacity

structure Registers (key : α → κ) (capacity : Nat) (heard xs : List α) : Prop where
  ascending : Ascending key xs
  length_eq : xs.length = min capacity (heard.map key).toFinset.card
  mem_iff : ∀ x, x ∈ xs ↔ InTime key capacity heard x

variable {key : α → κ} {capacity : Nat} {set : OrderedSet key capacity} {heard xs : List α}
  {x y : α}

theorem Ascending.nodup (h : Ascending key xs) : (xs.map key).Nodup :=
  List.pairwise_map.mpr (h.imp ne_of_lt)

theorem inTime_concat : InTime key capacity (heard ++ [x]) y ↔ InTime key capacity heard y ∨
    y = x ∧ key x ∉ heard.map key ∧ (heard.map key).toFinset.card < capacity := by
  constructor
  · rintro ⟨before, after, heq, hfirst, hroom⟩
    obtain rfl | ⟨after, last, rfl⟩ := List.eq_nil_or_concat after
    · obtain ⟨rfl, hxy⟩ := List.append_inj' heq rfl
      obtain rfl := List.singleton_inj.mp hxy
      exact .inr ⟨rfl, hfirst, hroom⟩
    · rw [List.concat_eq_append, ← List.cons_append, ← List.append_assoc] at heq
      obtain ⟨rfl, -⟩ := List.append_inj' heq rfl
      exact .inl ⟨before, after, rfl, hfirst, hroom⟩
  · rintro (⟨before, after, rfl, hfirst, hroom⟩ | ⟨rfl, hfirst, hroom⟩)
    · exact ⟨before, after ++ [x], by rw [List.append_assoc, List.cons_append], hfirst, hroom⟩
    · exact ⟨heard, [], rfl, hfirst, hroom⟩

theorem mem_of_inTime (h : InTime key capacity heard x) : x ∈ heard := by
  obtain ⟨before, after, rfl, -⟩ := h
  exact List.mem_append_right _ List.mem_cons_self

namespace Registers

theorem nil : Registers key capacity [] [] := by
  refine ⟨.nil, (Nat.min_zero _).symm, fun x => ?_⟩
  refine iff_of_false List.not_mem_nil ?_
  exact fun h => List.not_mem_nil (mem_of_inTime h)

theorem keys_subset (h : Registers key capacity heard xs) :
    (xs.map key).toFinset ⊆ (heard.map key).toFinset := by
  intro k hk
  obtain ⟨x, hx, rfl⟩ := List.mem_map.mp (List.mem_toFinset.mp hk)
  have hheard := mem_of_inTime ((h.mem_iff x).mp hx)
  exact List.mem_toFinset.mpr (List.mem_map_of_mem hheard)

theorem mem_keys_iff (h : Registers key capacity heard xs) (hroom : xs.length < capacity)
    (k : κ) : k ∈ xs.map key ↔ k ∈ heard.map key := by
  have hlength := h.length_eq
  have hcard : (heard.map key).toFinset.card ≤ (xs.map key).toFinset.card := by
    rw [List.toFinset_card_of_nodup h.ascending.nodup, List.length_map]
    omega
  have hkeys := Finset.eq_of_subset_of_card_le h.keys_subset hcard
  rw [← List.mem_toFinset, hkeys, List.mem_toFinset]

theorem card_concat (heard : List α) (x : α) : ((heard ++ [x]).map key).toFinset.card =
    (heard.map key).toFinset.card + if key x ∈ heard.map key then 0 else 1 := by
  rw [List.map_append, List.toFinset_append, List.map_singleton, List.toFinset_cons,
    List.toFinset_nil, insert_empty_eq, Finset.union_comm, Finset.singleton_union]
  split
  next h => rw [Finset.insert_eq_of_mem (List.mem_toFinset.mpr h), Nat.add_zero]
  next h => rw [Finset.card_insert_of_notMem (mt List.mem_toFinset.mp h)]

theorem keep (h : Registers key capacity heard xs) (hroom : xs.length < capacity)
    (hkey : key x ∉ xs.map key) : Registers key capacity (heard ++ [x]) (set.insert xs x) := by
  obtain ⟨hascending, hperm⟩ := set.insert_of_notMem h.ascending hroom hkey
  have hlength := h.length_eq
  have hfirst := mt (h.mem_keys_iff hroom _).mpr hkey
  have hcard := @card_concat _ _ _ key heard x
  rw [if_neg hfirst] at hcard
  refine ⟨hascending, ?_, fun y => ?_⟩
  · rw [hperm.length_eq, List.length_cons]
    omega
  · rw [hperm.mem_iff, List.mem_cons, inTime_concat, h.mem_iff, or_comm]
    refine or_congr_right (iff_self_and.mpr fun _ => ⟨hfirst, ?_⟩)
    omega

theorem leave (h : Registers key capacity heard xs)
    (hnot : ¬ (key x ∉ heard.map key ∧ (heard.map key).toFinset.card < capacity)) :
    Registers key capacity (heard ++ [x]) xs := by
  refine ⟨h.ascending, ?_, fun y => ?_⟩
  · have hlength := h.length_eq
    rw [card_concat]
    split
    next => rwa [Nat.add_zero]
    next hkey =>
      have hfull := Nat.not_lt.mp fun hlt => hnot ⟨hkey, hlt⟩
      omega
  · rw [inTime_concat, h.mem_iff, or_iff_left fun hand => hnot hand.2]

theorem step (h : Registers key capacity heard xs) (set : OrderedSet key capacity) (x : α) :
    Registers key capacity (heard ++ [x]) (register set xs x) := by
  have hlength := h.length_eq
  rw [Lib.register]
  by_cases hroom : xs.length < capacity
  · rw [if_pos hroom]
    by_cases hkey : key x ∈ xs.map key
    · rw [set.insert_of_mem h.ascending hroom hkey]
      exact h.leave fun hand => hand.1 ((h.mem_keys_iff hroom _).mp hkey)
    · exact h.keep hroom hkey
  · rw [if_neg hroom]
    exact h.leave fun hand => by omega

theorem run (h : Registers key capacity heard xs) (set : OrderedSet key capacity) (ys : List α) :
    Registers key capacity (heard ++ ys) (ys.foldl (register set) xs) := by
  induction ys generalizing heard xs with
  | nil => rwa [List.append_nil]
  | cons y ys ih =>
    have hrun := ih (h.step set y)
    rwa [List.append_assoc] at hrun

end Registers

def OrderedSet.ofList (key : α → κ) (capacity : Nat) : OrderedSet key capacity where
  insert xs x :=
    if key x ∈ xs.map key then xs else xs.orderedInsert (fun a b => key a ≤ key b) x
  insert_of_mem _ _ h := if_pos h
  insert_of_notMem {xs x} hascending _ h := by
    rw [if_neg h]
    have hperm := List.perm_orderedInsert (fun a b => key a ≤ key b) x xs
    refine ⟨?_, hperm⟩
    have htotal : Std.Total fun a b : α => key a ≤ key b := ⟨fun a b => le_total _ _⟩
    have htrans : IsTrans α fun a b => key a ≤ key b := ⟨fun a b c => le_trans⟩
    have hle := (hascending.imp le_of_lt).orderedInsert x xs
    have hnodup : ((xs.orderedInsert (fun a b => key a ≤ key b) x).map key).Nodup := by
      rw [(hperm.map key).nodup_iff, List.map_cons, List.nodup_cons]
      exact ⟨h, hascending.nodup⟩
    exact (hle.and (List.pairwise_map.mp hnodup)).imp fun hab => lt_of_le_of_ne hab.1 hab.2

end RadProt.Lib
