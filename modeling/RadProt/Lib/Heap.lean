import Mathlib.Data.Finmap

namespace RadProt.Lib

universe u

def Heap (ι α : Type u) : Type u := Finmap fun _ : ι => List α

namespace Heap

variable {ι α : Type u}

inductive Fault (ι : Type u)
  | read (block : ι) (offset : Nat)
  | write (block : ι) (offset : Nat)
  | free (block : ι)
  deriving DecidableEq

def empty : Heap ι α := (∅ : Finmap fun _ : ι => List α)

variable [DecidableEq ι]

def block (h : Heap ι α) (b : ι) : Option (List α) := Finmap.lookup b h

def set (h : Heap ι α) (b : ι) (s : List α) : Heap ι α := Finmap.insert b s h

def erase (h : Heap ι α) (b : ι) : Heap ι α := Finmap.erase b h

section Blocks

variable {h : Heap ι α} {b c : ι} {s : List α}

@[simp] theorem block_empty : (empty : Heap ι α).block b = none := Finmap.lookup_empty b

@[simp] theorem block_set (h : Heap ι α) (b : ι) (s : List α) : (h.set b s).block b = some s :=
  Finmap.lookup_insert h

theorem block_set_of_ne (hne : c ≠ b) : (h.set b s).block c = h.block c :=
  Finmap.lookup_insert_of_ne h hne

@[simp] theorem set_set (h : Heap ι α) (b : ι) (s t : List α) :
    (h.set b s).set b t = h.set b t := Finmap.insert_insert h

@[simp] theorem block_erase (h : Heap ι α) (b : ι) : (h.erase b).block b = none :=
  Finmap.lookup_erase b h

theorem block_erase_of_ne (hne : c ≠ b) : (h.erase b).block c = h.block c :=
  Finmap.lookup_erase_ne hne

theorem set_eq_self (hs : h.block b = some s) : h.set b s = h := by
  apply Finmap.ext_lookup
  intro c
  by_cases hc : c = b
  · rw [hc]
    exact (block_set h b s).trans hs.symm
  · exact block_set_of_ne hc

end Blocks

/-! Checked accesses. -/

def load (h : Heap ι α) (b : ι) (i : Nat) : Except (Fault ι) α :=
  match (h.block b).bind (·[i]?) with
  | some x => .ok x
  | none => .error (.read b i)

def store (h : Heap ι α) (b : ι) (i : Nat) (x : α) : Except (Fault ι) (Heap ι α) :=
  match h.block b with
  | some s => if i < s.length then .ok (h.set b (s.set i x)) else .error (.write b i)
  | none => .error (.write b i)

def free (h : Heap ι α) (b : ι) : Except (Fault ι) (Heap ι α) :=
  match h.block b with
  | some _ => .ok (h.erase b)
  | none => .error (.free b)

/-- `n` elements of the block `src` to the same places of the block `dst`, from `i` on. -/
def copyFrom (dst src : ι) (i : Nat) : Nat → Heap ι α → Except (Fault ι) (Heap ι α)
  | 0, h => .ok h
  | n + 1, h => do
    let x ← h.load src i
    let h ← h.store dst i x
    copyFrom dst src (i + 1) n h

def copy (dst src : ι) (n : Nat) (h : Heap ι α) : Except (Fault ι) (Heap ι α) :=
  copyFrom dst src 0 n h

section Copy

variable {h : Heap ι α} {dst src : ι} {s t : List α} {i n : Nat}

theorem load_eq_ok (hs : h.block src = some s) (hi : i < s.length) :
    h.load src i = .ok (s.get ⟨i, hi⟩) := by
  rw [load, hs, Option.bind_some, List.getElem?_eq_getElem hi]
  rfl

theorem load_eq_error (hs : h.block src = some s) (hi : s.length ≤ i) :
    h.load src i = .error (.read src i) := by
  rw [load, hs, Option.bind_some, List.getElem?_eq_none hi]

theorem store_eq_ok (ht : h.block dst = some t) (hi : i < t.length) (x : α) :
    h.store dst i x = .ok (h.set dst (t.set i x)) := by
  rw [store, ht]
  exact if_pos hi

theorem free_eq_ok (hs : h.block src = some s) : h.free src = .ok (h.erase src) := by
  rw [free, hs]

theorem copyFrom_succ (hs : h.block src = some s) (ht : h.block dst = some t)
    (hi : i < s.length) (hi' : i < t.length) :
    copyFrom dst src i (n + 1) h =
      copyFrom dst src (i + 1) n (h.set dst (t.set i (s.get ⟨i, hi⟩))) := by
  rw [copyFrom, load_eq_ok hs hi]
  change (h.store dst i _).bind _ = _
  rw [store_eq_ok ht hi']
  rfl

theorem copyFrom_eq_ok (hne : src ≠ dst) (hs : h.block src = some s) (ht : h.block dst = some t)
    (hi : i + n ≤ s.length) (hi' : i + n ≤ t.length) :
    copyFrom dst src i n h =
      .ok (h.set dst (t.take i ++ (s.drop i).take n ++ t.drop (i + n))) := by
  induction n generalizing h t i with
  | zero =>
    have hkeep : t.take i ++ (s.drop i).take 0 ++ t.drop (i + 0) = t := by simp
    rw [hkeep, set_eq_self ht]
    rfl
  | succ n ih =>
    have his : i < s.length := by omega
    have hit : i < t.length := by omega
    have hlen : i + 1 + n ≤ (t.set i (s.get ⟨i, his⟩)).length := by
      rw [List.length_set]
      omega
    rw [copyFrom_succ hs ht his hit,
      ih ((block_set_of_ne hne).trans hs) (block_set ..) (by omega) hlen, set_set]
    have hfront : (t.set i (s.get ⟨i, his⟩)).take (i + 1) = t.take i ++ [s.get ⟨i, his⟩] := by
      rw [List.take_succ_eq_append_getElem (by simpa using hit), List.take_set_of_le le_rfl]
      simp
    have hback : (t.set i (s.get ⟨i, his⟩)).drop (i + 1 + n) = t.drop (i + (n + 1)) := by
      rw [List.drop_set_of_lt (by omega)]
      congr 1
      omega
    have hmid : (s.drop i).take (n + 1) = s.get ⟨i, his⟩ :: (s.drop (i + 1)).take n := by
      rw [List.drop_eq_getElem_cons his, List.take_succ_cons]
      rfl
    rw [hfront, hback, hmid]
    simp

theorem copyFrom_eq_error (hne : src ≠ dst) (hs : h.block src = some s)
    (ht : h.block dst = some t) (hle : i ≤ s.length) (hi : s.length < i + n)
    (hi' : i + n ≤ t.length) : copyFrom dst src i n h = .error (.read src s.length) := by
  induction n generalizing h t i with
  | zero => omega
  | succ n ih =>
    by_cases hlast : i = s.length
    · subst hlast
      rw [copyFrom, load_eq_error hs le_rfl]
      rfl
    · have his : i < s.length := by omega
      rw [copyFrom_succ hs ht his (by omega)]
      apply ih ((block_set_of_ne hne).trans hs) (block_set ..) (by omega) (by omega)
      rw [List.length_set]
      omega

theorem copy_eq_ok (hne : src ≠ dst) (hs : h.block src = some s) (ht : h.block dst = some t)
    (hn : n ≤ s.length) (hn' : n ≤ t.length) :
    copy dst src n h = .ok (h.set dst (s.take n ++ t.drop n)) := by
  rw [copy, copyFrom_eq_ok hne hs ht (by omega) (by omega)]
  simp

theorem copy_eq_error (hne : src ≠ dst) (hs : h.block src = some s) (ht : h.block dst = some t)
    (hn : s.length < n) (hn' : n ≤ t.length) :
    copy dst src n h = .error (.read src s.length) :=
  copyFrom_eq_error hne hs ht (Nat.zero_le _) (by omega) (by omega)

end Copy

end Heap

end RadProt.Lib
