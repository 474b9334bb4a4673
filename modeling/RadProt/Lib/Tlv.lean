import RadProt.Lib.Copy

namespace RadProt.Lib.Tlv

/-! Lists of tagged values in memory: a tag, a byte with the length of the value, the value. -/

structure Entry where
  tag : UInt8
  value : List UInt8
  deriving DecidableEq

def Entry.bytes (e : Entry) : List UInt8 := e.tag :: UInt8.ofNat e.value.length :: e.value

def encode (es : List Entry) : List UInt8 := es.flatMap Entry.bytes

def decodeValue : List UInt8 → Option (List UInt8 × List UInt8)
  | [] => none
  | n :: rest =>
    if n.toNat ≤ rest.length then some (rest.take n.toNat, rest.drop n.toNat) else none

/-- The entries up to the tag `stop`; a tag `pad` stands alone. -/
def decode (pad stop : UInt8) : (fuel : Nat) → List UInt8 → Option (List Entry)
  | 0, _ => none
  | _ + 1, [] => none
  | fuel + 1, tag :: rest =>
    if tag = stop then some []
    else if tag = pad then decode pad stop fuel rest
    else
      (decodeValue rest).bind fun v =>
        (decode pad stop fuel v.2).map ({ tag, value := v.1 } :: ·)

/-- The offset of the first entry with `tag`, looked for from `i` on in `size` bytes, and before an
entry with the tag `stop`. -/
def find (m : Nat → UInt8) (size : Nat) (stop tag : UInt8) : (fuel i : Nat) → Option Nat
  | 0, _ => none
  | fuel + 1, i =>
    if i < size ∧ m i ≠ stop then
      if m i = tag then some i else find m size stop tag fuel (i + 2 + (m (i + 1)).toNat)
    else none

def offset (es : List Entry) (tag : UInt8) : Nat := (encode (es.takeWhile (·.tag ≠ tag))).length

def Entry.WellFormed (pad stop : UInt8) (e : Entry) : Prop :=
  e.tag ≠ pad ∧ e.tag ≠ stop ∧ e.value.length < 256

instance (pad stop : UInt8) (e : Entry) : Decidable (e.WellFormed pad stop) :=
  inferInstanceAs (Decidable (_ ∧ _ ∧ _))

@[simp] theorem encode_nil : encode [] = [] := rfl

@[simp] theorem encode_cons (e : Entry) (es : List Entry) : encode (e :: es) = e.bytes ++ encode es :=
  List.flatMap_cons

@[simp] theorem encode_append (es fs : List Entry) : encode (es ++ fs) = encode es ++ encode fs :=
  List.flatMap_append

@[simp] theorem Entry.length_bytes (e : Entry) : e.bytes.length = e.value.length + 2 := rfl

section Decode

variable {pad stop : UInt8} {es : List Entry}

theorem decodeValue_append {value : List UInt8} (h : value.length < 256) (rest : List UInt8) :
    decodeValue (UInt8.ofNat value.length :: (value ++ rest)) = some (value, rest) := by
  have hn : (UInt8.ofNat value.length).toNat = value.length := by
    rw [UInt8.toNat_ofNat', Nat.mod_eq_of_lt h]
  have hle : value.length ≤ (value ++ rest).length := by
    rw [List.length_append]
    exact Nat.le_add_right _ _
  rw [decodeValue, hn, if_pos hle, List.take_left, List.drop_left]

theorem decode_encode (hes : ∀ e ∈ es, e.WellFormed pad stop) (rest : List UInt8) {fuel : Nat}
    (hfuel : es.length < fuel) : decode pad stop fuel (encode es ++ stop :: rest) = some es := by
  induction es generalizing fuel with
  | nil =>
    obtain ⟨fuel, rfl⟩ := Nat.exists_eq_succ_of_ne_zero (Nat.ne_of_gt hfuel)
    rw [encode_nil, List.nil_append, decode, if_pos rfl]
  | cons e es ih =>
    obtain ⟨fuel, rfl⟩ := Nat.exists_eq_succ_of_ne_zero (Nat.ne_of_gt (Nat.zero_lt_of_lt hfuel))
    obtain ⟨hpad, hstop, hlength⟩ := hes e List.mem_cons_self
    have hrest := ih (fun f hf => hes f (List.mem_cons_of_mem _ hf)) (Nat.succ_lt_succ_iff.mp hfuel)
    rw [encode_cons, List.append_assoc, Entry.bytes, List.cons_append, List.cons_append, decode,
      if_neg hstop, if_neg hpad, decodeValue_append hlength, Option.bind_some, hrest,
      Option.map_some]

end Decode

section Find

open Access

variable {m : Nat → UInt8} {size i : Nat} {stop tag : UInt8} {es : List Entry}

theorem offset_cons_of_eq {e : Entry} (h : e.tag = tag) : offset (e :: es) tag = 0 := by
  rw [offset, List.takeWhile_cons_of_neg (by simpa using h)]
  rfl

theorem offset_cons_of_ne {e : Entry} (h : e.tag ≠ tag) :
    offset (e :: es) tag = e.bytes.length + offset es tag := by
  rw [offset, List.takeWhile_cons_of_pos (by simpa using h), encode_cons, List.length_append]
  rfl

theorem holds_entry {e : Entry} {rest : List UInt8} (h : Holds m i (encode (e :: es) ++ rest)) :
    m i = e.tag ∧ m (i + 1) = UInt8.ofNat e.value.length ∧
      Holds m (i + e.bytes.length) (encode es ++ rest) := by
  rw [encode_cons, List.append_assoc, holds_append_iff] at h
  exact ⟨h.1 0 (by simp), h.1 1 (by simp), h.2⟩

theorem find_encode (h : Holds m i (encode es ++ [stop]))
    (hes : ∀ e ∈ es, e.tag ≠ stop ∧ e.value.length < 256) (hsize : i + (encode es).length ≤ size)
    {fuel : Nat} (hfuel : es.length < fuel) :
    find m size stop tag fuel i =
      if ∃ e ∈ es, e.tag = tag then some (i + offset es tag) else none := by
  induction es generalizing i fuel with
  | nil =>
    obtain ⟨fuel, rfl⟩ := Nat.exists_eq_succ_of_ne_zero (Nat.ne_of_gt hfuel)
    have hstop : m i = stop := h 0 (by simp)
    rw [find, if_neg (fun hi => hi.2 hstop), if_neg (by simp)]
  | cons e es ih =>
    obtain ⟨fuel, rfl⟩ := Nat.exists_eq_succ_of_ne_zero (Nat.ne_of_gt (Nat.zero_lt_of_lt hfuel))
    obtain ⟨htag, hlength, hrest⟩ := holds_entry h
    obtain ⟨hstop, hlt⟩ := hes e List.mem_cons_self
    rw [encode_cons, List.length_append, Entry.length_bytes] at hsize
    have hi : i < size ∧ m i ≠ stop := ⟨by omega, htag ▸ hstop⟩
    rw [find, if_pos hi, htag, hlength, UInt8.toNat_ofNat', Nat.mod_eq_of_lt hlt]
    by_cases he : e.tag = tag
    · rw [if_pos he, if_pos ⟨e, List.mem_cons_self, he⟩, offset_cons_of_eq he, Nat.add_zero]
    · rw [if_neg he, offset_cons_of_ne he, Entry.length_bytes, Nat.add_assoc i 2, Nat.add_comm 2]
      rw [Entry.length_bytes] at hrest
      rw [ih hrest (fun f hf => hes f (List.mem_cons_of_mem _ hf)) (by omega)
        (Nat.succ_lt_succ_iff.mp hfuel), Nat.add_assoc i]
      simp only [List.mem_cons, exists_eq_or_imp, he, false_or]

theorem holds_offset {rest : List UInt8} (h : Holds m i (encode es ++ rest)) {e : Entry}
    (he : es.find? (·.tag = tag) = some e) : Holds m (i + offset es tag) e.bytes := by
  induction es generalizing i with
  | nil => cases he
  | cons f es ih =>
    by_cases hf : f.tag = tag
    · rw [List.find?_cons_of_pos (by simpa using hf)] at he
      obtain rfl := Option.some.inj he
      rw [encode_cons, List.append_assoc, holds_append_iff] at h
      rw [offset_cons_of_eq hf]
      exact h.1
    · rw [List.find?_cons_of_neg (by simpa using hf)] at he
      rw [offset_cons_of_ne hf, ← Nat.add_assoc]
      exact ih (holds_entry h).2.2 he

end Find

end RadProt.Lib.Tlv
