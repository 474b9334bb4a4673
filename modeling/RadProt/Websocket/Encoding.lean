import RadProt.Lib.Copy
import RadProt.Websocket.Digest

namespace RadProt.Websocket

open RadProt.Lib Access

/-! `base64_encode` on the bytes in memory, and what can be read back from them. -/

namespace InMemory

/-- The loop of `base64_encode`, from the indices `i` and `o` on; it ends with those behind it. They
do not wrap, as `in` and `out` lie in one address space. -/
def base64Groups (src len dest i o : Nat) : Access (Nat × Nat) :=
  if i + 2 < len then do
    store (dest + o) (b64At ((← load (src + i)) >>> 2))
    store (dest + (o + 1))
      (b64At ((((← load (src + i)) &&& 0x3) <<< 4) ||| ((← load (src + (i + 1))) >>> 4)))
    store (dest + (o + 2))
      (b64At ((((← load (src + (i + 1))) &&& 0xF) <<< 2) ||| ((← load (src + (i + 2))) >>> 6)))
    store (dest + (o + 3)) (b64At ((← load (src + (i + 2))) &&& 0x3F))
    base64Groups src len dest (i + 3) (o + 4)
  else return (i, o)
termination_by len - i

def base64Tail (src len dest i o : Nat) : Access Nat :=
  if i < len then do
    store (dest + o) (b64At ((← load (src + i)) >>> 2))
    if i + 1 < len then
      store (dest + (o + 1))
        (b64At ((((← load (src + i)) &&& 0x3) <<< 4) ||| ((← load (src + (i + 1))) >>> 4)))
      store (dest + (o + 2)) (b64At (((← load (src + (i + 1))) &&& 0xF) <<< 2))
    else
      store (dest + (o + 1)) (b64At (((← load (src + i)) &&& 0x3) <<< 4))
      store (dest + (o + 2)) 61
    store (dest + (o + 3)) 61
    return o + 4
  else return o

def base64Encode (src len dest : Nat) : Access Unit := do
  let (i, o) ← base64Groups src len dest 0 0
  let o ← base64Tail src len dest i o
  store (dest + o) 0

end InMemory

def InOrOut (src dest : Nat) (s : List UInt8) (a : Nat) : Prop :=
  Span src s.length a ∨ Span dest (4 * ((s.length + 2) / 3) + 1) a

structure Apart (m : Nat → UInt8) (src dest : Nat) (s : List UInt8) : Prop where
  input : Holds m src s
  apart : src + s.length ≤ dest ∨ dest + (4 * ((s.length + 2) / 3) + 1) ≤ src

structure Encoded (s before rest text : List UInt8) : Prop where
  input : s = before ++ rest
  output : text ++ base64Encode rest = base64Encode s

section Memory

variable {m : Nat → UInt8} {src dest : Nat} {s before rest text : List UInt8} {x y z c : UInt8}

theorem length_base64Encode (s : List UInt8) :
    (base64Encode s).length = 4 * ((s.length + 2) / 3) := by
  rw [base64Encode_eq, Base64.length_encode]

theorem Encoded.length_le (h : Encoded s before rest text) :
    text.length + 4 * ((rest.length + 2) / 3) = 4 * ((s.length + 2) / 3) := by
  rw [← length_base64Encode, ← length_base64Encode, ← h.output, List.length_append]

theorem Encoded.getElem? (h : Encoded s before rest text) (k : Nat) :
    s[before.length + k]? = rest[k]? := by
  rw [h.input, List.getElem?_append_right (Nat.le_add_right _ _), Nat.add_sub_cancel_left]

theorem Encoded.group (h : Encoded s before (x :: y :: z :: rest) text) :
    Encoded s (before ++ [x, y, z]) rest (text ++ [b64At (x >>> 2)] ++
      [b64At (((x &&& 0x3) <<< 4) ||| (y >>> 4))] ++ [b64At (((y &&& 0xF) <<< 2) ||| (z >>> 6))] ++
      [b64At (z &&& 0x3F)]) where
  input := by
    rw [h.input, List.append_assoc]
    rfl
  output := by
    rw [← h.output, base64Encode]
    simp only [List.append_assoc, List.cons_append, List.nil_append]

theorem leaves_put {o : Nat} (ho : o = text.length) (hroom : o < 4 * ((s.length + 2) / 3) + 1) :
    Leaves (InOrOut src dest s) (overwrite m dest text) (store (dest + o) c) ()
      (overwrite m dest (text ++ [c])) := by
  subst ho
  rw [← overwrite_append]
  exact .store (.inr ⟨Nat.le_add_right _ _, Nat.add_lt_add_left hroom _⟩)

theorem Apart.leaves_get (h : Apart m src dest s) {i : Nat} (hi : s[i]? = some x)
    (hroom : text.length ≤ 4 * ((s.length + 2) / 3) + 1) :
    Leaves (InOrOut src dest s) (overwrite m dest text) (load (src + i)) x
      (overwrite m dest text) := by
  obtain ⟨hlt, hget⟩ := List.getElem?_eq_some_iff.mp hi
  have hholds : Holds (overwrite m dest text) src s :=
    h.input.overwrite (h.apart.imp id fun hle => (Nat.add_le_add_left hroom dest).trans hle)
  have hx : overwrite m dest text (src + i) = x := (hholds i hlt).trans hget
  exact hx ▸ (Reads.load (.inl ⟨Nat.le_add_right _ _, Nat.add_lt_add_left hlt _⟩)).leaves

theorem base64Groups_few {P : Nat → Prop} (hs : Encoded s before rest text)
    (hrest : rest.length < 3) :
    Leaves P m (InMemory.base64Groups src s.length dest before.length text.length)
      (before.length, text.length) m := by
  have hlength : s.length = before.length + rest.length := by rw [hs.input, List.length_append]
  rw [InMemory.base64Groups, if_neg (by omega)]
  exact .pure _

theorem base64Groups_leaves (h : Apart m src dest s) (hs : Encoded s before rest text) :
    ∃ before' rest' text', Encoded s before' rest' text' ∧ rest'.length < 3 ∧
      Leaves (InOrOut src dest s) (overwrite m dest text)
        (InMemory.base64Groups src s.length dest before.length text.length)
        (before'.length, text'.length) (overwrite m dest text') := by
  induction rest using base64Encode.induct generalizing before text with
  | case1 x y z rest ih =>
    have hroom := hs.length_le
    have hlength : s.length = before.length + (rest.length + 3) := by
      rw [hs.input, List.length_append]
      rfl
    have hx := hs.getElem? 0
    have hy := hs.getElem? 1
    have hz := hs.getElem? 2
    obtain ⟨before', rest', text', hs', hrest, hleaves⟩ := ih hs.group
    refine ⟨before', rest', text', hs', hrest, ?_⟩
    rw [List.length_cons, List.length_cons, List.length_cons] at hroom
    simp only [List.length_append, List.length_cons, List.length_nil] at hleaves
    have hone (t : List UInt8) (c : UInt8) : (t ++ [c]).length = t.length + 1 := List.length_append
    rw [InMemory.base64Groups, if_pos (by omega)]
    refine (h.leaves_get hx (by omega)).bind ((leaves_put rfl (by omega)).bind ?_)
    have h1 := hone text (b64At (x >>> 2))
    refine (h.leaves_get hx (by omega)).bind ((h.leaves_get hy (by omega)).bind
      ((leaves_put h1.symm (by omega)).bind ?_))
    have h2 := hone (text ++ [b64At (x >>> 2)]) (b64At (((x &&& 0x3) <<< 4) ||| (y >>> 4)))
    refine (h.leaves_get hy (by omega)).bind ((h.leaves_get hz (by omega)).bind
      ((leaves_put (by omega) (by omega)).bind ?_))
    have h3 := hone (text ++ [b64At (x >>> 2)] ++ [b64At (((x &&& 0x3) <<< 4) ||| (y >>> 4))])
      (b64At (((y &&& 0xF) <<< 2) ||| (z >>> 6)))
    exact (h.leaves_get hz (by omega)).bind ((leaves_put (by omega) (by omega)).bind hleaves)
  | case2 x y => exact ⟨before, [x, y], text, hs, by simp, base64Groups_few hs (by simp)⟩
  | case3 x => exact ⟨before, [x], text, hs, by simp, base64Groups_few hs (by simp)⟩
  | case4 => exact ⟨before, [], text, hs, by simp, base64Groups_few hs (by simp)⟩

theorem base64Tail_leaves (h : Apart m src dest s) (hs : Encoded s before rest text)
    (hrest : rest.length < 3) :
    Leaves (InOrOut src dest s) (overwrite m dest text)
      (InMemory.base64Tail src s.length dest before.length text.length)
      (base64Encode s).length (overwrite m dest (base64Encode s)) := by
  have hroom := hs.length_le
  have hlength : s.length = before.length + rest.length := by rw [hs.input, List.length_append]
  have hone (t : List UInt8) (c : UInt8) : (t ++ [c]).length = t.length + 1 := List.length_append
  rw [InMemory.base64Tail, length_base64Encode, ← hs.output]
  cases rest with
  | nil =>
    rw [List.length_nil] at hroom hlength
    have htotal : 4 * ((s.length + 2) / 3) = text.length := by omega
    rw [if_neg (by omega), htotal, base64Encode, List.append_nil]
    exact .pure _
  | cons x rest =>
    have hx := hs.getElem? 0
    have h1 := hone text (b64At (x >>> 2))
    cases rest with
    | nil =>
      rw [List.length_singleton] at hroom hlength
      have htotal : 4 * ((s.length + 2) / 3) = text.length + 4 := by omega
      have h2 := hone (text ++ [b64At (x >>> 2)]) (b64At ((x &&& 0x3) <<< 4))
      have h3 := hone (text ++ [b64At (x >>> 2)] ++ [b64At ((x &&& 0x3) <<< 4)]) 61
      rw [if_pos (by omega), htotal, base64Encode]
      refine (h.leaves_get hx (by omega)).bind ((leaves_put rfl (by omega)).bind ?_)
      rw [if_neg (by omega)]
      refine (h.leaves_get hx (by omega)).bind ((leaves_put h1.symm (by omega)).bind ?_)
      refine (leaves_put (by omega) (by omega)).bind ((leaves_put (by omega) (by omega)).bind ?_)
      simp only [List.append_assoc, List.cons_append, List.nil_append]
      exact .pure _
    | cons y rest =>
      obtain rfl : rest = [] := List.eq_nil_of_length_eq_zero (by
        rw [List.length_cons, List.length_cons] at hrest
        omega)
      have hy := hs.getElem? 1
      rw [List.length_cons, List.length_singleton] at hroom hlength
      have htotal : 4 * ((s.length + 2) / 3) = text.length + 4 := by omega
      have h2 := hone (text ++ [b64At (x >>> 2)]) (b64At (((x &&& 0x3) <<< 4) ||| (y >>> 4)))
      have h3 := hone (text ++ [b64At (x >>> 2)] ++ [b64At (((x &&& 0x3) <<< 4) ||| (y >>> 4))])
        (b64At ((y &&& 0xF) <<< 2))
      rw [if_pos (by omega), htotal, base64Encode]
      refine (h.leaves_get hx (by omega)).bind ((leaves_put rfl (by omega)).bind ?_)
      rw [if_pos (by omega)]
      refine (h.leaves_get hx (by omega)).bind ((h.leaves_get hy (by omega)).bind
        ((leaves_put h1.symm (by omega)).bind ?_))
      refine (h.leaves_get hy (by omega)).bind ((leaves_put (by omega) (by omega)).bind
        ((leaves_put (by omega) (by omega)).bind ?_))
      simp only [List.append_assoc, List.cons_append, List.nil_append]
      exact .pure _

theorem base64Encode_leaves (h : Apart m src dest s) :
    Leaves (InOrOut src dest s) m (InMemory.base64Encode src s.length dest) ()
      (overwrite m dest (base64Encode s ++ [0])) := by
  have hstart : Encoded s [] s [] := ⟨rfl, rfl⟩
  obtain ⟨before, rest, text, hs, hrest, hgroups⟩ := base64Groups_leaves h hstart
  rw [overwrite_nil] at hgroups
  have hlast : (base64Encode s).length < 4 * ((s.length + 2) / 3) + 1 := by
    rw [length_base64Encode]
    exact Nat.lt_succ_self _
  exact hgroups.bind ((base64Tail_leaves h hs hrest).bind (leaves_put rfl hlast))

theorem base64Encode_injective : Function.Injective base64Encode := by
  intro s t h
  rw [base64Encode_eq, base64Encode_eq] at h
  exact Option.some.inj ((Base64.decode_encode s).symm.trans (h ▸ Base64.decode_encode t))

/-- What `base64_encode` leaves is the text and its NUL; the text has the form it should have, and
is decoded to the input. -/
theorem base64Encode_decodes (h : Apart m src dest s) :
    Leaves (InOrOut src dest s) m (InMemory.base64Encode src s.length dest) ()
        (overwrite m dest (base64Encode s ++ [0])) ∧
      (base64Encode s).length = 4 * ((s.length + 2) / 3) ∧
      (∃ chars : List Nat, (∀ n ∈ chars, n < 64) ∧
        base64Encode s = chars.map Base64.char ++ .replicate ((3 - s.length % 3) % 3) 61) ∧
      Base64.decode (base64Encode s) = some s ∧
      ∀ t, base64Encode t = base64Encode s → t = s := by
  refine ⟨base64Encode_leaves h, length_base64Encode s, ?_, ?_, fun t ht => ?_⟩
  · rw [base64Encode_eq]
    exact Base64.exists_encode s
  · rw [base64Encode_eq]
    exact Base64.decode_encode s
  · exact base64Encode_injective ht

theorem four_bytes_decode :
    Leaves (InOrOut 100 104 [0, 1, 254, 255])
        (overwrite (fun _ => 7) 100 [0, 1, 254, 255])
        (InMemory.base64Encode 100 4 104) ()
        (overwrite (overwrite (fun _ => 7) 100 [0, 1, 254, 255]) 104
          (base64Encode [0, 1, 254, 255] ++ [0])) ∧
      (base64Encode [0, 1, 254, 255]).length = 4 * ((4 + 2) / 3) ∧
      (∃ chars : List Nat, (∀ n ∈ chars, n < 64) ∧
        base64Encode [0, 1, 254, 255] = chars.map Base64.char ++ .replicate ((3 - 4 % 3) % 3) 61) ∧
      Base64.decode (base64Encode [0, 1, 254, 255]) = some [0, 1, 254, 255] ∧
      ∀ t, base64Encode t = base64Encode [0, 1, 254, 255] → t = [0, 1, 254, 255] :=
  base64Encode_decodes ⟨holds_overwrite _ 100 [0, 1, 254, 255], .inl le_rfl⟩

end Memory

end RadProt.Websocket
