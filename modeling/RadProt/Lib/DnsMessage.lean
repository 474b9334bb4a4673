import Mathlib.Algebra.GroupWithZero.Nat
import Mathlib.Data.List.Basic

namespace RadProt.Lib.DnsMessage

/-! Messages of the domain name system: a header, questions, and resource records, whose names may
end with a pointer to a name that stands before. -/

structure Cursor where
  rest : List UInt8
  offset : Nat
  /-- The names that have occurred, by where they stand. -/
  names : List (Nat × List (List UInt8))

abbrev Parser := StateT Cursor Option

def start (bytes : List UInt8) : Cursor where
  rest := bytes
  offset := 0
  names := []

def take (n : Nat) : Parser (List UInt8) := fun c =>
  if n ≤ c.rest.length then
    some (c.rest.take n, { c with rest := c.rest.drop n, offset := c.offset + n })
  else none

def ofBigEndian (bytes : List UInt8) : Nat := bytes.foldl (fun acc b => 256 * acc + b.toNat) 0

def number (n : Nat) : Parser Nat := do return ofBigEndian (← take n)

def offset : Parser Nat := fun c => some (c.offset, c)

def note (place : Nat) (labels : List (List UInt8)) : Parser Unit := fun c =>
  some ((), { c with names := (place, labels) :: c.names })

def known (place : Nat) : Parser (List (List UInt8)) := fun c =>
  (c.names.lookup place).map fun labels => (labels, c)

def reject {α : Type} : Parser α := fun _ => none

/-- The labels that are written out, and the pointer behind them with what it stands for. -/
structure Name where
  written : List (List UInt8)
  pointer : Option (Nat × List (List UInt8))
  deriving DecidableEq

def Name.labels (name : Name) : List (List UInt8) :=
  name.written ++ name.pointer.elim [] (·.2)

def Name.size (name : Name) : Nat := (name.labels.map fun label => label.length + 1).sum + 1

def pointer (n : Nat) : Parser Name := do
  let target := 256 * (n - 192) + (← number 1)
  return { written := [], pointer := some (target, ← known target) }

def label (n : Nat) (more : Parser Name) : Parser Name := do
  let label ← take n
  let name ← more
  return { name with written := label :: name.written }

def part (n : Nat) (more : Parser Name) : Parser Name :=
  if n = 0 then return { written := [], pointer := none }
  else if n < 64 then label n more
  else if 192 ≤ n then pointer n
  else reject

def labels : Nat → Parser Name
  | 0 => reject
  | fuel + 1 => do
    let place ← offset
    let name ← part (← number 1) (labels fuel)
    note place name.labels
    return name

/-- A name takes up at most 255 bytes, and so has less than 128 labels. -/
def name : Parser Name := do
  let name ← labels 128
  if name.size ≤ 255 then return name else reject

structure Question where
  name : Name
  type : Nat
  class' : Nat
  deriving DecidableEq

def question : Parser Question := do
  let name ← name
  let type ← number 2
  let class' ← number 2
  return { name, type, class' }

structure Record where
  name : Name
  type : Nat
  class' : Nat
  ttl : Nat
  data : List UInt8
  deriving DecidableEq

def record : Parser Record := do
  let name ← name
  let type ← number 2
  let class' ← number 2
  let ttl ← number 4
  let data ← take (← number 2)
  return { name, type, class', ttl, data }

structure Header where
  id : Nat
  flags : Nat
  qdCount : Nat
  anCount : Nat
  nsCount : Nat
  arCount : Nat
  deriving DecidableEq

def header : Parser Header := do
  let id ← number 2
  let flags ← number 2
  let qdCount ← number 2
  let anCount ← number 2
  let nsCount ← number 2
  let arCount ← number 2
  return { id, flags, qdCount, anCount, nsCount, arCount }

def times {α : Type} (p : Parser α) : Nat → Parser (List α)
  | 0 => return []
  | n + 1 => do
    let a ← p
    return a :: (← times p n)

structure Message where
  header : Header
  questions : List Question
  answers : List Record
  authority : List Record
  additional : List Record
  deriving DecidableEq

def message : Parser Message := do
  let header ← header
  let questions ← times question header.qdCount
  let answers ← times record header.anCount
  let authority ← times record header.nsCount
  let additional ← times record header.arCount
  return { header, questions, answers, authority, additional }

def parse (bytes : List UInt8) : Option Message := do
  let (m, c) ← message (start bytes)
  if c.rest = [] then some m else none

def encode (labels : List (List UInt8)) : List UInt8 :=
  labels.flatMap (fun label => .ofNat label.length :: label) ++ [0]

structure IsQuestion (q : Question) (bytes : List UInt8) : Prop where
  name_eq : q.name.pointer = none
  label_length : ∀ label ∈ q.name.written, label ≠ [] ∧ label.length < 64
  size_le : q.name.size ≤ 255
  bytes_eq : ∃ type class', bytes = encode q.name.written ++ (type ++ class') ∧
    type.length = 2 ∧ class'.length = 2 ∧ q.type = ofBigEndian type ∧
    q.class' = ofBigEndian class'

section Read

variable {α β : Type} {c c' : Cursor} {n : Nat} {s : List UInt8}

theorem bind_eq_some_iff {p : Parser α} {f : α → Parser β} {b : β} :
    (p >>= f) c = some (b, c') ↔ ∃ a c₁, p c = some (a, c₁) ∧ f a c₁ = some (b, c') := by
  have hbind : (p >>= f) c = (p c).bind fun x => f x.1 x.2 := rfl
  rw [hbind, Option.bind_eq_some_iff]
  exact ⟨fun ⟨x, hp, hf⟩ => ⟨x.1, x.2, hp, hf⟩, fun ⟨a, c₁, hp, hf⟩ => ⟨(a, c₁), hp, hf⟩⟩

theorem pure_eq_some_iff {a b : α} : (pure a : Parser α) c = some (b, c') ↔ a = b ∧ c = c' := by
  have hpure : (pure a : Parser α) c = some (a, c) := rfl
  rw [hpure, Option.some.injEq, Prod.mk.injEq]

theorem take_eq_some_iff :
    take n c = some (s, c') ↔
      s.length = n ∧ c.rest = s ++ c'.rest ∧ c'.offset = c.offset + n ∧ c'.names = c.names := by
  rw [take]
  constructor
  · intro h
    split at h
    next hle =>
      obtain ⟨rfl, rfl⟩ := Prod.mk.inj (Option.some.inj h)
      exact ⟨List.length_take_of_le hle, (List.take_append_drop n c.rest).symm, rfl, rfl⟩
    next => cases h
  · rintro ⟨rfl, hrest, hoffset, hnames⟩
    have hle : s.length ≤ c.rest.length := by
      rw [hrest, List.length_append]
      exact Nat.le_add_right _ _
    rw [if_pos hle, hrest, List.take_left, List.drop_left, ← hoffset, ← hnames]

theorem number_eq_some_iff {k : Nat} :
    number n c = some (k, c') ↔ ∃ s, take n c = some (s, c') ∧ ofBigEndian s = k := by
  rw [number, bind_eq_some_iff]
  constructor
  · rintro ⟨s, c₁, htake, hpure⟩
    obtain ⟨rfl, rfl⟩ := pure_eq_some_iff.mp hpure
    exact ⟨s, htake, rfl⟩
  · rintro ⟨s, htake, rfl⟩
    exact ⟨s, c', htake, rfl⟩

theorem number_one_eq_some_iff {k : Nat} :
    number 1 c = some (k, c') ↔
      ∃ b : UInt8, b.toNat = k ∧ c.rest = b :: c'.rest ∧ c'.offset = c.offset + 1 ∧
        c'.names = c.names := by
  rw [number_eq_some_iff]
  constructor
  · rintro ⟨s, htake, rfl⟩
    obtain ⟨hlength, hrest, hplace⟩ := take_eq_some_iff.mp htake
    obtain ⟨b, rfl⟩ := List.length_eq_one_iff.mp hlength
    exact ⟨b, (Nat.zero_add _).symm, hrest, hplace⟩
  · rintro ⟨b, rfl, hrest, hplace⟩
    exact ⟨[b], take_eq_some_iff.mpr ⟨rfl, hrest, hplace⟩, Nat.zero_add _⟩

end Read

section Names

variable {c c' : Cursor} {fuel : Nat} {written : Name} {ls : List (List UInt8)} {t : List UInt8}

inductive Step (fuel : Nat) (c : Cursor) : Name → Cursor → Prop
  | root {c' : Cursor} (hrest : c.rest = 0 :: c'.rest) (hnames : c'.names = c.names) :
      Step fuel c { written := [], pointer := none } c'
  | label {label : List UInt8} {tail : Name} {c₁ c' : Cursor} (hpos : label ≠ [])
      (hlt : label.length < 64)
      (hrest : c.rest = .ofNat label.length :: (label ++ c₁.rest)) (hnames : c₁.names = c.names)
      (htail : labels fuel c₁ = some (tail, c')) :
      Step fuel c { tail with written := label :: tail.written } c'
  | pointer {high low : UInt8} {target : Nat} {ls : List (List UInt8)} {c' : Cursor}
      (hrest : c.rest = high :: low :: c'.rest)
      (hnames : c'.names = c.names) (hknown : c.names.lookup target = some ls) :
      Step fuel c { written := [], pointer := some (target, ls) } c'

theorem labels_cases (h : labels (fuel + 1) c = some (written, c')) :
    ∃ c₁, Step fuel c written c₁ ∧
      c' = { c₁ with names := (c.offset, written.labels) :: c₁.names } := by
  simp only [labels, bind_eq_some_iff] at h
  obtain ⟨place, c₀, hoffset, n, c₁, hn, name', c₂, hpart, u, c₃, hnote, hpure⟩ := h
  obtain ⟨rfl, rfl⟩ := Prod.mk.inj (Option.some.inj hoffset)
  obtain ⟨rfl, rfl⟩ := pure_eq_some_iff.mp hpure
  obtain ⟨-, rfl⟩ := Prod.mk.inj (Option.some.inj hnote)
  obtain ⟨b, rfl, hrest, -, hnames⟩ := number_one_eq_some_iff.mp hn
  refine ⟨c₂, ?_, rfl⟩
  rw [part] at hpart
  split at hpart
  next hzero =>
    obtain ⟨rfl, rfl⟩ := pure_eq_some_iff.mp hpart
    have hb : b = 0 := UInt8.toNat_inj.mp hzero
    exact .root (hb ▸ hrest) hnames
  next hpos =>
    split at hpart
    next hlt =>
      simp only [label, bind_eq_some_iff] at hpart
      obtain ⟨label, c₃, htake, tail, c₄, htail, hpure⟩ := hpart
      obtain ⟨rfl, rfl⟩ := pure_eq_some_iff.mp hpure
      obtain ⟨hlength, hrest', -, hnames'⟩ := take_eq_some_iff.mp htake
      have hb : UInt8.ofNat label.length = b := by rw [hlength, UInt8.ofNat_toNat]
      refine .label ?_ (hlength ▸ hlt) ?_ (hnames'.trans hnames) htail
      · rintro rfl
        exact hpos hlength.symm
      · rw [hrest, hrest', hb]
    next =>
      split at hpart
      next =>
        simp only [pointer, bind_eq_some_iff] at hpart
        obtain ⟨k, c₃, hlow, ls, c₄, hknown, hpure⟩ := hpart
        obtain ⟨rfl, rfl⟩ := pure_eq_some_iff.mp hpure
        obtain ⟨low, rfl, hrest', -, hnames'⟩ := number_one_eq_some_iff.mp hlow
        obtain ⟨ls', hlookup, hls⟩ := Option.map_eq_some_iff.mp hknown
        obtain ⟨rfl, rfl⟩ := Prod.mk.inj hls
        refine .pointer (hrest.trans (congrArg _ hrest')) (hnames'.trans hnames) ?_
        rwa [hnames', hnames] at hlookup
      next => cases hpart

theorem encode_of_labels (h : labels fuel c = some (written, c')) (hnames : c.names = []) :
    written.pointer = none ∧
      (∀ label ∈ written.written, label ≠ [] ∧ label.length < 64) ∧
      c.rest = encode written.written ++ c'.rest := by
  induction fuel generalizing c c' written with
  | zero => cases h
  | succ fuel ih =>
    obtain ⟨c₁, hstep, rfl⟩ := labels_cases h
    cases hstep with
    | root hrest => exact ⟨rfl, fun label hlabel => absurd hlabel List.not_mem_nil, hrest⟩
    | label hpos hlt hrest hsame htail =>
      obtain ⟨hpointer, hlength, htail⟩ := ih htail (hsame.trans hnames)
      refine ⟨hpointer, List.forall_mem_cons.mpr ⟨⟨hpos, hlt⟩, hlength⟩, ?_⟩
      rw [hrest, htail]
      simp [encode]
    | pointer hrest hsame hknown =>
      rw [hnames] at hknown
      cases hknown

theorem length_of_pointer (h : labels fuel c = some (written, c')) (hwritten : written.written = [])
    (hpointer : written.pointer ≠ none) : c.rest.length = c'.rest.length + 2 := by
  cases fuel with
  | zero => cases h
  | succ fuel =>
    obtain ⟨c₁, hstep, rfl⟩ := labels_cases h
    cases hstep with
    | root => exact absurd rfl hpointer
    | label => cases hwritten
    | pointer hrest =>
      rw [hrest]
      rfl

theorem labels_of_part {n : Nat} {c₁ c₂ : Cursor} (hn : number 1 c = some (n, c₁))
    (hpart : part n (labels fuel) c₁ = some (written, c₂)) :
    labels (fuel + 1) c =
      some (written, { c₂ with names := (c.offset, written.labels) :: c₂.names }) := by
  simp only [labels, bind_eq_some_iff]
  exact ⟨c.offset, c, rfl, n, c₁, hn, written, c₂, hpart, (), _, rfl, rfl⟩

theorem labels_encode (hlength : ∀ label ∈ ls, label ≠ [] ∧ label.length < 64)
    (hfuel : ls.length < fuel) (hrest : c.rest = encode ls ++ t) :
    ∃ c', labels fuel c = some ({ written := ls, pointer := none }, c') ∧ c'.rest = t ∧
      c'.names.lookup c.offset = some ls := by
  have hfound (names : List (Nat × List (List UInt8))) :
      ((c.offset, ls) :: names).lookup c.offset = some ls := List.lookup_cons_self
  induction ls generalizing c fuel with
  | nil =>
    obtain ⟨fuel, rfl⟩ : ∃ k, fuel = k + 1 := ⟨fuel - 1, by omega⟩
    let c₁ : Cursor := { rest := t, offset := c.offset + 1, names := c.names }
    have hn : number 1 c = some (0, c₁) :=
      number_one_eq_some_iff.mpr ⟨0, rfl, hrest, rfl, rfl⟩
    exact ⟨_, @labels_of_part _ _ { written := [], pointer := none } _ _ _ hn rfl, rfl, hfound _⟩
  | cons label ls ih =>
    obtain ⟨⟨hpos, hlt⟩, hmore⟩ := List.forall_mem_cons.mp hlength
    obtain ⟨fuel, rfl⟩ : ∃ k, fuel = k + 1 := ⟨fuel - 1, by omega⟩
    let c₁ : Cursor :=
      { rest := label ++ (encode ls ++ t), offset := c.offset + 1, names := c.names }
    let c₂ : Cursor :=
      { rest := encode ls ++ t, offset := c.offset + 1 + label.length, names := c.names }
    have hsize : (UInt8.ofNat label.length).toNat = label.length := by
      rw [UInt8.toNat_ofNat']
      omega
    have hn : number 1 c = some (label.length, c₁) := by
      refine number_one_eq_some_iff.mpr ⟨.ofNat label.length, hsize, ?_, rfl, rfl⟩
      rw [hrest]
      simp [encode, c₁]
    have htake : take label.length c₁ = some (label, c₂) :=
      take_eq_some_iff.mpr ⟨rfl, rfl, rfl, rfl⟩
    obtain ⟨c', htail, hrest', -⟩ := ih hmore (c := c₂) (Nat.lt_of_succ_lt_succ hfuel) rfl
      fun names => List.lookup_cons_self
    have hpart : part label.length (labels fuel) c₁ =
        some ({ written := label :: ls, pointer := none }, c') := by
      have hzero : label.length ≠ 0 := fun h => hpos (List.eq_nil_of_length_eq_zero h)
      rw [part, if_neg hzero, if_pos hlt, DnsMessage.label, bind_eq_some_iff]
      refine ⟨label, c₂, htake, bind_eq_some_iff.mpr ⟨_, c', htail, rfl⟩⟩
    have hall : ({ written := label :: ls, pointer := none } : Name).labels = label :: ls :=
      List.append_nil _
    refine ⟨_, labels_of_part hn hpart, hrest', ?_⟩
    rw [hall]
    exact hfound _

end Names

section Sections

variable {c c' : Cursor} {n : Nat} {written : Name} {q : Question} {a : Record}
  {bytes t : List UInt8}

theorem name_eq_some_iff :
    name c = some (written, c') ↔ labels 128 c = some (written, c') ∧ written.size ≤ 255 := by
  rw [name, bind_eq_some_iff]
  constructor
  · rintro ⟨w, c₁, hlabels, hsize⟩
    split at hsize
    next hle =>
      obtain ⟨rfl, rfl⟩ := pure_eq_some_iff.mp hsize
      exact ⟨hlabels, hle⟩
    next => cases hsize
  · rintro ⟨hlabels, hle⟩
    exact ⟨written, c', hlabels, by rw [if_pos hle]; rfl⟩

theorem number_append {s : List UInt8} (hs : s.length = n) (hrest : c.rest = s ++ t) :
    number n c = some (ofBigEndian s, { c with rest := t, offset := c.offset + n }) :=
  number_eq_some_iff.mpr ⟨s, take_eq_some_iff.mpr ⟨hs, hrest, rfl, rfl⟩, rfl⟩

theorem isQuestion_of_question (h : question c = some (q, c')) (hnames : c.names = []) :
    ∃ bytes, c.rest = bytes ++ c'.rest ∧ IsQuestion q bytes := by
  simp only [question, bind_eq_some_iff] at h
  obtain ⟨w, c₁, hname, type, c₂, htype, class', c₃, hclass, hpure⟩ := h
  obtain ⟨rfl, rfl⟩ := pure_eq_some_iff.mp hpure
  obtain ⟨hlabels, hsize⟩ := name_eq_some_iff.mp hname
  obtain ⟨hpointer, hlength, hrest⟩ := encode_of_labels hlabels hnames
  obtain ⟨s, hs, rfl⟩ := number_eq_some_iff.mp htype
  obtain ⟨s', hs', rfl⟩ := number_eq_some_iff.mp hclass
  obtain ⟨htwo, hrest₁, -⟩ := take_eq_some_iff.mp hs
  obtain ⟨htwo', hrest₂, -⟩ := take_eq_some_iff.mp hs'
  refine ⟨encode w.written ++ (s ++ s'), ?_, hpointer, hlength, hsize, s, s', rfl, htwo, htwo',
    rfl, rfl⟩
  rw [hrest, hrest₁, hrest₂, List.append_assoc, List.append_assoc]

theorem length_lt_of_size (h : written.size ≤ 255)
    (hlength : ∀ label ∈ written.labels, label ≠ []) : written.labels.length < 128 := by
  have hsum : ∀ ls : List (List UInt8), (∀ label ∈ ls, label ≠ []) →
      2 * ls.length ≤ (ls.map fun label => label.length + 1).sum := by
    intro ls hls
    induction ls with
    | nil => exact Nat.zero_le _
    | cons label ls ih =>
      obtain ⟨hpos, hls⟩ := List.forall_mem_cons.mp hls
      have hlabel := List.length_pos_of_ne_nil hpos
      have hrest := ih hls
      rw [List.map_cons, List.sum_cons, List.length_cons]
      omega
  have htwice := hsum written.labels hlength
  rw [Name.size] at h
  omega

theorem question_of_isQuestion (h : IsQuestion q bytes) (hrest : c.rest = bytes ++ t) :
    ∃ c', question c = some (q, c') ∧ c'.rest = t ∧
      c'.names.lookup c.offset = some q.name.labels := by
  obtain ⟨⟨ls, pointer⟩, type, class'⟩ := q
  obtain ⟨rfl, hlength, hsize, s, s', rfl, htwo, htwo', rfl, rfl⟩ := h
  have hall : ({ written := ls, pointer := none } : Name).labels = ls := List.append_nil _
  have hfuel : ls.length < 128 := by
    have hlt := length_lt_of_size hsize (by rw [hall]; exact fun label hl => (hlength label hl).1)
    rwa [hall] at hlt
  rw [List.append_assoc] at hrest
  obtain ⟨c₁, hlabels, hrest₁, hlookup⟩ := labels_encode hlength hfuel hrest
  rw [List.append_assoc] at hrest₁
  refine ⟨{ c₁ with rest := t, offset := c₁.offset + 2 + 2 }, ?_, rfl, hall.symm ▸ hlookup⟩
  simp only [question, bind_eq_some_iff]
  exact ⟨_, c₁, name_eq_some_iff.mpr ⟨hlabels, hsize⟩, _, _, number_append htwo hrest₁, _, _,
    number_append htwo' rfl, rfl⟩

theorem length_of_record (h : record c = some (a, c')) (hwritten : a.name.written = [])
    (hpointer : a.name.pointer ≠ none) : c.rest.length = c'.rest.length + a.data.length + 12 := by
  simp only [record, bind_eq_some_iff] at h
  obtain ⟨w, c₁, hname, type, c₂, htype, class', c₃, hclass, ttl, c₄, httl, k, c₅, hk, data, c₆,
    hdata, hpure⟩ := h
  obtain ⟨rfl, rfl⟩ := pure_eq_some_iff.mp hpure
  have htwo := length_of_pointer (name_eq_some_iff.mp hname).1 hwritten hpointer
  have hnumber {n k : Nat} {c c' : Cursor} (h : number n c = some (k, c')) :
      c.rest.length = n + c'.rest.length := by
    obtain ⟨s, hs, -⟩ := number_eq_some_iff.mp h
    obtain ⟨hlength, hrest, -⟩ := take_eq_some_iff.mp hs
    rw [hrest, List.length_append, hlength]
  obtain ⟨hlength, hrest, -⟩ := take_eq_some_iff.mp hdata
  have hlast := congrArg List.length hrest
  rw [List.length_append] at hlast
  rw [htwo, hnumber htype, hnumber hclass, hnumber httl, hnumber hk, hlast]
  dsimp only
  omega

theorem name_of_pointer {high low : UInt8} {ls : List (List UInt8)} (hhigh : 192 ≤ high.toNat)
    (hrest : c.rest = high :: low :: t)
    (hknown : c.names.lookup (256 * (high.toNat - 192) + low.toNat) = some ls)
    (hsize : (ls.map fun label => label.length + 1).sum + 1 ≤ 255) :
    ∃ c', name c = some
      ({ written := [], pointer := some (256 * (high.toNat - 192) + low.toNat, ls) }, c') ∧
      c'.rest = t := by
  let c₁ : Cursor := { rest := low :: t, offset := c.offset + 1, names := c.names }
  let c₂ : Cursor := { rest := t, offset := c.offset + 1 + 1, names := c.names }
  have hn : number 1 c = some (high.toNat, c₁) :=
    number_one_eq_some_iff.mpr ⟨high, rfl, hrest, rfl, rfl⟩
  have hlow : number 1 c₁ = some (low.toNat, c₂) :=
    number_one_eq_some_iff.mpr ⟨low, rfl, rfl, rfl, rfl⟩
  have hlookup : known (256 * (high.toNat - 192) + low.toNat) c₂ = some (ls, c₂) :=
    Option.map_eq_some_iff.mpr ⟨ls, hknown, rfl⟩
  have hpart : part high.toNat (labels 127) c₁ = some
      ({ written := [], pointer := some (256 * (high.toNat - 192) + low.toNat, ls) }, c₂) := by
    rw [part, if_neg (by omega), if_neg (by omega), if_pos hhigh]
    simp only [pointer, bind_eq_some_iff]
    exact ⟨_, c₂, hlow, ls, c₂, hlookup, rfl⟩
  exact ⟨_, name_eq_some_iff.mpr ⟨labels_of_part hn hpart, hsize⟩, rfl⟩

theorem record_of_name (type class' ttl size data : List UInt8) {c₁ : Cursor}
    (hname : name c = some (written, c₁))
    (hrest : c₁.rest = type ++ (class' ++ (ttl ++ (size ++ (data ++ t)))))
    (htype : type.length = 2) (hclass : class'.length = 2) (httl : ttl.length = 4)
    (hsize : size.length = 2) (hdata : ofBigEndian size = data.length) :
    ∃ c', record c = some
      ({
        name := written
        type := ofBigEndian type
        class' := ofBigEndian class'
        ttl := ofBigEndian ttl
        data }, c') ∧ c'.rest = t := by
  let c₂ : Cursor := { c₁ with rest := data ++ t, offset := c₁.offset + 2 + 2 + 4 + 2 }
  have htake : take (ofBigEndian size) c₂ =
      some (data, { c₂ with rest := t, offset := c₂.offset + ofBigEndian size }) :=
    take_eq_some_iff.mpr ⟨hdata.symm, rfl, rfl, rfl⟩
  refine ⟨{ c₂ with rest := t, offset := c₂.offset + ofBigEndian size }, ?_, rfl⟩
  simp only [record, bind_eq_some_iff]
  exact ⟨_, c₁, hname, _, _, number_append htype hrest, _, _, number_append hclass rfl, _, _,
    number_append httl rfl, _, _, number_append hsize rfl, _, _, htake, rfl⟩

theorem header_of_bytes (id flags qd an ns ar : List UInt8) (hid : id.length = 2)
    (hflags : flags.length = 2) (hqd : qd.length = 2) (han : an.length = 2) (hns : ns.length = 2)
    (har : ar.length = 2)
    (hrest : c.rest = id ++ (flags ++ (qd ++ (an ++ (ns ++ (ar ++ t)))))) :
    header c = some
      ({
        id := ofBigEndian id
        flags := ofBigEndian flags
        qdCount := ofBigEndian qd
        anCount := ofBigEndian an
        nsCount := ofBigEndian ns
        arCount := ofBigEndian ar },
      { c with rest := t, offset := c.offset + 2 + 2 + 2 + 2 + 2 + 2 }) := by
  simp only [header, bind_eq_some_iff]
  exact ⟨_, _, number_append hid hrest, _, _, number_append hflags rfl, _, _,
    number_append hqd rfl, _, _, number_append han rfl, _, _, number_append hns rfl, _, _,
    number_append har rfl, rfl⟩

theorem message_eq_some_iff {h : Header} {c₁ : Cursor} {m : Message}
    (hheader : header c = some (h, c₁)) (hqd : h.qdCount = 1) (han : h.anCount = 1)
    (hns : h.nsCount = 0) (har : h.arCount = 0) :
    message c = some (m, c') ↔ ∃ q a c₂, question c₁ = some (q, c₂) ∧ record c₂ = some (a, c') ∧
      m = {
        header := h
        questions := [q]
        answers := [a]
        authority := []
        additional := [] } := by
  have hone {α : Type} {p : Parser α} {c c' : Cursor} {as : List α} :
      times p 1 c = some (as, c') ↔ ∃ a, p c = some (a, c') ∧ as = [a] := by
    simp only [times, bind_eq_some_iff, pure_eq_some_iff]
    constructor
    · rintro ⟨a, c₁, hp, _, _, ⟨rfl, rfl⟩, rfl, rfl⟩
      exact ⟨a, hp, rfl⟩
    · rintro ⟨a, hp, rfl⟩
      exact ⟨a, c', hp, [], c', ⟨rfl, rfl⟩, rfl, rfl⟩
  simp only [message, bind_eq_some_iff, hheader]
  constructor
  · rintro ⟨h', c₁', hh, qs, c₂, hqs, as, c₃, has, ns, c₄, hnone, ar, c₅, hnone', hpure⟩
    obtain ⟨rfl, rfl⟩ := Prod.mk.inj (Option.some.inj hh)
    rw [hqd, hone] at hqs
    rw [han, hone] at has
    rw [hns] at hnone
    rw [har] at hnone'
    obtain ⟨q, hq, rfl⟩ := hqs
    obtain ⟨a, ha, rfl⟩ := has
    obtain ⟨rfl, rfl⟩ := pure_eq_some_iff.mp hnone
    obtain ⟨rfl, rfl⟩ := pure_eq_some_iff.mp hnone'
    obtain ⟨rfl, rfl⟩ := pure_eq_some_iff.mp hpure
    exact ⟨q, a, c₂, hq, ha, rfl⟩
  · rintro ⟨q, a, c₂, hq, ha, rfl⟩
    refine ⟨h, c₁, rfl, [q], c₂, ?_, [a], c', ?_, [], c', ?_, [], c', ?_, rfl⟩
    · rw [hqd, hone]
      exact ⟨q, hq, rfl⟩
    · rw [han, hone]
      exact ⟨a, ha, rfl⟩
    · rw [hns]
      rfl
    · rw [har]
      rfl

theorem parse_eq_some_iff {m : Message} :
    parse bytes = some m ↔ ∃ c, message (start bytes) = some (m, c) ∧ c.rest = [] := by
  rw [parse, Option.bind_eq_bind, Option.bind_eq_some_iff]
  constructor
  · rintro ⟨⟨m', c⟩, hm, hif⟩
    by_cases hnil : c.rest = []
    · obtain rfl := Option.some.inj ((if_pos hnil).symm.trans hif)
      exact ⟨c, hm, hnil⟩
    · cases (if_neg hnil).symm.trans hif
  · rintro ⟨c, hm, hnil⟩
    exact ⟨(m, c), hm, if_pos hnil⟩

end Sections

end RadProt.Lib.DnsMessage
