import Mathlib.Data.List.Infix
import RadProt.Http.Division

namespace RadProt.Http

open RadProt.Lib

structure HeaderField where
  name : List UInt8
  gap : List UInt8
  value : List UInt8
  tail : List UInt8
  name_ok : name ≠ [] ∧ ∀ b ∈ name, 32 < b ∧ b ≠ 58
  blank_ok : ∀ b ∈ gap ++ tail, b = 32 ∨ b = 9
  value_ok : ∀ b ∈ value, b = 9 ∨ 32 ≤ b
  trimmed : (∀ b ∈ value.head?, 32 < b) ∧ ∀ b ∈ value.getLast?, 32 < b

def HeaderField.content (f : HeaderField) : List UInt8 :=
  f.name ++ 58 :: (f.gap ++ f.value ++ f.tail)

def HeaderField.line (f : HeaderField) : List UInt8 := f.content ++ crlf

structure Request where
  method : List UInt8
  uri : List UInt8
  version : List UInt8
  before : List HeaderField
  host : HeaderField
  after : List HeaderField
  words_ok : ∀ b ∈ method ++ uri ++ version, 32 < b
  host_name : fold host.name = ascii "host"
  only : ∀ f ∈ before ++ after, fold f.name ≠ ascii "host"

namespace Request

def head (r : Request) : List UInt8 :=
  r.method ++ 32 :: r.uri ++ 32 :: r.version ++ crlf ++ r.before.flatMap HeaderField.line

def text (r : Request) : List UInt8 :=
  r.head ++ r.host.line ++ r.after.flatMap HeaderField.line ++ crlf

def fields (r : Request) : List UInt8 :=
  r.version ++ crlf ++ r.before.flatMap HeaderField.line ++ r.host.line ++
    r.after.flatMap HeaderField.line ++ crlf

def LengthReadable (r : Request) (behind : List UInt8) : Prop :=
  ∃ i ∈ strnstr r.fields (ascii "Content-Length: ") (r.fields.length - 4),
    (strnstr (r.fields.drop (i + 16)) crlf 10).isSome ∧
      0 ≤ readContentLen (r.fields.drop (i + 16) ++ behind)

end Request

structure Received extends Request where
  queue : Pbuf
  complete : toRequest.text <+: queue.bytes

def requestData (req : Pbuf) : List UInt8 :=
  if req.next ≠ [] then req.bytes.take lwipHttpdMaxReqLength else req.payload

/-- All of the request is looked at, and it is a `GET` or a `POST` with a length, `behind` being
what stands in memory behind the bytes that are looked at. -/
structure Received.Readable (r : Received) (behind : List UInt8) : Prop where
  inside : r.text <+: requestData r.queue
  method : r.method = ascii "GET" ∨ r.method = ascii "POST" ∧
    r.LengthReadable ((requestData r.queue).drop r.text.length ++ behind)

def dottedAddress (ip : UInt32) : List UInt8 :=
  dotted [itoa (ip.toNat % 256), itoa (ip.toNat / 256 % 256), itoa (ip.toNat / 65536 % 256),
    itoa (ip.toNat / 16777216 % 256)]

example : dottedAddress 0x017BA8C0 = ascii "192.168.123.1" := by decide

def NamesAccessPoint (settings : ServerSettings) (value : List UInt8) : Prop :=
  value = dottedAddress settings.ipAddress ∨ fold value = fold (cString settings.hostname) ∨
    fold value = fold (cString settings.hostname ++ 46 :: cString settings.domainName)

instance (settings : ServerSettings) (value : List UInt8) :
    Decidable (NamesAccessPoint settings value) := inferInstanceAs (Decidable (_ ∨ _))

variable {settings : ServerSettings} {left : Leftover} {p : Pbuf} {data behind : List UInt8}

theorem parseRequest_served_iff :
    (parseRequest settings left p).Served ↔ (parseData settings left (requestData p)).Served := by
  rw [parseRequest, ← requestData]
  cases parseData settings left (requestData p) with
  | incomplete =>
    dsimp only
    split
    · exact Iff.rfl
    · exact Iff.rfl
  | _ => exact Iff.rfl

theorem parseData_of_not_started (h : ¬ Started data) : ¬ (parseData settings left data).Served := by
  by_cases hlength : minReqLen ≤ data.length
  · cases hline : requestLineEnd data with
    | none =>
      rw [parseData_short (.inr hline)]
      exact id
    | some lineEnd =>
      have hcrlf : ¬ (strnstr data crlf data.length).isNone = true := by
        rw [requestLineEnd, Option.map_eq_some_iff] at hline
        obtain ⟨i, hi, -⟩ := hline
        simp [hi]
      have hmethod : (!(ascii "GET ").isPrefixOf data && !(ascii "POST ").isPrefixOf data) = true := by
        obtain ⟨hget, hpost⟩ := not_or.mp fun hmethod => h ⟨hlength, by rw [hline]; rfl, hmethod⟩
        simp only [Bool.not_eq_true] at hget hpost
        rw [hget, hpost]
        rfl
      rw [parseData, if_neg (Nat.not_lt.mpr hlength), if_neg hcrlf, if_pos hmethod]
      exact id
  · rw [parseData_short (.inl (Nat.not_le.mp hlength))]
    exact id

theorem served_iff (settings : ServerSettings) (left : Leftover) (p : Pbuf) :
    (parseRequest settings left p).Served ↔
      (Started (requestData p) ∧ (parseUri (requestData p) left.behind).Served) ∧
        ∃ host ∈ hostField (requestData p), hostNameMatches settings left.addr host.1 = true := by
  rw [parseRequest_served_iff]
  by_cases hstarted : Started (requestData p)
  · rw [parseData_started hstarted]
    cases hostField (requestData p) with
    | none => simp [Parsed.Served]
    | some host =>
      dsimp only
      split
      next hmatches => exact ⟨fun hserved => ⟨⟨hstarted, hserved⟩, host, rfl, hmatches⟩, (·.1.2)⟩
      next hmatches =>
        refine iff_of_false id fun h => ?_
        obtain ⟨-, host', hhost, hmatches'⟩ := h
        obtain rfl := Option.some.inj hhost
        exact hmatches hmatches'
  · exact iff_of_false (parseData_of_not_started hstarted) fun h => hstarted h.1.1

section Lines

theorem crlf_getElem? {i : Nat} (h : crlf ++ crlf <+: data.drop i) :
    data[i]? = some 13 ∧ data[i + 2]? = some 13 := by
  obtain ⟨more, hmore⟩ := h
  have hzero : (data.drop i)[0]? = some 13 := by rw [← hmore]; rfl
  have htwo : (data.drop i)[2]? = some 13 := by rw [← hmore]; rfl
  rw [List.getElem?_drop] at hzero htwo
  exact ⟨hzero, htwo⟩

theorem blankLine_last {lines : List (List UInt8)} (hlines : ∀ l ∈ lines, l ≠ [] ∧ 13 ∉ l) {i : Nat}
    (h : crlf ++ crlf <+: (lines.flatMap (· ++ crlf) ++ crlf).drop i) :
    (lines.flatMap (· ++ crlf) ++ crlf).length ≤ i + 4 := by
  induction lines generalizing i with
  | nil => exact Nat.le_trans (by decide : crlf.length ≤ 4) (Nat.le_add_left _ _)
  | cons line lines ih =>
    obtain ⟨-, hcr⟩ := hlines line List.mem_cons_self
    have hrest : ∀ l ∈ lines, l ≠ [] ∧ 13 ∉ l := fun l hl => hlines l (List.mem_cons_of_mem _ hl)
    have hsplit : (line :: lines).flatMap (· ++ crlf) ++ crlf =
        line ++ (crlf ++ (lines.flatMap (· ++ crlf) ++ crlf)) := by
      simp only [List.flatMap_cons, List.append_assoc]
    rw [hsplit] at h ⊢
    obtain ⟨hfirst, hthird⟩ := crlf_getElem? h
    have hcrlf : crlf.length = 2 := rfl
    rw [List.length_append, List.length_append, hcrlf]
    rcases Nat.lt_trichotomy i line.length with hlt | rfl | hgt
    · rw [List.getElem?_append_left hlt] at hfirst
      exact absurd (List.mem_of_getElem? hfirst) hcr
    · -- the next line would begin with a CR
      rw [List.getElem?_append_right (Nat.le_add_right _ _), Nat.add_sub_cancel_left,
        List.getElem?_append_right (Nat.le_of_eq hcrlf), hcrlf, Nat.sub_self] at hthird
      cases lines with
      | nil => exact Nat.le_refl _
      | cons next lines =>
        obtain ⟨hne, hcr⟩ := hrest next List.mem_cons_self
        obtain ⟨b, next, rfl⟩ := List.exists_cons_of_ne_nil hne
        obtain rfl := Option.some.inj hthird
        exact absurd List.mem_cons_self hcr
    · obtain rfl | hbehind := Nat.eq_or_lt_of_le (Nat.succ_le_of_lt hgt)
      · rw [List.getElem?_append_right (Nat.le_succ _), Nat.succ_sub (Nat.le_refl _),
          Nat.sub_self] at hfirst
        exact absurd (Option.some.inj hfirst) (by decide)
      · obtain ⟨k, rfl⟩ := Nat.exists_eq_add_of_le (Nat.succ_le_of_lt hbehind)
        have hdrop : (line ++ (crlf ++ (lines.flatMap (· ++ crlf) ++ crlf))).drop
            (line.length.succ.succ + k) = (lines.flatMap (· ++ crlf) ++ crlf).drop k := by
          rw [show line.length.succ.succ + k = line.length + (crlf.length + k) by rw [hcrlf]; omega,
            List.drop_length_add_append, List.drop_length_add_append]
        rw [hdrop] at h
        have := ih hrest h
        omega

theorem HeaderField.not_mem_content (f : HeaderField) {b : UInt8} (hb : b < 32) (htab : b ≠ 9) :
    b ∉ f.content := by
  have hword : ∀ c : UInt8, 32 < c → b ≠ c := by grind
  have hblank : ∀ c : UInt8, c = 32 ∨ c = 9 → b ≠ c := by grind
  have hvalue : ∀ c : UInt8, c = 9 ∨ 32 ≤ c → b ≠ c := by grind
  have hcolon : b ≠ 58 := by grind
  intro hmem
  simp only [content, List.mem_append, List.mem_cons] at hmem
  obtain hname | hmem | (hgap | hval) | htail := hmem
  · exact hword b (f.name_ok.2 b hname).1 rfl
  · exact hcolon hmem
  · exact hblank b (f.blank_ok b (List.mem_append_left _ hgap)) rfl
  · exact hvalue b (f.value_ok b hval) rfl
  · exact hblank b (f.blank_ok b (List.mem_append_right _ htail)) rfl

theorem HeaderField.zero_notMem_line (f : HeaderField) : 0 ∉ f.line := by
  rw [line, List.mem_append, not_or]
  exact ⟨f.not_mem_content (by decide) (by decide), by decide⟩

theorem HeaderField.content_ne_nil (f : HeaderField) : f.content ≠ [] :=
  List.append_ne_nil_of_right_ne_nil _ (List.cons_ne_nil _ _)

theorem flatMap_line (fs : List HeaderField) :
    fs.flatMap HeaderField.line = (fs.map HeaderField.content).flatMap (· ++ crlf) := by
  rw [List.flatMap_map]
  rfl

theorem Request.blankLine_last (r : Request) {i : Nat} (h : crlf ++ crlf <+: r.text.drop i) :
    r.text.length ≤ i + 4 := by
  have htext : r.text = (((r.method ++ 32 :: r.uri ++ 32 :: r.version) ::
      (r.before ++ r.host :: r.after).map HeaderField.content).flatMap (· ++ crlf)) ++ crlf := by
    rw [List.flatMap_cons, ← flatMap_line]
    simp only [text, head, List.flatMap_append, List.flatMap_cons, List.append_assoc]
  rw [htext] at h ⊢
  refine Http.blankLine_last (fun l hl => ?_) h
  obtain rfl | hl := List.mem_cons.mp hl
  · refine ⟨by simp, fun hmem => ?_⟩
    have hword : ∀ b ∈ r.method ++ r.uri ++ r.version, b ≠ 13 := fun b hb heq =>
      absurd (heq ▸ r.words_ok b hb) (by decide)
    simp only [List.mem_append, List.mem_cons] at hmem hword
    obtain (hmethod | hblank | huri) | hblank | hversion := hmem
    · exact hword 13 (.inl (.inl hmethod)) rfl
    · exact absurd hblank (by decide)
    · exact hword 13 (.inl (.inr huri)) rfl
    · exact absurd hblank (by decide)
    · exact hword 13 (.inr hversion) rfl
  · obtain ⟨f, -, rfl⟩ := List.mem_map.mp hl
    exact ⟨f.content_ne_nil, f.not_mem_content (by decide) (by decide)⟩

end Lines

section Readable

theorem Request.zero_notMem_text (r : Request) : 0 ∉ r.text := by
  have hwords : ∀ {word : List UInt8}, (∀ b ∈ word, b ∈ r.method ++ r.uri ++ r.version) → 0 ∉ word :=
    fun hword hmem => absurd (r.words_ok 0 (hword 0 hmem)) (by decide)
  have hmethod : 0 ∉ r.method := hwords fun b hb => by simp [hb]
  have huri : 0 ∉ r.uri := hwords fun b hb => by simp [hb]
  have hversion : 0 ∉ r.version := hwords fun b hb => by simp [hb]
  have hlines : ∀ fs : List HeaderField, 0 ∉ fs.flatMap HeaderField.line := by
    intro fs hmem
    obtain ⟨f, -, hf⟩ := List.mem_flatMap.mp hmem
    exact f.zero_notMem_line hf
  have hcrlf : 0 ∉ crlf := by decide
  simp [text, head, hmethod, huri, hversion, hlines, hcrlf, r.host.zero_notMem_line]

theorem Request.text_fields (r : Request) :
    r.text = r.method ++ (ascii " " ++ (r.uri ++ (ascii " " ++ r.fields))) := by
  simp [text, head, fields, ascii]

theorem Request.fields_blankLine (r : Request) : ∃ front, r.fields = front ++ (crlf ++ crlf) := by
  have hlines : ∀ fs : List HeaderField, fs ≠ [] →
      ∃ front, fs.flatMap HeaderField.line = front ++ crlf := by
    intro fs hne
    obtain ⟨fs, f, rfl⟩ := (List.eq_nil_or_concat fs).resolve_left hne
    rw [List.concat_eq_append]
    refine ⟨fs.flatMap HeaderField.line ++ f.content, ?_⟩
    simp [HeaderField.line]
  obtain ⟨front, hfront⟩ := hlines (r.host :: r.after) (List.cons_ne_nil _ _)
  refine ⟨r.version ++ crlf ++ r.before.flatMap HeaderField.line ++ front, ?_⟩
  rw [List.flatMap_cons] at hfront
  rw [fields, List.append_assoc _ r.host.line, hfront]
  simp only [List.append_assoc]

theorem Request.text_blankLine (r : Request) : ∃ front, r.text = front ++ (crlf ++ crlf) := by
  obtain ⟨front, hfront⟩ := r.fields_blankLine
  refine ⟨r.method ++ (ascii " " ++ (r.uri ++ (ascii " " ++ front))), ?_⟩
  rw [r.text_fields, hfront]
  simp only [List.append_assoc]

theorem Request.words_no_blank (r : Request) :
    (∀ b ∈ r.method, 32 < b) ∧ ∀ b ∈ r.uri, 32 < b :=
  ⟨fun b hb => r.words_ok b (by simp [hb]), fun b hb => r.words_ok b (by simp [hb])⟩

theorem Request.method_eq {r : Request} {word rest : List UInt8} (hword : ∀ b ∈ word, 32 < b)
    (hstarts : word ++ ascii " " <+: r.text ++ rest) : r.method = word := by
  have htake : ∀ {word more : List UInt8}, (∀ b ∈ word, 32 < b) →
      (word ++ (ascii " " ++ more)).takeWhile (· ≠ 32) = word := by
    intro word more hword
    rw [List.takeWhile_append_of_pos fun b hb => by
      simpa using (fun heq => UInt8.lt_irrefl 32 (heq ▸ hword b hb) : b ≠ 32)]
    change word ++ (32 :: more).takeWhile _ = word
    rw [List.takeWhile_cons_of_neg (by decide), List.append_nil]
  obtain ⟨more, hmore⟩ := hstarts
  rw [r.text_fields, List.append_assoc, List.append_assoc] at hmore
  have heq := congrArg (List.takeWhile (· ≠ 32)) hmore
  rw [List.append_assoc, htake hword, htake r.words_no_blank.1] at heq
  exact heq.symm

theorem Request.lineEnds (r : Request) (rest : List UInt8) :
    (requestLineEnd (r.text ++ rest)).isSome ∧
      (strnstr (r.text ++ rest) (crlf ++ crlf) (r.text ++ rest).length).isSome := by
  obtain ⟨front, hblank⟩ := r.text_blankLine
  have hzero := r.zero_notMem_text
  rw [requestLineEnd, Option.isSome_map]
  rw [hblank] at hzero ⊢
  have hfront : 0 ∉ front ++ crlf := fun hmem => hzero (by
    rw [← List.append_assoc]
    exact List.mem_append_left _ hmem)
  constructor
  · rw [List.append_assoc, List.append_assoc crlf]
    refine strnstr_append_isSome hfront (by decide) ?_
    simp only [List.length_append]
    omega
  · rw [List.append_assoc front]
    refine strnstr_append_isSome hzero (by decide) ?_
    simp only [List.length_append]
    omega

theorem Request.started {r : Request} (hmethod : r.method = ascii "GET" ∨ r.method = ascii "POST")
    (rest : List UInt8) : Started (r.text ++ rest) := by
  refine ⟨?_, (r.lineEnds rest).1, ?_⟩
  · obtain ⟨front, hblank⟩ := r.text_blankLine
    have hlength : 3 ≤ r.method.length := by
      obtain hmethod | hmethod := hmethod
      · simp [hmethod, ascii]
      · simp [hmethod, ascii]
    have hfields : 4 ≤ r.fields.length := by
      simp only [fields, List.length_append, crlf, List.length_cons, List.length_nil]
      omega
    rw [r.text_fields]
    simp only [List.length_append, ascii, minReqLen]
    omega
  · rw [r.text_fields, ← List.append_assoc, List.append_assoc _ _ rest]
    obtain hmethod | hmethod := hmethod
    · rw [hmethod]
      exact .inl (List.isPrefixOf_iff_prefix.mpr ⟨_, rfl⟩)
    · rw [hmethod]
      exact .inr (List.isPrefixOf_iff_prefix.mpr ⟨_, rfl⟩)

theorem Request.uriEnd (r : Request) {n : Nat} (hn : r.method.length + 1 = n) (rest : List UInt8) :
    strnstr ((r.text ++ rest).drop n) (ascii " ") ((r.text ++ rest).length - n) =
      some r.uri.length := by
  have hdrop : (r.text ++ rest).drop n = r.uri ++ (ascii " " ++ (r.fields ++ rest)) := by
    rw [r.text_fields, ← hn]
    simp [ascii]
  have hzero := r.zero_notMem_text
  rw [r.text_fields] at hzero
  simp only [List.mem_append, not_or] at hzero
  rw [← List.length_drop, hdrop]
  refine strnstr_first (by simp [hzero]) (by decide) (fun i hi hhere => ?_) ?_
  · -- no byte of the URI is a blank
    have hblank : (r.uri ++ (ascii " " ++ (r.fields ++ rest)))[i]? = some 32 := by
      obtain ⟨more, hmore⟩ := hhere
      rw [← List.head?_drop, ← hmore]
      rfl
    rw [List.getElem?_append_left hi] at hblank
    exact absurd (r.words_no_blank.2 32 (List.mem_of_getElem? hblank)) (by decide)
  · simp only [List.length_append]
    omega

theorem parseUri_get {uriLen i : Nat} (hpost : (ascii "POST ").isPrefixOf data = false)
    (huri : strnstr (data.drop 4) (ascii " ") (data.length - 4) = some uriLen)
    (hend : strnstr data (crlf ++ crlf) data.length = some i) :
    parseUri data behind = .file ((data.drop 4).take uriLen) false := by
  simp [parseUri, hpost, huri, hend]

theorem Request.served_get {r : Request} (hget : r.method = ascii "GET") (rest : List UInt8) :
    (parseUri (r.text ++ rest) behind).Served := by
  have hpost : (ascii "POST ").isPrefixOf (r.text ++ rest) = false := by
    rw [r.text_fields, hget]
    rfl
  obtain ⟨i, hi⟩ := Option.isSome_iff_exists.mp (r.lineEnds rest).2
  rw [parseUri_get hpost (r.uriEnd (by rw [hget]; rfl) rest) hi]
  trivial

theorem Request.fields_end (r : Request) (rest : List UInt8) {n : Nat}
    (hn : r.fields.length ≤ n) :
    strnstr (r.fields ++ rest) (crlf ++ crlf) n = some (r.fields.length - 4) := by
  obtain ⟨front, hfront⟩ := r.fields_blankLine
  have hlength : r.fields.length = front.length + 4 := by
    rw [hfront, List.length_append]
    rfl
  have hzero := r.zero_notMem_text
  rw [r.text_fields] at hzero
  simp only [List.mem_append, not_or] at hzero
  have hfields : 0 ∉ front ++ (crlf ++ crlf) := hfront ▸ hzero.2.2.2.2
  rw [hlength, Nat.add_sub_cancel]
  rw [hlength] at hn
  have hsplit : r.fields ++ rest = front ++ ((crlf ++ crlf) ++ rest) := by
    rw [hfront, List.append_assoc]
  rw [hsplit]
  refine strnstr_first hfields (by decide) (fun i hi hhere => ?_) hn
  -- a blank line before would be one of the request
  have hlast : crlf ++ crlf <+: r.text.drop (r.method.length + 1 + r.uri.length + 1 + i) := by
    have hdrop : r.text.drop (r.method.length + 1 + r.uri.length + 1 + i) = r.fields.drop i := by
      rw [← List.drop_drop, r.text_fields]
      congr 1
      rw [← List.append_assoc, ← List.append_assoc, ← List.append_assoc]
      exact List.drop_left' (by simp [ascii]; omega)
    rw [hdrop]
    rw [← hsplit, List.drop_append_of_le_length (by omega)] at hhere
    refine List.prefix_of_prefix_length_le hhere (List.prefix_append _ _) ?_
    rw [List.length_drop, hlength]
    exact Nat.le_sub_of_add_le (by rw [Nat.add_comm]; exact Nat.add_le_add_right hi.le 4)
  have hle := r.blankLine_last hlast
  rw [r.text_fields] at hle
  simp only [List.length_append, hlength, ascii] at hle
  simp at hle
  omega

theorem Request.contentLenText_eq {r : Request} (hpost : r.method = ascii "POST")
    (rest : List UInt8) : contentLenText (r.text ++ rest) =
      (strnstr r.fields (ascii "Content-Length: ") (r.fields.length - 4)).bind fun i =>
        (strnstr (r.fields.drop (i + 16)) crlf 10).map fun _ => r.fields.drop (i + 16) ++ rest := by
  obtain ⟨i, hi⟩ := Option.isSome_iff_exists.mp (r.lineEnds rest).2
  have hdrop : (r.text ++ rest).drop (5 + r.uri.length + 1) = r.fields ++ rest := by
    rw [r.text_fields, hpost]
    simp only [← List.append_assoc]
    rw [List.append_assoc _ r.fields]
    refine List.drop_left' ?_
    simp [ascii]
    omega
  have hlength : r.fields.length ≤ (r.text ++ rest).length - (5 + r.uri.length + 1) := by
    rw [← List.length_drop, hdrop, List.length_append]
    exact Nat.le_add_right _ _
  have huri : strnstr ((r.text ++ rest).drop 5) (ascii " ") ((r.text ++ rest).length - 5) =
      some r.uri.length := r.uriEnd (by rw [hpost]; rfl) rest
  have hend := r.fields_end [] (Nat.le_refl _)
  rw [List.append_nil] at hend
  simp only [contentLenText, huri, hi, hdrop,
    r.fields_end rest hlength, Option.bind_eq_bind, Option.bind_some,
    strnstr_append_of_le (by decide : ascii "Content-Length: " ≠ []) (Nat.sub_le _ 4) rest]
  cases hlen : strnstr r.fields (ascii "Content-Length: ") (r.fields.length - 4) with
  | none => rfl
  | some j =>
    have hbound := (strnstr_some hlen).2.1
    rw [length_contentLength] at hbound
    rw [Option.bind_some, Option.bind_some,
      List.drop_append_of_le_length (Nat.le_trans hbound (Nat.sub_le _ _)),
      strnstr_append (lineEnd_isSome hend hlen)]
    cases strnstr (r.fields.drop (j + 16)) crlf 10 with
    | none => rfl
    | some _ => rfl

theorem Request.served_post {r : Request} (hpost : r.method = ascii "POST") (rest : List UInt8) :
    (parseUri (r.text ++ rest) behind).Served ↔ r.LengthReadable (rest ++ behind) := by
  have hprefix : (ascii "POST ").isPrefixOf (r.text ++ rest) = true := by
    rw [r.text_fields, hpost]
    rfl
  have hread : r.LengthReadable (rest ++ behind) ↔
      ∃ text ∈ contentLenText (r.text ++ rest), 0 ≤ readContentLen (text ++ behind) := by
    simp only [contentLenText_eq hpost, LengthReadable, Option.mem_def, Option.bind_eq_some_iff,
      Option.map_eq_some_iff, Option.isSome_iff_exists]
    constructor
    · rintro ⟨i, hi, ⟨lineEnd, hline⟩, hlen⟩
      exact ⟨_, ⟨i, hi, lineEnd, hline, rfl⟩, by rwa [List.append_assoc]⟩
    · rintro ⟨_, ⟨i, hi, lineEnd, hline, rfl⟩, hlen⟩
      exact ⟨i, hi, ⟨lineEnd, hline⟩, by rwa [List.append_assoc] at hlen⟩
  rw [hread]
  obtain ⟨hnone, refused, hrefused, hparse⟩ | ⟨text, htext, uri, hdrLen, hparse⟩ :=
    parseUri_post hprefix
  · rw [hparse, hnone]
    exact iff_of_false hrefused fun ⟨_, h, _⟩ => nomatch h
  · rw [hparse, htext]
    simp only [Option.mem_def, Option.some.injEq, exists_eq_left']
    split
    next hneg => exact iff_of_false id (Int.not_le.mpr hneg)
    next hneg => exact iff_of_true trivial (Int.not_lt.mp hneg)

theorem blankLine_of_served (h : (parseUri data behind).Served) :
    (strnstr data (crlf ++ crlf) data.length).isSome := by
  by_contra hnone
  revert h
  rw [parseUri]
  generalize (if (ascii "POST ").isPrefixOf data = true then 5 else 4) = uriStart
  split
  next => exact id
  next =>
    split
    next => exact id
    next =>
      rw [if_pos (by simpa using hnone)]
      exact id

theorem isPrefix_requestData (p : Pbuf) : requestData p <+: p.bytes := by
  rw [requestData]
  split
  next => exact List.take_prefix _ _
  next hnext => simp [Pbuf.bytes, not_not.mp hnext]

theorem Received.readable_iff (r : Received) (behind : List UInt8) :
    Started (requestData r.queue) ∧ (parseUri (requestData r.queue) behind).Served ↔
      r.Readable behind := by
  constructor
  · rintro ⟨hstarted, hserved⟩
    have hinside : r.text <+: requestData r.queue := by
      obtain hinside | hpart :=
        List.prefix_or_prefix_of_prefix r.complete (isPrefix_requestData r.queue)
      · exact hinside
      · -- a part without the blank line is not served
        obtain ⟨i, hi⟩ := Option.isSome_iff_exists.mp (blankLine_of_served hserved)
        obtain ⟨hhere, hbound, -⟩ := strnstr_some hi
        have hlast := r.blankLine_last (hhere.trans (hpart.drop i))
        rw [hpart.eq_of_length_le (Nat.le_trans hlast hbound)]
    obtain ⟨rest, hrest⟩ := hinside
    refine ⟨⟨rest, hrest⟩, ?_⟩
    rw [← hrest] at hstarted hserved ⊢
    rw [List.drop_left]
    obtain hget | hpost := hstarted.method
    · have hword : ascii "GET" ++ ascii " " <+: r.text ++ rest :=
        List.isPrefixOf_iff_prefix.mp hget
      exact .inl (Request.method_eq (by decide +kernel) hword)
    · have hword : ascii "POST" ++ ascii " " <+: r.text ++ rest :=
        List.isPrefixOf_iff_prefix.mp hpost
      have hpost := Request.method_eq (by decide +kernel) hword
      exact .inr ⟨hpost, (Request.served_post hpost rest).mp hserved⟩
  · rintro ⟨⟨rest, hrest⟩, hmethod⟩
    rw [← hrest] at hmethod ⊢
    rw [List.drop_left] at hmethod
    obtain hget | ⟨hpost, hlen⟩ := hmethod
    · exact ⟨Request.started (.inl hget) rest, Request.served_get hget rest⟩
    · exact ⟨Request.started (.inr hpost) rest, (Request.served_post hpost rest).mpr hlen⟩

theorem Received.forall_served_iff (r : Received) (hinitial : settings.initialConfig = true)
    {named : Prop} :
    (∀ left, (parseRequest settings left r.queue).Served ↔ named) ↔
      (named → (∀ behind, r.Readable behind) ∧ ∃ host ∈ hostField (requestData r.queue),
        ReadsAddress settings host.1 ∨ NamesDevice settings host.1) ∧
      (¬ named → ∀ behind, r.Readable behind → ∀ host ∈ hostField (requestData r.queue),
        ReadsOther settings host.1 ∧ ¬ NamesDevice settings host.1) := by
  simp only [served_iff, r.readable_iff]
  constructor
  · intro h
    refine ⟨fun hnamed => ⟨fun behind => ((h ⟨0, behind⟩).mpr hnamed).1, ?_⟩,
      fun hnamed behind hreadable host hhost => ?_⟩
    · obtain ⟨-, host, hhost, -⟩ := (h ⟨0, []⟩).mpr hnamed
      refine ⟨host, hhost, forall_hostNameMatches_iff.mp (fun addr => ?_) hinitial⟩
      obtain ⟨-, host', hhost', hmatches⟩ := (h ⟨addr, []⟩).mpr hnamed
      obtain rfl := Option.some.inj (hhost.symm.trans hhost')
      exact hmatches
    · refine (forall_not_hostNameMatches_iff.mp fun addr hmatches => ?_).2
      exact hnamed ((h ⟨addr, behind⟩).mp ⟨hreadable, host, hhost, hmatches⟩)
  · rintro ⟨htaken, hforeign⟩ left
    constructor
    · rintro ⟨hreadable, host, hhost, hmatches⟩
      by_contra hnamed
      have hrefuses := hforeign hnamed _ hreadable host hhost
      exact forall_not_hostNameMatches_iff.mpr ⟨hinitial, hrefuses⟩ _ hmatches
    · intro hnamed
      obtain ⟨hreadable, host, hhost, hanswers⟩ := htaken hnamed
      exact ⟨hreadable _, host, hhost, forall_hostNameMatches_iff.mpr (fun _ => hanswers) _⟩

end Readable

section Plain

/-- The `Host` field stands as the search expects it, and nothing before it looks like it. -/
structure Request.Plain (r : Request) : Prop where
  name : r.host.name = ascii "Host"
  gap : r.host.gap = [32]
  tail : r.host.tail = []
  first : ∀ i < r.head.length, ¬ ascii "Host: " <+: r.text.drop i

theorem Request.Plain.hostField {r : Request} (h : r.Plain) (hinside : r.text <+: data) :
    ∃ lineEnd, hostField data = some (r.host.value.take 31, lineEnd) := by
  obtain ⟨rest, rfl⟩ := hinside
  let tail := r.after.flatMap HeaderField.line ++ crlf
  have htext : r.text = r.head ++ (ascii "Host: " ++ (r.host.value ++ (crlf ++ tail))) := by
    simp [text, HeaderField.line, HeaderField.content, h.name, h.gap, h.tail, tail, ascii]
  have hzero := r.zero_notMem_text
  rw [htext] at hzero
  simp only [List.mem_append, not_or] at hzero
  obtain ⟨hhead, hname, hvalue, hcrlf, -⟩ := hzero
  have hdata : r.text ++ rest =
      r.head ++ (ascii "Host: " ++ (r.host.value ++ (crlf ++ (tail ++ rest)))) := by
    simp only [htext, List.append_assoc]
  have hlength : r.head.length + (ascii "Host: ").length ≤ r.text.length := by
    simp only [htext, List.length_append]
    omega
  have hfound : strnstr (r.text ++ rest) (ascii "Host: ") (r.text ++ rest).length =
      some r.head.length := by
    have hfirst : ∀ i < r.head.length, ¬ ascii "Host: " <+: (r.text ++ rest).drop i := by
      intro i hi hhere
      have hroom : (ascii "Host: ").length ≤ (r.text.drop i).length := by
        rw [List.length_drop]
        omega
      rw [List.drop_append_of_le_length (by omega)] at hhere
      exact h.first i hi (List.prefix_of_prefix_length_le hhere (List.prefix_append _ _) hroom)
    rw [hdata] at hfirst ⊢
    refine strnstr_first (by simp [hhead, hname]) (by decide) hfirst ?_
    simp only [List.length_append]
    omega
  have hdrop : (r.text ++ rest).drop (r.head.length + 6) =
      r.host.value ++ (crlf ++ (tail ++ rest)) := by
    rw [hdata, List.drop_length_add_append]
    rfl
  have hend : strnstr ((r.text ++ rest).drop (r.head.length + 6)) crlf
      ((r.text ++ rest).length - (r.head.length + 6)) = some r.host.value.length := by
    rw [← List.length_drop, hdrop]
    refine strnstr_first (by simp [hvalue, hcrlf]) (by decide) (fun i hi hhere => ?_) ?_
    · -- No byte of the value is a CR.
      have hcr : (r.host.value ++ (crlf ++ (tail ++ rest)))[i]? = some 13 := by
        obtain ⟨more, hmore⟩ := hhere
        rw [← List.head?_drop, ← hmore]
        rfl
      rw [List.getElem?_append_left hi] at hcr
      exact absurd (r.host.value_ok 13 (List.mem_of_getElem? hcr)) (by decide)
    · simp only [List.length_append]
      omega
  refine ⟨r.head.length + 6 + r.host.value.length + 2, ?_⟩
  rw [Http.hostField, hfound, Option.bind_some, hend, Option.map_some, hdrop,
    List.take_append_of_le_length (Nat.min_le_left _ _), Nat.min_comm, ← List.take_take,
    List.take_length]

end Plain

theorem length_dottedAddress (ip : UInt32) : (dottedAddress ip).length ≤ 31 := by
  have hitoa : ∀ n < 256, (itoa n).length ≤ 3 := by decide +kernel
  have hfirst := hitoa (ip.toNat % 256) (Nat.mod_lt _ (by decide))
  have hsecond := hitoa (ip.toNat / 256 % 256) (Nat.mod_lt _ (by decide))
  have hthird := hitoa (ip.toNat / 65536 % 256) (Nat.mod_lt _ (by decide))
  have hfourth := hitoa (ip.toNat / 16777216 % 256) (Nat.mod_lt _ (by decide))
  simp only [dottedAddress, dotted, List.intercalate, List.intersperse, List.flatten_cons,
    List.flatten_nil, List.length_append, List.length_cons, List.length_nil]
  omega

theorem NamesAccessPoint.take_iff {value : List UInt8} (h : NamesAccessPoint settings value)
    (hzero : 0 ∉ value)
    (haton : settings.ip4addrAton (dottedAddress settings.ipAddress) = some settings.ipAddress) :
    ReadsAddress settings (value.take 31) ∨ NamesDevice settings (value.take 31) ↔
      value.length ≤ 31 ∨ (cString settings.hostname).length = 31 ∨
        ReadsAddress settings (value.take 31) := by
  have htake : cString (value.take 31) = value.take 31 :=
    cString_eq_self fun hmem => hzero (List.mem_of_mem_take hmem)
  by_cases hshort : value.length ≤ 31
  · refine iff_of_true ?_ (.inl hshort)
    rw [List.take_of_length_le hshort] at htake ⊢
    unfold ReadsAddress NamesDevice
    rw [htake]
    exact Or.imp_left (fun heq : value = _ => by rw [heq]; exact haton) h
  · -- too long for the address and for the host name alone
    have hcut : (value.take 31).length = 31 := List.length_take_of_le (Nat.le_of_not_le hshort)
    have hlong := Or.resolve_left h fun heq : value = _ =>
      hshort (by rw [heq]; exact length_dottedAddress _)
    rw [or_iff_right hshort, or_comm]
    refine or_congr_left ?_
    unfold NamesDevice
    rw [htake]
    constructor
    · rintro (hname | hname)
      · rw [← length_fold, ← hname, length_fold, hcut]
      · have hcut' := congrArg List.length hname
        obtain hvalue | hvalue := hlong
        · have hlength := congrArg List.length hvalue
          simp only [length_fold, List.length_append, List.length_cons] at hlength hcut'
          omega
        · rw [← hvalue, length_fold, length_fold, hcut] at hcut'
          omega
    · intro hfull
      obtain hvalue | hvalue := hlong
      · have hlength := congrArg List.length hvalue
        rw [length_fold, length_fold] at hlength
        omega
      · left
        rw [fold_take, hvalue, ← fold_take, ← hfull, List.take_left]

/-- A request is served exactly if its `Host` field names the access point, whatever is found in
memory: this is so where the text that the search finds, the value of a plain field cut to the room
of the copy, is a name or the address for a request that does, and the address of another host for
one that does not. -/
theorem Received.served_iff_named_iff (r : Received) (hinitial : settings.initialConfig = true)
    (haton : settings.ip4addrAton (dottedAddress settings.ipAddress) = some settings.ipAddress) :
    (∀ left, (parseRequest settings left r.queue).Served ↔
        NamesAccessPoint settings r.host.value) ↔
      (NamesAccessPoint settings r.host.value → (∀ behind, r.Readable behind) ∧
        (r.Plain → r.host.value.length ≤ 31 ∨ (cString settings.hostname).length = 31 ∨
          ReadsAddress settings (r.host.value.take 31)) ∧
        (¬ r.Plain → ∃ host ∈ hostField (requestData r.queue),
          ReadsAddress settings host.1 ∨ NamesDevice settings host.1)) ∧
      (¬ NamesAccessPoint settings r.host.value → ∀ behind, r.Readable behind →
        (r.Plain → ReadsOther settings (r.host.value.take 31) ∧
          ¬ NamesDevice settings (r.host.value.take 31)) ∧
        (¬ r.Plain → ∀ host ∈ hostField (requestData r.queue),
          ReadsOther settings host.1 ∧ ¬ NamesDevice settings host.1)) := by
  have hzero : 0 ∉ r.host.value := fun hmem => absurd (r.host.value_ok 0 hmem) (by decide)
  rw [r.forall_served_iff hinitial]
  by_cases hplain : r.Plain
  · simp only [hplain, true_imp_iff, not_true_eq_false, false_imp_iff, and_true]
    refine and_congr (forall_congr' fun hnamed => and_congr_right fun hreadable => ?_)
      (forall_congr' fun _ => forall_congr' fun behind => forall_congr' fun hreadable => ?_)
    · obtain ⟨lineEnd, hhost⟩ := hplain.hostField (hreadable []).inside
      rw [hhost, ← hnamed.take_iff hzero haton]
      simp only [Option.mem_def, Option.some.injEq, exists_eq_left']
    · obtain ⟨lineEnd, hhost⟩ := hplain.hostField hreadable.inside
      rw [hhost]
      simp only [Option.mem_def, Option.some.injEq, forall_eq']
  · simp only [hplain, false_imp_iff, not_false_eq_true, true_imp_iff, true_and]

section Sample

/-- The settings that the device is shipped with, the network up at its address. -/
def shippedSettings : ServerSettings where
  hostname := ascii "config"
  domainName := ascii "radprot.net"
  ipAddress := 0x017BA8C0
  initialConfig := true
  ip4addrAton s := if s = dottedAddress 0x017BA8C0 then some 0x017BA8C0 else none

def field (name value : String) (hname : ascii name ≠ [] ∧ ∀ b ∈ ascii name, 32 < b ∧ b ≠ 58)
    (hvalue : ∀ b ∈ ascii value, b = 9 ∨ 32 ≤ b)
    (htrimmed : (∀ b ∈ (ascii value).head?, 32 < b) ∧ ∀ b ∈ (ascii value).getLast?, 32 < b) :
    HeaderField where
  name := ascii name
  gap := [32]
  value := ascii value
  tail := []
  name_ok := hname
  blank_ok := by decide +kernel
  value_ok := hvalue
  trimmed := htrimmed

def fetch (before : List HeaderField) (host : HeaderField) (hname : fold host.name = ascii "host")
    (honly : ∀ f ∈ before ++ [], fold f.name ≠ ascii "host") : Request where
  method := ascii "GET"
  uri := ascii "/"
  version := ascii "HTTP/1.1"
  before := before
  host := host
  after := []
  words_ok := by decide +kernel
  host_name := hname
  only := honly

def Request.received (r : Request) : Received where
  toRequest := r
  queue := { payload := r.text, next := [] }
  complete := by simp [Pbuf.bytes]

def hostFetch (host : String) (hvalue : ∀ b ∈ ascii host, b = 9 ∨ 32 ≤ b)
    (htrimmed : (∀ b ∈ (ascii host).head?, 32 < b) ∧ ∀ b ∈ (ascii host).getLast?, 32 < b) :
    Received :=
  (fetch [] (field "Host" host (by decide +kernel) hvalue htrimmed)
    (by change fold (ascii "Host") = ascii "host"; decide +kernel) (by decide +kernel)).received

def ownFetch : Received :=
  hostFetch "Config.radprot.net" (by decide +kernel) (by decide +kernel)

def foreignFetch : Received := hostFetch "example.com" (by decide +kernel) (by decide +kernel)

def misledFetch : Received :=
  (fetch [field "Via" "Host: proxy" (by decide +kernel) (by decide +kernel) (by decide +kernel)]
    (field "Host" "config" (by decide +kernel) (by decide +kernel) (by decide +kernel))
    (by decide +kernel) (by decide +kernel)).received

theorem ownFetch_served :
    NamesAccessPoint shippedSettings ownFetch.host.value ∧
      ∀ left, (parseRequest shippedSettings left ownFetch.queue).Served := by
  have hnamed : NamesAccessPoint shippedSettings ownFetch.host.value := by decide +kernel
  have hreadable : ∀ behind, ownFetch.Readable behind := fun _ => ⟨List.prefix_refl _, .inl rfl⟩
  have hplain : ownFetch.Plain := ⟨rfl, rfl, rfl, by decide +kernel⟩
  have hserved := (@Received.served_iff_named_iff shippedSettings ownFetch rfl (by decide +kernel)).mpr
    ⟨fun _ => ⟨hreadable, fun _ => .inl (by decide +kernel), fun hmisled => absurd hplain hmisled⟩,
      fun hforeign => absurd hnamed hforeign⟩
  exact ⟨hnamed, fun left => (hserved left).mpr hnamed⟩

/-- Another host is served when the local happens to hold the address, and a field in front of
the `Host` field takes its place. -/
theorem foreignFetch_served :
    (¬ NamesAccessPoint shippedSettings foreignFetch.host.value ∧
      (parseRequest shippedSettings ⟨shippedSettings.ipAddress, []⟩ foreignFetch.queue).Served) ∧
    NamesAccessPoint shippedSettings misledFetch.host.value ∧
      parseRequest shippedSettings ⟨0, []⟩ misledFetch.queue = .redirect := by
  refine ⟨⟨?_, ?_⟩, ?_, ?_⟩
  all_goals decide +kernel

end Sample

end RadProt.Http
