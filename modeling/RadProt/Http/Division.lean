import Mathlib.Data.List.Basic
import RadProt.Http.HostNames

namespace RadProt.Http

open RadProt.Lib

structure RequestHeader (header : List UInt8) : Prop where
  method : ascii "GET " <+: header ∨ ascii "POST " <+: header
  hostLine : ∃ i < header.length, crlf ++ ascii "Host: " <+: header.drop i
  blankLine : crlf ++ crlf <:+ header
  /-- There is no blank line before. -/
  first : ∀ i < header.length, crlf ++ crlf <+: header.drop i → header.length ≤ i + 4
  length_le : header.length ≤ lwipHttpdMaxReqLength

def queued (p : Pbuf) (ps : List Pbuf) : Pbuf := ps.foldl Pbuf.cat p

def requestLineEnd (header : List UInt8) : Option Nat :=
  (strnstr header crlf header.length).map (· + 2)

def hostField (header : List UInt8) : Option (List UInt8 × Nat) :=
  (strnstr header (ascii "Host: ") header.length).bind fun i =>
    (strnstr (header.drop (i + 6)) crlf (header.length - (i + 6))).map fun hostLen =>
      ((header.drop (i + 6)).take (min hostLen 31), i + 6 + hostLen + 2)

def contentLenText (data : List UInt8) : Option (List UInt8) := do
  let uriLen ← strnstr (data.drop 5) (ascii " ") (data.length - 5)
  let _ ← strnstr data (crlf ++ crlf) data.length
  let headers := data.drop (5 + uriLen + 1)
  let crlfcrlf ← strnstr headers (crlf ++ crlf) (data.length - (5 + uriLen + 1))
  let scontentLen ← strnstr headers (ascii "Content-Length: ") crlfcrlf
  let contentLenNum := headers.drop (scontentLen + 16)
  let _ ← strnstr contentLenNum crlf 10
  return contentLenNum

/-- A cut behind `n` bytes comes before the request line is complete, or behind the line of a host
that the server answers to. -/
def Harmless (settings : ServerSettings) (header : List UInt8) (n : Nat) : Prop :=
  n < minReqLen ∨ (∀ lineEnd ∈ requestLineEnd header, n < lineEnd) ∨
    ∃ host ∈ hostField header, host.2 ≤ n ∧ Answers settings host.1

/-- The header alone decides what it is answered with: its host is one that the server answers to
or refuses whatever it finds in memory, and the length of a POST is not all blanks. -/
def Decided (settings : ServerSettings) (header : List UInt8) : Prop :=
  ∀ host ∈ hostField header, (Answers settings host.1 ∨ Refuses settings host.1) ∧
    (Answers settings host.1 → ascii "POST " <+: header →
      ∀ text ∈ contentLenText header, ∃ b ∈ text, isSpace b = false)

instance (settings : ServerSettings) (header : List UInt8) (n : Nat) :
    Decidable (Harmless settings header n) := inferInstanceAs (Decidable (_ ∨ _ ∨ _))

instance (settings : ServerSettings) (header : List UInt8) : Decidable (Decided settings header) :=
  inferInstanceAs (Decidable (∀ host ∈ _, _))

variable {settings : ServerSettings} {left : Leftover} {header : List UInt8} {n : Nat} {p : Pbuf}
  {ps : List Pbuf}

def Parsed.waiting : Parsed → Parsed
  | .incomplete => .inProgress
  | parsed => parsed

theorem parseRequest_eq (h : p.totLen ≤ lwipHttpdMaxReqLength) (hclen : p.clen ≤ lwipHttpdReqQueuelen) :
    parseRequest settings left p = (parseData settings left p.bytes).waiting := by
  have hdata : (if p.next ≠ [] then p.bytes.take lwipHttpdMaxReqLength else p.payload) = p.bytes := by
    split
    next => exact List.take_of_length_le h
    next hnext => simp [Pbuf.bytes, Classical.not_not.mp hnext]
  rw [parseRequest, hdata]
  cases parseData settings left p.bytes with
  | incomplete => exact if_pos ⟨h, hclen⟩
  | _ => rfl

theorem RequestHeader.no_blankLine (h : RequestHeader header) (hn : n < header.length) :
    strnstr (header.take n) (crlf ++ crlf) n = none := by
  rw [Option.eq_none_iff_forall_ne_some]
  intro i hi
  obtain ⟨hi, hbound⟩ := (strnstr_take (by decide) (Nat.le_of_lt hn)).mp hi
  have hfour : i + 4 ≤ n := hbound
  have hend := h.first i (by omega) (strnstr_some hi).1
  omega

theorem isPrefixOf_take {token : List UInt8} (htoken : token.length ≤ n) :
    token.isPrefixOf (header.take n) = token.isPrefixOf header := by
  rw [Bool.eq_iff_iff, List.isPrefixOf_iff_prefix, List.isPrefixOf_iff_prefix, List.prefix_take_iff]
  exact and_iff_left htoken

theorem requestLineEnd_take (hn : n ≤ header.length) {lineEnd : Nat} :
    requestLineEnd (header.take n) = some lineEnd ↔
      requestLineEnd header = some lineEnd ∧ lineEnd ≤ n := by
  have hcrlf : crlf.length = 2 := rfl
  simp only [requestLineEnd, Option.map_eq_some_iff, List.length_take, Nat.min_eq_left hn,
    strnstr_take (by decide : crlf ≠ []) hn, hcrlf]
  constructor
  · rintro ⟨i, ⟨hi, hbound⟩, rfl⟩
    exact ⟨⟨i, hi, rfl⟩, hbound⟩
  · rintro ⟨⟨i, hi, rfl⟩, hbound⟩
    exact ⟨i, ⟨hi, hbound⟩, rfl⟩

theorem hostField_take (hn : n ≤ header.length) {host : List UInt8 × Nat} :
    hostField (header.take n) = some host ↔ hostField header = some host ∧ host.2 ≤ n := by
  have hcrlf : crlf.length = 2 := rfl
  have hhost : (ascii "Host: ").length = 6 := rfl
  simp only [hostField, Option.bind_eq_some_iff, Option.map_eq_some_iff, List.length_take,
    Nat.min_eq_left hn, strnstr_take (by decide : ascii "Host: " ≠ []) hn, hhost]
  have hrest : ∀ i, i + 6 ≤ n → ∀ hostLen,
      strnstr ((header.take n).drop (i + 6)) crlf (n - (i + 6)) = some hostLen ↔
        strnstr (header.drop (i + 6)) crlf (header.length - (i + 6)) = some hostLen ∧
          i + 6 + hostLen + 2 ≤ n := by
    intro i hi hostLen
    have hlength : n - (i + 6) ≤ (header.drop (i + 6)).length := by
      rw [List.length_drop]
      omega
    rw [List.drop_take, strnstr_take (by decide) hlength, List.length_drop, hcrlf]
    exact and_congr_right fun _ => by omega
  have htake : ∀ i hostLen, i + 6 + hostLen + 2 ≤ n →
      ((header.take n).drop (i + 6)).take (min hostLen 31) =
        (header.drop (i + 6)).take (min hostLen 31) := by
    intro i hostLen hbound
    rw [List.drop_take, List.take_take, Nat.min_eq_left]
    omega
  constructor
  · rintro ⟨i, ⟨hi, hbound⟩, hostLen, hlen, rfl⟩
    obtain ⟨hlen, hend⟩ := (hrest i hbound hostLen).mp hlen
    rw [htake i hostLen hend]
    exact ⟨⟨i, hi, hostLen, hlen, rfl⟩, hend⟩
  · rintro ⟨⟨i, hi, hostLen, hlen, rfl⟩, hend⟩
    have hend : i + 6 + hostLen + 2 ≤ n := hend
    refine ⟨i, ⟨hi, by omega⟩, hostLen, (hrest i (by omega) hostLen).mpr ⟨hlen, hend⟩, ?_⟩
    rw [htake i hostLen hend]

section ParseData

variable {data : List UInt8} {host : List UInt8 × Nat}

theorem parseData_short (h : data.length < minReqLen ∨ requestLineEnd data = none) :
    parseData settings left data = .incomplete := by
  rw [parseData]
  split
  next => rfl
  next hlong =>
    have hline := h.resolve_left hlong
    rw [requestLineEnd, Option.map_eq_none_iff] at hline
    rw [hline]
    rfl

structure Started (data : List UInt8) : Prop where
  length : minReqLen ≤ data.length
  line : (requestLineEnd data).isSome
  method : (ascii "GET ").isPrefixOf data = true ∨ (ascii "POST ").isPrefixOf data = true

def parseUri (data behind : List UInt8) : Parsed :=
  let isPost := (ascii "POST ").isPrefixOf data
  let uriStart := if isPost then 5 else 4
  let leftLen := data.length - uriStart
  let afterMethod := data.drop uriStart
  let sp2 := strnstr afterMethod (ascii " ") leftLen
  if sp2.isNone && isPost then .badRequest
  else
    match sp2.or (strnstr afterMethod crlf leftLen) with
    | none => .incomplete
    | some uriLen =>
      if (strnstr data (crlf ++ crlf) data.length).isNone then .incomplete
      else if isPost then httpPostRequest data behind (afterMethod.take uriLen) (uriStart + uriLen)
      else .file (afterMethod.take uriLen) sp2.isNone

theorem parseData_started (h : Started data) :
    parseData settings left data =
      match hostField data with
      | none => .badRequest
      | some host =>
        if hostNameMatches settings left.addr host.1 then parseUri data left.behind
        else .redirect := by
  have hline := h.line
  have hmethod : ¬(!(ascii "GET ").isPrefixOf data && !(ascii "POST ").isPrefixOf data) = true := by
    obtain hget | hpost := h.method
    · simp [hget]
    · simp [hpost]
  rw [requestLineEnd, Option.isSome_map] at hline
  rw [parseData, if_neg (Nat.not_lt.mpr h.length),
    if_neg (by simpa using Option.isSome_iff_ne_none.mp hline), if_neg hmethod,
    hostField]
  cases strnstr data (ascii "Host: ") data.length with
  | none => rfl
  | some i =>
    simp only [Option.bind_some]
    cases strnstr (data.drop (i + 6)) crlf (data.length - (i + 6)) with
    | none => rfl
    | some hostLen =>
      simp only [Option.map_some]
      cases hostNameMatches settings left.addr ((data.drop (i + 6)).take (min hostLen 31)) <;> rfl

theorem parseUri_incomplete {behind : List UInt8}
    (hblank : strnstr data (crlf ++ crlf) data.length = none)
    (hpost : (ascii "POST ").isPrefixOf data = true →
      (strnstr (data.drop 5) (ascii " ") (data.length - 5)).isSome) :
    parseUri data behind = .incomplete := by
  have hsp2 : ∀ isPost : Bool, (isPost = true →
      (strnstr (data.drop 5) (ascii " ") (data.length - 5)).isSome) →
      ¬((strnstr (data.drop (if isPost then 5 else 4)) (ascii " ")
        (data.length - if isPost then 5 else 4)).isNone && isPost) = true := by
    intro isPost hpost
    cases isPost with
    | true => simpa using Option.isSome_iff_ne_none.mp (hpost rfl)
    | false => simp
  rw [parseUri, if_neg (hsp2 _ hpost)]
  split
  · rfl
  · rw [hblank]
    rfl

end ParseData

theorem blank_of_hostField (hhost : (hostField header).isSome) :
    (strnstr (header.drop 5) (ascii " ") (header.length - 5)).isSome := by
  obtain ⟨host, hhost⟩ := Option.isSome_iff_exists.mp hhost
  obtain ⟨i, hi, -⟩ := Option.bind_eq_some_iff.mp hhost
  obtain ⟨⟨rest, hrest⟩, hbound, hzero⟩ := strnstr_some hi
  have hblank : ascii " " <+: (header.drop 5).drop i := by
    rw [List.drop_drop, Nat.add_comm, ← List.drop_drop, ← hrest]
    exact ⟨rest, rfl⟩
  have hlength : i + 6 ≤ header.length := hbound
  refine strnstr_isSome ?_ (by decide) hblank (Nat.le_sub_of_add_le hlength)
  have hhostZero : 0 ∉ header.take (i + 6) := by
    have hfield : (header.drop i).take 6 = ascii "Host: " := by
      rw [← hrest]
      rfl
    rw [List.take_add, hfield]
    exact fun hmem => (List.mem_append.mp hmem).elim hzero (by decide)
  intro hmem
  rw [List.take_drop] at hmem
  exact hhostZero (by simpa [Nat.add_comm, Nat.add_assoc] using List.mem_of_mem_drop hmem)

theorem parseData_take (settings : ServerSettings) (h : RequestHeader header) (hn : n < header.length) :
    (Harmless settings header n →
      ∀ left, parseData settings left (header.take n) = .incomplete) ∧
      (¬ Harmless settings header n → ∃ left, parseData settings left (header.take n) = .badRequest ∨
        parseData settings left (header.take n) = .redirect) := by
  have hlength : (header.take n).length = n := List.length_take_of_le (Nat.le_of_lt hn)
  by_cases hshort : n < minReqLen
  · refine ⟨fun _ _ => parseData_short (.inl (by rwa [hlength])), fun hcut => ?_⟩
    exact absurd (.inl hshort) hcut
  cases hline : requestLineEnd (header.take n) with
  | none =>
    have hcut : ∀ lineEnd ∈ requestLineEnd header, n < lineEnd := by
      intro lineEnd hlineEnd
      by_contra hle
      have := (requestLineEnd_take (Nat.le_of_lt hn)).mpr ⟨hlineEnd, Nat.not_lt.mp hle⟩
      exact nomatch hline.symm.trans this
    exact ⟨fun _ _ => parseData_short (.inr hline), fun h => absurd (.inr (.inl hcut)) h⟩
  | some lineEnd =>
    obtain ⟨hlineEnd, hle⟩ := (requestLineEnd_take (Nat.le_of_lt hn)).mp hline
    have hbehind : ¬ ∀ lineEnd ∈ requestLineEnd header, n < lineEnd :=
      fun hcut => Nat.not_lt.mpr hle (hcut lineEnd hlineEnd)
    have hseven : 7 ≤ n := Nat.not_lt.mp hshort
    have hstarted : Started (header.take n) := by
      refine ⟨by rwa [hlength], by rw [hline]; rfl, ?_⟩
      rw [isPrefixOf_take (Nat.le_trans (by decide) hseven),
        isPrefixOf_take (Nat.le_trans (by decide) hseven)]
      exact h.method.imp List.isPrefixOf_iff_prefix.mpr List.isPrefixOf_iff_prefix.mpr
    simp only [parseData_started hstarted]
    cases hhost : hostField (header.take n) with
    | none =>
      refine ⟨fun hcut => ?_, fun _ => ⟨⟨0, []⟩, .inl rfl⟩⟩
      obtain hcut | hcut | ⟨host, hhost', hend, -⟩ := hcut
      · exact absurd hcut hshort
      · exact absurd hcut hbehind
      · have := (hostField_take (Nat.le_of_lt hn)).mpr ⟨hhost', hend⟩
        exact nomatch hhost.symm.trans this
    | some host =>
      obtain ⟨hhost', hend⟩ := (hostField_take (Nat.le_of_lt hn)).mp hhost
      dsimp only
      by_cases hanswers : Answers settings host.1
      · have hwait : ∀ behind, parseUri (header.take n) behind = .incomplete := fun behind =>
          parseUri_incomplete (by rw [hlength]; exact h.no_blankLine hn)
            fun _ => blank_of_hostField (by rw [hhost]; rfl)
        refine ⟨fun _ left => ?_, fun hcut => absurd (.inr (.inr ⟨host, hhost', hend, hanswers⟩)) hcut⟩
        rw [if_pos (forall_hostNameMatches_iff.mpr hanswers _), hwait]
      · refine ⟨fun hcut => ?_, fun _ => ?_⟩
        · obtain hcut | hcut | ⟨host', hhost'', -, hanswers'⟩ := hcut
          · exact absurd hcut hshort
          · exact absurd hcut hbehind
          · obtain rfl := Option.some.inj (hhost'.symm.trans hhost'')
            exact absurd hanswers' hanswers
        · obtain ⟨addr, haddr⟩ := not_forall.mp (mt forall_hostNameMatches_iff.mp hanswers)
          exact ⟨⟨addr, []⟩, .inr (if_neg haddr)⟩

theorem inProgress_take_iff (h : RequestHeader header) (hbytes : p.bytes = header.take n)
    (hn : n < header.length) (hclen : p.clen ≤ lwipHttpdReqQueuelen) :
    (∀ left, parseRequest settings left p = .inProgress) ↔ Harmless settings header n := by
  have htotLen : p.totLen ≤ lwipHttpdMaxReqLength := by
    rw [Pbuf.totLen, hbytes, List.length_take]
    exact Nat.le_trans (Nat.min_le_right _ _) h.length_le
  obtain ⟨hwait, hfail⟩ := parseData_take settings h hn
  simp only [parseRequest_eq htotLen hclen, hbytes]
  by_cases hcut : Harmless settings header n
  · refine iff_of_true (fun left => ?_) hcut
    rw [hwait hcut left]
    rfl
  · refine iff_of_false (fun hall => ?_) hcut
    obtain ⟨left, hbad | hredirect⟩ := hfail hcut
    · have hleft := hall left
      rw [hbad] at hleft
      cases hleft
    · have hleft := hall left
      rw [hredirect] at hleft
      cases hleft

@[simp]
theorem clen_cat (p q : Pbuf) : (p.cat q).clen = p.clen + q.clen := by
  simp only [Pbuf.cat, Pbuf.clen, List.length_append, List.length_cons]
  omega

theorem bytes_queued (p : Pbuf) (ps : List Pbuf) :
    (queued p ps).bytes = p.bytes ++ (ps.map Pbuf.bytes).flatten := by
  induction ps generalizing p with
  | nil => exact (List.append_nil _).symm
  | cons q ps ih =>
    rw [queued, List.foldl_cons, ← queued, ih, Pbuf.bytes_cat, List.map_cons, List.flatten_cons,
      List.append_assoc]

theorem clen_queued_le (p : Pbuf) (ps qs : List Pbuf) :
    (queued p ps).clen ≤ (queued p (ps ++ qs)).clen := by
  rw [queued, queued, List.foldl_append]
  generalize List.foldl Pbuf.cat p ps = r
  induction qs generalizing r with
  | nil => exact Nat.le_refl _
  | cons q qs ih =>
    refine Nat.le_trans ?_ (ih (r.cat q))
    rw [clen_cat]
    exact Nat.le_add_right _ _

theorem bytes_queued_take (hbytes : (queued p ps).bytes = header) (k : Nat) :
    (queued p (ps.take k)).bytes = header.take (queued p (ps.take k)).totLen := by
  have hsplit : header =
      (queued p (ps.take k)).bytes ++ ((ps.drop k).map Pbuf.bytes).flatten := by
    rw [← hbytes, bytes_queued, bytes_queued, List.append_assoc, ← List.flatten_append,
      ← List.map_append, List.take_append_drop]
  rw [hsplit, Pbuf.totLen, List.take_left']
  rfl

def Parsed.Served : Parsed → Prop
  | .file .. => True
  | .post .. => True
  | _ => False

instance : DecidablePred Parsed.Served
  | .file .. => isTrue trivial
  | .post .. => isTrue trivial
  | .inProgress => isFalse id
  | .incomplete => isFalse id
  | .badRequest => isFalse id
  | .redirect => isFalse id

section Length

variable {data headers text : List UInt8} {bound crlfcrlf scontentLen : Nat}

theorem length_contentLength : (ascii "Content-Length: ").length = 16 := by decide

theorem lineEnd_isSome (hblank : strnstr headers (crlf ++ crlf) bound = some crlfcrlf)
    (hlen : strnstr headers (ascii "Content-Length: ") crlfcrlf = some scontentLen) :
    (strnstr (headers.drop (scontentLen + 16)) crlf
      (headers.drop (scontentLen + 16)).length).isSome := by
  obtain ⟨⟨rest, hrest⟩, -, hzero⟩ := strnstr_some hblank
  obtain ⟨-, hend, -⟩ := strnstr_some hlen
  rw [length_contentLength] at hend
  have hsplit : (headers.drop (scontentLen + 16)) =
      (headers.drop (scontentLen + 16)).take (crlfcrlf - (scontentLen + 16)) ++
        (crlf ++ (crlf ++ rest)) := by
    rw [← List.append_assoc crlf, hrest]
    conv_lhs => rw [← List.take_append_drop (crlfcrlf - (scontentLen + 16))
      (headers.drop (scontentLen + 16))]
    rw [List.drop_drop, Nat.add_sub_cancel' hend]
  have hline : 0 ∉ (headers.drop (scontentLen + 16)).take (crlfcrlf - (scontentLen + 16)) ++ crlf := by
    rw [List.mem_append, not_or, List.take_drop, Nat.add_sub_cancel' hend]
    exact ⟨fun hmem => hzero (List.mem_of_mem_drop hmem), by decide⟩
  generalize (headers.drop (scontentLen + 16)).take (crlfcrlf - (scontentLen + 16)) = line at *
  rw [hsplit]
  refine strnstr_append_isSome hline (by decide) ?_
  simp only [List.length_append]
  omega

theorem parseUri_post (hpost : (ascii "POST ").isPrefixOf data = true) :
    (contentLenText data = none ∧ ∃ refused, ¬ refused.Served ∧
        ∀ behind, parseUri data behind = refused) ∨
      ∃ text ∈ contentLenText data, ∃ uri hdrLen, ∀ behind, parseUri data behind =
        if readContentLen (text ++ behind) < 0 then .badRequest
        else .post uri (readContentLen (text ++ behind)).toNat hdrLen := by
  simp only [contentLenText, parseUri, hpost, if_true]
  cases huri : strnstr (data.drop 5) (ascii " ") (data.length - 5) with
  | none => exact .inl ⟨rfl, .badRequest, id, fun _ => rfl⟩
  | some uriLen =>
    cases hend : strnstr data (crlf ++ crlf) data.length with
    | none => exact .inl ⟨rfl, .incomplete, id, fun _ => rfl⟩
    | some dataEnd =>
      simp only [httpPostRequest, Option.isNone_some, Bool.false_and, Option.some_or,
        Bool.false_eq_true, if_false, Option.bind_eq_bind, Option.bind_some]
      generalize data.drop (5 + uriLen + 1) = headers
      cases hblank : strnstr headers (crlf ++ crlf) (data.length - (5 + uriLen + 1)) with
      | none => exact .inl ⟨rfl, .inProgress, id, fun _ => rfl⟩
      | some crlfcrlf =>
        cases hlen : strnstr headers (ascii "Content-Length: ") crlfcrlf with
        | none => exact .inl ⟨by simp [hlen], .badRequest, id, by simp [hlen]⟩
        | some scontentLen =>
          have hline := lineEnd_isSome hblank hlen
          simp only [Option.bind_some, hlen, strnstr_append hline]
          cases strnstr (headers.drop (scontentLen + 16)) crlf 10 with
          | none => exact .inl ⟨rfl, .badRequest, id, fun _ => rfl⟩
          | some lineEnd => exact .inr ⟨_, rfl, _, _, fun _ => rfl⟩

theorem parseUri_get_behind (hpost : ¬ (ascii "POST ").isPrefixOf data = true)
    (behind : List UInt8) : parseUri data behind = parseUri data [] := by
  simp only [parseUri, hpost, Bool.false_eq_true, if_false]

theorem httpPostRequest_ne_redirect (data behind uri : List UInt8) (uriEnd : Nat) :
    httpPostRequest data behind uri uriEnd ≠ .redirect := by
  rw [httpPostRequest]
  split
  next => exact Parsed.noConfusion
  next =>
    split
    next => exact Parsed.noConfusion
    next =>
      dsimp only
      split
      next => exact Parsed.noConfusion
      next =>
        split
        next => exact Parsed.noConfusion
        next => exact Parsed.noConfusion

theorem parseUri_ne_redirect (data behind : List UInt8) : parseUri data behind ≠ .redirect := by
  rw [parseUri]
  generalize (if (ascii "POST ").isPrefixOf data = true then 5 else 4) = uriStart
  split
  next => exact Parsed.noConfusion
  next =>
    split
    next => exact Parsed.noConfusion
    next =>
      split
      next => exact Parsed.noConfusion
      next =>
        split
        next => exact httpPostRequest_ne_redirect _ _ _ _
        next => exact Parsed.noConfusion

theorem contentLenText_suffix (h : contentLenText data = some text) : text <:+ data ∧ text ≠ [] := by
  simp only [contentLenText, Option.bind_eq_bind, Option.bind_eq_some_iff] at h
  obtain ⟨uriLen, -, -, -, crlfcrlf, -, scontentLen, -, lineEnd, hline, htext⟩ := h
  obtain rfl := Option.some.inj htext
  refine ⟨(List.drop_suffix _ _).trans (List.drop_suffix _ _), fun hnil => ?_⟩
  rw [hnil] at hline
  cases hline

theorem readContentLen_append {line : List UInt8} (hline : ∃ b ∈ line, isSpace b = false)
    (behind : List UInt8) :
    readContentLen (line ++ [10] ++ behind) = readContentLen (line ++ [10]) := by
  have hatoi : ∀ rest, atoi (line ++ 10 :: rest) = atoi line := atoi_append_cons hline rfl
  have hprefix : [48, 13].isPrefixOf (line ++ [10] ++ behind) =
      [48, 13].isPrefixOf (line ++ [10]) := by
    obtain ⟨b, hb, -⟩ := hline
    refine isPrefixOf_append ?_ behind
    rw [List.length_append]
    exact Nat.succ_le_succ (List.length_pos_of_mem hb)
  simp only [readContentLen, hprefix]
  rw [List.append_assoc, List.singleton_append, hatoi, hatoi]

theorem readContentLen_blanks (hblank : ∀ b ∈ text, isSpace b = true) (hne : text ≠ [])
    (behind : List UInt8) :
    readContentLen (text ++ behind) = if atoi behind = 0 then -1 else atoi behind := by
  have hprefix : [48, 13].isPrefixOf (text ++ behind) = false := by
    obtain ⟨b, text, rfl⟩ := List.exists_cons_of_ne_nil hne
    have hb : (48 : UInt8) ≠ b := by
      rintro rfl
      exact absurd (hblank 48 List.mem_cons_self) (by decide)
    simp [List.isPrefixOf, hb]
  simp [readContentLen, atoi_blanks_append hblank, hprefix]

end Length

theorem requestLineEnd_isSome {host : List UInt8 × Nat} (hhost : hostField header = some host) :
    (requestLineEnd header).isSome := by
  obtain ⟨i, hi, hhost⟩ := Option.bind_eq_some_iff.mp hhost
  obtain ⟨hostLen, hlen, -⟩ := Option.map_eq_some_iff.mp hhost
  obtain ⟨⟨field, hfield⟩, hbound, hzero⟩ := strnstr_some hi
  obtain ⟨⟨rest, hrest⟩, -, hzero'⟩ := strnstr_some hlen
  have hsplit : header =
      (header.take i ++ ascii "Host: " ++ (header.drop (i + 6)).take hostLen) ++ (crlf ++ rest) := by
    have hsix : header.drop (i + 6) = field := by
      rw [← List.drop_drop, ← hfield]
      exact List.drop_left' rfl
    rw [hrest, List.append_assoc, List.take_append_drop, hsix, List.append_assoc, hfield,
      List.take_append_drop]
  have hline : 0 ∉ (header.take i ++ ascii "Host: " ++ (header.drop (i + 6)).take hostLen) ++ crlf := by
    simp only [List.mem_append, not_or]
    exact ⟨⟨⟨hzero, by decide⟩, hzero'⟩, by decide⟩
  generalize header.take i ++ ascii "Host: " ++ (header.drop (i + 6)).take hostLen = line at *
  rw [requestLineEnd, Option.isSome_map, hsplit]
  refine strnstr_append_isSome hline (by decide) ?_
  simp only [List.length_append]
  omega

theorem RequestHeader.started (h : RequestHeader header) (hline : (requestLineEnd header).isSome) :
    Started header where
  length := by
    obtain ⟨i, hi, hhost⟩ := h.hostLine
    have hle := hhost.length_le
    rw [List.length_drop, show (crlf ++ ascii "Host: ").length = 8 from rfl] at hle
    exact Nat.le_trans (by decide : minReqLen ≤ 8) (Nat.le_trans hle (Nat.sub_le _ _))
  line := hline
  method := h.method.imp List.isPrefixOf_iff_prefix.mpr List.isPrefixOf_iff_prefix.mpr

theorem RequestHeader.suffix_lineFeed (h : RequestHeader header) {text : List UInt8}
    (hsuffix : text <:+ header) (hne : text ≠ []) : ∃ line, text = line ++ [10] := by
  obtain ⟨before, rfl⟩ := hsuffix
  obtain ⟨front, hfront⟩ := h.blankLine
  have hlast : (before ++ text).getLast? = some 10 := by
    rw [← hfront, crlf]
    simp
  rw [List.getLast?_append_of_ne_nil before hne] at hlast
  exact ⟨text.dropLast, (List.dropLast_append_getLast? 10 hlast).symm⟩

theorem RequestHeader.parseUri_eq (h : RequestHeader header)
    (hlen : ascii "POST " <+: header →
      ∀ text ∈ contentLenText header, ∃ b ∈ text, isSpace b = false) (behind : List UInt8) :
    parseUri header behind = parseUri header [] := by
  by_cases hpost : (ascii "POST ").isPrefixOf header = true
  · obtain ⟨-, refused, -, hsame⟩ | ⟨text, htext, uri, hdrLen, hparse⟩ := parseUri_post hpost
    · rw [hsame, hsame]
    · obtain ⟨hsuffix, hne⟩ := contentLenText_suffix htext
      obtain ⟨b, hb, hspace⟩ := hlen (List.isPrefixOf_iff_prefix.mp hpost) text htext
      obtain ⟨line, rfl⟩ := h.suffix_lineFeed hsuffix hne
      have hline : ∃ b ∈ line, isSpace b = false := by
        refine ⟨b, (List.mem_append.mp hb).resolve_right fun hlast => ?_, hspace⟩
        rw [List.mem_singleton.mp hlast] at hspace
        cases hspace
      rw [hparse, hparse, readContentLen_append hline, List.append_nil]
  · exact parseUri_get_behind hpost behind

theorem eq_redirect_of_waiting {parsed : Parsed} (h : parsed.waiting = .redirect) :
    parsed = .redirect := by
  cases parsed with
  | incomplete => cases h
  | _ => exact h

theorem RequestHeader.decided_iff (h : RequestHeader header) :
    (∀ left left', (parseData settings left header).waiting =
        (parseData settings left' header).waiting) ↔ Decided settings header := by
  by_cases hline : (requestLineEnd header).isSome
  · have hstarted := h.started hline
    simp only [parseData_started hstarted, Decided]
    cases hhost : hostField header with
    | none => exact iff_of_true (fun _ _ => rfl) fun _ hnone => nomatch hnone
    | some host =>
      simp only [Option.mem_def, Option.some.injEq, forall_eq']
      constructor
      · intro hsame
        refine ⟨?_, fun hanswers hpost text htext => ?_⟩
        · by_contra hneither
          obtain ⟨hanswers, hrefuses⟩ := not_or.mp hneither
          obtain ⟨addr, hno⟩ := not_forall.mp (mt forall_hostNameMatches_iff.mp hanswers)
          obtain ⟨addr', hyes⟩ := not_forall.mp (mt forall_not_hostNameMatches_iff.mp hrefuses)
          have heq := hsame ⟨addr', []⟩ ⟨addr, []⟩
          rw [if_pos (not_not.mp hyes), if_neg hno] at heq
          exact parseUri_ne_redirect _ _ (eq_redirect_of_waiting heq)
        · by_contra hblank
          have hblank : ∀ b ∈ text, isSpace b = true := fun b hb =>
            Bool.not_eq_false _ ▸ fun hspace => hblank ⟨b, hb, hspace⟩
          obtain ⟨hnone, -⟩ | ⟨text', htext', uri, hdrLen, hparse⟩ :=
            parseUri_post (List.isPrefixOf_iff_prefix.mpr hpost)
          · cases hnone.symm.trans htext
          · obtain rfl := Option.some.inj (htext'.symm.trans htext)
            have hread := readContentLen_blanks hblank (contentLenText_suffix htext).2
            -- a digit may follow the blanks
            have heq := hsame ⟨0, []⟩ ⟨0, [53]⟩
            have hmatches := forall_hostNameMatches_iff.mpr hanswers 0
            rw [if_pos hmatches, if_pos hmatches, hparse, hparse, hread, hread] at heq
            exact absurd heq Parsed.noConfusion
      · rintro ⟨hanswers | hrefuses, hlen⟩ left left'
        · have hmatches := forall_hostNameMatches_iff.mpr hanswers
          rw [if_pos (hmatches _), if_pos (hmatches _), h.parseUri_eq (hlen hanswers) left.behind,
            h.parseUri_eq (hlen hanswers) left'.behind]
        · have hmatches := forall_not_hostNameMatches_iff.mpr hrefuses
          rw [if_neg (hmatches _), if_neg (hmatches _)]
  · refine iff_of_true (fun _ _ => ?_) fun host hhost => absurd (requestLineEnd_isSome hhost) hline
    have hnone := Option.not_isSome_iff_eq_none.mp hline
    rw [parseData_short (.inr hnone), parseData_short (.inr hnone)]

/-- A header that is divided among buffers is waited for up to its end, and then answered as in one
buffer, exactly where every cut is harmless and the header alone decides the answer. What is found
in memory is another at every parse. -/
theorem division_iff (settings : ServerSettings) (h : RequestHeader header)
    (hbytes : (queued p ps).bytes = header)
    (hclen : (queued p ps).clen ≤ lwipHttpdReqQueuelen) :
    ((∀ k < ps.length, (queued p (ps.take k)).totLen < header.length →
        ∀ left, parseRequest settings left (queued p (ps.take k)) = .inProgress) ∧
      ∀ left left', parseRequest settings left (queued p ps) =
        parseRequest settings left' { payload := header, next := [] }) ↔
    (∀ k < ps.length, (queued p (ps.take k)).totLen < header.length →
      Harmless settings header (queued p (ps.take k)).totLen) ∧ Decided settings header := by
  have hcut : ∀ k, (queued p (ps.take k)).totLen < header.length →
      ((∀ left, parseRequest settings left (queued p (ps.take k)) = .inProgress) ↔
        Harmless settings header (queued p (ps.take k)).totLen) := by
    intro k hk
    refine inProgress_take_iff h (bytes_queued_take hbytes k) hk (Nat.le_trans ?_ hclen)
    have hle := clen_queued_le p (ps.take k) (ps.drop k)
    rwa [List.take_append_drop] at hle
  have hwhole : (∀ left left', parseRequest settings left (queued p ps) =
      parseRequest settings left' { payload := header, next := [] }) ↔ Decided settings header := by
    have hone : Pbuf.bytes { payload := header, next := [] } = header := List.append_nil _
    have hone' : Pbuf.clen { payload := header, next := [] } ≤ lwipHttpdReqQueuelen :=
      (by decide : 1 ≤ lwipHttpdReqQueuelen)
    have htotLen : (queued p ps).totLen ≤ lwipHttpdMaxReqLength := by
      rw [Pbuf.totLen, hbytes]
      exact h.length_le
    have htotLen' : Pbuf.totLen { payload := header, next := [] } ≤ lwipHttpdMaxReqLength := by
      rw [Pbuf.totLen, hone]
      exact h.length_le
    simp only [parseRequest_eq htotLen hclen, parseRequest_eq htotLen' hone', hbytes, hone]
    exact h.decided_iff
  rw [hwhole]
  refine and_congr_left' ?_
  exact forall_congr' fun k => forall_congr' fun _ => forall_congr' fun hk => hcut k hk

def sampleHeader : List UInt8 := ascii "GET / HTTP/1.1\r\nHost: pico\r\n\r\n"

theorem sampleHeader_complete : RequestHeader sampleHeader where
  method := .inl (by decide)
  hostLine := ⟨14, by decide, by decide⟩
  blankLine := by decide
  first := by decide
  length_le := by decide

def anyHost : ServerSettings where
  hostname := ascii "pico"
  domainName := ascii "local"
  ipAddress := 0
  initialConfig := false
  ip4addrAton := fun _ => none

def piece (text : String) : Pbuf where
  payload := ascii text
  next := []

theorem sampleHeader_waited :
    parseRequest anyHost ⟨7, ascii "stale"⟩ (queued (piece "GET / HT")
      [piece "TP/1.1\r\nHost: pico\r\n", piece "\r\n"]) = .file (ascii "/") false := by
  have hbytes : (queued (piece "GET / HT")
      [piece "TP/1.1\r\nHost: pico\r\n", piece "\r\n"]).bytes = sampleHeader := by decide
  have hdivision := (division_iff anyHost sampleHeader_complete hbytes (by decide)).mpr (by decide)
  exact (hdivision.2 _ ⟨0, []⟩).trans (by decide)

/-- The request line comes alone: it is answered with an error, and not waited for. -/
theorem sampleHeader_refused :
    let p := piece "GET / HTTP/1.1\r\n"
    let ps := [piece "Host: pico\r\n\r\n"]
    RequestHeader sampleHeader ∧ (queued p ps).bytes = sampleHeader ∧
      (queued p ps).clen ≤ lwipHttpdReqQueuelen ∧
      parseRequest anyHost ⟨0, []⟩ { payload := sampleHeader, next := [] } =
        .file (ascii "/") false ∧
      parseRequest anyHost ⟨0, []⟩ (queued p []) = .badRequest ∧
      ¬ ∀ k < ps.length, (queued p (ps.take k)).totLen < sampleHeader.length →
        ∀ left, parseRequest anyHost left (queued p (ps.take k)) = .inProgress := by
  refine ⟨sampleHeader_complete, by decide, by decide, by decide, by decide, fun hall => ?_⟩
  exact absurd (hall 0 (by decide) (by decide) ⟨0, []⟩) (by decide)

end RadProt.Http
