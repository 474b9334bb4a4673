import RadProt.Dns.Server
import RadProt.Http.HostNames
import RadProt.Lib.Access

namespace RadProt.Dns

open RadProt.Lib RadProt.Lib.Access RadProt.Settings RadProt.Http

structure DeviceName where
  host : List UInt8
  domain : List (List UInt8)
  host_plain : Plain host
  domain_plain : ∀ label ∈ domain, label ≠ [] ∧ Plain label

structure QueryName where
  first : List UInt8
  rest : List (List UInt8)
  labels_ok : ∀ label ∈ first :: rest, label ≠ [] ∧ label.length ≤ 63

def QueryName.labels (q : QueryName) : List (List UInt8) := q.first :: q.rest

def encode (labels : List (List UInt8)) : List UInt8 :=
  labels.foldr (fun label rest => label.length.toUInt8 :: label ++ rest) [0]

def DeviceName.dnsSettings (d : DeviceName) (primaryIp secondaryIp : UInt32)
    (ignoreNetworkSuffix : Bool) : DnsServerSettings where
  primaryIp
  secondaryIp
  hostName := d.host
  domainName := dotted d.domain
  ignoreNetworkSuffix

def DeviceName.webSettings (d : DeviceName) (ipAddress : UInt32)
    (ip4addrAton : List UInt8 → Option UInt32) : ServerSettings where
  hostname := d.host
  domainName := dotted d.domain
  ipAddress
  initialConfig := true
  ip4addrAton

/-- `strncasecmp` over the length of the label takes it for the name: it is an initial part of
it, or goes on behind a NUL. -/
def TakenFor (label name : List UInt8) : Prop :=
  fold label <+: fold name ∨ fold name ++ [0] <+: fold label

instance (label name : List UInt8) : Decidable (TakenFor label name) :=
  inferInstanceAs (Decidable (_ ∨ _))

def DeviceName.Owns (d : DeviceName) (ignoreNetworkSuffix : Bool) (q : QueryName) : Prop :=
  fold q.first = fold d.host ∧
    (ignoreNetworkSuffix = true ∨ q.rest = [] ∨ q.rest.map fold = d.domain.map fold)

instance (d : DeviceName) (ignoreNetworkSuffix : Bool) (q : QueryName) :
    Decidable (d.Owns ignoreNetworkSuffix q) := inferInstanceAs (Decidable (_ ∧ _))

def DeviceName.Takes (d : DeviceName) (ignoreNetworkSuffix : Bool) (q : QueryName) : Prop :=
  TakenFor q.first d.host ∧
    (ignoreNetworkSuffix = true ∨ q.rest.map fold <+: d.domain.map fold)

instance (d : DeviceName) (ignoreNetworkSuffix : Bool) (q : QueryName) :
    Decidable (d.Takes ignoreNetworkSuffix q) := inferInstanceAs (Decidable (_ ∧ _))

theorem cString_eq_take_iff {label name : List UInt8} (hname : 0 ∉ name) :
    cString label = name.take label.length ↔ label <+: name ∨ name ++ [0] <+: label := by
  by_cases hzero : 0 ∈ label
  · obtain ⟨rest, hlabel⟩ := exists_of_zero_mem hzero
    have hlt : (cString label).length < label.length := by
      rw [hlabel]
      simp [cString_append (zero_notMem_cString label)]
    have hnot : ¬ label <+: name := fun hpre => hname (hpre.subset hzero)
    rw [or_iff_right hnot]
    constructor
    · intro heq
      have hall : name.take label.length = name := by
        apply List.take_of_length_le
        have hlen := congrArg List.length heq
        rw [List.length_take] at hlen
        omega
      rw [hall] at heq
      refine ⟨rest, ?_⟩
      rw [← heq, List.append_assoc]
      exact hlabel.symm
    · rintro ⟨rest, hrest⟩
      rw [List.append_assoc] at hrest
      have hstring : cString label = name := by
        rw [← hrest, cString_append hname]
        exact List.append_nil name
      have hlen : name.length ≤ label.length := by
        rw [← hrest]
        simp
      rw [hstring, List.take_of_length_le hlen]
  · have hnot : ¬ name ++ [0] <+: label := fun hpre => hzero (hpre.subset (by simp))
    rw [or_iff_left hnot, cString_eq_self hzero]
    exact List.prefix_iff_eq_take.symm

theorem strncaseEq_label_iff (label : List UInt8) {name : List UInt8} (hname : 0 ∉ name) :
    strncaseEq label name label.length = true ↔ TakenFor label name := by
  have hname' : 0 ∉ fold name := by simpa using hname
  have hle : (cString (fold label)).length ≤ (fold label).length := by
    rw [cString]
    exact (List.takeWhile_prefix _).length_le
  rw [strncaseEq_iff, cString_eq_self hname, TakenFor, ← cString_fold, ← length_fold label,
    List.take_of_length_le hle]
  exact cString_eq_take_iff hname'

section Wire

variable {buffer : Nat → UInt8} {size i : Nat} {label : List UInt8} {labels : List (List UInt8)}

theorem encode_cons (label : List UInt8) (labels : List (List UInt8)) :
    encode (label :: labels) = label.length.toUInt8 :: (label ++ encode labels) := rfl

theorem length_byte {n : Nat} (h : n ≤ 63) :
    n.toUInt8 &&& 0xC0 = 0 ∧ (n.toUInt8 &&& 0x3F).toNat = n := by
  have hall : ∀ k < 64, k.toUInt8 &&& 0xC0 = 0 ∧ (k.toUInt8 &&& 0x3F).toNat = k := by decide
  exact hall n (by omega)

theorem map_range_of_holds {a : Nat} (h : Holds buffer a label) :
    (List.range label.length).map (fun k => buffer (a + k)) = label := by
  apply List.ext_getElem
  · simp
  · intro k hk hk'
    rw [List.getElem_map, List.getElem_range]
    exact h k hk'

theorem component_at (h : Holds buffer i (encode (label :: labels)))
    (hlabel : label ≠ [] ∧ label.length ≤ 63) (hsize : i + (encode (label :: labels)).length ≤ size)
    (fuel : Nat) :
    getEncodedDomainNameComponent buffer size (fuel + 1) i =
        some (some { ptr := i + 1, len := label.length }) ∧
      (List.range label.length).map (fun k => buffer (i + 1 + k)) = label ∧
      Holds buffer (i + 1 + label.length) (encode labels) := by
  rw [encode_cons, List.length_cons, List.length_append] at hsize
  rw [encode_cons, holds_cons_iff, holds_append_iff] at h
  obtain ⟨hlen, hbytes, hrest⟩ := h
  obtain ⟨hhigh, hlow⟩ := length_byte hlabel.2
  have hpos : 0 < label.length := List.length_pos_iff.mpr hlabel.1
  refine ⟨?_, map_range_of_holds hbytes, hrest⟩
  rw [getEncodedDomainNameComponent, if_pos (by omega), hlen, if_neg (not_not.mpr hhigh)]
  dsimp only
  rw [hlow, if_neg (by omega), if_neg (by omega)]

theorem end_at (h : Holds buffer i (encode [])) (hsize : i + (encode []).length ≤ size) (fuel : Nat) :
    getEncodedDomainNameComponent buffer size (fuel + 1) i = some none := by
  have hzero : buffer i = 0 := (holds_cons_iff.mp h).1
  have hi : i < size := hsize
  rw [getEncodedDomainNameComponent, if_pos hi, hzero]
  simp

end Wire

section Loop

variable {settings : DnsServerSettings} {buffer : Nat → UInt8} {size i fuel : Nat} {s : Matching}
  {ds labels : List (List UInt8)}

def Expects (settings : DnsServerSettings) (s : Matching) : List (List UInt8) → Prop
  | [] => s.domainComp = none
  | d :: ds => ∃ ptr, s.domainComp = some (ptr, d.length) ∧
    StandsAt settings.domainName ptr (d :: ds) ∧ StandsAt settings.domainName s.domainOff ds

theorem Expects.congr {t : Matching} (h : Expects settings s ds) (hcomp : t.domainComp = s.domainComp)
    (hoff : t.domainOff = s.domainOff) : Expects settings t ds := by
  cases ds with
  | nil => exact hcomp.trans h
  | cons d ds =>
    obtain ⟨ptr, hptr, hhere, hnext⟩ := h
    exact ⟨ptr, hcomp.trans hptr, hhere, hoff ▸ hnext⟩

theorem expects_nextDomainComp (h : StandsAt settings.domainName s.domainOff ds) :
    Expects settings (s.nextDomainComp settings) ds := by
  unfold Matching.nextDomainComp
  cases ds with
  | nil =>
    rw [h.nil]
    exact rfl
  | cons d ds =>
    obtain ⟨next, hnext, hrest⟩ := h.cons
    rw [hnext]
    exact ⟨s.domainOff, rfl, h, hrest⟩

theorem sameDomainComp_iff (label : List UInt8) {d : List UInt8} {ptr : Nat}
    (h : StandsAt settings.domainName ptr (d :: ds)) :
    ((label.length = d.length : Bool) &&
      strncaseEq label (settings.domainName.drop ptr) label.length) = true ↔ fold label = fold d := by
  obtain ⟨hdrop, hlabels⟩ := h
  obtain ⟨-, -, hzero⟩ := hlabels d List.mem_cons_self
  have hstart : ∃ rest, cString (dotted (d :: ds)) = d ++ rest := by
    by_cases hnil : ds = []
    · subst hnil
      exact ⟨[], by rw [dotted_singleton, cString_eq_self hzero, List.append_nil]⟩
    · rw [dotted_cons hnil, cString_append hzero]
      exact ⟨_, rfl⟩
  obtain ⟨rest, hrest⟩ := hstart
  rw [Bool.and_eq_true, decide_eq_true_iff, strncaseEq_iff, hdrop, hrest, fold_append]
  constructor
  · rintro ⟨hlen, heq⟩
    have hprefix : cString label <+: label := List.takeWhile_prefix _
    have hfold : fold (cString label) = fold d := by
      rwa [hlen, List.take_append_of_le_length (Nat.le_of_eq (length_fold d).symm),
        List.take_of_length_le (l := fold d) (Nat.le_of_eq (length_fold d)),
        List.take_of_length_le] at heq
      rw [length_fold, ← hlen]
      exact hprefix.length_le
    have hwhole : cString label = label := by
      apply hprefix.eq_of_length
      rw [hlen, ← length_fold, hfold, length_fold]
    rwa [hwhole] at hfold
  · intro heq
    have hlen : label.length = d.length := by
      rw [← length_fold label, heq, length_fold]
    have hlabel : 0 ∉ label := by
      rw [← zero_mem_fold_iff, heq, zero_mem_fold_iff]
      exact hzero
    refine ⟨hlen, ?_⟩
    rw [cString_eq_self hlabel, heq, hlen, List.take_append_of_le_length (by simp)]

def Component.bytes (c : Component) (buffer : Nat → UInt8) : List UInt8 :=
  (List.range c.len).map fun i => buffer (c.ptr + i)

theorem step_first {c : Component} {label : List UInt8} (hfirst : s.first = true)
    (hlen : c.len = label.length) (hbytes : c.bytes buffer = label) :
    s.step settings buffer c =
      if strncaseEq label settings.hostName label.length = true then
        { s with
          first := false
          isMatch := true
          looseMatch := s.looseMatch || settings.ignoreNetworkSuffix }
      else { s with first := false, isMatch := false } := by
  unfold Matching.step
  rw [Component.bytes, hlen] at hbytes
  simp only [hfirst, hbytes, hlen, true_and, not_true_eq_false, false_and, if_false]

theorem step_of_mismatch {c : Component} (hfirst : s.first = false) (hmatch : s.isMatch = false) :
    s.step settings buffer c = { s with first := false, isMatch := false } := by
  unfold Matching.step
  simp only [hfirst, hmatch, Bool.false_eq_true, false_and, and_false, if_false]

theorem step_of_none {c : Component} (hfirst : s.first = false) (hnone : s.domainComp = none) :
    s.step settings buffer c = { s with first := false, isMatch := false } := by
  unfold Matching.step
  simp only [hfirst, hnone, Bool.false_eq_true, false_and, and_false, if_false]

theorem step_of_some {c : Component} {label : List UInt8} {ptr len : Nat} (hfirst : s.first = false)
    (hmatch : s.isMatch = true) (hcomp : s.domainComp = some (ptr, len))
    (hlen : c.len = label.length) (hbytes : c.bytes buffer = label) :
    s.step settings buffer c =
      if ((label.length = len : Bool) &&
          strncaseEq label (settings.domainName.drop ptr) label.length) = true then
        { s with isMatch := true }.nextDomainComp settings
      else { s with first := false, isMatch := false } := by
  unfold Matching.step
  rw [Component.bytes, hlen] at hbytes
  simp only [hfirst, hmatch, hcomp, hbytes, hlen, Bool.false_eq_true, false_and, if_false,
    not_false_eq_true, true_and]

theorem step_rest {c : Component} {label : List UInt8} (hfirst : s.first = false)
    (hmatch : s.isMatch = true) (hexpects : Expects settings s ds) (hlen : c.len = label.length)
    (hbytes : c.bytes buffer = label) :
    (∃ d ds', ds = d :: ds' ∧ fold label = fold d ∧
        Expects settings (s.step settings buffer c) ds' ∧
        (s.step settings buffer c).isMatch = true ∧ (s.step settings buffer c).first = false ∧
        (s.step settings buffer c).looseMatch = s.looseMatch) ∨
      (∀ d ds', ds = d :: ds' → fold label ≠ fold d) ∧
        s.step settings buffer c = { s with first := false, isMatch := false } := by
  cases ds with
  | nil =>
    rw [step_of_none hfirst hexpects]
    exact .inr ⟨fun d ds' h => (by cases h), rfl⟩
  | cons d ds' =>
    obtain ⟨ptr, hcomp, hhere, hnext⟩ := hexpects
    have hsame := sameDomainComp_iff label hhere
    rw [step_of_some hfirst hmatch hcomp hlen hbytes]
    by_cases heq : fold label = fold d
    · rw [if_pos (hsame.mpr heq)]
      refine .inl ⟨d, ds', rfl, heq, expects_nextDomainComp hnext, ?_⟩
      unfold Matching.nextDomainComp
      split
      · exact ⟨rfl, hfirst, rfl⟩
      · exact ⟨rfl, hfirst, rfl⟩
    · rw [if_neg (mt hsame.mp heq)]
      refine .inr ⟨fun d' ds'' h => ?_, rfl⟩
      obtain ⟨rfl, rfl⟩ := List.cons.inj h
      exact heq

theorem matchLoop_label (settings : DnsServerSettings) {label : List UInt8}
    (h : Holds buffer i (encode (label :: labels)))
    (hlabel : label ≠ [] ∧ label.length ≤ 63) (hsize : i + (encode (label :: labels)).length ≤ size) :
    ∃ c : Component, c.len = label.length ∧ c.bytes buffer = label ∧
      Holds buffer (c.ptr + c.len) (encode labels) ∧
      c.ptr + c.len + (encode labels).length ≤ size ∧
      ∀ fuel s, matchLoop settings buffer size (fuel + 1) i s =
        matchLoop settings buffer size fuel (c.ptr + c.len) (s.step settings buffer c) := by
  refine ⟨{ ptr := i + 1, len := label.length }, rfl, ?_, ?_, ?_, fun fuel s => ?_⟩
  · exact (component_at h hlabel hsize 0).2.1
  · exact (component_at h hlabel hsize 0).2.2
  · rw [encode_cons, List.length_cons, List.length_append] at hsize
    dsimp only
    omega
  · rw [matchLoop, (component_at h hlabel hsize fuel).1]

theorem matchLoop_end (h : Holds buffer i (encode [])) (hsize : i + (encode []).length ≤ size) :
    matchLoop settings buffer size (fuel + 1) i s =
      some (if s.isMatch || s.looseMatch then settings.primaryIp else settings.secondaryIp) := by
  rw [matchLoop, end_at h hsize fuel]

theorem matchLoop_rest (hlabels : ∀ label ∈ labels, label ≠ [] ∧ label.length ≤ 63)
    (h : Holds buffer i (encode labels)) (hsize : i + (encode labels).length ≤ size)
    (hfuel : labels.length < fuel) (hfirst : s.first = false)
    (hexpects : s.isMatch = true → Expects settings s ds) :
    matchLoop settings buffer size fuel i s =
      some (if s.isMatch = true ∧ labels.map fold <+: ds.map fold ∨ s.looseMatch = true
        then settings.primaryIp else settings.secondaryIp) := by
  induction labels generalizing i fuel s ds with
  | nil =>
    obtain ⟨fuel, rfl⟩ := Nat.exists_eq_succ_of_ne_zero (Nat.ne_of_gt hfuel)
    rw [matchLoop_end h hsize]
    simp
  | cons label labels ih =>
    obtain ⟨fuel, rfl⟩ := Nat.exists_eq_succ_of_ne_zero (Nat.ne_of_gt (Nat.zero_lt_of_lt hfuel))
    obtain ⟨c, hlen, hbytes, hrest, hsize', hloop⟩ :=
      matchLoop_label settings h (hlabels label List.mem_cons_self) hsize
    have hlabels' := fun l hl => hlabels l (List.mem_cons_of_mem _ hl)
    have hfuel' : labels.length < fuel := Nat.lt_of_succ_lt_succ hfuel
    rw [hloop]
    cases hmatch : s.isMatch with
    | false =>
      rw [step_of_mismatch hfirst hmatch,
        @ih _ _ _ [] hlabels' hrest hsize' hfuel' rfl fun hfalse => absurd hfalse Bool.false_ne_true]
      simp
    | true =>
      obtain ⟨d, ds', rfl, heq, hexpects', hmatch', hfirst', hloose⟩ | ⟨hne, hstep⟩ :=
        step_rest hfirst hmatch (hexpects hmatch) hlen hbytes
      · rw [ih hlabels' hrest hsize' hfuel' hfirst' fun _ => hexpects', hmatch', hloose]
        simp [heq, List.cons_prefix_cons]
      · rw [hstep, @ih _ _ _ [] hlabels' hrest hsize' hfuel' rfl
          fun hfalse => absurd hfalse Bool.false_ne_true]
        have hnot : ¬ (label :: labels).map fold <+: ds.map fold := by
          cases ds with
          | nil => simp
          | cons d ds' =>
            rw [List.map_cons, List.map_cons, List.cons_prefix_cons]
            exact fun hpre => hne d ds' rfl hpre.1
        rw [List.map_cons] at hnot ⊢
        simp [hnot]

theorem matchLoop_first {label : List UInt8}
    (hlabels : ∀ l ∈ label :: labels, l ≠ [] ∧ l.length ≤ 63)
    (h : Holds buffer i (encode (label :: labels)))
    (hsize : i + (encode (label :: labels)).length ≤ size)
    (hfuel : (label :: labels).length < fuel) (hhost : 0 ∉ settings.hostName)
    (hfirst : s.first = true) (hloose : s.looseMatch = false) (hexpects : Expects settings s ds) :
    matchLoop settings buffer size fuel i s =
      some (if TakenFor label settings.hostName ∧
          (settings.ignoreNetworkSuffix = true ∨ labels.map fold <+: ds.map fold)
        then settings.primaryIp else settings.secondaryIp) := by
  obtain ⟨fuel, rfl⟩ := Nat.exists_eq_succ_of_ne_zero (Nat.ne_of_gt (Nat.zero_lt_of_lt hfuel))
  obtain ⟨c, hlen, hbytes, hrest, hsize', hloop⟩ :=
    matchLoop_label settings h (hlabels label List.mem_cons_self) hsize
  have hlabels' := fun l hl => hlabels l (List.mem_cons_of_mem _ hl)
  have hfuel' : labels.length < fuel := Nat.lt_of_succ_lt_succ hfuel
  have htaken := strncaseEq_label_iff label hhost
  rw [hloop, step_first hfirst hlen hbytes]
  by_cases heq : strncaseEq label settings.hostName label.length = true
  · have hexpects' : Expects settings { s with
        first := false
        isMatch := true
        looseMatch := s.looseMatch || settings.ignoreNetworkSuffix } ds := hexpects.congr rfl rfl
    rw [if_pos heq, matchLoop_rest hlabels' hrest hsize' hfuel' rfl fun _ => hexpects']
    simp [htaken.mp heq, hloose, or_comm]
  · rw [if_neg heq, @matchLoop_rest _ _ _ _ _ _ [] _ hlabels' hrest hsize' hfuel' rfl
      fun hfalse => absurd hfalse Bool.false_ne_true]
    simp [mt htaken.mpr heq, hloose]

end Loop

section Names

variable {d : DeviceName} {q : QueryName} {p s : UInt32} {ignore : Bool} {buffer : Nat → UInt8}
  {offset size fuel : Nat}

theorem getAddress_eq (h : Holds buffer offset (encode q.labels))
    (hsize : offset + (encode q.labels).length ≤ size) (hfuel : q.labels.length < fuel) :
    getAddressForEncodedDomain (d.dnsSettings p s ignore) buffer offset size fuel =
      some (if d.Takes ignore q then p else s) := by
  have hstart : StandsAt (d.dnsSettings p s ignore).domainName 0 d.domain := ⟨rfl, d.domain_plain⟩
  have hexpects : Expects (d.dnsSettings p s ignore) (.init (d.dnsSettings p s ignore)) d.domain :=
    expects_nextDomainComp hstart
  obtain ⟨hfirst, hloose⟩ : (Matching.init (d.dnsSettings p s ignore)).first = true ∧
      (Matching.init (d.dnsSettings p s ignore)).looseMatch = false := by
    unfold Matching.init Matching.nextDomainComp
    split <;> exact ⟨rfl, rfl⟩
  exact matchLoop_first q.labels_ok h hsize hfuel d.host_plain.2 hfirst hloose hexpects

theorem DeviceName.Owns.takes (h : d.Owns ignore q) : d.Takes ignore q := by
  obtain ⟨hfirst, hrest⟩ := h
  refine ⟨.inl (hfirst ▸ List.prefix_rfl), ?_⟩
  obtain hignore | hnil | heq := hrest
  · exact .inl hignore
  · rw [hnil]
    exact .inr List.nil_prefix
  · exact .inr (heq ▸ List.prefix_rfl)

/-- The comparison takes the name, and the first label is not the whole host name, or the others
are only the first labels of the domain. -/
def DeviceName.Abbreviates (d : DeviceName) (ignoreNetworkSuffix : Bool) (q : QueryName) : Prop :=
  d.Takes ignoreNetworkSuffix q ∧ (fold q.first ≠ fold d.host ∨
    ignoreNetworkSuffix = false ∧ q.rest ≠ [] ∧ q.rest.map fold ≠ d.domain.map fold)

instance (d : DeviceName) (ignoreNetworkSuffix : Bool) (q : QueryName) :
    Decidable (d.Abbreviates ignoreNetworkSuffix q) := inferInstanceAs (Decidable (_ ∧ _))

theorem DeviceName.abbreviates_iff : d.Abbreviates ignore q ↔ d.Takes ignore q ∧ ¬ d.Owns ignore q := by
  refine and_congr_right fun _ => ?_
  rw [Owns, not_and_or, not_or, not_or, Bool.not_eq_true]

def QueryName.Dottable (q : QueryName) : Prop := ∀ label ∈ q.labels, Plain label

/-- The dotted name is none of the device's, and `host_name_matches` goes by another reading of
it: by its address, by what the local `addr` holds, or by dots and NULs in its labels. -/
structure DeviceName.Misread (d : DeviceName) (web : ServerSettings) (addr : UInt32) (q : QueryName) :
    Prop where
  foreign : ¬ d.Owns false q
  read : ReadsAddress web (dotted q.labels) ∨ LeftoverAddress web addr (dotted q.labels) ∨
    ¬ q.Dottable ∧ NamesDevice web (dotted q.labels)

section Http

variable {ip4addrAton : List UInt8 → Option UInt32} {addr : UInt32}

theorem zero_notMem_domain (d : DeviceName) : 0 ∉ dotted d.domain := by
  intro hmem
  obtain ⟨label, hlabel, hzero⟩ := mem_dotted hmem (by decide)
  exact (d.domain_plain label hlabel).2.2 hzero

theorem namesDevice_webSettings_iff {text : List UInt8} :
    NamesDevice (d.webSettings p ip4addrAton) text ↔
      fold (cString text) = fold d.host ∨
        fold (cString text) = fold (d.host ++ 46 :: dotted d.domain) := by
  simp only [NamesDevice, DeviceName.webSettings, cString_eq_self d.host_plain.2,
    cString_eq_self (zero_notMem_domain d)]

theorem DeviceName.Owns.namesDevice (h : d.Owns false q) :
    NamesDevice (d.webSettings p ip4addrAton) (dotted q.labels) := by
  obtain ⟨hfirst, hrest⟩ := h
  rw [namesDevice_webSettings_iff, ← cString_fold, fold_dotted, QueryName.labels, List.map_cons, hfirst]
  have hhost : 0 ∉ fold d.host := by simpa using d.host_plain.2
  obtain hignore | hnil | heq := hrest
  · exact absurd hignore Bool.false_ne_true
  · left
    rw [hnil, List.map_nil, dotted_singleton, cString_eq_self hhost]
  · rw [heq]
    by_cases hdomain : d.domain = []
    · left
      rw [hdomain, List.map_nil, dotted_singleton, cString_eq_self hhost]
    · right
      rw [dotted_cons (by simpa using hdomain), ← fold_dotted, fold_append, fold_cons,
        show toLower 46 = 46 from rfl]
      apply cString_eq_self
      simpa [d.host_plain.2] using zero_notMem_domain d

theorem owns_of_namesDevice (hdottable : q.Dottable)
    (h : NamesDevice (d.webSettings p ip4addrAton) (dotted q.labels)) : d.Owns false q := by
  have hzero : 0 ∉ dotted q.labels := by
    intro hmem
    obtain ⟨label, hlabel, hzero⟩ := mem_dotted hmem (by decide)
    exact (hdottable label hlabel).2 hzero
  have hdots : ∀ l ∈ q.labels.map fold, 46 ∉ l := by
    intro l hl
    obtain ⟨label, hlabel, rfl⟩ := List.mem_map.mp hl
    simpa using (hdottable label hlabel).1
  have hhost : 46 ∉ fold d.host := by simpa using d.host_plain.1
  have hdomain : ∀ l ∈ d.domain.map fold, 46 ∉ l := by
    intro l hl
    obtain ⟨label, hlabel, rfl⟩ := List.mem_map.mp hl
    simpa using (d.domain_plain label hlabel).2.1
  have hne : q.labels.map fold ≠ [] := by simp [QueryName.labels]
  rw [namesDevice_webSettings_iff, cString_eq_self hzero, fold_dotted, fold_append, fold_cons,
    fold_dotted, show toLower 46 = 46 from rfl] at h
  obtain h | h := h
  · have hone : q.labels.map fold = [fold d.host] :=
      dotted_inj hdots (by simpa using d.host_plain.1) hne (by simp) (by rw [h, dotted_singleton])
    obtain ⟨hfirst, hrest⟩ := List.cons.inj hone
    exact ⟨hfirst, .inr (.inl (List.map_eq_nil_iff.mp hrest))⟩
  · by_cases hnil : d.domain = []
    · -- The text ends with a dot, and the last label would be empty.
      have htwo : q.labels.map fold = [fold d.host, []] := by
        refine dotted_inj hdots (by simpa using d.host_plain.1) hne (by simp) ?_
        rw [h, hnil, dotted_cons (by simp)]
        simp
      have hmem : [] ∈ q.labels.map fold := by simp [htwo]
      obtain ⟨label, hlabel, hempty⟩ := List.mem_map.mp hmem
      exact absurd (fold_eq_nil_iff.mp hempty) (q.labels_ok label hlabel).1
    · have hall : q.labels.map fold = fold d.host :: d.domain.map fold := by
        refine dotted_inj hdots ?_ hne (by simp) ?_
        · intro l hl
          obtain rfl | hl := List.mem_cons.mp hl
          · exact hhost
          · exact hdomain l hl
        · rw [h, dotted_cons (by simpa using hnil)]
      obtain ⟨hfirst, hrest⟩ := List.cons.inj hall
      exact ⟨hfirst, .inr (.inr hrest)⟩

theorem hostNameMatches_dotted_iff :
    hostNameMatches (d.webSettings p ip4addrAton) addr (dotted q.labels) = true ↔
      d.Owns false q ∨ d.Misread (d.webSettings p ip4addrAton) addr q := by
  rw [hostNameMatches_iff rfl]
  constructor
  · intro h
    by_cases howns : d.Owns false q
    · exact .inl howns
    · refine .inr ⟨howns, h.imp_right fun h => h.imp_right fun hnames => ⟨fun hdottable => ?_, hnames⟩⟩
      exact howns (owns_of_namesDevice hdottable hnames)
  · rintro (howns | ⟨-, hread⟩)
    · exact .inr (.inr howns.namesDevice)
    · exact hread.imp_right fun h => h.imp_right And.right

/-- A query gets the primary address exactly for the names of the device, and the web server takes
the same names, exactly where the name is not abbreviated and not misread. -/
theorem names_agree_iff (h : Holds buffer offset (encode q.labels))
    (hsize : offset + (encode q.labels).length ≤ size) (hfuel : q.labels.length < fuel) :
    (getAddressForEncodedDomain (d.dnsSettings p s ignore) buffer offset size fuel =
          some (if d.Owns ignore q then p else s) ∧
        (ignore = false →
          getAddressForEncodedDomain (d.dnsSettings p s ignore) buffer offset size fuel =
            some (if hostNameMatches (d.webSettings p ip4addrAton) addr (dotted q.labels) = true
              then p else s))) ↔
      p = s ∨ ¬ d.Abbreviates ignore q ∧
        (ignore = false → ¬ d.Misread (d.webSettings p ip4addrAton) addr q) := by
  rw [getAddress_eq h hsize hfuel, d.abbreviates_iff]
  by_cases hps : p = s
  · subst hps
    simp
  · have hsame : ∀ {P Q : Prop} [Decidable P] [Decidable Q],
        some (if P then p else s) = some (if Q then p else s) ↔ (P ↔ Q) := by
      intro P Q _ _
      by_cases hP : P <;> by_cases hQ : Q <;> simp [hP, hQ, hps, Ne.symm hps]
    have howns : (d.Takes ignore q ↔ d.Owns ignore q) ↔ ¬ (d.Takes ignore q ∧ ¬ d.Owns ignore q) := by
      rw [not_and_not_right]
      exact ⟨Iff.mp, fun htakes => ⟨htakes, DeviceName.Owns.takes⟩⟩
    rw [hsame, hsame, howns, or_iff_right hps]
    refine and_congr_right fun hnot => forall_congr' fun hignore => ?_
    subst hignore
    rw [howns.mpr hnot, hostNameMatches_dotted_iff]
    constructor
    · exact fun hiff hmisread => hmisread.foreign (hiff.mpr (.inr hmisread))
    · exact fun hnot => ⟨.inl, fun hor => hor.resolve_right hnot⟩

end Http

end Names

section Sample

def sampleDevice : DeviceName where
  host := ascii "config"
  domain := [ascii "radprot", ascii "net"]
  host_plain := by decide
  domain_plain := by decide

def QueryName.wire (q : QueryName) (i : Nat) : UInt8 := (encode q.labels).getD i 0

theorem holds_wire (q : QueryName) : Holds q.wire 0 (encode q.labels) := by
  intro i hi
  rw [QueryName.wire, Nat.zero_add]
  simp [hi]

def fullName : QueryName where
  first := ascii "Config"
  rest := [ascii "radprot", ascii "net"]
  labels_ok := by decide

def cutName : QueryName where
  first := ascii "conf"
  rest := []
  labels_ok := by decide

def cutDomain : QueryName where
  first := ascii "config"
  rest := [ascii "radprot"]
  labels_ok := by decide

theorem fullName_agrees :
    getAddressForEncodedDomain (sampleDevice.dnsSettings 1 2 false) fullName.wire 0
        (encode fullName.labels).length 4 = some 1 ∧
      hostNameMatches (sampleDevice.webSettings 1 fun _ => none) 0 (dotted fullName.labels) = true := by
  have howns : sampleDevice.Owns false fullName := by decide
  have hagree := (@names_agree_iff sampleDevice fullName 1 2 false fullName.wire 0
    (encode fullName.labels).length 4 (fun _ => none) 0 (holds_wire fullName)
    (Nat.le_of_eq (Nat.zero_add _)) (by decide)).mpr (.inr ⟨by decide, fun _ h => h.foreign howns⟩)
  rw [if_pos howns] at hagree
  exact ⟨hagree.1, hostNameMatches_dotted_iff.mpr (.inl howns)⟩

/-- An initial part of the host name gets the primary address, and so does the host name with an
initial part of the domain; the web server takes neither. -/
theorem abbreviated_taken :
    (¬ sampleDevice.Owns false cutName ∧
      getAddressForEncodedDomain (sampleDevice.dnsSettings 1 2 false) cutName.wire 0
        (encode cutName.labels).length 2 = some 1 ∧
      hostNameMatches (sampleDevice.webSettings 1 fun _ => none) 0 (dotted cutName.labels) = false) ∧
    ¬ sampleDevice.Owns false cutDomain ∧
      getAddressForEncodedDomain (sampleDevice.dnsSettings 1 2 false) cutDomain.wire 0
        (encode cutDomain.labels).length 3 = some 1 ∧
      hostNameMatches (sampleDevice.webSettings 1 fun _ => none) 0 (dotted cutDomain.labels) = false := by
  refine ⟨⟨?_, ?_, ?_⟩, ?_, ?_, ?_⟩
  all_goals decide +kernel

end Sample

end RadProt.Dns
