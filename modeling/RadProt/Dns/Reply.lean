import RadProt.Dns.Server
import RadProt.Lib.Bits
import RadProt.Lib.DnsMessage
import Mathlib.Data.List.GetD

namespace RadProt.Dns

open RadProt.Lib

/-! What the server sends, against what a message of the domain name system is. -/

def query : DnsMessage.Parser (DnsMessage.Header × DnsMessage.Question) := do
  let header ← DnsMessage.header
  return (header, ← DnsMessage.question)

structure AnswersQuestion (h : DnsMessage.Header) (q : DnsMessage.Question)
    (m : DnsMessage.Message) : Prop where
  id_eq : m.header.id = h.id
  isResponse : m.header.flags.testBit 15 = true
  questions_eq : m.questions = [q]
  /-- Its name is a pointer to that of the question. -/
  answers_eq : ∃ a, m.answers = [a] ∧ a.type = 1 ∧ a.class' = 1 ∧ a.data.length = 4 ∧
    a.name = { written := [], pointer := some (sizeofHeader, q.name.labels) }
  authority_eq : m.authority = []
  additional_eq : m.additional = []

def WellFormedReply (datagram reply : List UInt8) : Prop :=
  ∃ h q c m, query (DnsMessage.start datagram) = some ((h, q), c) ∧
    DnsMessage.parse reply = some m ∧ AnswersQuestion h q m

section Reply

variable {settings : DnsServerSettings} {packet : Nat → UInt8} {datagram reply : List UInt8}
  {fuel : Nat} {turn : Turn}

def replyBytes (x y high low : UInt8) (rest : List UInt8) (ip : UInt32) : List UInt8 :=
  x :: y :: (high ||| 0x80) :: low :: 0 :: 1 :: 0 :: 1 :: 0 :: 0 :: 0 :: 0 ::
    (rest ++ (0xC0 :: 12 :: resourceRecord ip))

theorem received_of_lt {i : Nat} (hi : i < datagram.length) :
    received packet datagram i = datagram.getD i 0 := if_pos hi

theorem eq_map_getD_append {n : Nat} {s : List UInt8} (h : n ≤ s.length) :
    s = (List.range n).map (s.getD · 0) ++ s.drop n := by
  have htake : (List.range n).map (s.getD · 0) = s.take n := by
    refine List.ext_getElem (by simp [h]) fun i hi _ => ?_
    rw [List.length_map, List.length_range] at hi
    rw [List.getElem_map, List.getElem_range, List.getElem_take,
      List.getD_eq_getElem _ _ (Nat.lt_of_lt_of_le hi h)]
  rw [htake, List.take_append_drop]

theorem exists_of_headerOk (h : headerOk (received packet datagram) datagram.length = true) :
    datagram.length < sizeofPacket - sizeofResourceRecord - 2 ∧
      ∃ x y high low rest,
        datagram = x :: y :: high :: low :: 0 :: 1 :: 0 :: 0 :: 0 :: 0 :: 0 :: 0 :: rest := by
  simp only [headerOk, Bool.decide_and, Bool.and_eq_true, decide_eq_true_eq] at h
  obtain ⟨hle, hlt, -, -, h4, h5, h6, h7, h8, h9, h10, h11⟩ := h
  refine ⟨hlt, datagram.getD 0 0, datagram.getD 1 0, datagram.getD 2 0, datagram.getD 3 0,
    datagram.drop 12, ?_⟩
  rw [sizeofHeader] at hle
  have hbytes := eq_map_getD_append hle
  have hrange : List.range 12 = [0, 1, 2, 3, 4, 5, 6, 7, 8, 9, 10, 11] := rfl
  rw [received_of_lt (by omega)] at h4 h5 h6 h7 h8 h9 h10 h11
  simp only [hrange, List.map_cons, List.map_nil, h4, h5, h6, h7, h8, h9, h10, h11,
    List.cons_append, List.nil_append] at hbytes
  exact hbytes

def answered (packet : Nat → UInt8) (done : Nat) (record : List UInt8) : Nat → UInt8 := fun i =>
  if done + 2 ≤ i ∧ i < done + 2 + record.length then record.getD (i - (done + 2)) 0
  else edited packet done i

section Packet

variable {x y high low : UInt8} {rest record : List UInt8}

theorem answered_header (packet : Nat → UInt8) (x y high low : UInt8) (rest record : List UInt8) :
    let datagram := x :: y :: high :: low :: 0 :: 1 :: 0 :: 0 :: 0 :: 0 :: 0 :: 0 :: rest
    (List.range 12).map (answered (received packet datagram) datagram.length record) =
      [x, y, high ||| 0x80, low, 0, 1, 0, 1, 0, 0, 0, 0] := by
  intro datagram
  have hlength : datagram.length = rest.length + 12 := rfl
  have hfar {i : Nat} (hi : i < 12) : answered (received packet datagram) datagram.length record i =
      if i = 7 then 1 else if i = 6 then 0
      else if i = 2 then datagram.getD 2 0 ||| 0x80 else datagram.getD i 0 := by
    rw [answered, if_neg (by omega), edited, if_neg (by omega), if_neg (by omega),
      received_of_lt (by omega), received_of_lt (by omega)]
  have hrange : List.range 12 = [0, 1, 2, 3, 4, 5, 6, 7, 8, 9, 10, 11] := rfl
  rw [hrange]
  simp only [List.map_cons, List.map_nil]
  rw [hfar (by decide), hfar (by decide), hfar (by decide), hfar (by decide), hfar (by decide),
    hfar (by decide), hfar (by decide), hfar (by decide), hfar (by decide), hfar (by decide),
    hfar (by decide), hfar (by decide)]
  rfl

theorem answered_question :
    (List.range (datagram.length - 12)).map
      (fun i => answered (received packet datagram) datagram.length record (12 + i)) =
        datagram.drop 12 := by
  refine List.ext_getElem (by simp) fun i hi _ => ?_
  rw [List.length_map, List.length_range] at hi
  rw [List.getElem_map, List.getElem_range, List.getElem_drop, answered, if_neg (by omega), edited,
    if_neg (by omega), if_neg (by omega), if_neg (by omega), if_neg (by omega), if_neg (by omega),
    received_of_lt (by omega), List.getD_eq_getElem]

theorem answered_answer (packet : Nat → UInt8) (done : Nat) (record : List UInt8) :
    (List.range (2 + record.length)).map (fun i => answered packet done record (done + i)) =
      0xC0 :: 12 :: record := by
  have hrecord : (List.range record.length).map
      (fun i => answered packet done record (done + (2 + i))) = record := by
    refine List.ext_getElem (by simp) fun i hi _ => ?_
    rw [List.length_map, List.length_range] at hi
    rw [List.getElem_map, List.getElem_range, answered, if_pos (by omega),
      List.getD_eq_getElem _ _ (by omega)]
    congr 1
    omega
  have hfirst : answered packet done record (done + 0) = 0xC0 := by
    rw [answered, if_neg (by omega), edited, if_neg (by omega), if_pos (Nat.add_zero done)]
  have hsecond : answered packet done record (done + 1) = 12 := by
    rw [answered, if_neg (by omega), edited, if_pos rfl]
    rfl
  have hrange : List.range 2 = [0, 1] := rfl
  rw [List.range_add, List.map_append, List.map_map, hrange]
  simp only [List.map_cons, List.map_nil, hfirst, hsecond, List.cons_append, List.nil_append]
  exact congrArg (fun s => 0xC0 :: 12 :: s) hrecord

theorem map_answered (packet : Nat → UInt8) (record : List UInt8)
    (hdatagram :
      datagram = x :: y :: high :: low :: 0 :: 1 :: 0 :: 0 :: 0 :: 0 :: 0 :: 0 :: rest) :
    (List.range (datagram.length + 2 + record.length)).map
      (answered (received packet datagram) datagram.length record) =
        x :: y :: (high ||| 0x80) :: low :: 0 :: 1 :: 0 :: 1 :: 0 :: 0 :: 0 :: 0 ::
          (rest ++ (0xC0 :: 12 :: record)) := by
  have hle : 12 ≤ datagram.length := by
    rw [hdatagram]
    exact Nat.le_add_left 12 rest.length
  have hdrop : datagram.drop 12 = rest := by rw [hdatagram]; rfl
  have hsplit : datagram.length + 2 + record.length =
      12 + ((datagram.length - 12) + (2 + record.length)) := by omega
  have hmore (i : Nat) : 12 + (datagram.length - 12 + i) = datagram.length + i := by omega
  have hheader := answered_header packet x y high low rest record
  rw [← hdatagram] at hheader
  rw [hsplit, List.range_add, List.range_add, List.map_append, List.map_append, List.map_append,
    hheader, List.map_map, List.map_map, List.map_map]
  simp only [Function.comp_def, hmore]
  rw [answered_question, answered_answer, hdrop]
  rfl

end Packet

theorem turn_of_headerOk (hok : headerOk (received packet datagram) datagram.length = true)
    (hturn : serverTurn settings packet datagram fuel = some turn) :
    ∃ ip,
      getAddressForEncodedDomain settings (edited (received packet datagram) datagram.length)
        sizeofHeader datagram.length fuel = some ip ∧
      turn.reply = some ((List.range (datagram.length + 2 + (resourceRecord ip).length)).map
        (answered (received packet datagram) datagram.length (resourceRecord ip))) := by
  rw [serverTurn] at hturn
  dsimp only at hturn
  rw [if_pos hok] at hturn
  split at hturn
  next => cases hturn
  next ip hip =>
    obtain rfl := Option.some.inj hturn
    exact ⟨ip, hip, rfl⟩

theorem reply_eq (hturn : serverTurn settings packet datagram fuel = some turn)
    (hreply : turn.reply = some reply) :
    datagram.length < sizeofPacket - sizeofResourceRecord - 2 ∧
      ∃ x y high low rest ip,
        datagram = x :: y :: high :: low :: 0 :: 1 :: 0 :: 0 :: 0 :: 0 :: 0 :: 0 :: rest ∧
        reply = replyBytes x y high low rest ip := by
  by_cases hok : headerOk (received packet datagram) datagram.length = true
  · obtain ⟨hlt, x, y, high, low, rest, hdatagram⟩ := exists_of_headerOk hok
    obtain ⟨ip, -, hsent⟩ := turn_of_headerOk hok hturn
    obtain rfl := Option.some.inj (hsent.symm.trans hreply)
    exact ⟨hlt, x, y, high, low, rest, ip, hdatagram,
      map_answered packet (resourceRecord ip) hdatagram⟩
  · obtain rfl := Option.some.inj ((if_neg hok).symm.trans hturn)
    cases hreply

theorem testBit_response (high low : UInt8) :
    (DnsMessage.ofBigEndian [high ||| 0x80, low]).testBit 15 = true := by
  have hhigh := forall_byte (P := fun x => 128 ≤ (x ||| 0x80).toNat) (by decide +kernel) high
  have hlt := (high ||| 0x80).toNat_lt
  have hlow := low.toNat_lt
  simp only [DnsMessage.ofBigEndian, List.foldl_cons, List.foldl_nil,
    Nat.testBit_eq_decide_div_mod_eq, decide_eq_true_eq]
  omega

theorem header_of_reply (x y high low : UInt8) (rest : List UInt8) (ip : UInt32) :
    DnsMessage.header (DnsMessage.start (replyBytes x y high low rest ip)) = some
      ({
        id := DnsMessage.ofBigEndian [x, y]
        flags := DnsMessage.ofBigEndian [high ||| 0x80, low]
        qdCount := 1
        anCount := 1
        nsCount := 0
        arCount := 0 },
      { rest := rest ++ (0xC0 :: 12 :: resourceRecord ip), offset := 12, names := [] }) :=
  DnsMessage.header_of_bytes [x, y] _ [0, 1] [0, 1] [0, 0] [0, 0] rfl rfl rfl rfl rfl rfl rfl

theorem query_eq_some {h : DnsMessage.Header} {q : DnsMessage.Question}
    {c c₁ c₂ : DnsMessage.Cursor} (hheader : DnsMessage.header c = some (h, c₁))
    (hquestion : DnsMessage.question c₁ = some (q, c₂)) : query c = some ((h, q), c₂) := by
  simp only [query, DnsMessage.bind_eq_some_iff, DnsMessage.pure_eq_some_iff]
  exact ⟨h, c₁, hheader, q, c₂, hquestion, rfl, rfl⟩

theorem query_of_isQuestion {q : DnsMessage.Question} (x y high low : UInt8)
    {rest : List UInt8} (hq : DnsMessage.IsQuestion q rest) :
    ∃ h c, query (DnsMessage.start
        (x :: y :: high :: low :: 0 :: 1 :: 0 :: 0 :: 0 :: 0 :: 0 :: 0 :: rest)) =
      some ((h, q), c) ∧ h.id = DnsMessage.ofBigEndian [x, y] := by
  let c₁ : DnsMessage.Cursor := { rest, offset := 12, names := [] }
  obtain ⟨c, hquestion, -⟩ :=
    DnsMessage.question_of_isQuestion (c := c₁) hq (List.append_nil rest).symm
  have hheader := DnsMessage.header_of_bytes (t := rest) [x, y] [high, low] [0, 1] [0, 0] [0, 0] [0, 0]
    rfl rfl rfl rfl rfl rfl (c := DnsMessage.start
      (x :: y :: high :: low :: 0 :: 1 :: 0 :: 0 :: 0 :: 0 :: 0 :: 0 :: rest)) rfl
  exact ⟨_, c, query_eq_some hheader hquestion, rfl⟩

/-- The reply is a message that answers the query exactly when the datagram is a header and one
complete question. -/
theorem reply_wellFormed_iff (hturn : serverTurn settings packet datagram fuel = some turn)
    (hreply : turn.reply = some reply) :
    reply.length ≤ sizeofPacket ∧ WellFormedReply datagram reply ↔
      ∃ q, DnsMessage.IsQuestion q (datagram.drop sizeofHeader) := by
  obtain ⟨hlt, x, y, high, low, rest, ip, rfl, rfl⟩ := reply_eq hturn hreply
  have hheader := header_of_reply x y high low rest ip
  have hdrop : (x :: y :: high :: low :: 0 :: 1 :: 0 :: 0 :: 0 :: 0 :: 0 :: 0 :: rest).drop
      sizeofHeader = rest := rfl
  rw [hdrop]
  constructor
  · rintro ⟨-, h, q, c, m, -, hparse, hanswers⟩
    obtain ⟨c', hmessage, hnil⟩ := DnsMessage.parse_eq_some_iff.mp hparse
    obtain ⟨q', a, c₂, hquestion, hrecord, rfl⟩ :=
      (DnsMessage.message_eq_some_iff hheader rfl rfl rfl rfl).mp hmessage
    obtain ⟨a', ha, -, -, hdata, hname⟩ := hanswers.answers_eq
    obtain rfl := (List.cons.inj ha).1
    have hlength := DnsMessage.length_of_record hrecord (by rw [hname]) (by rw [hname]; simp)
    obtain ⟨bytes, hbytes, hq⟩ := DnsMessage.isQuestion_of_question hquestion rfl
    rw [hnil, hdata] at hlength
    have hrest : rest = bytes := by
      refine (List.append_inj' hbytes ?_).1
      rw [hlength]
      rfl
    exact ⟨q', hrest ▸ hq⟩
  · rintro ⟨q, hq⟩
    have hfits : (replyBytes x y high low rest ip).length ≤ sizeofPacket := by
      have hlength : (replyBytes x y high low rest ip).length = rest.length + 28 := by
        simp [replyBytes, resourceRecord]
      simp only [sizeofPacket, sizeofResourceRecord, List.length_cons] at hlt ⊢
      omega
    refine ⟨hfits, ?_⟩
    obtain ⟨h, c, hquery, hid⟩ := query_of_isQuestion x y high low hq
    obtain ⟨c₂, hquestion, hrest₂, hknown⟩ := DnsMessage.question_of_isQuestion
      (c := { rest := rest ++ (0xC0 :: 12 :: resourceRecord ip), offset := 12, names := [] })
      hq rfl
    obtain ⟨c₃, hname, hrest₃⟩ := DnsMessage.name_of_pointer (by decide) hrest₂ hknown
      hq.size_le
    obtain ⟨c₄, hrecord, hrest₄⟩ := DnsMessage.record_of_name (t := []) [0, 1] [0, 1] [0, 0, 0, 1]
      [0, 4] ((resourceRecord ip).drop 10) hname hrest₃ rfl rfl rfl rfl rfl
    have hmessage := (DnsMessage.message_eq_some_iff hheader rfl rfl rfl rfl).mpr
      ⟨q, _, c₂, hquestion, hrecord, rfl⟩
    exact ⟨h, q, c, _, hquery, DnsMessage.parse_eq_some_iff.mpr ⟨c₄, hmessage, hrest₄⟩,
      hid.symm, testBit_response high low, rfl, ⟨_, rfl, rfl, rfl, rfl, rfl⟩, rfl, rfl⟩

end Reply

section Samples

def accessPoint : DnsServerSettings where
  primaryIp := 0x0104A8C0
  secondaryIp := 0x0204A8C0
  hostName := ascii "radprot"
  domainName := ascii "local"
  ignoreNetworkSuffix := true

def completeQuery : List UInt8 :=
  [18, 52, 1, 0, 0, 1, 0, 0, 0, 0, 0, 0, 7, 114, 97, 100, 112, 114, 111, 116, 0, 0, 1, 0, 1]

theorem completeQuery_answered :
    ∃ turn reply, serverTurn accessPoint (fun _ => 0) completeQuery 3 = some turn ∧
      turn.reply = some reply ∧ reply.length ≤ sizeofPacket ∧
      WellFormedReply completeQuery reply := by
  have hrun : ((serverTurn accessPoint (fun _ => 0) completeQuery 3).bind Turn.reply).isSome =
      true := by decide +kernel
  obtain ⟨reply, hreply⟩ := Option.isSome_iff_exists.mp hrun
  obtain ⟨turn, hturn, hreply⟩ := Option.bind_eq_some_iff.mp hreply
  let q : DnsMessage.Question := {
    name := { written := [ascii "radprot"], pointer := none }
    type := 1
    class' := 1 }
  have hq : DnsMessage.IsQuestion q (completeQuery.drop sizeofHeader) := {
    name_eq := rfl
    label_length := by decide +kernel
    size_le := by decide +kernel
    bytes_eq := ⟨[0, 1], [0, 1], by decide +kernel, rfl, rfl, rfl, rfl⟩ }
  exact ⟨turn, reply, hturn, hreply, (reply_wellFormed_iff hturn hreply).mpr ⟨q, hq⟩⟩

def headerOnly : List UInt8 := [18, 52, 1, 0, 0, 1, 0, 0, 0, 0, 0, 0]

/-- Its answer stands where the question should be. -/
theorem headerOnly_malformed :
    ∃ turn reply, serverTurn accessPoint (fun _ => 0) headerOnly 1 = some turn ∧
      turn.reply = some reply ∧
      ¬ (reply.length ≤ sizeofPacket ∧ WellFormedReply headerOnly reply) := by
  have hrun : (serverTurn accessPoint (fun _ => 0) headerOnly 1).bind Turn.reply =
      some [18, 52, 129, 0, 0, 1, 0, 1, 0, 0, 0, 0, 0xC0, 12, 0, 1, 0, 1, 0, 0, 0, 1, 0, 4,
        192, 168, 4, 2] := by decide +kernel
  obtain ⟨turn, hturn, hreply⟩ := Option.bind_eq_some_iff.mp hrun
  refine ⟨turn, _, hturn, hreply, ?_⟩
  rintro ⟨-, h, q, c, m, -, hparse, -⟩
  have hnone : DnsMessage.parse [18, 52, 129, 0, 0, 1, 0, 1, 0, 0, 0, 0, 0xC0, 12, 0, 1, 0, 1, 0, 0,
      0, 1, 0, 4, 192, 168, 4, 2] = none := by decide +kernel
  cases hnone.symm.trans hparse

end Samples

end RadProt.Dns
