import RadProt.Mqtt.Length

namespace RadProt.Mqtt

open RadProt.Lib

inductive RecvTurn
  /-- The socket is invalid, or its timeout cannot be set. -/
  | unusable
  /-- `lwip_recv` fails, or gives at most so many bytes; then the timer has expired or not. -/
  | recv (room : Option Nat) (expired : Bool)

structure Link where
  incoming : List UInt8
  turns : List RecvTurn

/-- What reads from the network; `none` while the turns do not end it. -/
abbrev Reading := StateT Link Option

structure Read where
  rc : Int
  stored : List UInt8

def recvLoop (len : Nat) (got : List UInt8) : List RecvTurn → List UInt8 → Option (Read × Link)
  | [], _ => none
  | .unusable :: turns, incoming => some (⟨-1, got⟩, ⟨incoming, turns⟩)
  | .recv none expired :: turns, incoming =>
    some (⟨if expired then 0 else -1, got⟩, ⟨incoming, turns⟩)
  | .recv (some room) expired :: turns, incoming =>
    let k := min room (len - got.length)
    let got := got ++ incoming.take k
    if got.length < len ∧ expired = false then recvLoop len got turns (incoming.drop k)
    else some (⟨if expired then 0 else got.length, got⟩, ⟨incoming.drop k, turns⟩)

def freeRtosRead (len : Nat) : Reading Read := fun link => recvLoop len [] link.turns link.incoming

def readCharacter : Reading (Option UInt8) := do
  let r ← freeRtosRead 1
  return if r.rc = 1 then r.stored.head? else none

def decodePacket : Reading Nat := do return (← mqttPacketDecode readCharacter).2

def bufferOverflow : Int := -2

def headerType (header : UInt8) : Nat := header.toNat / 16

/-- `readPacket` with a buffer of `readbufSize` bytes: its result, and what is in the buffer. -/
def readPacket (readbufSize : Nat) : Reading Read := do
  let header ← freeRtosRead 1
  if header.rc ≠ 1 then return header
  let remLen ← decodePacket
  let front := header.stored ++ mqttPacketEncode remLen
  -- `size_t` arithmetic
  if (readbufSize + 2 ^ 32 - front.length) % 2 ^ 32 < remLen then return ⟨bufferOverflow, front⟩
  if remLen = 0 then return ⟨headerType (header.stored.headD 0), front⟩
  let body ← freeRtosRead remLen
  if body.rc ≠ remLen then return ⟨0, front ++ body.stored⟩
  return ⟨headerType (header.stored.headD 0), front ++ body.stored⟩

structure WirePacket where
  header : UInt8
  body : List UInt8
  length_lt : body.length < 128 ^ 4

namespace WirePacket

variable (p : WirePacket)

def bytes : List UInt8 := p.header :: (mqttPacketEncode p.body.length ++ p.body)

def Fits (size : Nat) : Prop := p.bytes.length ≤ size

end WirePacket

/-- Data comes in each turn, and in time. -/
def Prompt (turns : List RecvTurn) : Prop := ∀ t ∈ turns, ∃ n, t = .recv (some (n + 1)) false

/-- From prompt turns, `x` takes `bs` off the stream and gives `v`. -/
def Delivers {α : Type} (x : Reading α) (bs : List UInt8) (v : α) : Prop :=
  ∀ rest turns, Prompt turns → bs.length ≤ turns.length →
    ∃ turns', x ⟨bs ++ rest, turns⟩ = some (v, ⟨rest, turns'⟩) ∧ Prompt turns' ∧
      turns.length ≤ bs.length + turns'.length

section Prompt

variable {turns : List RecvTurn} {incoming got : List UInt8} {len spare : Nat}

theorem recvLoop_prompt (hturns : Prompt turns) (hgot : got.length < len)
    (hincoming : len - got.length ≤ incoming.length)
    (hlength : len - got.length + spare ≤ turns.length) :
    ∃ turns', recvLoop len got turns incoming =
        some (⟨len, got ++ incoming.take (len - got.length)⟩,
          ⟨incoming.drop (len - got.length), turns'⟩) ∧
      Prompt turns' ∧ spare ≤ turns'.length := by
  induction turns generalizing got incoming with
  | nil =>
    rw [List.length_nil] at hlength
    omega
  | cons t turns ih =>
    obtain ⟨n, rfl⟩ := hturns t List.mem_cons_self
    have hrest : Prompt turns := fun t ht => hturns t (List.mem_cons_of_mem _ ht)
    have hmin : min (n + 1) (len - got.length) ≤ incoming.length :=
      (Nat.min_le_right _ _).trans hincoming
    rw [List.length_cons] at hlength
    rw [recvLoop]
    simp only [List.length_append, List.length_take, Nat.min_eq_left hmin]
    by_cases hmore : got.length + min (n + 1) (len - got.length) < len
    · have hk : min (n + 1) (len - got.length) = n + 1 := by omega
      have hgot' : (got ++ incoming.take (n + 1)).length = got.length + (n + 1) := by
        rw [List.length_append, List.length_take, Nat.min_eq_left (hk ▸ hmin)]
      rw [if_pos ⟨hmore, trivial⟩, hk]
      rw [hk] at hmore
      obtain ⟨turns', heq, hturns', hspare⟩ :=
        @ih (incoming.drop (n + 1)) (got ++ incoming.take (n + 1)) hrest (by rwa [hgot'])
          (by rw [hgot', List.length_drop]; omega) (by rw [hgot']; omega)
      refine ⟨turns', ?_, hturns', hspare⟩
      have hsplit : len - got.length = n + 1 + (len - (got.length + (n + 1))) := by omega
      have htake : incoming.take (len - got.length) = incoming.take (n + 1) ++
          (incoming.drop (n + 1)).take (len - (got.length + (n + 1))) :=
        (congrArg (incoming.take ·) hsplit).trans List.take_add
      rw [heq, hgot', List.append_assoc, List.drop_drop, ← htake, ← hsplit]
    · have hk : min (n + 1) (len - got.length) = len - got.length := by omega
      have hlen : got.length + (len - got.length) = len := by omega
      rw [if_neg fun h => hmore h.1, hk, hlen]
      exact ⟨turns, rfl, hrest, by omega⟩

end Prompt

namespace Delivers

variable {α β : Type} {x : Reading α} {f : α → Reading β} {v : α} {w : β} {bs cs : List UInt8}

theorem pure (v : α) : Delivers (pure v) [] v :=
  fun _ turns hturns _ => ⟨turns, rfl, hturns, Nat.le_add_left _ _⟩

theorem bind (hx : Delivers x bs v) (hf : Delivers (f v) cs w) :
    Delivers (x >>= f) (bs ++ cs) w := by
  intro rest turns hturns hlength
  rw [List.length_append] at hlength
  obtain ⟨turns₁, hx, hturns₁, hle₁⟩ := hx (cs ++ rest) turns hturns (by omega)
  obtain ⟨turns₂, hf, hturns₂, hle₂⟩ := hf rest turns₁ hturns₁ (by omega)
  refine ⟨turns₂, ?_, hturns₂, by rw [List.length_append]; omega⟩
  rw [List.append_assoc]
  simp only [Bind.bind, StateT.bind, hx, Option.bind_some, hf]

theorem bind_last (hx : Delivers x bs v) (hf : Delivers (f v) [] w) : Delivers (x >>= f) bs w := by
  rw [← List.append_nil bs]
  exact hx.bind hf

theorem bind_pure (hx : Delivers x bs v) (g : α → β) : Delivers (do return g (← x)) bs (g v) :=
  hx.bind_last (.pure (g v))

theorem freeRtosRead {n : Nat} (hn : 0 < n) (hbs : bs.length = n) :
    Delivers (freeRtosRead n) bs ⟨n, bs⟩ := by
  intro rest turns hturns hlength
  have hgot : ([] : List UInt8).length < n := hn
  obtain ⟨turns', heq, hturns', hle⟩ := @recvLoop_prompt turns (bs ++ rest) [] n
    (turns.length - n) hturns hgot (by simp [hbs]) (by simp; omega)
  refine ⟨turns', ?_, hturns', by omega⟩
  rw [Mqtt.freeRtosRead, heq]
  simp only [List.length_nil, Nat.sub_zero, List.nil_append, ← hbs, List.take_left, List.drop_left]

theorem readCharacter (c : UInt8) : Delivers readCharacter [c] (some c) :=
  (freeRtosRead Nat.one_pos rfl).bind_pure fun r => if r.rc = 1 then r.stored.head? else none

end Delivers

section Decode

theorem supplies_readCharacter (cs rest : List UInt8) {turns : List RecvTurn}
    (hturns : Prompt turns) (hlength : cs.length ≤ turns.length) :
    ∃ turns', Supplies readCharacter ⟨cs ++ rest, turns⟩ cs ⟨rest, turns'⟩ ∧ Prompt turns' ∧
      turns.length ≤ cs.length + turns'.length := by
  induction cs generalizing turns with
  | nil => exact ⟨turns, .nil, hturns, Nat.le_add_left _ _⟩
  | cons c cs ih =>
    rw [List.length_cons] at hlength
    obtain ⟨turns₁, hc, hturns₁, hle₁⟩ :=
      Delivers.readCharacter c (cs ++ rest) turns hturns (by rw [List.length_singleton]; omega)
    rw [List.length_singleton] at hle₁
    obtain ⟨turns₂, hcs, hturns₂, hle₂⟩ := ih hturns₁ (by omega)
    exact ⟨turns₂, .cons hc hcs, hturns₂, by rw [List.length_cons]; omega⟩

theorem Delivers.decodePacket {n : Nat} (hn : n < 128 ^ 4) :
    Delivers decodePacket (mqttPacketEncode n) n := by
  refine Delivers.bind_pure (v := ((mqttPacketEncode n).length, n)) ?_ Prod.snd
  intro rest turns hturns hlength
  obtain ⟨turns', hs, hturns', hle⟩ := supplies_readCharacter _ rest hturns hlength
  exact ⟨turns', mqttPacketDecode_encode hn hs, hturns', hle⟩

end Decode

section Packets

variable {size : Nat} (p : WirePacket)

theorem Delivers.readPacket (hsize : size < 2 ^ 32) (hfits : p.Fits size) :
    Delivers (readPacket size) p.bytes ⟨headerType p.header, p.bytes⟩ := by
  have hlength : 1 + (mqttPacketEncode p.body.length).length + p.body.length ≤ size := by
    have h := hfits
    rw [WirePacket.Fits, WirePacket.bytes, List.length_cons, List.length_append] at h
    omega
  have hroom : ¬ (size + 2 ^ 32 - (1 + (mqttPacketEncode p.body.length).length)) % 2 ^ 32 <
      p.body.length := by
    omega
  rw [Mqtt.readPacket, WirePacket.bytes, ← List.singleton_append]
  refine (Delivers.freeRtosRead Nat.one_pos rfl).bind ?_
  refine (Delivers.decodePacket p.length_lt).bind ?_
  dsimp only [List.headD_cons]
  rw [List.length_append, List.length_singleton, if_neg hroom, ← List.append_assoc]
  by_cases hbody : p.body = []
  · rw [hbody, List.length_nil, if_pos rfl, List.append_nil]
    exact .pure _
  · have hpos : 0 < p.body.length := List.length_pos_iff.mpr hbody
    rw [if_neg (Nat.ne_of_gt hpos)]
    refine (Delivers.freeRtosRead hpos rfl).bind_last ?_
    rw [if_neg (not_not_intro rfl)]
    exact .pure _

def readPackets (readbufSize : Nat) : Nat → Reading (List Read)
  | 0 => return []
  | n + 1 => do
    let r ← readPacket readbufSize
    return r :: (← readPackets readbufSize n)

/-- A stream of packets that fit the buffer is read packet by packet, in order, each one whole and
alone in the buffer, however the network cuts the stream. -/
theorem packets_read_in_order {ps : List WirePacket} (hsize : size < 2 ^ 32)
    (hfits : ∀ p ∈ ps, p.Fits size) :
    Delivers (readPackets size ps.length) (ps.flatMap WirePacket.bytes)
      (ps.map fun p => ⟨headerType p.header, p.bytes⟩) := by
  induction ps with
  | nil => exact .pure []
  | cons p ps ih =>
    rw [List.flatMap_cons]
    refine (Delivers.readPacket p hsize (hfits p List.mem_cons_self)).bind ?_
    exact (ih fun q hq => hfits q (List.mem_cons_of_mem _ hq)).bind_pure _

theorem two_packets_read : ∃ link, readPackets 80 2
    ⟨[0xD0, 0, 0x40, 2, 0, 7], List.replicate 6 (.recv (some 1) false)⟩ =
      some ([⟨13, [0xD0, 0]⟩, ⟨4, [0x40, 2, 0, 7]⟩], link) := by
  let pingresp : WirePacket := ⟨0xD0, [], by decide⟩
  let puback : WirePacket := ⟨0x40, [0, 7], by decide⟩
  have hping : pingresp.bytes = [0xD0, 0] := by
    rw [WirePacket.bytes, List.length_nil, mqttPacketEncode_of_lt (by decide)]
    rfl
  have hack : puback.bytes = [0x40, 2, 0, 7] := by
    rw [WirePacket.bytes, mqttPacketEncode_of_lt (by decide)]
    rfl
  have hfits : ∀ p ∈ [pingresp, puback], p.Fits 80 := by
    intro p hp
    rw [WirePacket.Fits]
    rcases List.mem_cons.mp hp with rfl | hp
    · rw [hping]
      decide
    · rw [List.mem_singleton.mp hp, hack]
      decide
  have hturns : Prompt (List.replicate 6 (.recv (some 1) false)) :=
    fun t ht => ⟨0, List.eq_of_mem_replicate ht⟩
  have hread := packets_read_in_order (by decide) hfits
  rw [List.flatMap_cons, List.flatMap_cons, List.flatMap_nil, List.append_nil, hping, hack] at hread
  obtain ⟨turns, heq, -⟩ := hread [] _ hturns (by decide)
  refine ⟨⟨[], turns⟩, heq.trans ?_⟩
  have htypes : headerType pingresp.header = 13 ∧ headerType puback.header = 4 := by decide
  rw [List.map_cons, List.map_cons, List.map_nil, hping, hack, htypes.1, htypes.2]
  rfl

end Packets

end RadProt.Mqtt
