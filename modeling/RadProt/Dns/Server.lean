import RadProt.Settings.DomainName

namespace RadProt.Dns

open RadProt.Lib RadProt.Settings

structure DnsServerSettings where
  primaryIp : UInt32
  secondaryIp : UInt32
  hostName : List UInt8
  domainName : List UInt8
  ignoreNetworkSuffix : Bool

structure Component where
  ptr : Nat
  len : Nat
  deriving DecidableEq

def sizeofHeader : Nat := 12
def sizeofPacket : Nat := 1536
def sizeofResourceRecord : Nat := 14

def pointerTarget (buffer : Nat → UInt8) (i : Nat) : Nat :=
  ((buffer i &&& 0x3F).toNat <<< 8) ||| (buffer (i + 1)).toNat

/-- `get_encoded_domain_name_component` from `offset`, at most `fuel` times around its loop;
`some none` is a null pointer. The offset it stores is where the component ends. -/
def getEncodedDomainNameComponent (buffer : Nat → UInt8) (maxInputSize : Nat) :
    (fuel offset : Nat) → Option (Option Component)
  | 0, _ => none
  | fuel + 1, i =>
    if i < maxInputSize then
      if buffer i &&& 0xC0 ≠ 0 then
        getEncodedDomainNameComponent buffer maxInputSize fuel (pointerTarget buffer i)
      else
        let len := (buffer i &&& 0x3F).toNat
        if maxInputSize ≤ i + len then some none
        else if len = 0 then some none
        else some (some { ptr := i + 1, len })
    else some none

structure Matching where
  first : Bool
  isMatch : Bool
  looseMatch : Bool
  /-- Start and length of the component of the domain name that is compared next. -/
  domainComp : Option (Nat × Nat)
  domainOff : Nat
  deriving DecidableEq

/-- The call of `get_next_domain_name_component`, which leaves its outputs alone on failure. -/
def Matching.nextDomainComp (settings : DnsServerSettings) (s : Matching) : Matching :=
  match getNextDomainNameComponent settings.domainName s.domainOff with
  | some (ptr, len, off) => { s with domainComp := some (ptr, len), domainOff := off }
  | none => { s with domainComp := none }

def Matching.init (settings : DnsServerSettings) : Matching :=
  Matching.nextDomainComp settings
    { first := true, isMatch := false, looseMatch := false, domainComp := none, domainOff := 0 }

def Matching.step (settings : DnsServerSettings) (buffer : Nat → UInt8) (c : Component)
    (s : Matching) : Matching :=
  let component := (List.range c.len).map fun i => buffer (c.ptr + i)
  let sameDomainComp : Bool :=
    match s.domainComp with
    | some (ptr, len) => c.len = len && strncaseEq component (settings.domainName.drop ptr) c.len
    | none => false
  if s.first ∧ strncaseEq component settings.hostName c.len then
    { s with
      first := false
      isMatch := true
      looseMatch := s.looseMatch || settings.ignoreNetworkSuffix }
  else if ¬ s.first ∧ s.isMatch ∧ sameDomainComp then
    { s with isMatch := true }.nextDomainComp settings
  else { s with first := false, isMatch := false }

def matchLoop (settings : DnsServerSettings) (buffer : Nat → UInt8) (bufferSize : Nat) :
    (fuel offset : Nat) → Matching → Option UInt32
  | 0, _, _ => none
  | fuel + 1, offset, s =>
    match getEncodedDomainNameComponent buffer bufferSize (fuel + 1) offset with
    | none => none
    | some (some c) => matchLoop settings buffer bufferSize fuel (c.ptr + c.len) (s.step settings buffer c)
    | some none =>
      some (if s.isMatch || s.looseMatch then settings.primaryIp else settings.secondaryIp)

def getAddressForEncodedDomain (settings : DnsServerSettings) (buffer : Nat → UInt8)
    (offset bufferSize fuel : Nat) : Option UInt32 :=
  matchLoop settings buffer bufferSize fuel offset (Matching.init settings)

/-- What `recvfrom` leaves in the packet buffer, in which earlier datagrams stood. -/
def received (packet : Nat → UInt8) (datagram : List UInt8) : Nat → UInt8 := fun i =>
  if i < datagram.length then datagram.getD i 0 else packet i

def headerOk (packet : Nat → UInt8) (done : Nat) : Bool :=
  sizeofHeader ≤ done ∧ done < sizeofPacket - sizeofResourceRecord - 2 ∧
    packet 2 &&& 0x80 = 0 ∧ packet 2 &&& 0x78 = 0 ∧
    packet 4 = 0 ∧ packet 5 = 1 ∧ packet 6 = 0 ∧ packet 7 = 0 ∧
    packet 8 = 0 ∧ packet 9 = 0 ∧ packet 10 = 0 ∧ packet 11 = 0

/-- The packet when its name is looked up: turned into a response with one answer, the answer's
name already behind the `done` bytes of the query. -/
def edited (packet : Nat → UInt8) (done : Nat) : Nat → UInt8 := fun i =>
  if i = done + 1 then sizeofHeader.toUInt8
  else if i = done then 0xC0
  else if i = 7 then 1
  else if i = 6 then 0
  else if i = 2 then packet 2 ||| 0x80
  else packet i

def resourceRecord (ip : UInt32) : List UInt8 :=
  [0, 1, 0, 1, 0, 0, 0, 1, 0, 4, ip.toUInt8, (ip >>> 8).toUInt8, (ip >>> 16).toUInt8,
    (ip >>> 24).toUInt8]

structure Turn where
  packet : Nat → UInt8
  reply : Option (List UInt8)

/-- One turn of `dns_server_thread`; `none` while the name is still being resolved. -/
def serverTurn (settings : DnsServerSettings) (packet : Nat → UInt8) (datagram : List UInt8)
    (fuel : Nat) : Option Turn :=
  let packet := received packet datagram
  let done := datagram.length
  if headerOk packet done then
    let packet := edited packet done
    match getAddressForEncodedDomain settings packet sizeofHeader done fuel with
    | none => none
    | some ip =>
      let record := resourceRecord ip
      let packet := fun i =>
        if done + 2 ≤ i ∧ i < done + 2 + record.length then record.getD (i - (done + 2)) 0
        else packet i
      some
        { packet
          reply := some ((List.range (done + 2 + record.length)).map packet) }
  else some { packet, reply := none }

end RadProt.Dns
