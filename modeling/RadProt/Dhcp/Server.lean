import Mathlib.Data.Vector.Basic
import RadProt.Lib.Tlv

namespace RadProt.Dhcp

open RadProt.Lib

def dhcpDiscover : UInt8 := 1
def dhcpOffer : UInt8 := 2
def dhcpRequest : UInt8 := 3
def dhcpAck : UInt8 := 5

def dhcpOptPad : UInt8 := 0
def dhcpOptSubnetMask : UInt8 := 1
def dhcpOptRouter : UInt8 := 3
def dhcpOptDns : UInt8 := 6
def dhcpOptDomainName : UInt8 := 15
def dhcpOptRequestedIp : UInt8 := 50
def dhcpOptIpLeaseTime : UInt8 := 51
def dhcpOptMsgType : UInt8 := 53
def dhcpOptServerId : UInt8 := 54
def dhcpOptEnd : UInt8 := 255

def dhcpsBaseIp : UInt8 := 16
def dhcpsMaxIp : Nat := 8
def defaultLeaseTimeS : UInt32 := 24 * 60 * 60
def dhcpMinSize : Nat := 240 + 3

def sizeofDhcpMsg : Nat := 548
def opOffset : Nat := 0
def yiaddrOffset : Nat := 16
def chaddrOffset : Nat := 28
def optionsOffset : Nat := 236

def optOffset : Nat := optionsOffset + 4

abbrev Mac := Vector UInt8 6
abbrev Ip4 := Vector UInt8 4

def macZero : Mac := Vector.replicate 6 0

structure DhcpServerLease where
  mac : Mac
  expiry : UInt16

structure DhcpServer where
  ip : Ip4
  nm : Ip4
  lease : Fin dhcpsMaxIp → DhcpServerLease
  domainName : Option (List UInt8)

def dhcpServerInit (ip nm : Ip4) (domainName : Option (List UInt8)) : DhcpServer where
  ip
  nm
  lease _ := { mac := macZero, expiry := 0 }
  domainName

def bytesAt (msg : Nat → UInt8) (a n : Nat) : List UInt8 := (List.range n).map fun i => msg (a + i)

def chaddr (msg : Nat → UInt8) : Mac := Vector.ofFn fun i => msg (chaddrOffset + i)

/-- The local `dhcp_msg` after `pbuf_copy_partial`, with what was on the stack behind it. -/
def pbufCopyPartial (stack : Nat → UInt8) (p : List UInt8) : Nat → UInt8 :=
  Access.overwrite stack 0 (p.take sizeofDhcpMsg)

/-- `opt_find`: an offset to `opt`, or `none` for a null pointer. -/
def optFind (opt : Nat → UInt8) (cmd : UInt8) : Option Nat :=
  Tlv.find opt 308 dhcpOptEnd cmd 308 0

structure Writer where
  msg : Nat → UInt8
  opt : Nat

def Writer.write (w : Writer) (bytes : List UInt8) : Writer where
  msg := Access.overwrite w.msg w.opt bytes
  opt := w.opt + bytes.length

def optWriteN (w : Writer) (cmd : UInt8) (data : List UInt8) : Writer :=
  w.write (cmd :: UInt8.ofNat data.length :: data)

def optWriteU8 (w : Writer) (cmd val : UInt8) : Writer := w.write [cmd, 1, val]

def optWriteU32 (w : Writer) (cmd : UInt8) (val : UInt32) : Writer :=
  w.write [cmd, 4, (val >>> 24).toUInt8, (val >>> 16).toUInt8, (val >>> 8).toUInt8, val.toUInt8]

def DhcpServerLease.Expired (l : DhcpServerLease) (ticks : UInt32) : Prop :=
  ((l.expiry.toUInt32 <<< 16 ||| 0xffff) - ticks).toInt32 < 0

instance (l : DhcpServerLease) (ticks : UInt32) : Decidable (l.Expired ticks) :=
  inferInstanceAs (Decidable (_ < _))

/-- The leases and the local `yi` of the `DHCPDISCOVER` case; `none` is `DHCPS_MAX_IP`. -/
structure Scan where
  lease : Fin dhcpsMaxIp → DhcpServerLease
  yi : Option (Fin dhcpsMaxIp)

def Scan.turn (s : Scan) (i : Fin dhcpsMaxIp) (ticks : UInt32) : Scan :=
  let free := if (s.lease i).mac = macZero then { s with yi := some i } else s
  if (s.lease i).Expired ticks then
    { lease := Function.update s.lease i { s.lease i with mac := macZero }, yi := some i }
  else free

/-- The loop of the `DHCPDISCOVER` case; `ticks i` is what the clock says in turn `i`. -/
def discoverLoop (mac : Mac) (ticks : Nat → UInt32) : List (Fin dhcpsMaxIp) → Scan → Scan
  | [], s => s
  | i :: is, s =>
    if (s.lease i).mac = mac then { s with yi := some i }
    else if s.yi = none then discoverLoop mac ticks is (s.turn i (ticks i))
    else discoverLoop mac ticks is s

def discover (d : DhcpServer) (mac : Mac) (ticks : Nat → UInt32) : Scan :=
  discoverLoop mac ticks (List.finRange dhcpsMaxIp) { lease := d.lease, yi := none }

def newLease (mac : Mac) (ticks : UInt32) : DhcpServerLease where
  mac
  expiry := ((ticks + defaultLeaseTimeS * 1000) >>> 16).toUInt16

def requested (d : DhcpServer) (msg : Nat → UInt8) : Option (Fin dhcpsMaxIp) :=
  (optFind (fun i => msg (optOffset + i)) dhcpOptRequestedIp).bind fun o =>
    if bytesAt msg (optOffset + o + 2) 3 ≠ d.ip.toList.take 3 then none
    else
      let yi := (msg (optOffset + o + 5) - dhcpsBaseIp).toNat
      if h : yi < dhcpsMaxIp then some ⟨yi, h⟩ else none

def DhcpServerLease.Open (l : DhcpServerLease) (mac : Mac) : Prop := l.mac = mac ∨ l.mac = macZero

instance (l : DhcpServerLease) (mac : Mac) : Decidable (l.Open mac) :=
  inferInstanceAs (Decidable (_ ∨ _))

/-- The leases after the `switch`, and the message type and address of the reply. -/
def dhcpSwitch (d : DhcpServer) (ticks : Nat → UInt32) (msg : Nat → UInt8) :
    (Fin dhcpsMaxIp → DhcpServerLease) × Option (UInt8 × Fin dhcpsMaxIp) :=
  if msg (optOffset + 2) = dhcpDiscover then
    ((discover d (chaddr msg) ticks).lease,
      (discover d (chaddr msg) ticks).yi.map fun yi => (dhcpOffer, yi))
  else if msg (optOffset + 2) = dhcpRequest then
    (requested d msg).elim (d.lease, none) fun yi =>
      if (d.lease yi).Open (chaddr msg) then
        (Function.update d.lease yi (newLease (chaddr msg) (ticks 0)), some (dhcpAck, yi))
      else (d.lease, none)
  else (d.lease, none)

def writeOptions (d : DhcpServer) (msgType : UInt8) (w : Writer) : Writer :=
  let w := optWriteU8 w dhcpOptMsgType msgType
  let w := optWriteN w dhcpOptServerId d.ip.toList
  let w := optWriteN w dhcpOptSubnetMask d.nm.toList
  let w := optWriteN w dhcpOptRouter d.ip.toList
  let w := optWriteN w dhcpOptDns d.ip.toList
  let w := d.domainName.elim w (optWriteN w dhcpOptDomainName)
  let w := optWriteU32 w dhcpOptIpLeaseTime defaultLeaseTimeS
  w.write [dhcpOptEnd]

def answering (d : DhcpServer) (msg : Nat → UInt8) : Nat → UInt8 :=
  Access.overwrite (Access.overwrite msg opOffset [dhcpOffer]) yiaddrOffset d.ip.toList

def reply (d : DhcpServer) (msg : Nat → UInt8) (msgType : UInt8) (yi : Fin dhcpsMaxIp) :
    List UInt8 :=
  let msg := Access.overwrite msg (yiaddrOffset + 3) [dhcpsBaseIp + UInt8.ofNat yi]
  let w := writeOptions d msgType { msg, opt := optOffset }
  bytesAt w.msg 0 w.opt

def dhcpServerProcess (d : DhcpServer) (ticks : Nat → UInt32) (stack : Nat → UInt8)
    (p : List UInt8) : DhcpServer × Option (List UInt8) :=
  if p.length < dhcpMinSize then (d, none)
  else
    let msg := answering d (pbufCopyPartial stack p)
    let result := dhcpSwitch d ticks msg
    ({ d with lease := result.1 }, result.2.map fun r => reply d msg r.1 r.2)

end RadProt.Dhcp
