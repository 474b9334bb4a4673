import RadProt.Lib.CString

namespace RadProt.Http

/-- A chain of packet buffers: the payload of the first one and of those after it. -/
structure Pbuf where
  payload : List UInt8
  next : List (List UInt8)
  deriving DecidableEq

namespace Pbuf

def len (p : Pbuf) : Nat := p.payload.length

def bytes (p : Pbuf) : List UInt8 := p.payload ++ p.next.flatten

def totLen (p : Pbuf) : Nat := p.bytes.length

def clen (p : Pbuf) : Nat := p.next.length + 1

def cat (p q : Pbuf) : Pbuf := { p with next := p.next ++ q.payload :: q.next }

def empty : Pbuf where
  payload := []
  next := []

def bodyAt : List (List UInt8) → Nat → Option Pbuf
  | [], _ => none
  | payload :: next, startOffset =>
    if payload.length ≤ startOffset then bodyAt next (startOffset - payload.length)
    else some { payload := payload.drop startOffset, next }

def body (p : Pbuf) (startOffset : Nat) : Option Pbuf := bodyAt (p.payload :: p.next) startOffset

theorem len_le_totLen (p : Pbuf) : p.len ≤ p.totLen := by
  simp [len, totLen, bytes]

@[simp] theorem bytes_cat (p q : Pbuf) : (p.cat q).bytes = p.bytes ++ q.bytes := by
  simp [cat, bytes]

end Pbuf

end RadProt.Http
