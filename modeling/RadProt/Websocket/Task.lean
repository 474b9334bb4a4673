import RadProt.Lib.Run
import RadProt.Websocket.Crypto
import RadProt.Websocket.Frame

namespace RadProt.Websocket

open RadProt.Lib RadProt.Lib.Access

def wsGuid : List UInt8 := ascii "258EAFA5-E914-47DA-95CA-C5AB0DC85B11"

def header : List UInt8 :=
  ascii "HTTP/1.1 101 Switching Protocols\r\nUpgrade: websocket\r\nConnection: Upgrade\r\nSec-WebSocket-Accept: "

def keyField : List UInt8 := ascii "Sec-WebSocket-Key: "

/-- `get_key`: the address and the length of the key. `extent` is how far the memory reaches
from `buf` on. -/
def getKey (buf extent : Nat) : Access (Option (Nat × Nat)) := do
  match ← strstr keyField buf extent with
  | none => return none
  | some p =>
    let p := p + keyField.length
    match ← strchr 13 p (extent - (p - buf)) with
    | none => return none
    | some last => return some (p, last - p)

def createKeyAccept (inbuf extent : Nat) : Access (Option (List UInt8)) := do
  match ← getKey inbuf extent with
  | none => return none
  | some (key, len) =>
    let copyLen := if len < 128 - wsGuid.length - 1 then len else 128 - wsGuid.length - 1
    let concatKey := (← loadBytes key copyLen) ++ wsGuid
    return some (base64Encode (sha1Final (sha1Update sha1Init concatKey)))

def processHandshake (client : Client) (sent : Int) (buffer extent : Nat) :
    Access (Bool × List Effect) := do
  if ← startsWith buffer (ascii "GET /") then
    match ← createKeyAccept buffer extent with
    | none => return (false, [])
    | some wsKeyAccept =>
      let text := header ++ wsKeyAccept ++ ascii "\r\n\r\n"
      let response :=
        if text.length < sendBufferSize then text else text.take (sendBufferSize - 1)
      return (decide (0 ≤ sent), [.send client.socket response])
  else
    return (false, [])

structure Server where
  client : Client
  msgHandler : Bool
  memory : Nat → UInt8
  log : List Effect

/-- What one turn of the loop of `task` meets before it looks at its queue. A failed or closing
`recv` is one of no bytes; `sent` is what a `send` would return. -/
inductive Event
  | idle
  | accepted (socket : Int)
  | received (bytes : List UInt8) (sent : Int)
  | selectError
  deriving DecidableEq

def Server.closed (s : Server) : Server :=
  { s with
    client := { socket := -1, established := false }
    log := s.log ++ [.close s.client.socket] }

def receive (extent : Nat) (s : Server) (bytes : List UInt8) (sent : Int) : Server :=
  let s := { s with memory := received bytes s.memory }
  let s := if bytes = [] then s.closed else s
  if s.client.established then
    let r := handleFrame s.msgHandler s.client 0 bytes.length s.memory
    { s with client := r.value.1, memory := r.memory, log := s.log ++ r.value.2 }
  else
    let r := processHandshake s.client sent 0 extent s.memory
    let s := { s with memory := r.memory, log := s.log ++ r.value.2 }
    if r.value.1 then { s with client := { s.client with established := true } }
    else
      { s with
        client := { s.client with socket := -1 }
        log := s.log ++ [.close s.client.socket] }

def taskTurn (extent : Nat) (s : Server) : Event → Server
  | .idle => s
  | .accepted socket => if 0 ≤ socket then { s with client := { s.client with socket } } else s
  | .received bytes sent => receive extent s bytes sent
  | .selectError => s.closed

def Event.Enabled (s : Server) : Event → Prop
  | .idle => True
  | .accepted _ => s.client.socket < 0
  | .received bytes _ => 0 ≤ s.client.socket ∧ bytes.length ≤ recvBufferSize
  | .selectError => 0 ≤ s.client.socket

instance (s : Server) : (e : Event) → Decidable (e.Enabled s)
  | .idle => inferInstanceAs (Decidable True)
  | .accepted _ => inferInstanceAs (Decidable (_ < _))
  | .received _ _ => inferInstanceAs (Decidable (_ ∧ _))
  | .selectError => inferInstanceAs (Decidable (_ ≤ _))

def Step (extent : Nat) (s : Server) (e : Event) (t : Server) : Prop :=
  e.Enabled s ∧ t = taskTurn extent s e

def Server.init (memory : Nat → UInt8) : Server where
  client := { socket := -1, established := false }
  msgHandler := true
  memory
  log := []

def Event.recv? : Event → Option (List UInt8)
  | .received bytes _ => some bytes
  | _ => none

def deliveries (log : List Effect) : List (UInt8 × List UInt8) :=
  log.filterMap fun
    | .message _ _ type data => some (type, data)
    | _ => none

end RadProt.Websocket
