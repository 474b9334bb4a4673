import Mathlib
import RadProt.Http.Request

namespace RadProt.Http

open RadProt.Lib

/-- Where the bytes handed to TCP live. Heap buffers are numbered in the order of their
allocation; `post_content` and `post_response_buf` are the only ones. -/
inductive Memory
  | rom
  | content (id : Nat)
  | response (id : Nat)
  | hdrCustom
  | hdrContentLen
  deriving DecidableEq

structure Text where
  memory : Memory
  bytes : List UInt8
  deriving DecidableEq

/-- A range that `altcp_write` was given and that is not yet acknowledged. -/
structure Range where
  memory : Memory
  copied : Bool
  bytes : List UInt8
  deriving DecidableEq

structure FsFile where
  data : List UInt8
  len : Int
  index : Int
  headerIncluded : Bool
  headerPersistent : Bool
  deriving DecidableEq

/-- `post_content`: the buffer's number and its bytes, `none` while a byte is not written. -/
structure Content where
  id : Nat
  bytes : List (Option UInt8)
  deriving DecidableEq

def numFileHdrStrings : Nat := 6

structure HttpState where
  handle : Option FsFile
  file : Option Text
  req : Option Pbuf
  left : Nat
  retries : Nat
  hdrs : Vector (Option Text) 6
  hdrPos : Nat
  hdrIndex : Nat
  postUri : List UInt8
  postContent : Option Content
  postContentLen : Nat
  postContentLenLeft : Nat
  /-- The number of the buffer. -/
  postResponseBuf : Option Nat
  deriving DecidableEq

abbrev setHdr (hdrs : Vector (Option Text) 6) (i : Nat) (text : Option Text) :
    Vector (Option Text) 6 := hdrs.setIfInBounds i text

def httpStateInit : HttpState where
  handle := none
  file := none
  req := none
  left := 0
  retries := 0
  hdrs := .replicate 6 none
  hdrPos := 0
  hdrIndex := numFileHdrStrings
  postUri := []
  postContent := none
  postContentLen := 0
  postContentLenLeft := 0
  postResponseBuf := none

/-- What a callback does that its caller cannot see in the state. -/
inductive Effect
  | alloc (m : Memory)
  | free (m : Memory)
  | postBegin (n : Nat)
  /-- `httpd_post_receive_data`: the chunk, and where it was copied to. -/
  | postReceive (p : Pbuf) (offset : Option Nat)
  /-- `httpd_process_post_data`, with the body it reads. -/
  | processPostData (content : List (Option UInt8))
  /-- `fs_bytes_left` of a null pointer. -/
  | nullBytesLeft
  deriving DecidableEq

/-- What surrounds the state of one connection: the TCP queue, whether `current_connection` is
this connection, the next buffer number, and what has been done so far. -/
structure Net where
  unacked : List Range
  current : Bool
  nextId : Nat
  log : List Effect
  deriving DecidableEq

/-- An open connection has an `http_state`; after `http_state_free` it has none. -/
structure Conn where
  hs : Option HttpState
  net : Net
  deriving DecidableEq

def httpAccept : Conn where
  hs := some httpStateInit
  net := { unacked := [], current := false, nextId := 0, log := [] }

structure Env where
  settings : ServerSettings
  fsOpen : List UInt8 → Option FsFile
  /-- What `fs_bytes_left` computes from a null pointer. -/
  nullBytesLeft : Int
  lwipVersionString : List UInt8

/-- What one callback meets: the room in the send buffer, the bound that `http_write` and
memory set to a single write, the JSON text a POST handler would answer now, and what it reads
without having written it. -/
structure Outside where
  sndbuf : Nat
  maxWriteLen : Nat
  maxWriteLen_pos : 0 < maxWriteLen
  response : List UInt8
  leftover : Leftover

def Net.emit (net : Net) (e : Effect) : Net := { net with log := net.log ++ [e] }

@[simp] theorem Net.emit_log (net : Net) (e : Effect) : (net.emit e).log = net.log ++ [e] := rfl
@[simp] theorem Net.emit_unacked (net : Net) (e : Effect) : (net.emit e).unacked = net.unacked := rfl
@[simp] theorem Net.emit_current (net : Net) (e : Effect) : (net.emit e).current = net.current := rfl
@[simp] theorem Net.emit_nextId (net : Net) (e : Effect) : (net.emit e).nextId = net.nextId := rfl

def Net.unackedLen (net : Net) : Nat := (net.unacked.map fun r => r.bytes.length).sum

def ack : Nat → List Range → List Range
  | _, [] => []
  | 0, rs => rs
  | n + 1, r :: rs =>
    if r.bytes.length ≤ n + 1 then ack (n + 1 - r.bytes.length) rs
    else { r with bytes := r.bytes.drop (n + 1) } :: rs

end RadProt.Http
