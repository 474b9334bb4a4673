import RadProt.Http.Post

namespace RadProt.Http

open RadProt.Lib

def httpStateFree (hs : HttpState) (net : Net) : Net :=
  match hs.postResponseBuf with
  | some id => net.emit (.free (.response id))
  | none => net

/-- `http_close_or_abort_conn` without the abort; TCP keeps what it has been given. -/
def httpCloseConn (env : Env) (o : Outside) (hs : Option HttpState) (net : Net) : Conn :=
  match hs with
  | none => { hs := none, net }
  | some hs =>
    let (hs, net) :=
      if hs.postContentLenLeft ≠ 0 then httpdPostFinished env o hs net else (hs, net)
    { hs := none, net := httpStateFree hs net }

def fsBytesLeft (env : Env) : Option FsFile → Int
  | some f => f.len - f.index
  | none => env.nullBytesLeft

/-- `http_write`: how many of `length` bytes TCP takes. -/
def httpWrite (length room maxWriteLen : Nat) : Nat := min (min length room) maxWriteLen

def Net.write (net : Net) (memory : Memory) (copied : Bool) (bytes : List UInt8) : Net :=
  if bytes = [] then net else { net with unacked := net.unacked ++ [{ memory, copied, bytes }] }

def skipNull (hdrs : Vector (Option Text) 6) (i : Nat) : Nat :=
  i + (hdrs.toList.drop i).findIdx (·.isSome)

def sendHeader (o : Outside) (hs : HttpState) (net : Net) (room : Nat) :
    HttpState × Net × Nat :=
  match (hs.hdrs.toList[hs.hdrIndex]?).join with
  | none => (hs, net, 0)
  | some text =>
    let sendlen := httpWrite (text.bytes.length - hs.hdrPos) room o.maxWriteLen
    let net := net.write text.memory (hs.hdrIndex = 3)
      ((text.bytes.drop hs.hdrPos).take sendlen)
    let hdrPos := hs.hdrPos + sendlen
    if hdrPos = text.bytes.length then
      ({ hs with hdrIndex := skipNull hs.hdrs (hs.hdrIndex + 1), hdrPos := 0 }, net, sendlen)
    else ({ hs with hdrPos }, net, sendlen)

/-- The loop of `http_send_headers`; every round that goes on uses up some room. -/
def sendHeaders (o : Outside) : Nat → HttpState → Net → Nat → HttpState × Net × Nat
  | 0, hs, net, room => (hs, net, room)
  | rounds + 1, hs, net, room =>
    if room = 0 ∨ numFileHdrStrings ≤ hs.hdrIndex then (hs, net, room)
    else
      let (hs, net, sendlen) := sendHeader o hs net room
      if sendlen = 0 then (hs, net, room) else sendHeaders o rounds hs net (room - sendlen)

/-- `http_check_eof`: the whole file is there from the start, so there never is a next block. -/
def httpCheckEof (env : Env) (hs : HttpState) : Bool :=
  match hs.handle with
  | none => false
  | some f => 0 < fsBytesLeft env (some f)

def httpSendDataNonssi (o : Outside) (hs : HttpState) (net : Net) (room : Nat) :
    HttpState × Net :=
  let len := httpWrite (min hs.left 65535) room o.maxWriteLen
  match hs.file with
  | some file =>
    ({ hs with file := some { file with bytes := file.bytes.drop len }, left := hs.left - len },
      net.write file.memory false (file.bytes.take len))
  | none => ({ hs with left := hs.left - len }, net)

def httpSendData (env : Env) (o : Outside) (hs : HttpState) (net : Net) (room : Nat) : Conn :=
  if hs.left = 0 ∧ httpCheckEof env hs = false then httpCloseConn env o (some hs) net
  else
    let (hs, net) := httpSendDataNonssi o hs net room
    if hs.left = 0 then
      let net := if hs.handle.isNone then net.emit .nullBytesLeft else net
      if fsBytesLeft env hs.handle ≤ 0 then httpCloseConn env o (some hs) net
      else { hs := some hs, net }
    else { hs := some hs, net }

def setUpHeaders (env : Env) (hs : HttpState) : HttpState :=
  if hs.hdrs[2].isNone then getHttpContentLength env hs else hs

def httpSend (env : Env) (o : Outside) (hs : HttpState) (net : Net) : Conn :=
  if hs.hdrIndex < numFileHdrStrings then
    let (hs, net, room) := sendHeaders o o.sndbuf (setUpHeaders env hs) net o.sndbuf
    if hs.hdrIndex < numFileHdrStrings then { hs := some hs, net }
    else if hs.file.isNone ∧ httpCheckEof env hs = false then httpCloseConn env o (some hs) net
    else httpSendData env o hs net room
  else httpSendData env o hs net o.sndbuf

end RadProt.Http
