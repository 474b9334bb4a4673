import RadProt.Http.Files

namespace RadProt.Http

open RadProt.Lib

def postHandlers : List String :=
  ["/settings_get.cgi", "/settings_save.cgi", "/wifi_nets.cgi", "/wifi_nets_scan.cgi",
    "/restart.cgi"]

def HttpState.body (hs : HttpState) : List (Option UInt8) :=
  ((hs.postContent.map Content.bytes).getD []).take hs.postContentLen

def httpdPostBegin (hs : HttpState) (net : Net) (uri : List UInt8) (contentLen : Nat) :
    HttpState × Net :=
  let net := { net with current := true }.emit (.postBegin contentLen)
  let hs := { hs with postUri := strncpy 128 uri }
  if contentLen > 0 then
    ({ hs with
        postContentLen := contentLen
        postContent := some { id := net.nextId, bytes := .replicate contentLen none } },
      { net with nextId := net.nextId + 1 }.emit (.alloc (.content net.nextId)))
  else (hs, net)

/-- `httpd_post_response`; the body's length is passed as a `u16_t`. -/
def httpdPostResponse (env : Env) (hs : HttpState) (net : Net) (id : Nat) (body : List UInt8) :
    HttpState :=
  let hs :=
    if net.current then
      let left := body.length % 65536
      let hdrs := setHdr hs.hdrs 0 (some (headerString env .ok))
      let hdrs := setHdr hdrs 2 (some (headerString env .contentLength))
      let hdrs := setHdr hdrs 4 (getContentTypeFromExtension (ascii "json"))
      let hdrs :=
        match contentLengthText left with
        | some text => setHdr hdrs 3 (some text)
        | none => hdrs
      { hs with file := some ⟨.response id, body⟩, left, postResponseBuf := some id, hdrs }
    else
      let hdrs := setHdr hs.hdrs 0 (some (headerString env .badRequest))
      { hs with hdrs := setHdr hdrs 2 (some (headerString env .connClose)) }
  { hs with hdrIndex := 0, hdrPos := 0 }

def httpdProcessPostData (env : Env) (o : Outside) (hs : HttpState) (net : Net) :
    HttpState × Net :=
  let net := net.emit (.processPostData hs.body)
  if postHandlers.any fun name => (ascii name).isPrefixOf (cString hs.postUri) then
    let response := Memory.response net.nextId
    (httpdPostResponse env hs net net.nextId o.response,
      { net with nextId := net.nextId + 1 }.emit (.alloc response))
  else (hs, net)

def httpdPostFinished (env : Env) (o : Outside) (hs : HttpState) (net : Net) : HttpState × Net :=
  let (hs, net) := httpdProcessPostData env o hs net
  let net :=
    match hs.postContent with
    | some content => net.emit (.free (.content content.id))
    | none => net
  (hs, { net with current := false })

/-- What `memcpy` takes from the address of the first payload: its bytes, then whatever follows
them in memory. -/
def Pbuf.copied (p : Pbuf) : List (Option UInt8) :=
  p.payload.map some ++ .replicate (p.totLen - p.len) none

def overwrite (buffer : List (Option UInt8)) (offset : Nat) (data : List (Option UInt8)) :
    List (Option UInt8) :=
  buffer.take offset ++ data ++ buffer.drop (offset + data.length)

def httpdPostReceiveData (hs : HttpState) (net : Net) (p : Pbuf) : Bool × HttpState × Net :=
  let offset : Int := hs.postContentLen - hs.postContentLenLeft - p.totLen
  if offset < 0 ∨ offset + p.totLen > hs.postContentLen then
    (false, hs, net.emit (.postReceive p none))
  else
    let postContent := hs.postContent.map fun content =>
      { content with bytes := overwrite content.bytes offset.toNat p.copied }
    (true, { hs with postContent }, net.emit (.postReceive p (some offset.toNat)))

def httpHandlePostFinished (env : Env) (o : Outside) (hs : HttpState) (net : Net) :
    HttpState × Net :=
  let net :=
    match hs.file with
    | some file => net.emit (.free file.memory)
    | none => net
  httpdPostFinished env o hs net

def httpPostRxpbuf (env : Env) (o : Outside) (hs : HttpState) (net : Net) (p : Pbuf) :
    HttpState × Net :=
  let hs := { hs with postContentLenLeft := hs.postContentLenLeft - p.totLen }
  let (accepted, hs, net) := httpdPostReceiveData hs net p
  let hs := if accepted then hs else { hs with postContentLenLeft := 0 }
  if hs.postContentLenLeft = 0 then httpHandlePostFinished env o hs net else (hs, net)

def httpPostStart (env : Env) (o : Outside) (hs : HttpState) (net : Net) (inp : Pbuf)
    (uri : List UInt8) (contentLen hdrLen : Nat) : HttpState × Net :=
  let (hs, net) := httpdPostBegin hs net uri contentLen
  let hs := { hs with postContentLen := contentLen, postContentLenLeft := contentLen }
  match inp.body hdrLen with
  | some q => httpPostRxpbuf env o hs net q
  | none => if contentLen = 0 then httpPostRxpbuf env o hs net .empty else (hs, net)

end RadProt.Http
