import RadProt.Http.Pbuf

namespace RadProt.Http

open RadProt.Lib

structure ServerSettings where
  hostname : List UInt8
  domainName : List UInt8
  ipAddress : UInt32
  initialConfig : Bool
  /-- `none` when the text is no address; the output is then left alone. -/
  ip4addrAton : List UInt8 → Option UInt32

/-- What a call of `http_parse_request` reads without having written it: the local `addr` of
`host_name_matches`, and the memory behind the bytes of the request. -/
structure Leftover where
  addr : UInt32
  behind : List UInt8

def hostNameMatches (settings : ServerSettings) (addr : UInt32) (host : List UInt8) : Bool :=
  if settings.initialConfig then
    let addr := (settings.ip4addrAton (cString host)).getD addr
    if settings.ipAddress = addr then true
    else
      let len := (cString settings.hostname).length
      if !strncaseEq host settings.hostname len then false
      else
        match (cString host).drop len with
        | [] => true
        | 46 :: rest => strcaseEq rest settings.domainName
        | _ => false
  else true

def lwipHttpdMaxReqLength : Nat := 1023
def lwipHttpdReqBufsize : Nat := lwipHttpdMaxReqLength
def lwipHttpdReqQueuelen : Nat := 5
def minReqLen : Nat := 7
def crlf : List UInt8 := [13, 10]

inductive Parsed
  /-- `ERR_INPROGRESS` from `http_post_request`. -/
  | inProgress
  /-- The request is too short, or has no end of line or no end of header yet. -/
  | incomplete
  /-- `ERR_ARG`; there are no error pages, `http_find_error_file` is `ERR_ARG` as well. -/
  | badRequest
  | redirect
  | file (uri : List UInt8) (is09 : Bool)
  | post (uri : List UInt8) (contentLen : Nat) (hdrLen : Nat)
  deriving DecidableEq

def readContentLen (contentLenNum : List UInt8) : Int :=
  let contentLen := atoi contentLenNum
  if contentLen = 0 ∧ ¬[48, 13].isPrefixOf contentLenNum then -1 else contentLen

/-- `http_post_request` up to `httpd_post_begin`; `uriEnd` is where the URI ends in `data`, and
`behind` what stands behind `data`, where `atoi` may go on. -/
def httpPostRequest (data behind uri : List UInt8) (uriEnd : Nat) : Parsed :=
  let hdrStartAfterUri := uriEnd + 1
  let headers := data.drop hdrStartAfterUri
  match strnstr headers (crlf ++ crlf) (data.length - hdrStartAfterUri) with
  | none => .inProgress
  | some crlfcrlf =>
    match strnstr headers (ascii "Content-Length: ") crlfcrlf with
    | none => .badRequest
    | some scontentLen =>
      let contentLenNum := headers.drop (scontentLen + 16) ++ behind
      match strnstr contentLenNum crlf 10 with
      | none => .badRequest
      | some _ =>
        let contentLen := readContentLen contentLenNum
        if contentLen < 0 then .badRequest
        else .post uri contentLen.toNat (min data.length (hdrStartAfterUri + crlfcrlf + 4))

def parseData (settings : ServerSettings) (left : Leftover) (data : List UInt8) : Parsed :=
  let dataLen := data.length
  if dataLen < minReqLen then .incomplete
  else if (strnstr data crlf dataLen).isNone then .incomplete
  else
    let isPost := (ascii "POST ").isPrefixOf data
    if !(ascii "GET ").isPrefixOf data && !isPost then .badRequest
    else
      let uriStart := if isPost then 5 else 4
      match strnstr data (ascii "Host: ") dataLen with
      | none => .badRequest
      | some hostField =>
        let hostStart := hostField + 6
        match strnstr (data.drop hostStart) crlf (dataLen - hostStart) with
        | none => .badRequest
        | some hostLen =>
          let host := (data.drop hostStart).take (min hostLen 31)
          if !hostNameMatches settings left.addr host then .redirect
          else
            let leftLen := dataLen - uriStart
            let afterMethod := data.drop uriStart
            let sp2 := strnstr afterMethod (ascii " ") leftLen
            if sp2.isNone && isPost then .badRequest
            else
              match sp2.or (strnstr afterMethod crlf leftLen) with
              | none => .incomplete
              | some uriLen =>
                if (strnstr data (crlf ++ crlf) dataLen).isNone then .incomplete
                else if isPost then
                  httpPostRequest data left.behind (afterMethod.take uriLen) (uriStart + uriLen)
                else .file (afterMethod.take uriLen) sp2.isNone

def parseRequest (settings : ServerSettings) (left : Leftover) (req : Pbuf) : Parsed :=
  let data := if req.next ≠ [] then req.bytes.take lwipHttpdMaxReqLength else req.payload
  match parseData settings left data with
  | .incomplete =>
    if req.totLen ≤ lwipHttpdReqBufsize ∧ req.clen ≤ lwipHttpdReqQueuelen then .inProgress
    else .badRequest
  | parsed => parsed

end RadProt.Http
