import RadProt.Http.State

namespace RadProt.Http

open RadProt.Lib

inductive HeaderString
  | ok | notFound | badRequest | contentLength | connClose | server | default404Html
  deriving DecidableEq

def headerString (env : Env) : HeaderString → Text
  | .ok => ⟨.rom, ascii "HTTP/1.0 200 OK\r\n"⟩
  | .notFound => ⟨.rom, ascii "HTTP/1.0 404 File not found\r\n"⟩
  | .badRequest => ⟨.rom, ascii "HTTP/1.0 400 Bad Request\r\n"⟩
  | .contentLength => ⟨.rom, ascii "Content-Length: "⟩
  | .connClose => ⟨.rom, ascii "Connection: Close\r\n\r\n"⟩
  | .server => ⟨.rom, ascii "Server: lwIP/" ++ env.lwipVersionString ++
      ascii " (http://savannah.nongnu.org/projects/lwip)\r\n"⟩
  | .default404Html => ⟨.rom, ascii
      "\r\n<html><body><h2>404: The requested file cannot be found.</h2></body></html>\r\n"⟩

def httpContentType (type : String) : Text :=
  ⟨.rom, ascii "Content-Type: " ++ ascii type ++ ascii "\r\n\r\n"⟩

def httpHeaders : List (String × Text) := [
  ("html", httpContentType "text/html"),
  ("htm", httpContentType "text/html"),
  ("shtml", httpContentType
    "text/html\r\nExpires: Fri, 10 Apr 2008 14:00:00 GMT\r\nPragma: no-cache"),
  ("shtm", httpContentType
    "text/html\r\nExpires: Fri, 10 Apr 2008 14:00:00 GMT\r\nPragma: no-cache"),
  ("ssi", httpContentType
    "text/html\r\nExpires: Fri, 10 Apr 2008 14:00:00 GMT\r\nPragma: no-cache"),
  ("gif", httpContentType "image/gif"),
  ("png", httpContentType "image/png"),
  ("jpg", httpContentType "image/jpeg"),
  ("bmp", httpContentType "image/bmp"),
  ("ico", httpContentType "image/x-icon"),
  ("class", httpContentType "application/octet-stream"),
  ("cls", httpContentType "application/octet-stream"),
  ("js", httpContentType "application/javascript"),
  ("ram", httpContentType "application/javascript"),
  ("css", httpContentType "text/css"),
  ("swf", httpContentType "application/x-shockwave-flash"),
  ("xml", httpContentType "text/xml"),
  ("xsl", httpContentType "text/xml"),
  ("pdf", httpContentType "application/pdf"),
  ("json", httpContentType "application/json"),
  ("csv", httpContentType "text/csv"),
  ("tsv", httpContentType "text/tsv"),
  ("svg", httpContentType "image/svg+xml"),
  ("svgz", ⟨.rom, ascii "Content-Type: image/svg+xml\r\nContent-Encoding: gzip\r\n\r\n"⟩)]

def getContentTypeFromExtension (ext : List UInt8) : Option Text :=
  (httpHeaders.find? fun entry => strcaseEq (ascii entry.1) ext).map Prod.snd

def extension (uri : List UInt8) : Option (List UInt8) :=
  if 46 ∈ uri then some (uri.reverse.takeWhile (· ≠ 46)).reverse else none

/-- `get_http_headers`; there is no name for the default "not found" response. -/
def getHttpHeaders (env : Env) (hs : HttpState) (uri : Option (List UInt8)) : HttpState :=
  let hdrs := setHdr (setHdr (setHdr hs.hdrs 1 (some (headerString env .server))) 2 none) 3 none
  match uri with
  | none =>
    let hdrs := setHdr hdrs 0 (some (headerString env .notFound))
    let hdrs := setHdr hdrs 5 (some (headerString env .default404Html))
    { hs with hdrs, hdrIndex := 0, hdrPos := 0 }
  | some uri =>
    let status : Text :=
      if (ascii "/404.").isPrefixOf uri then headerString env .notFound
      else if (ascii "/400.").isPrefixOf uri then headerString env .badRequest
      else if (ascii "/501.").isPrefixOf uri then ⟨.rom, ascii "HTTP/1.0 501 Not Implemented\r\n"⟩
      else headerString env .ok
    let contentType : Text :=
      match extension (uri.takeWhile (· ≠ 63)) with
      | none => httpContentType "application/octet-stream"
      | some ext => (getContentTypeFromExtension ext).getD (httpContentType "text/plain")
    let hdrs := setHdr (setHdr hdrs 0 (some status)) 4 (some contentType)
    { hs with hdrs, hdrIndex := 0, hdrPos := 0 }

/-- The size check of `get_http_content_length` and `httpd_post_response`: nine digits. -/
def contentLengthText (len : Nat) : Option Text :=
  let digits := (itoa len).take 11
  if digits.length ≤ 9 then some ⟨.hdrContentLen, digits ++ crlf⟩ else none

def getHttpContentLength (env : Env) (hs : HttpState) : HttpState :=
  match hs.handle with
  | none => hs
  | some f =>
    if f.headerPersistent then
      match contentLengthText f.len.toNat with
      | some text =>
        let hdrs := setHdr hs.hdrs 3 (some text)
        { hs with hdrs := setHdr hdrs 2 (some (headerString env .contentLength)) }
      | none => hs
    else hs

def httpInitFile (env : Env) (hs : HttpState) (file : Option FsFile) (is09 : Bool)
    (uri : Option (List UInt8)) : HttpState :=
  match file with
  | none =>
    getHttpHeaders env { hs with handle := none, file := none, left := 0, retries := 0 } uri
  | some f =>
    let skip :=
      if is09 && f.headerIncluded then
        match strnstr f.data (crlf ++ crlf) f.len.toNat with
        | some fileStart => fileStart + 4
        | none => 0
      else 0
    let hs := { hs with
      handle := some f
      file := some ⟨.rom, f.data.drop skip⟩
      left := f.len.toNat - skip
      retries := 0 }
    if f.headerIncluded then hs else getHttpHeaders env hs uri

def httpGet404File (env : Env) : Option FsFile × Option (List UInt8) :=
  let names := [ascii "/404.html", ascii "/404.htm", ascii "/404.shtml"]
  match names.find? fun name => (env.fsOpen name).isSome with
  | some name => (env.fsOpen name, some name)
  | none => (none, none)

def httpdDefaultFilenames : List String :=
  ["/index.shtml", "/index.ssi", "/index.shtm", "/index.html", "/index.htm"]

/-- The default file names of a directory; `http_uri_buf` holds 63 bytes and a terminator. -/
def defaultFiles (uri : List UInt8) : List (List UInt8) :=
  if uri.getLast? = some 47 then
    let copyLen := min 63 (uri.length - 1)
    httpdDefaultFilenames.map fun name =>
      if copyLen > 0 then uri.take copyLen ++ (ascii name).take (63 - copyLen) else ascii name
  else []

def httpFindFile (env : Env) (hs : HttpState) (uri : List UInt8) (is09 : Bool) : HttpState :=
  match (defaultFiles uri).find? fun name => (env.fsOpen name).isSome with
  | some name => httpInitFile env hs (env.fsOpen name) is09 (some name)
  | none =>
    let base := uri.takeWhile (· ≠ 63)
    match env.fsOpen base with
    | some f => httpInitFile env hs (some f) is09 (some base)
    | none =>
      let (file, name) := httpGet404File env
      httpInitFile env hs file is09 name

/-- `http_parse_request` when the host is not this one. -/
def httpRedirect (env : Env) (hs : HttpState) : HttpState :=
  let location := ascii "HTTP/1.0 302 Found\r\nLocation: http://" ++
    cString env.settings.hostname ++ ascii "." ++ cString env.settings.domainName ++ crlf
  let hdrs := setHdr hs.hdrs 0 (some ⟨.hdrCustom, location.take 127⟩)
  let hdrs := setHdr hdrs 2 (some (headerString env .connClose))
  { hs with hdrs, hdrIndex := 0, hdrPos := 0 }

end RadProt.Http
