import RadProt.Lib.CString

namespace RadProt.Websocket

open RadProt.Lib

structure Sha1Ctx where
  h : Vector UInt32 5
  len : UInt64
  /-- The first `buf_len` bytes of `buf`. -/
  buf : List UInt8

def sha1Word (block : List UInt8) (i : Nat) : UInt32 :=
  ((block.getD (i * 4) 0).toUInt32 <<< 24) ||| ((block.getD (i * 4 + 1) 0).toUInt32 <<< 16) |||
    ((block.getD (i * 4 + 2) 0).toUInt32 <<< 8) ||| (block.getD (i * 4 + 3) 0).toUInt32

def rotl (x k : UInt32) : UInt32 := (x <<< k) ||| (x >>> (32 - k))

def sha1Schedule (block : List UInt8) : Nat → List UInt32
  | 0 => (List.range 16).map (sha1Word block)
  | n + 1 =>
    let w := sha1Schedule block n
    let at' := fun k => w.getD (n + 16 - k) 0
    w ++ [rotl (at' 3 ^^^ at' 8 ^^^ at' 14 ^^^ at' 16) 1]

def sha1Round (i : Nat) (w : UInt32) (s : Vector UInt32 5) : Vector UInt32 5 :=
  let a := s[0]; let b := s[1]; let c := s[2]; let d := s[3]; let e := s[4]
  let (f, k) : UInt32 × UInt32 :=
    if i < 20 then ((b &&& c) ||| (~~~ b &&& d), 0x5A827999)
    else if i < 40 then (b ^^^ c ^^^ d, 0x6ED9EBA1)
    else if i < 60 then ((b &&& c) ||| (b &&& d) ||| (c &&& d), 0x8F1BBCDC)
    else (b ^^^ c ^^^ d, 0xCA62C1D6)
  #v[rotl a 5 + f + e + k + w, a, rotl b 30, c, d]

def sha1Transform (state : Vector UInt32 5) (block : List UInt8) : Vector UInt32 5 :=
  let rounds := (sha1Schedule block 64).zipIdx.foldl (fun s w => sha1Round w.2 w.1 s) state
  state.zipWith (· + ·) rounds

def sha1Init : Sha1Ctx where
  h := #v[0x67452301, 0xEFCDAB89, 0x98BADCFE, 0x10325476, 0xC3D2E1F0]
  len := 0
  buf := []

def sha1Copy (ctx : Sha1Ctx) (data : List UInt8) : Nat → Sha1Ctx
  | 0 => ctx
  | fuel + 1 =>
    if data = [] then ctx
    else
      let toCopy := min (64 - ctx.buf.length) data.length
      let buf := ctx.buf ++ data.take toCopy
      let ctx :=
        if buf.length = 64 then { ctx with h := sha1Transform ctx.h buf, buf := [] }
        else { ctx with buf }
      sha1Copy ctx (data.drop toCopy) fuel

/-- The product `len * 8` is one of 32 bits, as `size_t` is. -/
def sha1Update (ctx : Sha1Ctx) (data : List UInt8) : Sha1Ctx :=
  sha1Copy { ctx with len := ctx.len + (UInt32.ofNat data.length * 8).toUInt64 } data data.length

def sha1Final (ctx : Sha1Ctx) : List UInt8 :=
  let buf := ctx.buf ++ [0x80]
  let (h, buf) :=
    if 56 < buf.length then
      (sha1Transform ctx.h (buf ++ List.replicate (64 - buf.length) 0), [])
    else (ctx.h, buf)
  let buf := buf ++ List.replicate (56 - buf.length) 0
  let lenBytes := (List.range 8).reverse.map fun i => (ctx.len >>> (i * 8).toUInt64).toUInt8
  let h := sha1Transform h (buf ++ lenBytes)
  h.toList.flatMap fun (x : UInt32) =>
    [(x >>> 24).toUInt8, (x >>> 16).toUInt8, (x >>> 8).toUInt8, x.toUInt8]

def b64Table : List UInt8 :=
  ascii "ABCDEFGHIJKLMNOPQRSTUVWXYZabcdefghijklmnopqrstuvwxyz0123456789+/"

def b64At (x : UInt8) : UInt8 := b64Table.getD x.toNat 0

def base64Encode : List UInt8 → List UInt8
  | x :: y :: z :: rest =>
    [b64At (x >>> 2), b64At (((x &&& 0x3) <<< 4) ||| (y >>> 4)),
      b64At (((y &&& 0xF) <<< 2) ||| (z >>> 6)), b64At (z &&& 0x3F)] ++ base64Encode rest
  | [x, y] =>
    [b64At (x >>> 2), b64At (((x &&& 0x3) <<< 4) ||| (y >>> 4)), b64At ((y &&& 0xF) <<< 2), 61]
  | [x] => [b64At (x >>> 2), b64At ((x &&& 0x3) <<< 4), 61, 61]
  | [] => []

end RadProt.Websocket
