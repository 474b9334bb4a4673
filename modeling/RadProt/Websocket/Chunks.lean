import RadProt.Websocket.Digest

namespace RadProt.Websocket

open RadProt.Lib

/-! The hash of a message that comes in chunks, on the block buffer as it is stored. -/

structure BlockBuffer where
  buf : CharArray 64
  bufLen : Nat
  bufLen_le : bufLen ≤ 64

namespace BlockBuffer

/-- Bytes written at the index, which moves behind them; `none` where they run past the buffer. -/
def append (block : BlockBuffer) (bytes : List UInt8) : Option BlockBuffer :=
  if h : block.bufLen + bytes.length ≤ 64 then
    some {
      buf := block.buf.write block.bufLen bytes
      bufLen := block.bufLen + bytes.length
      bufLen_le := h }
  else none

def restart (block : BlockBuffer) : BlockBuffer where
  buf := block.buf
  bufLen := 0
  bufLen_le := Nat.zero_le _

def fill (block : BlockBuffer) (n : Nat) : Option BlockBuffer :=
  block.append (.replicate (n - block.bufLen) 0)

def stored (block : BlockBuffer) : List UInt8 := block.buf.bytes.take block.bufLen

end BlockBuffer

structure Sha1Context where
  h : Vector UInt32 5
  len : UInt64
  block : BlockBuffer

namespace Sha1Context

def init (buf : CharArray 64) : Sha1Context where
  h := sha1Init.h
  len := 0
  block := { buf, bufLen := 0, bufLen_le := Nat.zero_le _ }

/-- The loop of `sha1_update`; `none` where it writes past the buffer, or is not through with the
data after `fuel` turns. -/
def copy (ctx : Sha1Context) (data : List UInt8) : Nat → Option Sha1Context
  | 0 => if data = [] then some ctx else none
  | fuel + 1 =>
    if data = [] then some ctx
    else do
      let toCopy := min (64 - ctx.block.bufLen) data.length
      let block ← ctx.block.append (data.take toCopy)
      if block.bufLen = 64 then
        copy { ctx with h := sha1Transform ctx.h block.buf.bytes, block := block.restart }
          (data.drop toCopy) fuel
      else copy { ctx with block } (data.drop toCopy) fuel

def update (ctx : Sha1Context) (data : List UInt8) : Option Sha1Context :=
  copy { ctx with len := ctx.len + (UInt32.ofNat data.length * 8).toUInt64 } data data.length

def makeRoom (h : Vector UInt32 5) (block : BlockBuffer) : Option (Vector UInt32 5 × BlockBuffer) :=
  if 56 < block.bufLen then do
    let block ← block.fill 64
    return (sha1Transform h block.buf.bytes, block.restart)
  else return (h, block)

def final (ctx : Sha1Context) : Option (List UInt8) := do
  let block ← ctx.block.append [0x80]
  let (h, block) ← makeRoom ctx.h block
  let block ← block.fill 56
  let block ← block.append ((List.range 8).reverse.map fun i =>
    (ctx.len >>> (i * 8).toUInt64).toUInt8)
  let h := sha1Transform h block.buf.bytes
  return h.toList.flatMap fun (x : UInt32) =>
    [(x >>> 24).toUInt8, (x >>> 16).toUInt8, (x >>> 8).toUInt8, x.toUInt8]

def contents (ctx : Sha1Context) : Sha1Ctx where
  h := ctx.h
  len := ctx.len
  buf := ctx.block.stored

end Sha1Context

section Block

variable {block block' : BlockBuffer} {bytes : List UInt8}

@[simp] theorem length_stored (block : BlockBuffer) : block.stored.length = block.bufLen := by
  rw [BlockBuffer.stored, List.length_take, block.buf.length_bytes]
  exact Nat.min_eq_left block.bufLen_le

@[simp] theorem stored_restart (block : BlockBuffer) : block.restart.stored = [] := rfl

theorem stored_full (h : block.bufLen = 64) : block.stored = block.buf.bytes := by
  rw [BlockBuffer.stored, h]
  exact List.take_of_length_le block.buf.length_bytes.le

theorem exists_append (block : BlockBuffer) (bytes : List UInt8)
    (h : block.bufLen + bytes.length ≤ 64) :
    ∃ block', block.append bytes = some block' ∧ block'.stored = block.stored ++ bytes := by
  refine ⟨_, dif_pos h, ?_⟩
  rw [BlockBuffer.stored, CharArray.write_bytes _ h, ← List.append_assoc]
  refine List.take_left' ?_
  rw [List.length_append, List.length_take, block.buf.length_bytes,
    Nat.min_eq_left block.bufLen_le]

theorem exists_fill {n : Nat} (h : block.bufLen ≤ n) (hn : n ≤ 64) :
    ∃ block', block.fill n = some block' ∧ block'.bufLen = n ∧
      block'.stored = block.stored ++ .replicate (n - block.bufLen) 0 := by
  obtain ⟨block', hfill, hstored⟩ :=
    exists_append block (.replicate (n - block.bufLen) 0) (by
      rw [List.length_replicate]
      omega)
  refine ⟨block', hfill, ?_, hstored⟩
  rw [← length_stored, hstored, List.length_append, length_stored, List.length_replicate]
  omega

theorem exists_makeRoom (h : Vector UInt32 5) (block : BlockBuffer) :
    ∃ h' block', Sha1Context.makeRoom h block = some (h', block') ∧ block'.bufLen ≤ 56 ∧
      (h', block'.stored) =
        if 56 < block.stored.length then
          (sha1Transform h (block.stored ++ .replicate (64 - block.stored.length) 0), [])
        else (h, block.stored) := by
  rw [Sha1Context.makeRoom, length_stored]
  by_cases hroom : 56 < block.bufLen
  · obtain ⟨full, hfill, hfull, hstored⟩ := exists_fill block.bufLen_le le_rfl
    refine ⟨sha1Transform h full.buf.bytes, full.restart, ?_, Nat.zero_le _, ?_⟩
    · rw [if_pos hroom, hfill]
      rfl
    · rw [if_pos hroom, ← hstored, stored_full hfull, stored_restart]
  · refine ⟨h, block, if_neg hroom, Nat.le_of_not_lt hroom, ?_⟩
    rw [if_neg hroom]

end Block

section Refine

variable {ctx : Sha1Context} {data : List UInt8} {fuel : Nat}

theorem copy_contents (hblock : ctx.block.bufLen < 64) (hfuel : data.length ≤ fuel) :
    ∃ ctx', ctx.copy data fuel = some ctx' ∧ ctx'.contents = sha1Copy ctx.contents data fuel := by
  induction fuel generalizing ctx data with
  | zero =>
    have hnil : data = [] := List.eq_nil_of_length_eq_zero (Nat.le_zero.mp hfuel)
    exact ⟨ctx, if_pos hnil, rfl⟩
  | succ fuel ih =>
    rw [Sha1Context.copy, sha1Copy]
    by_cases hnil : data = []
    · rw [if_pos hnil, if_pos hnil]
      exact ⟨ctx, rfl, rfl⟩
    · rw [if_neg hnil, if_neg hnil]
      have hpos := List.length_pos_of_ne_nil hnil
      have hcontents : ctx.contents.buf.length = ctx.block.bufLen := length_stored ctx.block
      dsimp only
      rw [hcontents]
      generalize hcopy : min (64 - ctx.block.bufLen) data.length = toCopy
      have htake : (data.take toCopy).length = toCopy := by
        rw [List.length_take]
        omega
      have hrest : (data.drop toCopy).length ≤ fuel := by
        rw [List.length_drop]
        omega
      obtain ⟨block, happend, hstored⟩ :=
        exists_append ctx.block (data.take toCopy) (by omega)
      have hstored' : ctx.contents.buf ++ data.take toCopy = block.stored := hstored.symm
      rw [happend, Option.bind_eq_bind, Option.bind_some, hstored', length_stored]
      by_cases hfull : block.bufLen = 64
      · rw [if_pos hfull, if_pos hfull, stored_full hfull]
        let next := { ctx with h := sha1Transform ctx.h block.buf.bytes, block := block.restart }
        exact @ih next _ (Nat.zero_lt_succ 63) hrest
      · rw [if_neg hfull, if_neg hfull]
        exact @ih { ctx with block } _ (lt_of_le_of_ne block.bufLen_le hfull) hrest

theorem update_contents (hblock : ctx.block.bufLen < 64) (data : List UInt8) :
    ∃ ctx', ctx.update data = some ctx' ∧ ctx'.contents = sha1Update ctx.contents data :=
  @copy_contents { ctx with len := ctx.len + (UInt32.ofNat data.length * 8).toUInt64 } data
    data.length hblock le_rfl

theorem final_contents (hblock : ctx.block.bufLen < 64) :
    ctx.final = some (sha1Final ctx.contents) := by
  obtain ⟨marked, happend, hmarked⟩ :=
    exists_append ctx.block [0x80] hblock
  obtain ⟨h, room, hroom, hle, hpair⟩ := exists_makeRoom ctx.h marked
  obtain ⟨padded, hfill, hpadded, hstored⟩ := exists_fill hle (by decide)
  let lenBytes := (List.range 8).reverse.map fun i => (ctx.len >>> (i * 8).toUInt64).toUInt8
  have hlength : lenBytes.length = 8 := List.length_map ..
  obtain ⟨last, hlast, hwhole⟩ :=
    exists_append padded lenBytes (by rw [hpadded, hlength])
  have hfull : last.bufLen = 64 := by
    rw [← length_stored, hwhole, List.length_append, length_stored, hpadded, hlength]
  have hblock : last.buf.bytes =
      room.stored ++ .replicate (56 - room.stored.length) 0 ++ lenBytes := by
    rw [← stored_full hfull, hwhole, hstored, length_stored]
  have hcontents : ctx.contents.buf ++ [0x80] = marked.stored := hmarked.symm
  have hh : ctx.contents.h = ctx.h := rfl
  simp only [Sha1Context.final, happend, hroom, hfill, Option.bind_eq_bind, Option.bind_some]
  rw [hlast, Option.bind_some, hblock, sha1Final, hcontents, hh, ← hpair]
  rfl

end Refine

section Split

variable {ctx : Sha1Context} {chunks : List (List UInt8)}

structure Taken (ctx : Sha1Context) (m : List UInt8) : Prop where
  absorbed : Absorbed ctx.h ctx.block.stored m
  len_eq : ctx.len = bitLength m

theorem Taken.bufLen_lt {m : List UInt8} (h : Taken ctx m) : ctx.block.bufLen < 64 := by
  rw [← length_stored]
  exact h.absorbed.buf_lt

theorem taken_init (buf : CharArray 64) : Taken (.init buf) [] := ⟨absorbed_init, rfl⟩

theorem Taken.update {m data : List UInt8} (h : Taken ctx m) (hdata : data.length < 2 ^ 29) :
    ∃ ctx', ctx.update data = some ctx' ∧ Taken ctx' (m ++ data) := by
  obtain ⟨ctx', hupdate, hcontents⟩ := update_contents h.bufLen_lt data
  obtain ⟨habsorbed, hlen⟩ := @sha1Update_absorbed ctx.contents _ _ hdata h.absorbed h.len_eq
  rw [← hcontents] at habsorbed hlen
  exact ⟨ctx', hupdate, habsorbed, hlen⟩

theorem Taken.updates {m : List UInt8} (h : Taken ctx m)
    (hchunks : chunks.flatten.length < 2 ^ 29) :
    ∃ ctx', chunks.foldlM Sha1Context.update ctx = some ctx' ∧
      Taken ctx' (m ++ chunks.flatten) := by
  induction chunks generalizing ctx m with
  | nil => exact ⟨ctx, rfl, by rwa [List.flatten_nil, List.append_nil]⟩
  | cons data chunks ih =>
    rw [List.flatten_cons, List.length_append] at hchunks
    obtain ⟨next, hupdate, htaken⟩ := @Taken.update _ _ data h (by omega)
    obtain ⟨ctx', hupdates, htaken⟩ := ih htaken (by omega)
    refine ⟨ctx', ?_, ?_⟩
    · rw [List.foldlM_cons, hupdate, Option.bind_eq_bind, Option.bind_some, hupdates]
    · rwa [List.flatten_cons, ← List.append_assoc]

theorem Taken.final {m : List UInt8} (h : Taken ctx m) : ctx.final = some (Sha1.digest m) := by
  rw [final_contents h.bufLen_lt]
  exact congrArg some (@sha1Final_eq ctx.contents _ h.absorbed h.len_eq)

/-- The digest is that of the message, in whatever chunks it comes: no call runs past the buffer,
and between two calls there is room in it. -/
theorem sha1_chunks (buf : CharArray 64) (hchunks : chunks.flatten.length < 2 ^ 29) :
    ∃ ctx, chunks.foldlM Sha1Context.update (.init buf) = some ctx ∧ ctx.block.bufLen < 64 ∧
      ctx.final = some (Sha1.digest chunks.flatten) := by
  obtain ⟨ctx, hupdates, htaken⟩ := (taken_init buf).updates hchunks
  exact ⟨ctx, hupdates, htaken.bufLen_lt, htaken.final⟩

theorem sha1_three_chunks :
    ∃ ctx, [List.replicate 63 1, [], List.replicate 33 2].foldlM Sha1Context.update
        (.init (.strncpy 64 [])) = some ctx ∧
      ctx.block.bufLen < 64 ∧
      ctx.final = some
        (Sha1.digest [List.replicate 63 1, [], List.replicate 33 2].flatten) :=
  sha1_chunks _ (by decide)

end Split

end RadProt.Websocket
