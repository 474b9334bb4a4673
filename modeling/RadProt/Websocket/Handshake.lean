import RadProt.Lib.Scan
import RadProt.Websocket.Digest
import RadProt.Websocket.Messages

namespace RadProt.Websocket

open RadProt.Lib RadProt.Lib.Access

def HasKey (request : List UInt8) : Prop :=
  ∃ pre key post, request = pre ++ keyField ++ (key ++ 13 :: post)

structure FirstKey (request key : List UInt8) : Prop where
  ended : 13 ∉ key
  stands : ∃ pre post, request = pre ++ keyField ++ (key ++ 13 :: post) ∧
    ∀ i < pre.length, ¬ keyField <+: request.drop i

theorem FirstKey.hasKey {request key : List UInt8} (h : FirstKey request key) : HasKey request := by
  obtain ⟨pre, post, heq, -⟩ := h.stands
  exact ⟨pre, key, post, heq⟩

section Key

variable {m : Nat → UInt8} {a extent : Nat} {request key : List UInt8}

theorem FirstKey.strnstr_eq (h : FirstKey request key) (h0 : 0 ∉ request) :
    ∃ i rest, strnstr request keyField request.length = some i ∧
      request.drop (i + keyField.length) = key ++ 13 :: rest := by
  obtain ⟨pre, post, rfl, hfirst⟩ := h.stands
  refine ⟨pre.length, post, ?_, ?_⟩
  · rw [List.append_assoc] at hfirst h0 ⊢
    refine strnstr_first (fun hz => h0 ?_) (by decide) hfirst ?_
    · rw [← List.append_assoc]
      exact List.mem_append_left _ hz
    · rw [List.length_append, List.length_append]
      omega
  · rw [← List.length_append, List.drop_left]

theorem takeWhile_key (hkey : 13 ∉ key) (rest : List UInt8) :
    (key ++ 13 :: rest).takeWhile (· ≠ 13) = key := by
  rw [List.takeWhile_append_of_pos fun b hb => by simpa using fun hz : b = 13 => hkey (hz ▸ hb),
    List.takeWhile_cons_of_neg (by simp), List.append_nil]

theorem FirstKey.unique {key' : List UInt8} (h : FirstKey request key) (h' : FirstKey request key')
    (h0 : 0 ∉ request) : key = key' := by
  obtain ⟨i, rest, hi, hrest⟩ := h.strnstr_eq h0
  obtain ⟨j, rest', hj, hrest'⟩ := h'.strnstr_eq h0
  obtain rfl : i = j := Option.some.inj (hi.symm.trans hj)
  rw [← takeWhile_key h.ended rest, ← hrest, hrest', takeWhile_key h'.ended]

theorem FirstKey.of_strnstr {i : Nat} {post : List UInt8}
    (hi : strnstr request keyField request.length = some i)
    (hdrop : request.drop (i + keyField.length) = key ++ 13 :: post) (hkey : 13 ∉ key) :
    FirstKey request key := by
  obtain ⟨⟨rest, hrest⟩, hbound, -⟩ := strnstr_some hi
  have htake : (request.take i).length = i := by
    rw [List.length_take]
    omega
  refine ⟨hkey, request.take i, post, ?_, fun j hj => strnstr_min hi j (htake ▸ hj)⟩
  have hdrop' : request.drop (i + keyField.length) = rest := by
    rw [← List.drop_drop, ← hrest, List.drop_left]
  calc request
    _ = request.take i ++ request.drop i := (List.take_append_drop i request).symm
    _ = request.take i ++ (keyField ++ rest) := by rw [hrest]
    _ = request.take i ++ keyField ++ (key ++ 13 :: post) := by
      rw [← hdrop', hdrop, List.append_assoc]

theorem HasKey.mem_drop {i : Nat} (h : HasKey request)
    (hi : strnstr request keyField request.length = some i) :
    13 ∈ request.drop (i + keyField.length) := by
  obtain ⟨pre, key, post, rfl⟩ := h
  have hle : i ≤ pre.length := by
    by_contra hlt
    refine strnstr_min hi pre.length (Nat.lt_of_not_le hlt) ?_
    rw [List.append_assoc, List.drop_left]
    exact List.prefix_append _ _
  have hdrop : (pre ++ keyField ++ (key ++ 13 :: post)).drop (i + keyField.length) =
      (pre ++ keyField).drop (i + keyField.length) ++ (key ++ 13 :: post) :=
    List.drop_append_of_le_length (by rw [List.length_append]; omega)
  rw [hdrop]
  simp

theorem getKey_cases (h : Holds m a request) (h0 : 0 ∉ request)
    (hextent : request.length < extent) :
    (∃ key i post, FirstKey request key ∧ request.drop i = key ++ 13 :: post ∧
        Reads (Span a request.length) m (getKey a extent) (some (a + i, key.length))) ∨
      ¬ HasKey request ∧ EndsAt m a request.length (getKey a extent) := by
  obtain ⟨i, hi, hfield⟩ | ⟨hnone, hends⟩ :=
    strstr_cases keyField h h0 (by decide) (by decide) hextent
  · obtain ⟨hpre, hbound, -⟩ := strnstr_some hi
    have hdrop := h.drop (i + keyField.length)
    rw [Nat.min_eq_left hbound] at hdrop
    have hp : a + i + keyField.length - a = i + keyField.length := by omega
    have hlen : (request.drop (i + keyField.length)).length =
        request.length - (i + keyField.length) := List.length_drop
    rw [← Nat.add_assoc] at hdrop
    obtain ⟨hmem, hlast⟩ | ⟨hmem, hends⟩ :=
      strchr_cases (c := 13) (n := extent - (a + i + keyField.length - a)) hdrop
        (fun hz => h0 (List.mem_of_mem_drop hz)) (by decide) (by omega)
    · obtain ⟨key, post, hrest, hkey⟩ := List.eq_append_cons_of_mem hmem
      rw [hrest, takeWhile_key hkey, ← hrest] at hlast
      refine .inl ⟨key, i + keyField.length, post, .of_strnstr hi hrest hkey, hrest, ?_⟩
      have hlen' : a + i + keyField.length + key.length - (a + i + keyField.length) = key.length :=
        Nat.add_sub_cancel_left _ _
      refine hfield.bind ((hlast.span (by omega) (by omega)).bind ?_)
      dsimp only
      rw [hlen', Nat.add_assoc a]
      exact .pure _
    · refine .inr ⟨fun hkey => hmem (hkey.mem_drop hi), ?_⟩
      refine hfield.bind_endsAt (b := a + i + keyField.length)
        (k := (request.drop (i + keyField.length)).length) ?_ (by omega) (by omega)
      exact hends.bind_none rfl
  · refine .inr ⟨?_, hends.bind_none rfl⟩
    rintro ⟨pre, key, post, rfl⟩
    have hsome : (strnstr (pre ++ keyField ++ (key ++ 13 :: post)) keyField
        (pre ++ keyField ++ (key ++ 13 :: post)).length).isSome := by
      rw [List.append_assoc] at h0 ⊢
      refine strnstr_append_isSome (fun hz => h0 ?_) (by decide) ?_
      · rw [← List.append_assoc]
        exact List.mem_append_left _ hz
      · rw [List.length_append, List.length_append]
        omega
    rw [hnone] at hsome
    cases hsome

theorem length_concatKey_lt (key : List UInt8) : (key.take 91 ++ wsGuid).length < 2 ^ 29 := by
  have hguid : wsGuid.length = 36 := by decide
  have hkey := List.length_take_le 91 key
  rw [List.length_append]
  omega

theorem createKeyAccept_cases (h : Holds m a request) (h0 : 0 ∉ request)
    (hextent : request.length < extent) :
    (∃ key, FirstKey request key ∧
        Reads (Span a request.length) m (createKeyAccept a extent)
          (some (Base64.encode (Sha1.digest (key.take 91 ++ wsGuid))))) ∨
      ¬ HasKey request ∧ EndsAt m a request.length (createKeyAccept a extent) := by
  obtain ⟨key, i, post, hfirst, hdrop, hkey⟩ | ⟨hnone, hends⟩ := getKey_cases h h0 hextent
  · refine .inl ⟨key, hfirst, hkey.bind ?_⟩
    have hlen : (if key.length < 128 - wsGuid.length - 1 then key.length
        else 128 - wsGuid.length - 1) = min key.length 91 := by
      have hguid : wsGuid.length = 36 := by decide
      rw [hguid]
      split <;> omega
    have hrest := h.drop i
    have hlength : (request.drop i).length = key.length + 1 + post.length := by
      rw [hdrop, List.length_append, List.length_cons]
      omega
    rw [List.length_drop] at hlength
    rw [Nat.min_eq_left (by omega)] at hrest
    have hcopied : Reads (Span a request.length) m (loadBytes (a + i) (min key.length 91))
        (key.take 91) := by
      have hload := loadBytes_span hrest (k := min key.length 91) (by rw [List.length_drop]; omega)
      rw [hdrop, List.take_append_of_le_length (Nat.min_le_left _ _)] at hload
      have htake : key.take (min key.length 91) = key.take 91 := by
        rw [Nat.min_comm, ← List.take_take, List.take_length]
      rw [htake, ← hdrop] at hload
      exact hload.span (Nat.le_add_right _ _) (by rw [List.length_drop]; omega)
    dsimp only
    rw [hlen]
    refine hcopied.bind ?_
    rw [sha1_eq (length_concatKey_lt key), base64Encode_eq]
    exact .pure _
  · exact .inr ⟨hnone, hends.bind_none rfl⟩

def switching (accept : List UInt8) : List UInt8 := header ++ accept ++ ascii "\r\n\r\n"

theorem switching_fits (m : List UInt8) :
    (switching (Base64.encode (Sha1.digest m))).length < sendBufferSize := by
  rw [switching, List.length_append, List.length_append, Base64.length_encode, Sha1.length_digest]
  decide +kernel

theorem processHandshake_ignores (client : Client) (sent : Int) (extent : Nat)
    (h : Holds m a request) (hget : ¬ ascii "GET /" <+: request)
    (hz : request.length < 5 → m (a + request.length) = 0) :
    Reads (Span a (request.length + if request.length < 5 then 1 else 0)) m
      (processHandshake client sent a extent) (false, []) := by
  have hlength : (ascii "GET /").length = 5 := by decide
  obtain ⟨hpre, -⟩ | ⟨-, -, hreads⟩ | ⟨-, hpre, -, hended⟩ :=
    startsWith_cases (ascii "GET /") h
  · exact absurd hpre hget
  · exact (hreads.span le_rfl (by omega)).bind (.pure _)
  · have hshort : request.length < 5 := by
      refine hlength ▸ Nat.lt_of_le_of_ne hpre.length_le fun heq => hget ?_
      exact hpre.eq_of_length heq ▸ List.prefix_rfl
    rw [if_pos hshort]
    exact (hended (hz hshort) (by decide)).bind (.pure _)

theorem processHandshake_get (client : Client) (sent : Int) (h : Holds m a request)
    (h0 : 0 ∉ request) (hextent : request.length < extent) (hget : ascii "GET /" <+: request) :
    (∃ key, FirstKey request key ∧
        Reads (Span a request.length) m (processHandshake client sent a extent)
          (decide (0 ≤ sent), [.send client.socket
            (switching (Base64.encode (Sha1.digest (key.take 91 ++ wsGuid))))])) ∨
      ¬ HasKey request ∧
        a + request.length ∈ (processHandshake client sent a extent m).touched ∧
        (m (a + request.length) = 0 →
          Reads (Span a (request.length + 1)) m (processHandshake client sent a extent)
            (false, [])) := by
  have hstarts : Reads (Span a request.length) m (startsWith a (ascii "GET /")) true := by
    obtain ⟨-, hreads⟩ | ⟨hpre, -⟩ | ⟨hpre, -⟩ := startsWith_cases (ascii "GET /") h
    · exact hreads
    · exact absurd hget hpre
    · exact absurd hget hpre
  obtain ⟨key, hfirst, haccept⟩ | ⟨hnone, hends⟩ := createKeyAccept_cases h h0 hextent
  · refine .inl ⟨key, hfirst, hstarts.bind (haccept.bind ?_)⟩
    have hfits := switching_fits (key.take 91 ++ wsGuid)
    rw [switching] at hfits ⊢
    dsimp only
    rw [if_pos hfits]
    exact .pure _
  · refine .inr ⟨hnone, hstarts.touched_bind (touched_bind_left hends.touched), fun hz => ?_⟩
    exact (hstarts.span le_rfl (Nat.le_succ _)).bind ((hends.ended hz).bind (.pure _))

end Key

/-! The static buffers of `create_key_accept`. -/

structure Statics where
  concatKey : CharArray 128
  hash : CharArray 22
  hashBase64 : CharArray 64

namespace Statics

/-- `create_key_accept`: what it leaves in its buffers, and the string in `hash_base64`. -/
def createKeyAccept (statics : Statics) (inbuf extent : Nat) :
    Access (Statics × Option (List UInt8)) := do
  match ← getKey inbuf extent with
  | none => return (statics, none)
  | some (key, len) =>
    let copyLen := if len < 128 - wsGuid.length - 1 then len else 128 - wsGuid.length - 1
    let copied ← loadBytes key copyLen
    let concatKey := statics.concatKey.write 0 (.replicate 128 0)
    let concatKey := (concatKey.write 0 copied).write copyLen [0]
    let concatKey := concatKey.write copyLen wsGuid
    let hash := statics.hash.write 0
      (sha1Final (sha1Update sha1Init (concatKey.bytes.take (copyLen + wsGuid.length))))
    let hashBase64 := statics.hashBase64.write 0 (base64Encode (hash.bytes.take 20) ++ [0])
    return ({ concatKey, hash, hashBase64 }, some (cString hashBase64.bytes))

def processHandshake (statics : Statics) (client : Client) (sent : Int) (buffer extent : Nat) :
    Access (Statics × Bool × List Effect) := do
  if ← startsWith buffer (ascii "GET /") then
    match ← statics.createKeyAccept buffer extent with
    | (statics, none) => return (statics, false, [])
    | (statics, some wsKeyAccept) =>
      let text := header ++ wsKeyAccept ++ ascii "\r\n\r\n"
      let response :=
        if text.length < sendBufferSize then text else text.take (sendBufferSize - 1)
      return (statics, decide (0 ≤ sent), [.send client.socket response])
  else
    return (statics, false, [])

/-- Apart from the buffers, `x` does what `y` does. -/
structure Erases {α : Type} (m : Nat → UInt8) (x : Access (Statics × α)) (y : Access α) : Prop where
  value : (x m).value.2 = (y m).value
  memory : (x m).memory = (y m).memory
  touched : (x m).touched = (y m).touched

section Erases

variable {α β : Type} {m : Nat → UInt8}

theorem Erases.pure {v : Statics × α} {w : α} (h : v.2 = w) : Erases m (pure v) (pure w) :=
  ⟨h, rfl, rfl⟩

theorem Erases.bind_left {x : Access β} {f : β → Access (Statics × α)} {g : β → Access α}
    (h : Erases (x m).memory (f (x m).value) (g (x m).value)) : Erases m (x >>= f) (x >>= g) :=
  ⟨h.value, h.memory, congrArg ((x m).touched ++ ·) h.touched⟩

theorem Erases.bind {x : Access (Statics × β)} {y : Access β}
    {f : Statics × β → Access (Statics × α)} {g : β → Access α} (hx : Erases m x y)
    (h : Erases (y m).memory (f ((x m).value.1, (y m).value)) (g (y m).value)) :
    Erases m (x >>= f) (y >>= g) := by
  rw [← hx.value] at h
  refine ⟨?_, ?_, ?_⟩
  · rw [bind_apply, bind_apply, hx.memory, ← hx.value]
    exact h.value
  · rw [bind_apply, bind_apply, hx.memory, ← hx.value]
    exact h.memory
  · rw [bind_apply, bind_apply, hx.memory, hx.touched, ← hx.value]
    exact congrArg ((y m).touched ++ ·) h.touched

end Erases

variable {m : Nat → UInt8} {statics : Statics}

theorem length_loadBytes (m : Nat → UInt8) (a n : Nat) :
    ((loadBytes a n m).value).length = n := by
  induction n generalizing a m with
  | zero => rfl
  | succ n ih => exact congrArg Nat.succ (ih _ _)

theorem take_concatKey (concatKey : CharArray 128) {copied : List UInt8} {copyLen : Nat}
    (hlength : copied.length = copyLen) (hle : copyLen ≤ 91) :
    (((concatKey.write 0 copied).write copyLen [0]).write copyLen wsGuid).bytes.take
      (copyLen + wsGuid.length) = copied ++ wsGuid := by
  have hguid : wsGuid.length = 36 := by decide
  have hfirst : ((concatKey.write 0 copied).bytes).take copyLen = copied := by
    rw [CharArray.write_bytes _ (by omega), List.take_zero, List.nil_append, ← hlength,
      List.take_left]
  have hsecond : (((concatKey.write 0 copied).write copyLen [0]).bytes).take copyLen = copied := by
    rw [CharArray.write_bytes _ (by rw [List.length_singleton]; omega), hfirst, ← hlength,
      List.take_left]
  rw [CharArray.write_bytes _ (by omega), hsecond, ← hlength, List.take_length_add_append,
    List.take_left]

theorem take_hash (hash : CharArray 22) (m : List UInt8) :
    (hash.write 0 (sha1Final (sha1Update sha1Init m))).bytes.take 20 =
      sha1Final (sha1Update sha1Init m) := by
  have hlength := length_sha1Final (sha1Update sha1Init m)
  rw [CharArray.write_bytes _ (by omega), List.take_zero, List.nil_append, List.take_left' hlength]

theorem cString_hashBase64 (hashBase64 : CharArray 64) {s : List UInt8} (hs : s.length = 20) :
    cString (hashBase64.write 0 (base64Encode s ++ [0])).bytes = base64Encode s := by
  have hlength : (base64Encode s).length = 28 := by
    rw [base64Encode_eq, Base64.length_encode, hs]
  have hzero : 0 ∉ base64Encode s := by
    rw [base64Encode_eq]
    exact Base64.zero_notMem_encode s
  rw [CharArray.write_bytes _ (by rw [List.length_append, hlength]; decide), List.take_zero,
    List.nil_append, List.append_assoc, cString_append hzero, List.singleton_append,
    cString_zero_cons, List.append_nil]

theorem createKeyAccept_erases (inbuf extent : Nat) :
    Erases m (statics.createKeyAccept inbuf extent) (Websocket.createKeyAccept inbuf extent) := by
  refine .bind_left ?_
  cases (getKey inbuf extent m).value with
  | none => exact .pure rfl
  | some place =>
    obtain ⟨key, len⟩ := place
    refine .bind_left (.pure ?_)
    have hguid : wsGuid.length = 36 := by decide
    dsimp only
    rw [take_concatKey _ (length_loadBytes _ _ _) (by split <;> omega), take_hash,
      cString_hashBase64 _ (length_sha1Final _)]

theorem processHandshake_erases (client : Client) (sent : Int) (buffer extent : Nat) :
    Erases m (statics.processHandshake client sent buffer extent)
      (Websocket.processHandshake client sent buffer extent) := by
  refine .bind_left ?_
  cases (startsWith buffer (ascii "GET /") m).value with
  | false => exact .pure rfl
  | true =>
    refine Erases.bind (createKeyAccept_erases buffer extent) ?_
    cases (Websocket.createKeyAccept buffer extent
      (startsWith buffer (ascii "GET /") m).memory).value with
    | none => exact .pure rfl
    | some wsKeyAccept => exact .pure rfl

def handshake (statics : Statics) (client : Client) (sent : Int) (extent : Nat)
    (memory : Nat → UInt8) (request : List UInt8) : Trace (Statics × Bool × List Effect) :=
  statics.processHandshake client sent 0 extent (received request memory)

/-- What a first request is promised: only the string it makes is looked at, the connection is
taken over exactly if a key is asked with, and the key is answered. -/
structure Answers (statics : Statics) (client : Client) (sent : Int) (extent : Nat)
    (memory : Nat → UInt8) (request : List UInt8) : Prop where
  inspects : ∀ a ∈ (statics.handshake client sent extent memory request).touched,
    a < request.length ∨ a = request.length ∧ a < recvBufferSize
  switches : (∃ accept, (statics.handshake client sent extent memory request).value.2.2 =
      [.send client.socket (switching accept)]) ↔ ascii "GET /" <+: request ∧ HasKey request
  accepts : ascii "GET /" <+: request → ∀ key, FirstKey request key → key.length ≤ 91 →
    (statics.handshake client sent extent memory request).value.2.2 =
      [.send client.socket (switching (Base64.encode (Sha1.digest (key ++ wsGuid))))]

theorem received_end (memory : Nat → UInt8) {request : List UInt8}
    (h : request.length < recvBufferSize) : received request memory request.length = 0 := by
  rw [received, if_neg (lt_irrefl _), if_pos h]

theorem handshake_erases (client : Client) (sent : Int) (extent : Nat) (memory : Nat → UInt8)
    (request : List UInt8) :
    (statics.handshake client sent extent memory request).value.2 =
        (Websocket.processHandshake client sent 0 extent (received request memory)).value ∧
      (statics.handshake client sent extent memory request).touched =
        (Websocket.processHandshake client sent 0 extent (received request memory)).touched := by
  have herases : Erases (received request memory) (statics.processHandshake client sent 0 extent)
      (Websocket.processHandshake client sent 0 extent) :=
    processHandshake_erases client sent 0 extent
  exact ⟨herases.value, herases.touched⟩

theorem handshake_touches_end (client : Client) (sent : Int) {extent : Nat} (memory : Nat → UInt8)
    {request : List UInt8} (h0 : 0 ∉ request) (hextent : request.length < extent)
    (hget : ascii "GET /" <+: request) (hkey : ¬ HasKey request) :
    request.length ∈ (statics.handshake client sent extent memory request).touched := by
  obtain ⟨key, hfirst, -⟩ | ⟨-, hend, -⟩ :=
    processHandshake_get client sent (holds_received request memory) h0 hextent hget
  · exact absurd hfirst.hasKey hkey
  · rw [Nat.zero_add] at hend
    exact (handshake_erases client sent extent memory request).2.symm ▸ hend

/-- A first request is answered as promised exactly if it leaves room for its NUL, or asks for
nothing, or has its key in full; whatever the buffers hold. -/
theorem handshake_answers_iff (client : Client) (sent : Int) {extent : Nat} (memory : Nat → UInt8)
    {request : List UInt8} (hle : request.length ≤ recvBufferSize) (h0 : 0 ∉ request)
    (hextent : recvBufferSize < extent) :
    Answers statics client sent extent memory request ↔
      request.length < recvBufferSize ∨ ¬ ascii "GET /" <+: request ∨ HasKey request := by
  have hholds := holds_received request memory
  obtain ⟨hvalue, htouched⟩ := @handshake_erases statics client sent extent memory request
  by_cases hget : ascii "GET /" <+: request
  · obtain ⟨key, hfirst, hreads⟩ | ⟨hnone, -, hended⟩ :=
      processHandshake_get client sent hholds h0 (hle.trans_lt hextent) hget
    · refine iff_of_true ⟨fun a ha => ?_, ?_, fun _ key' hkey' hlength => ?_⟩
        (.inr (.inr hfirst.hasKey))
      · have hspan := hreads.touched a (htouched ▸ ha)
        exact .inl (Nat.zero_add request.length ▸ hspan.2)
      · rw [hvalue, hreads.value]
        exact iff_of_true ⟨_, rfl⟩ ⟨hget, hfirst.hasKey⟩
      · rw [hvalue, hreads.value, hfirst.unique hkey' h0, List.take_of_length_le hlength]
    · rw [Nat.zero_add] at hended
      constructor
      · intro hanswers
        obtain hlt | ⟨-, hlt⟩ := hanswers.inspects request.length
          (handshake_touches_end client sent memory h0 (hle.trans_lt hextent) hget hnone)
        · exact absurd hlt (lt_irrefl _)
        · exact .inl hlt
      · rintro (hlt | hno | hkey)
        · have hreads := hended (received_end memory hlt)
          refine ⟨fun a ha => ?_, ?_, fun _ key hkey => absurd hkey.hasKey hnone⟩
          · have hspan := (hreads.touched a (htouched ▸ ha)).2
            omega
          · rw [hvalue, hreads.value]
            exact iff_of_false (by rintro ⟨accept, h⟩; cases h) fun hboth => hnone hboth.2
        · exact absurd hget hno
        · exact absurd hkey hnone
  · have hroom : recvBufferSize = 512 := rfl
    have hreads := processHandshake_ignores client sent extent hholds hget fun hshort =>
      (Nat.zero_add request.length).symm ▸ received_end memory (by omega)
    refine iff_of_true ⟨fun a ha => ?_, ?_, fun hno => absurd hno hget⟩ (.inr (.inl hget))
    · have hspan := (hreads.touched a (htouched ▸ ha)).2
      split at hspan <;> omega
    · rw [hvalue, hreads.value]
      exact iff_of_false (by rintro ⟨accept, h⟩; cases h) fun hboth => hget hboth.1

end Statics

section Sample

def knownRequest : List UInt8 :=
  ascii "GET /chat HTTP/1.1\r\nSec-WebSocket-Key: dGhlIHNhbXBsZSBub25jZQ==\r\n\r\n"

def usedStatics : Statics where
  concatKey := .strncpy 128 (ascii "an older key")
  hash := .strncpy 22 (ascii "an older digest")
  hashBase64 := .strncpy 64 (ascii "an older, and longer, value of the field")

def sampleClient : Client := { socket := 3, established := false }

theorem knownRequest_answered :
    usedStatics.Answers sampleClient 129 520 (fun _ => 0) knownRequest ∧
      (usedStatics.handshake sampleClient 129 520 (fun _ => 0) knownRequest).value.2.2 =
        [.send 3 (switching (ascii "s3pPLMBiTxaQ9kYGzzhZRbK+xOo="))] := by
  have hlength : knownRequest.length < recvBufferSize := by decide +kernel
  exact ⟨(Statics.handshake_answers_iff sampleClient 129 (fun _ => 0) hlength.le (by decide +kernel)
    (by decide)).mpr (.inl hlength), by decide +kernel⟩

def fullRequest : List UInt8 := ascii "GET /" ++ .replicate 507 65

/-- The search for the key goes on behind the buffer. -/
theorem fullRequest_overrun :
    fullRequest.length = recvBufferSize ∧ 0 ∉ fullRequest ∧
      recvBufferSize ∈
        (usedStatics.handshake sampleClient 129 520 (fun _ => 0) fullRequest).touched ∧
      ¬ usedStatics.Answers sampleClient 129 520 (fun _ => 0) fullRequest := by
  have hlength : fullRequest.length = recvBufferSize := by decide +kernel
  have h0 : 0 ∉ fullRequest := by decide +kernel
  have hkey : ¬ HasKey fullRequest := by
    rintro ⟨pre, key, post, heq⟩
    have hmem : 13 ∈ fullRequest := by simp [heq]
    exact absurd hmem (by decide +kernel)
  have htouched := @Statics.handshake_touches_end usedStatics sampleClient 129 520 (fun _ => 0)
    fullRequest h0 (by rw [hlength]; decide) (List.prefix_append _ _) hkey
  rw [hlength] at htouched
  refine ⟨hlength, h0, htouched, fun hanswers => ?_⟩
  obtain hlt | ⟨-, hlt⟩ := hanswers.inspects recvBufferSize htouched
  · rw [hlength] at hlt
    exact absurd hlt (lt_irrefl _)
  · exact absurd hlt (lt_irrefl _)

end Sample

end RadProt.Websocket
