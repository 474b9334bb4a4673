import RadProt.Http.PostRuns

namespace RadProt.Http

open RadProt.Lib

/-- The send buffer takes the last bytes of a response that has no file handle. -/
def TakesLast (env : Env) (o : Outside) (hs : HttpState) : Prop :=
  hs.handle = none ∧ 0 < hs.left ∧ headersToSend env hs + hs.left ≤ o.sndbuf ∧ hs.left ≤ 65535 ∧
    hs.left ≤ o.maxWriteLen

instance (env : Env) (o : Outside) (hs : HttpState) : Decidable (TakesLast env o hs) :=
  inferInstanceAs (Decidable (_ ∧ _))

def Intake.KeepsLast (env : Env) (o : Outside) : Intake → Prop
  | .send hs _ => ¬ TakesLast env o hs
  | _ => True

/-- Where a callback enters `http_send`, it does not take the last bytes of such a response. -/
def HttpState.KeepsLast (env : Env) (hs : HttpState) (net : Net) : Event → Prop
  | .recv (some p) true o => (httpTakeIn env o hs net p).KeepsLast env o
  | .sent _ o => ¬ TakesLast env o { hs with retries := 0 }
  | _ => True

def KeepsLast (env : Env) (c : Conn) (e : Event) : Prop :=
  ∀ hs, c.hs = some hs → hs.KeepsLast env c.net e

def Net.HandlesOpen (net : Net) : Prop := .nullBytesLeft ∉ net.log

instance (net : Net) : Decidable net.HandlesOpen := inferInstanceAs (Decidable (_ ∉ _))

theorem Net.handlesOpen_emit {net : Net} {e : Effect} :
    (net.emit e).HandlesOpen ↔ net.HandlesOpen ∧ e ≠ .nullBytesLeft := by
  simp [HandlesOpen, eq_comm]

def Filled (hdrs : Vector (Option Text) 6) : Prop := ∀ t, some t ∈ hdrs.toList → t.bytes ≠ []

structure Prepared (hs : HttpState) : Prop where
  file : hs.file = none → hs.left = 0
  next : hs.hdrIndex < numFileHdrStrings →
    ∃ t, hs.hdrs.toList[hs.hdrIndex]? = some (some t) ∧ hs.hdrPos < t.bytes.length
  strings : Filled hs.hdrs

section Send

variable {env : Env} {o : Outside} {hs hs' : HttpState} {net net' : Net} {room room' k : Nat}

theorem sendHeader_log (h : sendHeader o hs net room = (hs', net', k)) : net'.log = net.log := by
  unfold sendHeader at h
  split at h
  · obtain ⟨-, rfl, -⟩ := by simpa using h
    rfl
  · dsimp only at h
    split at h
    · obtain ⟨-, rfl, -⟩ := by simpa using h
      exact Net.write_log ..
    · obtain ⟨-, rfl, -⟩ := by simpa using h
      exact Net.write_log ..

theorem skipNull_spec {hdrs : Vector (Option Text) 6} {i : Nat}
    (h : skipNull hdrs i < numFileHdrStrings) :
    ∃ t, hdrs.toList[skipNull hdrs i]? = some (some t) := by
  have hlen : (hdrs.toList.drop i).findIdx (·.isSome) < (hdrs.toList.drop i).length := by
    rw [List.length_drop, Vector.length_toList]
    unfold skipNull numFileHdrStrings at h
    omega
  have hsome := List.findIdx_getElem (w := hlen)
  obtain ⟨t, ht⟩ := Option.isSome_iff_exists.mp hsome
  refine ⟨t, ?_⟩
  rw [skipNull, ← List.getElem?_drop, List.getElem?_eq_getElem hlen, ht]

theorem Prepared.sendHeader (h : Prepared hs) (hindex : hs.hdrIndex < numFileHdrStrings)
    (hroom : 0 < room) (hsend : sendHeader o hs net room = (hs', net', k)) :
    Prepared hs' ∧ 0 < k := by
  obtain ⟨t, ht, hpos⟩ := h.next hindex
  have hk : 0 < httpWrite (t.bytes.length - hs.hdrPos) room o.maxWriteLen := by
    have := o.maxWriteLen_pos
    simp only [httpWrite]
    omega
  have hle := httpWrite_le (t.bytes.length - hs.hdrPos) room o.maxWriteLen
  simp only [Http.sendHeader, ht, Option.join_some] at hsend
  generalize httpWrite (t.bytes.length - hs.hdrPos) room o.maxWriteLen = n at hsend hk hle
  split at hsend
  · obtain ⟨rfl, -, rfl⟩ := by simpa using hsend
    refine ⟨⟨h.file, fun hnext => ?_, h.strings⟩, hk⟩
    obtain ⟨u, hu⟩ := skipNull_spec hnext
    exact ⟨u, hu, List.length_pos_iff.mpr (h.strings u (List.mem_of_getElem? hu))⟩
  · obtain ⟨rfl, -, rfl⟩ := by simpa using hsend
    exact ⟨⟨h.file, fun _ => ⟨t, ht, by simp only; omega⟩, h.strings⟩, hk⟩

theorem sendHeaders_log {rounds : Nat} (h : sendHeaders o rounds hs net room = (hs', net', room')) :
    net'.log = net.log ∧ hs.headerLeft + room' = hs'.headerLeft + room := by
  induction rounds generalizing hs net room with
  | zero =>
    obtain ⟨rfl, rfl, rfl⟩ := by simpa [sendHeaders] using h
    exact ⟨rfl, rfl⟩
  | succ rounds ih =>
    simp only [sendHeaders] at h
    split at h
    next =>
      obtain ⟨rfl, rfl, rfl⟩ := by simpa using h
      exact ⟨rfl, rfl⟩
    next =>
      obtain ⟨hs₁, net₁, k, hk⟩ : ∃ hs₁ net₁ k, sendHeader o hs net room = (hs₁, net₁, k) :=
        ⟨_, _, _, rfl⟩
      obtain ⟨-, hleft, hroom, -, -⟩ := sendHeader_spec hk
      have hlog := sendHeader_log hk
      rw [hk] at h
      dsimp only at h
      split at h
      next hzero =>
        obtain ⟨rfl, rfl, rfl⟩ := by simpa using h
        exact ⟨hlog, by omega⟩
      next =>
        obtain ⟨hlog', hleft'⟩ := ih h
        exact ⟨hlog'.trans hlog, by omega⟩

theorem Prepared.headerLeft_pos (h : Prepared hs) (hindex : hs.hdrIndex < numFileHdrStrings) :
    0 < hs.headerLeft := by
  obtain ⟨t, ht, hpos⟩ := h.next hindex
  rw [HttpState.headerLeft, HttpState.pending_cons ht, List.map_cons, List.sum_cons, List.length_drop]
  omega

theorem Prepared.sendHeaders (h : Prepared hs) {rounds : Nat}
    (hsend : sendHeaders o rounds hs net room = (hs', net', room')) : Prepared hs' := by
  induction rounds generalizing hs net room with
  | zero =>
    obtain ⟨rfl, -, -⟩ := by simpa [Http.sendHeaders] using hsend
    exact h
  | succ rounds ih =>
    simp only [Http.sendHeaders] at hsend
    split at hsend
    next =>
      obtain ⟨rfl, -, -⟩ := by simpa using hsend
      exact h
    next hgo =>
      obtain ⟨hs₁, net₁, k, hk⟩ : ∃ hs₁ net₁ k, Http.sendHeader o hs net room = (hs₁, net₁, k) :=
        ⟨_, _, _, rfl⟩
      obtain ⟨hprepared, -⟩ := h.sendHeader (by omega) (by omega) hk
      rw [hk] at hsend
      dsimp only at hsend
      split at hsend
      next =>
        obtain ⟨rfl, -, -⟩ := by simpa using hsend
        exact hprepared
      next => exact ih hprepared hsend

theorem Prepared.headers_done (h : Prepared hs) {rounds : Nat} (hroom : hs.headerLeft < room)
    (hrounds : hs.headerLeft ≤ rounds)
    (hsend : Http.sendHeaders o rounds hs net room = (hs', net', room')) :
    numFileHdrStrings ≤ hs'.hdrIndex := by
  induction rounds generalizing hs net room with
  | zero =>
    obtain ⟨rfl, -, -⟩ := by simpa [Http.sendHeaders] using hsend
    by_contra hindex
    have := h.headerLeft_pos (Nat.lt_of_not_le hindex)
    omega
  | succ rounds ih =>
    simp only [Http.sendHeaders] at hsend
    split at hsend
    next hstop =>
      obtain ⟨rfl, -, -⟩ := by simpa using hsend
      exact hstop.resolve_left (by omega)
    next hgo =>
      obtain ⟨hs₁, net₁, k, hk⟩ : ∃ hs₁ net₁ k, Http.sendHeader o hs net room = (hs₁, net₁, k) :=
        ⟨_, _, _, rfl⟩
      obtain ⟨hprepared, hpos⟩ := h.sendHeader (by omega) (by omega) hk
      obtain ⟨-, hleft, -⟩ := sendHeader_spec hk
      rw [hk] at hsend
      dsimp only at hsend
      rw [if_neg (by omega)] at hsend
      exact ih hprepared (by omega) (by omega) hsend

theorem httpSendDataNonssi_log (h : httpSendDataNonssi o hs net room = (hs', net')) :
    net'.log = net.log ∧
      (hs'.left = 0 ↔ hs.left ≤ room ∧ hs.left ≤ 65535 ∧ hs.left ≤ o.maxWriteLen) := by
  simp only [httpSendDataNonssi] at h
  split at h
  · obtain ⟨rfl, rfl⟩ := by simpa using h
    refine ⟨Net.write_log .., ?_⟩
    simp only [httpWrite]
    omega
  · obtain ⟨rfl, rfl⟩ := by simpa using h
    refine ⟨rfl, ?_⟩
    simp only [httpWrite]
    omega

theorem Net.handlesOpen_congr (hlog : net'.log = net.log) :
    net'.HandlesOpen ↔ net.HandlesOpen := by rw [HandlesOpen, hlog, HandlesOpen]

theorem Net.handlesOpen_of_append {es : List Effect} (hlog : net'.log = net.log ++ es)
    (hes : ∀ e ∈ es, e ≠ .nullBytesLeft) : net'.HandlesOpen ↔ net.HandlesOpen := by
  have hnot : .nullBytesLeft ∉ es := fun hmem => hes _ hmem rfl
  simp [HandlesOpen, hlog, hnot]

theorem Finishes.handlesOpen (h : Finishes hs net hs' net') :
    net'.HandlesOpen ↔ net.HandlesOpen := by
  obtain ⟨es, hlog, hheap⟩ := h.log
  refine Net.handlesOpen_of_append hlog fun e he hnull => ?_
  subst hnull
  rcases List.mem_cons.mp he with he | he
  · cases he
  · exact hheap _ he

theorem httpStateFree_handlesOpen (hs : HttpState) (net : Net) :
    (httpStateFree hs net).HandlesOpen ↔ net.HandlesOpen := by
  simp only [httpStateFree]
  split
  · simp [Net.handlesOpen_emit]
  · rfl

theorem httpCloseConn_handlesOpen (hs : Option HttpState) :
    (httpCloseConn env o hs net).net.HandlesOpen ↔ net.HandlesOpen := by
  cases hs with
  | none => rfl
  | some hs =>
    simp only [httpCloseConn, httpStateFree_handlesOpen]
    split
    · exact (httpdPostFinished_finishes rfl).handlesOpen
    · rfl

theorem httpSendData_handlesOpen :
    (httpSendData env o hs net room).net.HandlesOpen ↔ net.HandlesOpen ∧
      ¬ (hs.handle = none ∧ 0 < hs.left ∧ hs.left ≤ room ∧ hs.left ≤ 65535 ∧
        hs.left ≤ o.maxWriteLen) := by
  rw [httpSendData]
  split
  next hend =>
    rw [httpCloseConn_handlesOpen]
    exact (and_iff_left fun hlast => absurd hend.1 (by omega)).symm
  next hmore =>
    obtain ⟨hs₁, net₁, hdata⟩ : ∃ hs₁ net₁, httpSendDataNonssi o hs net room = (hs₁, net₁) :=
      ⟨_, _, rfl⟩
    have hhandle := (httpSendDataNonssi_spec hdata).1.handle
    obtain ⟨hlog, hzero⟩ := httpSendDataNonssi_log hdata
    have hsame := Net.handlesOpen_congr hlog
    rw [hdata]
    dsimp only
    split
    next hend =>
      have hemit : (if hs₁.handle.isNone then net₁.emit .nullBytesLeft else net₁).HandlesOpen ↔
          net.HandlesOpen ∧ ¬ hs.handle = none := by
        rw [hhandle]
        cases hs.handle with
        | none => simp [Net.handlesOpen_emit]
        | some f => simpa using hsame
      have hboth : (hs.handle = none ∧ 0 < hs.left ∧ hs.left ≤ room ∧ hs.left ≤ 65535 ∧
          hs.left ≤ o.maxWriteLen) ↔ hs.handle = none := by
        refine and_iff_left_of_imp fun hnone => ⟨Nat.pos_of_ne_zero fun hleft => ?_, hzero.mp hend⟩
        exact hmore ⟨hleft, by simp [httpCheckEof, hnone]⟩
      rw [hboth, ← hemit]
      split
      · exact httpCloseConn_handlesOpen _
      · rfl
    next hend =>
      refine hsame.trans (and_iff_left fun hlast => hend ?_).symm
      exact hzero.mpr hlast.2.2

theorem httpSend_handlesOpen (h : hs.handle = none → Prepared hs) :
    (httpSend env o hs net).net.HandlesOpen ↔ net.HandlesOpen ∧ ¬ TakesLast env o hs := by
  rw [httpSend]
  split
  next hindex =>
    obtain ⟨hs₁, net₁, room, hheaders⟩ : ∃ hs₁ net₁ room,
        sendHeaders o o.sndbuf (setUpHeaders env hs) net o.sndbuf = (hs₁, net₁, room) :=
      ⟨_, _, _, rfl⟩
    obtain ⟨hsends, -, hleft, hfile⟩ := sendHeaders_spec hheaders
    obtain ⟨hlog, hroom⟩ := sendHeaders_log hheaders
    obtain ⟨hleft₀, hfile₀⟩ := setUpHeaders_data env hs
    have hhandle : hs₁.handle = hs.handle :=
      hsends.handle.trans (setUpHeaders_sends env hs net).handle
    have hsame := Net.handlesOpen_congr hlog
    have hprepared : hs.handle = none → Prepared (setUpHeaders env hs) := by
      intro hnone
      have hsetUp : setUpHeaders env hs = hs := by
        simp [setUpHeaders, getHttpContentLength, hnone]
      rw [hsetUp]
      exact h hnone
    rw [hheaders, TakesLast, headersToSend, if_pos hindex]
    dsimp only
    split
    next hmore =>
      refine hsame.trans (and_iff_left ?_).symm
      rintro ⟨hnone, hpos, hfits, -, -⟩
      have := (hprepared hnone).headers_done (by omega) (by omega) hheaders
      omega
    next hdone =>
      rw [HttpState.headerLeft_of_le (Nat.le_of_not_lt hdone)] at hroom
      split
      next hend =>
        rw [httpCloseConn_handlesOpen]
        refine hsame.trans (and_iff_left ?_).symm
        rintro ⟨hnone, hpos, -⟩
        have hfile₂ : hs.file = none := by rw [← hfile₀, ← hfile]; simpa using hend.1
        have := (h hnone).file hfile₂
        omega
      next =>
        rw [httpSendData_handlesOpen, hsame, hhandle, hleft, hleft₀]
        have hfits : hs.left ≤ room ↔ (setUpHeaders env hs).headerLeft + hs.left ≤ o.sndbuf := by
          omega
        rw [hfits]
  next hindex =>
    rw [httpSendData_handlesOpen, TakesLast, headersToSend, if_neg hindex, Nat.zero_add]

theorem Prepared.httpSendDataNonssi (h : Prepared hs)
    (hsend : httpSendDataNonssi o hs net room = (hs', net')) : Prepared hs' := by
  simp only [Http.httpSendDataNonssi] at hsend
  split at hsend
  · obtain ⟨rfl, -⟩ := by simpa using hsend
    exact ⟨fun hnone => (by cases hnone), h.next, h.strings⟩
  next hfile =>
    obtain ⟨rfl, -⟩ := by simpa using hsend
    refine ⟨fun _ => ?_, h.next, h.strings⟩
    simp [h.file hfile]

theorem Prepared.httpSendData (h : Prepared hs)
    (hsend : (httpSendData env o hs net room).hs = some hs') : Prepared hs' := by
  rw [Http.httpSendData] at hsend
  split at hsend
  · cases hsend
  · obtain ⟨hs₁, net₁, hdata⟩ : ∃ hs₁ net₁, Http.httpSendDataNonssi o hs net room = (hs₁, net₁) :=
      ⟨_, _, rfl⟩
    have hprepared := h.httpSendDataNonssi hdata
    rw [hdata] at hsend
    dsimp only at hsend
    split at hsend
    · split at hsend
      · cases hsend
      · exact Option.some.inj hsend ▸ hprepared
    · exact Option.some.inj hsend ▸ hprepared

theorem Prepared.httpSend (h : Prepared hs) (hhandle : hs.handle = none)
    (hsend : (httpSend env o hs net).hs = some hs') : Prepared hs' := by
  have hsetUp : setUpHeaders env hs = hs := by
    simp [setUpHeaders, getHttpContentLength, hhandle]
  rw [Http.httpSend, hsetUp] at hsend
  split at hsend
  · obtain ⟨hs₁, net₁, room, hheaders⟩ : ∃ hs₁ net₁ room,
        Http.sendHeaders o o.sndbuf hs net o.sndbuf = (hs₁, net₁, room) := ⟨_, _, _, rfl⟩
    have hprepared := h.sendHeaders hheaders
    rw [hheaders] at hsend
    dsimp only at hsend
    split at hsend
    · exact Option.some.inj hsend ▸ hprepared
    · split at hsend
      · cases hsend
      · exact hprepared.httpSendData hsend
  · exact h.httpSendData hsend

theorem httpSend_handle (hsend : (httpSend env o hs net).hs = some hs') : hs'.handle = hs.handle := by
  obtain ⟨hs₁, net₁, hsends, heq⟩ | ⟨-, hs₁, net₁, -, heq⟩ := httpSend_cases env o hs net
  · rw [heq] at hsend
    exact Option.some.inj hsend ▸ hsends.handle
  · rw [heq] at hsend
    cases hsend

end Send

section Strings

variable {env : Env} {hs : HttpState} {hdrs : Vector (Option Text) 6}

theorem headerString_ne (env : Env) (s : HeaderString) : (headerString env s).bytes ≠ [] := by
  cases s with
  | server => exact List.append_ne_nil_of_left_ne_nil (List.append_ne_nil_of_left_ne_nil (by decide) _) _
  | _ => simp only [headerString]; decide

theorem httpContentType_ne (type : String) : (httpContentType type).bytes ≠ [] := by
  simp [httpContentType, ascii]

theorem getContentTypeFromExtension_ne {ext : List UInt8} {text : Text}
    (h : getContentTypeFromExtension ext = some text) : text.bytes ≠ [] := by
  have hall : ∀ entry ∈ httpHeaders, entry.2.bytes ≠ [] := by decide
  obtain ⟨entry, hentry, rfl⟩ := Option.map_eq_some_iff.mp h
  exact hall entry (List.mem_of_find?_eq_some hentry)

theorem contentLengthText_ne {len : Nat} {text : Text} (h : contentLengthText len = some text) :
    text.bytes ≠ [] := by
  simp only [contentLengthText, Option.ite_none_right_eq_some, Option.some.injEq] at h
  rw [← h.2]
  simp [crlf]

namespace Filled

theorem setHdr (h : Filled hdrs) {i : Nat} {text : Option Text}
    (htext : ∀ t, text = some t → t.bytes ≠ []) : Filled (setHdr hdrs i text) := by
  intro t ht
  rw [Vector.toList_setIfInBounds] at ht
  obtain ht | ht := List.mem_or_eq_of_mem_set ht
  · exact h t ht
  · exact htext t ht.symm

theorem unset (h : Filled hdrs) (i : Nat) : Filled (Http.setHdr hdrs i none) :=
  h.setHdr fun _ ht => by cases ht

theorem set (h : Filled hdrs) (i : Nat) {text : Text} (htext : text.bytes ≠ []) :
    Filled (Http.setHdr hdrs i (some text)) :=
  h.setHdr fun _ ht => Option.some.inj ht ▸ htext

end Filled

theorem Prepared.of_first (hfile : hs.file = none → hs.left = 0) (hindex : hs.hdrIndex = 0)
    (hpos : hs.hdrPos = 0) (hfirst : ∃ t, hs.hdrs.toList[0]? = some (some t))
    (hfilled : Filled hs.hdrs) : Prepared hs where
  file := hfile
  next _ := by
    obtain ⟨t, hfirst⟩ := hfirst
    rw [hindex, hpos]
    exact ⟨t, hfirst, List.length_pos_iff.mpr (hfilled t (List.mem_of_getElem? hfirst))⟩
  strings := hfilled

theorem prepared_getHttpHeaders (hfilled : Filled hs.hdrs) (hfile : hs.file = none → hs.left = 0)
    (uri : Option (List UInt8)) : Prepared (getHttpHeaders env hs uri) := by
  have hcommon : Filled (setHdr (setHdr (setHdr hs.hdrs 1 (some (headerString env .server))) 2 none)
      3 none) := ((hfilled.set 1 (headerString_ne env _)).unset 2).unset 3
  cases uri with
  | none =>
    simp only [getHttpHeaders]
    refine .of_first hfile rfl rfl ?_ ?_
    · simp [Vector.toList_setIfInBounds]
    · exact (hcommon.set 0 (headerString_ne env _)).set 5 (headerString_ne env _)
  | some uri =>
    simp only [getHttpHeaders]
    refine .of_first hfile rfl rfl ?_ ?_
    · simp [Vector.toList_setIfInBounds]
    · refine (hcommon.set 0 ?_).set 4 ?_
      · split
        · exact headerString_ne env _
        · split
          · exact headerString_ne env _
          · split
            · decide
            · exact headerString_ne env _
      · split
        · exact httpContentType_ne _
        · cases hext : getContentTypeFromExtension _ with
          | none => exact httpContentType_ne _
          | some text => exact getContentTypeFromExtension_ne hext

end Strings

section Intake

variable {env : Env} {o : Outside} {hs hs' : HttpState} {net net' : Net} {p : Pbuf}

def Ready (hs : HttpState) : Prop := hs.handle = none → Prepared hs

theorem getHttpHeaders_handle (uri : Option (List UInt8)) :
    (getHttpHeaders env hs uri).handle = hs.handle := by
  cases uri <;> simp only [getHttpHeaders]

theorem ready_httpInitFile (hfilled : Filled hs.hdrs) (file : Option FsFile) (is09 : Bool)
    (uri : Option (List UInt8)) : Ready (httpInitFile env hs file is09 uri) := by
  cases file with
  | none =>
    let hs₁ : HttpState := { hs with handle := none, file := none, left := 0, retries := 0 }
    have hfilled₁ : Filled hs₁.hdrs := hfilled
    exact fun _ => prepared_getHttpHeaders hfilled₁ (fun _ => rfl) uri
  | some f =>
    simp only [httpInitFile]
    split
    · exact fun hnone => by cases hnone
    · intro hnone
      cases (getHttpHeaders_handle uri).symm.trans hnone

theorem ready_httpFindFile (hfilled : Filled hs.hdrs) (uri : List UInt8) (is09 : Bool) :
    Ready (httpFindFile env hs uri is09) := by
  simp only [httpFindFile]
  split
  · exact ready_httpInitFile hfilled _ _ _
  · split <;> exact ready_httpInitFile hfilled _ _ _

theorem prepared_httpRedirect (h : Prepared hs) : Prepared (httpRedirect env hs) := by
  refine .of_first h.file rfl rfl ?_ ((h.strings.set 0 ?_).set 2 (headerString_ne env _))
  · simp [httpRedirect, Vector.toList_setIfInBounds]
  · simp [ascii]

structure Prepares (hs : HttpState) (net : Net) (hs' : HttpState) (net' : Net) : Prop where
  handle : hs'.handle = hs.handle
  prepared : Prepared hs → Prepared hs'
  handlesOpen : net'.HandlesOpen ↔ net.HandlesOpen

namespace Prepares

theorem trans {hs'' : HttpState} {net'' : Net} (h : Prepares hs net hs' net')
    (k : Prepares hs' net' hs'' net'') : Prepares hs net hs'' net'' where
  handle := k.handle.trans h.handle
  prepared hprepared := k.prepared (h.prepared hprepared)
  handlesOpen := k.handlesOpen.trans h.handlesOpen

theorem ready (h : Prepares hs net hs' net') (hready : Ready hs) : Ready hs' :=
  fun hnone => h.prepared (hready (h.handle ▸ hnone))

theorem emit {e : Effect} (hhandle : hs'.handle = hs.handle)
    (hprepared : Prepared hs → Prepared hs') (he : e ≠ .nullBytesLeft) :
    Prepares hs net hs' (net.emit e) where
  handle := hhandle
  prepared := hprepared
  handlesOpen := by simp [Net.handlesOpen_emit, he]

end Prepares

theorem prepared_httpdPostResponse {id : Nat} {body : List UInt8} (h : Prepared hs) :
    Prepared (httpdPostResponse env hs net id body) := by
  have hjson : ∀ t, getContentTypeFromExtension (ascii "json") = some t → t.bytes ≠ [] :=
    fun _ => getContentTypeFromExtension_ne
  cases hcurrent : net.current with
  | false =>
    simp only [httpdPostResponse, hcurrent]
    refine .of_first h.file rfl rfl ?_ ((h.strings.set 0 (headerString_ne env _)).set 2
      (headerString_ne env _))
    simp [Vector.toList_setIfInBounds]
  | true =>
    simp only [httpdPostResponse, hcurrent]
    have hfilled := ((h.strings.set 0 (headerString_ne env .ok)).set 2
      (headerString_ne env .contentLength)).setHdr (i := 4) hjson
    refine .of_first (fun hnone => by cases hnone) rfl rfl ?_ ?_
    · simp only [if_true]
      split <;> simp [Vector.toList_setIfInBounds]
    · simp only [if_true]
      split
      next htext => exact hfilled.set 3 (contentLengthText_ne htext)
      next => exact hfilled

theorem prepares_httpdPostFinished (h : httpdPostFinished env o hs net = (hs', net')) :
    Prepares hs net hs' net' := by
  have hopen := (httpdPostFinished_finishes h).handlesOpen
  obtain ⟨hs₁, net₁, hprocess⟩ : ∃ hs₁ net₁, httpdProcessPostData env o hs net = (hs₁, net₁) :=
    ⟨_, _, rfl⟩
  simp only [httpdPostFinished, hprocess] at h
  obtain ⟨rfl, -⟩ := Prod.mk.inj h
  simp only [httpdProcessPostData] at hprocess
  split at hprocess
  · obtain ⟨rfl, -⟩ := Prod.mk.inj hprocess
    refine ⟨?_, prepared_httpdPostResponse, hopen⟩
    simp only [httpdPostResponse]
    split <;> rfl
  · obtain ⟨rfl, -⟩ := Prod.mk.inj hprocess
    exact ⟨rfl, id, hopen⟩

theorem prepares_httpPostRxpbuf (h : httpPostRxpbuf env o hs net p = (hs', net')) :
    Prepares hs net hs' net' := by
  obtain ⟨accepted, hs₁, net₁, hreceive⟩ : ∃ accepted hs₁ net₁, httpdPostReceiveData
      { hs with postContentLenLeft := hs.postContentLenLeft - p.totLen } net p =
        (accepted, hs₁, net₁) := ⟨_, _, _, rfl⟩
  have hreceived : Prepares hs net hs₁ net₁ := by
    simp only [httpdPostReceiveData] at hreceive
    split at hreceive
    · obtain ⟨-, rfl, rfl⟩ := by simpa using hreceive
      exact .emit rfl (fun h => ⟨h.file, h.next, h.strings⟩) (by simp)
    · obtain ⟨-, rfl, rfl⟩ := by simpa using hreceive
      exact .emit rfl (fun h => ⟨h.file, h.next, h.strings⟩) (by simp)
  simp only [httpPostRxpbuf, hreceive] at h
  have hstored : ∀ hs₂, hs₂ = (if accepted = true then hs₁ else { hs₁ with postContentLenLeft := 0 }) →
      Prepares hs net hs₂ net₁ := by
    rintro hs₂ rfl
    refine hreceived.trans ⟨?_, ?_, Iff.rfl⟩
    · split <;> rfl
    · split
      · exact id
      · exact fun h => ⟨h.file, h.next, h.strings⟩
  specialize hstored _ rfl
  generalize (if accepted = true then hs₁ else { hs₁ with postContentLenLeft := 0 }) = hs₂ at h hstored
  split at h
  next =>
    simp only [httpHandlePostFinished] at h
    split at h
    next => exact hstored.trans (.trans (.emit rfl id (by simp)) (prepares_httpdPostFinished h))
    next => exact hstored.trans (prepares_httpdPostFinished h)
  next =>
    obtain ⟨rfl, rfl⟩ := Prod.mk.inj h
    exact hstored

theorem prepares_httpPostStart {inp : Pbuf} {uri : List UInt8} {contentLen hdrLen : Nat}
    (h : httpPostStart env o hs net inp uri contentLen hdrLen = (hs', net')) :
    Prepares hs net hs' net' := by
  obtain ⟨hs₁, net₁, hbegin, hcases⟩ := httpPostStart_cases h
  have hbegun : Prepares hs net
      { hs₁ with postContentLen := contentLen, postContentLenLeft := contentLen } net₁ := by
    simp only [httpdPostBegin] at hbegin
    split at hbegin
    · obtain ⟨rfl, rfl⟩ := Prod.mk.inj hbegin
      refine ⟨rfl, fun h => ⟨h.file, h.next, h.strings⟩, ?_⟩
      simp [Net.HandlesOpen]
    · obtain ⟨rfl, rfl⟩ := Prod.mk.inj hbegin
      refine ⟨rfl, fun h => ⟨h.file, h.next, h.strings⟩, ?_⟩
      simp [Net.HandlesOpen]
  obtain ⟨q, -, hrx⟩ | ⟨-, -, rfl, rfl⟩ := hcases
  · exact hbegun.trans (prepares_httpPostRxpbuf hrx)
  · exact hbegun

def Intake.Ready : Intake → Prop
  | .wait hs _ => Http.Ready hs
  | .send hs _ => Http.Ready hs
  | .close hs _ => Http.Ready hs

theorem Ready.req (h : Ready hs) (req : Option Pbuf) : Ready { hs with req } :=
  fun hnone => ⟨(h hnone).file, (h hnone).next, (h hnone).strings⟩

theorem Ready.retries (h : Ready hs) (retries : Nat) : Ready { hs with retries } :=
  fun hnone => ⟨(h hnone).file, (h hnone).next, (h hnone).strings⟩

theorem ready_goOn (h : Ready hs) (net : Net) : (goOn hs net).Ready := by
  unfold goOn
  split <;> exact h

theorem TakesIn.ready {p : Pbuf} {i : Intake} (hi : TakesIn env o hs net p i) (h : Ready hs) :
    i.Ready ∧ (i.net.HandlesOpen ↔ net.HandlesOpen) := by
  cases hi with
  | body hpos hrx =>
    have hprepares := prepares_httpPostRxpbuf hrx
    rw [net_goOn]
    exact ⟨ready_goOn (hprepares.ready (h.retries 0)) _, hprepares.handlesOpen⟩
  | serving => exact ⟨h, Iff.rfl⟩
  | ending => exact ⟨h.req none, Iff.rfl⟩
  | inProgress => exact ⟨h.req _, Iff.rfl⟩
  | refused => exact ⟨h.req none, Iff.rfl⟩
  | redirect hp =>
    have hredirect : Ready (httpRedirect env hs) := fun _ => prepared_httpRedirect (h hp.handle)
    exact ⟨hredirect.req none, Iff.rfl⟩
  | file hp uri is09 =>
    have hfind : Ready (httpFindFile env hs uri is09) :=
      ready_httpFindFile (h hp.handle).strings uri is09
    exact ⟨hfind.req none, Iff.rfl⟩
  | post hp hparse hstart =>
    have hprepares := prepares_httpPostStart hstart
    rw [net_goOn]
    exact ⟨ready_goOn ((hprepares.ready h).req none) _, hprepares.handlesOpen⟩

end Intake

section Steps

variable {env : Env} {o : Outside} {hs : HttpState} {net : Net} {c c' : Conn} {e : Event}

def Conn.Ready (c : Conn) : Prop := ∀ hs, c.hs = some hs → Http.Ready hs

theorem ready_httpSend (h : Ready hs) : (httpSend env o hs net).Ready := by
  intro hs' hsend hnone
  have hhandle : hs.handle = none := (httpSend_handle hsend).symm.trans hnone
  exact (h hhandle).httpSend hhandle hsend

theorem ready_finish {i : Intake} (h : i.Ready) : (i.finish env o).Ready := by
  cases i with
  | wait hs net =>
    intro hs' hsome
    exact Option.some.inj hsome ▸ h
  | send hs net => exact ready_httpSend h
  | close hs net => exact fun _ hsome => by cases hsome

theorem handlesOpen_finish {i : Intake} (h : i.Ready) :
    (i.finish env o).net.HandlesOpen ↔ i.net.HandlesOpen ∧ i.KeepsLast env o := by
  cases i with
  | wait hs net => exact (and_iff_left trivial).symm
  | send hs net => exact httpSend_handlesOpen h
  | close hs net => exact (httpCloseConn_handlesOpen (some hs)).trans (and_iff_left trivial).symm

theorem Conn.Ready.step (h : c.Ready) (hstep : Step env c e c') : c'.Ready := by
  obtain ⟨-, rfl⟩ := hstep
  obtain ⟨hs, net⟩ := c
  cases hs with
  | none =>
    intro hs' hsome
    cases e with
    | recv p ok o => cases p <;> cases ok <;> cases hsome
    | _ => cases hsome
  | some hs =>
    have hready := h hs rfl
    cases e with
    | recv p ok o =>
      cases p with
      | none => exact fun _ hsome => by cases hsome
      | some p =>
        cases ok with
        | false => exact fun _ hsome => by cases hsome
        | true => exact ready_finish ((httpTakeIn_takesIn env o hs net p).ready hready).1
    | sent len o => exact ready_httpSend (hready.retries 0)
    | poll o =>
      simp only [httpStep, httpPoll]
      split
      · exact fun _ hsome => by cases hsome
      · split
        · exact ready_httpSend (hready.retries _)
        · exact fun _ hsome => Option.some.inj hsome ▸ hready.retries _
    | err => exact fun _ hsome => by cases hsome
    | other => exact fun _ hsome => Option.some.inj hsome ▸ hready

theorem Conn.Ready.handlesOpen_step (h : c.Ready) (hstep : Step env c e c') :
    c'.net.HandlesOpen ↔ c.net.HandlesOpen ∧ KeepsLast env c e := by
  obtain ⟨-, rfl⟩ := hstep
  obtain ⟨hs, net⟩ := c
  cases hs with
  | none =>
    refine Iff.trans ?_ (and_iff_left fun _ hsome => by cases hsome).symm
    cases e with
    | recv p ok o => cases p <;> cases ok <;> exact Iff.rfl
    | _ => exact Iff.rfl
  | some hs =>
    have hready := h hs rfl
    have hkeeps : KeepsLast env { hs := some hs, net } e ↔ hs.KeepsLast env net e :=
      ⟨fun h => h hs rfl, fun h _ hsome => Option.some.inj hsome ▸ h⟩
    rw [hkeeps]
    cases e with
    | recv p ok o =>
      cases p with
      | none => exact (httpCloseConn_handlesOpen _).trans (and_iff_left trivial).symm
      | some p =>
        cases ok with
        | false => exact (httpCloseConn_handlesOpen _).trans (and_iff_left trivial).symm
        | true =>
          obtain ⟨hready', hopen⟩ := (httpTakeIn_takesIn env o hs net p).ready hready
          exact (handlesOpen_finish hready').trans (and_congr_left fun _ => hopen)
    | sent len o => exact httpSend_handlesOpen (hready.retries 0)
    | poll o =>
      refine Iff.trans ?_ (and_iff_left trivial).symm
      simp only [httpStep, httpPoll]
      split
      · exact httpCloseConn_handlesOpen _
      · split
        next hhandle =>
          refine (httpSend_handlesOpen (hready.retries _)).trans (and_iff_left fun hlast => ?_)
          rw [hlast.1] at hhandle
          exact Bool.false_ne_true hhandle
        next => rfl
    | err =>
      refine Iff.trans ?_ (and_iff_left trivial).symm
      exact httpStateFree_handlesOpen hs { net with unacked := [] }
    | other => exact (and_iff_left trivial).symm

end Steps

theorem ready_httpAccept : httpAccept.Ready := by
  rintro hs ⟨⟩ -
  refine ⟨fun _ => rfl, fun hindex => absurd hindex (by decide), fun t ht => ?_⟩
  simp [httpStateInit] at ht

/-- In a run, `fs_bytes_left` is never evaluated without a file handle exactly when no `http_send`
takes the last bytes of a response that has none. -/
theorem handlesOpen_iff {env : Env} {c : Conn} {es : List Event} (h : Run (Step env) httpAccept es c) :
    c.net.HandlesOpen ↔ Run (Guarded (KeepsLast env) (Step env)) httpAccept es c := by
  constructor
  · intro hopen
    exact (h.guarded_of_last Conn.Ready (fun c => c.net.HandlesOpen)
      (fun _ _ _ hready hstep => hready.step hstep)
      (fun _ e _ hready (hstep : Step env _ e _) ht => (hready.handlesOpen_step hstep).mp ht)
      ready_httpAccept hopen).2
  · intro hguarded
    have hboth : c.Ready ∧ c.net.HandlesOpen := by
      refine hguarded.invariant (fun c => c.Ready ∧ c.net.HandlesOpen) (fun _ _ _ hs hstep => ?_)
        ⟨ready_httpAccept, List.not_mem_nil⟩
      exact ⟨hs.1.step hstep.2, (hs.1.handlesOpen_step hstep.2).mpr ⟨hs.2, hstep.1⟩⟩
    exact hboth.2

section Sample

theorem response_kept_back :
    ∃ c, Run (Guarded (KeepsLast sampleEnv) (Step sampleEnv)) httpAccept
        [.recv (some (sampleRequest [97, 98, 99])) true (sampleOutside 71)] c ∧
      c.hs.isSome = true := by
  let e : Event := .recv (some (sampleRequest [97, 98, 99])) true (sampleOutside 71)
  have hrun : Run (Step sampleEnv) httpAccept [e] (httpStep sampleEnv httpAccept e) :=
    .single ⟨trivial, rfl⟩
  have hopen : (httpStep sampleEnv httpAccept e).net.HandlesOpen := by decide +kernel
  have hsome : (httpStep sampleEnv httpAccept e).hs.isSome = true := by decide +kernel
  exact ⟨_, (handlesOpen_iff hrun).mp hopen, hsome⟩

/-- With room for all of it, `http_send` looks at the bytes left of no file. -/
theorem null_handle_tested :
    ∃ c, Run (Step sampleEnv) httpAccept
        [.recv (some (sampleRequest [97, 98, 99])) true (sampleOutside 11680)] c ∧
      ¬ c.net.HandlesOpen :=
  ⟨_, .single ⟨trivial, rfl⟩, by decide +kernel⟩

end Sample

end RadProt.Http
