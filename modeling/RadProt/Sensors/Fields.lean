import RadProt.Hal.Serial
import RadProt.Lib.Copy
import RadProt.Sensors.Task

namespace RadProt.Sensors

open RadProt.Lib RadProt.Lib.Access RadProt.Settings

/-! The texts that the entries take out of a line, on the memory of `read_task`. -/

def serialBuffersSize : Nat := 256

structure ReadBuffers where
  serialBuffer : Nat
  data : Nat
  apart : serialBuffer + serialBuffersSize ≤ data ∨ data + serialBuffersSize ≤ serialBuffer

def ReadBuffers.Reach (buffers : ReadBuffers) (a : Nat) : Prop :=
  Span buffers.serialBuffer serialBuffersSize a ∨ Span buffers.data serialBuffersSize a

/-- The body of the loop over the entries: the string that `process_and_publish` is handed, if it
is called. `extent` is how far the memory reaches from `data` on. -/
def copyField (buffers : ReadBuffers) (extent : Nat) (pubSettings : PublishSettingsEntry)
    (bytesReceived : Nat) : Access (Option (List UInt8)) := do
  if !pubSettings.enabled ∨ pubSettings.end ≤ pubSettings.start ∨
      bytesReceived ≤ pubSettings.start.toNat then return none
  else
    let len := if bytesReceived < pubSettings.end.toNat then bytesReceived - pubSettings.start.toNat
      else pubSettings.end.toNat - pubSettings.start.toNat
    if len = 0 then return none
    else
      let len := if serialBuffersSize - 1 < len then serialBuffersSize - 1 else len
      memset buffers.data 0 serialBuffersSize
      memcpy buffers.data (buffers.serialBuffer + pubSettings.start.toNat) len
      store (buffers.data + len) 0
      return some (← loadString buffers.data extent)

section

variable {α : Type} (ops : FloatOps α) (r : ClientModeSettings) (s : Sensor)
  (buffers : ReadBuffers) (extent : Nat)

def readLoop (bytesReceived : Nat) (acc : (Fin 10 → AvgFields α) × List Sent) :
    List (Fin 10) → Access ((Fin 10 → AvgFields α) × List Sent)
  | [] => return acc
  | i :: entries => do
    let data ← copyField buffers extent (r.publishSettings s.settings i) bytesReceived
    readLoop bytesReceived (publishEntry ops r s acc i data) entries

def readLine (avg : Fin 10 → AvgFields α) (bytes : List UInt8) :
    Access ((Fin 10 → AvgFields α) × List Sent) := do
  memset buffers.serialBuffer 0 serialBuffersSize
  storeBytes buffers.serialBuffer bytes
  if bytes.length ≠ 0 then
    readLoop ops r s buffers extent bytes.length (avg, []) (List.finRange 10)
  else return (avg, [])

end

def field (entry : PublishSettingsEntry) (line : List UInt8) : Option (List UInt8) :=
  if entry.enabled ∧ entry.start < entry.end ∧ entry.start.toNat < line.length then
    some ((line.take (min entry.end.toNat line.length)).drop entry.start.toNat)
  else none

def AtEnd (entry : PublishSettingsEntry) (line : List UInt8) : Prop :=
  entry.enabled ∧ entry.start < entry.end ∧ entry.start.toNat = line.length

instance (entry : PublishSettingsEntry) (line : List UInt8) : Decidable (AtEnd entry line) :=
  inferInstanceAs (Decidable (_ ∧ _))

section Slices

variable {entry : PublishSettingsEntry} {line bytes : List UInt8}

theorem field_eq_some (henabled : entry.enabled = true) (horder : entry.start < entry.end)
    (hstart : entry.start.toNat < line.length) :
    field entry line =
      some ((line.take (min entry.end.toNat line.length)).drop entry.start.toNat) :=
  if_pos ⟨henabled, horder, hstart⟩

theorem field_eq_none (h : ¬ (entry.enabled ∧ entry.start < entry.end ∧
    entry.start.toNat < line.length)) : field entry line = none := if_neg h

theorem receivedData_eq_field (hbytes : bytes.length < serialBuffersSize) :
    receivedData entry bytes = field entry bytes := by
  have hsize : bytes.length ≤ 255 := Nat.le_of_lt_succ hbytes
  by_cases h : entry.enabled ∧ entry.start < entry.end ∧ entry.start.toNat < bytes.length
  · obtain ⟨henabled, horder, hstart⟩ := h
    have hnat : entry.start.toNat < entry.end.toNat := horder
    have hlen : (if bytes.length < entry.end.toNat then bytes.length - entry.start.toNat
        else entry.end.toNat - entry.start.toNat) =
          min entry.end.toNat bytes.length - entry.start.toNat := by
      split <;> omega
    rw [field_eq_some henabled horder hstart, receivedData,
      if_neg (by simp [henabled, UInt16.not_le.mpr horder, hstart])]
    simp only [hlen]
    rw [if_neg (by omega), Nat.min_eq_left (by omega), List.drop_take]
  · rw [field_eq_none h, receivedData, if_pos]
    simpa only [Classical.not_and_iff_not_or_not, Bool.not_eq_true, UInt16.not_lt, Nat.not_lt,
      Bool.not_eq_true'] using h

theorem field_terminated (entry : PublishSettingsEntry) (h0 : 0 ∉ line) :
    (field entry (line ++ [0])).map cString =
      if AtEnd entry line then some [] else field entry line := by
  by_cases horder : entry.enabled = true ∧ entry.start < entry.end
  · obtain ⟨henabled, horder⟩ := horder
    have hnat : entry.start.toNat < entry.end.toNat := horder
    have hlength : (line ++ [0]).length = line.length + 1 := by simp
    rcases Nat.lt_trichotomy entry.start.toNat line.length with hlt | heq | hgt
    · rw [if_neg (fun hend => hlt.ne hend.2.2), field_eq_some henabled horder (by omega),
        field_eq_some henabled horder hlt, Option.map_some, hlength]
      congr 1
      by_cases hwithin : entry.end.toNat ≤ line.length
      · rw [Nat.min_eq_left (by omega), Nat.min_eq_left hwithin,
          List.take_append_of_le_length hwithin]
        exact cString_eq_self fun hz => h0 (List.mem_of_mem_take (List.mem_of_mem_drop hz))
      · rw [Nat.min_eq_right (by omega), Nat.min_eq_right (by omega), ← hlength, List.take_length,
          List.take_length, List.drop_append_of_le_length (by omega),
          cString_append fun hz => h0 (List.mem_of_mem_drop hz), cString_zero_cons, List.append_nil]
    · rw [if_pos ⟨henabled, horder, heq⟩, field_eq_some henabled horder (by omega),
        Nat.min_eq_right (by omega), List.take_length, heq, List.drop_left]
      rfl
    · rw [if_neg (fun hend => hgt.ne hend.2.2.symm), field_eq_none (by omega),
        field_eq_none (by omega)]
      rfl
  · rw [if_neg (fun hend => horder ⟨hend.1, hend.2.1⟩),
      field_eq_none (fun hf => horder ⟨hf.1, hf.2.1⟩), field_eq_none (fun hf => horder ⟨hf.1, hf.2.1⟩)]
    rfl

end Slices

section Publish

variable {α : Type} {ops : FloatOps α} {r : ClientModeSettings} {s : Sensor}
  {acc : (Fin 10 → AvgFields α) × List Sent} {i : Fin 10}

theorem processAndPublish_cString (avg : Fin 10 → AvgFields α) (data : List UInt8) :
    processAndPublish ops r s avg (cString data) i = processAndPublish ops r s avg data i := by
  simp only [processAndPublish, cString_cString]

theorem publishEntry_map_cString (data : Option (List UInt8)) :
    publishEntry ops r s acc i (data.map cString) = publishEntry ops r s acc i data := by
  cases data with
  | none => rfl
  | some data => simp only [Option.map_some, publishEntry, processAndPublish_cString]

theorem updateAverage_count {field : AvgFields α} {avgCnt : Int32} {val : α}
    (hpos : 0 < avgCnt.toInt) (h : (updateAverage ops field avgCnt val).2 = none) :
    (updateAverage ops field avgCnt val).1.avgCntCurrent ≠ field.avgCntCurrent := by
  unfold updateAverage at h ⊢
  by_cases hover : field.avgCntCurrent > avgCnt.toInt
  · simp only [if_pos hover] at h ⊢
    split at h
    next => cases h
    next hmore =>
      rw [if_neg hmore]
      dsimp only
      omega
  · simp only [if_neg hover] at h ⊢
    split at h
    next => cases h
    next hmore =>
      rw [if_neg hmore]
      dsimp only
      omega

theorem publishEntry_ne (data : List UInt8) : publishEntry ops r s acc i (some data) ≠ acc := by
  have hentry : publishEntry ops r s acc i (some data) =
    ((processAndPublish ops r s acc.1 data i).1,
      acc.2 ++ (processAndPublish ops r s acc.1 data i).2) := rfl
  intro heq
  rw [hentry] at heq
  obtain ⟨havg, hsent⟩ : (processAndPublish ops r s acc.1 data i).1 = acc.1 ∧
      acc.2 ++ (processAndPublish ops r s acc.1 data i).2 = acc.2 := Prod.ext_iff.mp heq
  rw [List.append_right_eq_self] at hsent
  rw [processAndPublish] at hsent havg
  by_cases hnum : (r.publishSettings s.settings i).isNum = true
  · by_cases hpos : 0 < (r.publishSettings s.settings i).avgCnt.toInt
    · simp only [if_pos hnum, if_pos hpos] at hsent havg
      have hnone := List.map_eq_nil_iff.mp hsent
      have hfield := congrFun havg i
      simp only [if_true] at hfield
      exact updateAverage_count hpos (Option.toList_eq_nil_iff.mp hnone)
        (congrArg AvgFields.avgCntCurrent hfield)
    · simp only [if_pos hnum, if_neg hpos] at hsent
      cases hsent
  · simp only [if_neg hnum] at hsent
    cases hsent

end Publish

section Copy

variable {buffers : ReadBuffers} {extent : Nat} {m : Nat → UInt8} {bytes : List UInt8}

theorem ReadBuffers.reach_serialBuffer (buffers : ReadBuffers) {a n : Nat}
    (hleft : buffers.serialBuffer ≤ a) (hright : a + n ≤ buffers.serialBuffer + serialBuffersSize) :
    ∀ b, Span a n b → buffers.Reach b :=
  fun _ hb => .inl ⟨hleft.trans hb.1, hb.2.trans_le hright⟩

theorem ReadBuffers.reach_data {buffers : ReadBuffers} {a n : Nat}
    (hleft : buffers.data ≤ a) (hright : a + n ≤ buffers.data + serialBuffersSize) :
    ∀ b, Span a n b → buffers.Reach b :=
  fun _ hb => .inr ⟨hleft.trans hb.1, hb.2.trans_le hright⟩

theorem copySlice_leaves {start len : Nat} (hline : Holds m buffers.serialBuffer bytes)
    (hbytes : bytes.length < serialBuffersSize) (hslice : start + len ≤ bytes.length)
    (hextent : serialBuffersSize ≤ extent) :
    ∃ m', Leaves buffers.Reach m (do
        memset buffers.data 0 serialBuffersSize
        memcpy buffers.data (buffers.serialBuffer + start) len
        store (buffers.data + len) 0
        return some (← loadString buffers.data extent))
      (some (cString ((bytes.drop start).take len))) m' ∧ Holds m' buffers.serialBuffer bytes := by
  have hlength : ((bytes.drop start).take len).length = len := by
    rw [List.length_take, List.length_drop]
    omega
  -- What is written in `data` leaves the line alone.
  have hkept : ∀ {m a s}, Holds m buffers.serialBuffer bytes → buffers.data ≤ a →
      a + s.length ≤ buffers.data + serialBuffersSize →
      Holds (overwrite m a s) buffers.serialBuffer bytes := fun h ha hs =>
    h.overwrite (by have := buffers.apart; omega)
  obtain ⟨m₀, hcleared, hline⟩ : ∃ m₀,
      Leaves buffers.Reach m (memset buffers.data 0 serialBuffersSize) () m₀ ∧
        Holds m₀ buffers.serialBuffer bytes :=
    ⟨_, memset_leaves 0 (ReadBuffers.reach_data le_rfl le_rfl), hkept hline le_rfl (by simp)⟩
  have hslice : Holds m₀ (buffers.serialBuffer + start) ((bytes.drop start).take len) := by
    have hdrop := hline.drop start
    rw [Nat.min_eq_left (by omega)] at hdrop
    exact hdrop.of_isPrefix (List.take_prefix _ _)
  have hcopied := memcpy_leaves (P := buffers.Reach) hslice
    (buffers.reach_serialBuffer (Nat.le_add_right _ _) (by omega))
    (ReadBuffers.reach_data (a := buffers.data) le_rfl (by omega))
  rw [hlength] at hcopied
  have hclosed : Leaves buffers.Reach (overwrite m₀ buffers.data ((bytes.drop start).take len))
      (store (buffers.data + len) 0) () _ :=
    .store (.inr ⟨Nat.le_add_right _ _, by omega⟩)
  have hwritten := overwrite_append m₀ buffers.data ((bytes.drop start).take len) [0]
  rw [hlength] at hwritten
  rw [hwritten] at hclosed
  have hstring : Reads buffers.Reach (overwrite m₀ buffers.data ((bytes.drop start).take len ++ [0]))
      (loadString buffers.data extent) (cString ((bytes.drop start).take len)) := by
    have hshort : (cString ((bytes.drop start).take len)).length ≤ len :=
      (List.takeWhile_prefix _).length_le.trans_eq hlength
    exact (loadString_span ((holds_overwrite m₀ buffers.data _).of_isPrefix
      (cString_terminated_isPrefix _)) (zero_notMem_cString _) (by omega)).mono
        (ReadBuffers.reach_data le_rfl (by omega))
  exact ⟨_, hcleared.bind (hcopied.bind (hclosed.bind (hstring.leaves.bind (.pure _)))),
    hkept hline le_rfl (by rw [List.length_append, hlength, List.length_singleton]; omega)⟩

theorem copyField_leaves (pubSettings : PublishSettingsEntry)
    (hline : Holds m buffers.serialBuffer bytes) (hbytes : bytes.length < serialBuffersSize)
    (hextent : serialBuffersSize ≤ extent) :
    ∃ m', Leaves buffers.Reach m (copyField buffers extent pubSettings bytes.length)
      ((receivedData pubSettings bytes).map cString) m' ∧ Holds m' buffers.serialBuffer bytes := by
  rw [copyField, receivedData]
  split
  next => exact ⟨m, .pure _, hline⟩
  next h =>
    have hlen : (if bytes.length < pubSettings.end.toNat then
        bytes.length - pubSettings.start.toNat
      else pubSettings.end.toNat - pubSettings.start.toNat) ≤
        bytes.length - pubSettings.start.toNat := by
      split <;> omega
    generalize (if bytes.length < pubSettings.end.toNat then
        bytes.length - pubSettings.start.toNat
      else pubSettings.end.toNat - pubSettings.start.toNat) = len at hlen ⊢
    by_cases h0 : len = 0
    · rw [if_pos h0, if_pos h0]
      exact ⟨m, .pure _, hline⟩
    · have hcut : (if serialBuffersSize - 1 < len then serialBuffersSize - 1 else len) = len :=
        if_neg (by omega)
      have hroom : len ≤ 255 :=
        hlen.trans ((Nat.sub_le _ _).trans (Nat.le_of_lt_succ hbytes))
      rw [if_neg h0, if_neg h0, hcut, Nat.min_eq_left hroom]
      exact copySlice_leaves hline hbytes (by omega) hextent

variable {α : Type} {ops : FloatOps α} {r : ClientModeSettings} {s : Sensor}

theorem readLoop_leaves (entries : List (Fin 10)) (acc : (Fin 10 → AvgFields α) × List Sent)
    (hline : Holds m buffers.serialBuffer bytes) (hbytes : bytes.length < serialBuffersSize)
    (hextent : serialBuffersSize ≤ extent) :
    ∃ m', Leaves buffers.Reach m (readLoop ops r s buffers extent bytes.length acc entries)
      (entries.foldl (fun acc i => publishEntry ops r s acc i
        (receivedData (r.publishSettings s.settings i) bytes)) acc) m' := by
  induction entries generalizing acc m with
  | nil => exact ⟨m, .pure _⟩
  | cons i entries ih =>
    obtain ⟨m₁, hcopied, hkept⟩ :=
      copyField_leaves (r.publishSettings s.settings i) hline hbytes hextent
    obtain ⟨m₂, hrest⟩ := ih (publishEntry ops r s acc i
      (receivedData (r.publishSettings s.settings i) bytes)) hkept
    refine ⟨m₂, hcopied.bind ?_⟩
    rw [publishEntry_map_cString]
    exact hrest

theorem readLine_leaves (avg : Fin 10 → AvgFields α) (hbytes : bytes.length < serialBuffersSize)
    (hne : bytes ≠ []) (hextent : serialBuffersSize ≤ extent) (m : Nat → UInt8) :
    ∃ m', Leaves buffers.Reach m (readLine ops r s buffers extent avg bytes)
      (publishEntries ops r s avg fun i => receivedData (r.publishSettings s.settings i) bytes)
      m' := by
  have hcleared := memset_leaves (P := buffers.Reach) (m := m) 0
    (buffers.reach_serialBuffer le_rfl le_rfl)
  have hstored := storeBytes_leaves (P := buffers.Reach) (s := bytes)
    (m := overwrite m buffers.serialBuffer (.replicate serialBuffersSize 0))
    (buffers.reach_serialBuffer le_rfl (by omega))
  obtain ⟨m', hloop⟩ : ∃ m', Leaves buffers.Reach _
      (readLoop ops r s buffers extent bytes.length (avg, []) (List.finRange 10)) _ m' :=
    readLoop_leaves _ _ (holds_overwrite _ buffers.serialBuffer bytes) hbytes hextent
  refine ⟨m', hcleared.bind (hstored.bind ?_)⟩
  rw [if_pos (mt List.length_eq_zero_iff.mp hne)]
  exact hloop

end Copy

section Lines

variable {α : Type} {ops : FloatOps α} {r : ClientModeSettings} {s : Sensor}
  {buffers : ReadBuffers} {extent : Nat} {k k' : Hal.Serial} {wakes : List Hal.Wake}
  {bytes : List UInt8}

theorem publishEntry_field_iff (hbytes : bytes.length < serialBuffersSize)
    (hstring : bytes = cString bytes ∨ bytes = cString bytes ++ [0])
    (acc : (Fin 10 → AvgFields α) × List Sent) (i : Fin 10) :
    publishEntry ops r s acc i (receivedData (r.publishSettings s.settings i) bytes) =
        publishEntry ops r s acc i (field (r.publishSettings s.settings i) (cString bytes)) ↔
      ¬ (0 ∈ bytes ∧ AtEnd (r.publishSettings s.settings i) (cString bytes)) := by
  have h0 := zero_notMem_cString bytes
  rw [receivedData_eq_field hbytes]
  obtain hwhole | hended := hstring
  · rw [← hwhole] at h0 ⊢
    exact iff_of_true rfl fun hend => h0 hend.1
  · have hmem : 0 ∈ bytes := by
      rw [hended]
      exact List.mem_append_right _ (List.mem_singleton_self 0)
    have htaken : (field (r.publishSettings s.settings i) bytes).map cString = _ :=
      hended.symm ▸ field_terminated (r.publishSettings s.settings i) h0
    rw [← publishEntry_map_cString (field _ bytes), htaken]
    by_cases hend : AtEnd (r.publishSettings s.settings i) (cString bytes)
    · rw [if_pos hend, field_eq_none fun hf => hend.2.2.not_lt hf.2.2]
      exact iff_of_false (publishEntry_ne []) (not_not_intro ⟨hmem, hend⟩)
    · rw [if_neg hend]
      exact iff_of_true rfl fun hboth => hend hboth.2

/-- The turn of `read_task` for a line stays within its arrays. An entry publishes of it exactly
the text that it names, as long as it does not start at the terminator that came with the line. -/
theorem fields_published_iff
    (hread : Hal.readString serialBuffersSize k wakes = some (bytes, k'))
    (hline : 1 ≤ (cString bytes).length ∧ (cString bytes).length ≤ 254)
    (hextent : serialBuffersSize ≤ extent) (avg : Fin 10 → AvgFields α) (m : Nat → UInt8) :
    Within buffers.Reach m (readLine ops r s buffers extent avg bytes) ∧
      (readLine ops r s buffers extent avg bytes m).value = (publishEntries ops r s avg fun i =>
        receivedData (r.publishSettings s.settings i) bytes) ∧
      ∀ i acc,
        publishEntry ops r s acc i (receivedData (r.publishSettings s.settings i) bytes) =
            publishEntry ops r s acc i
              (field (r.publishSettings s.settings i) (cString bytes)) ↔
          ¬ (0 ∈ bytes ∧ AtEnd (r.publishSettings s.settings i) (cString bytes)) := by
  obtain ⟨hbytes, hstring⟩ := Hal.readString_stores (by decide) hread
  have hne : bytes ≠ [] := fun hnil => by simp [hnil] at hline
  obtain ⟨m', hleaves⟩ : ∃ m', Leaves buffers.Reach m
      (readLine ops r s buffers extent avg bytes) _ m' :=
    readLine_leaves avg hbytes hne hextent m
  exact ⟨hleaves.touched, hleaves.value,
    fun i acc => publishEntry_field_iff hbytes hstring acc i⟩

end Lines

section Sample

def wholeOps : FloatOps Int where
  zero := 0
  strtof := atoi
  mul val _ := val
  add val val' := val + val'
  div val n := val / n.toInt
  format val := ascii (toString val) ++ ascii ".000000"

def sampleBuffers : ReadBuffers := ⟨0, 256, .inl (by decide)⟩

def lineReceived (line : String) : Hal.Serial :=
  Hal.receive (.new serialBuffersSize fun _ => 0) (ascii line ++ [13])

def factorySends (s : Sensor) (i : Fin 10) (data : Option (List UInt8)) : List (List UInt8) :=
  (publishEntry wholeOps (sClientSettings []) s (AvgFields.init wholeOps, []) i data).2.map
    Sent.payload

theorem slice_published : ∃ bytes k',
    Hal.readString serialBuffersSize (lineReceived "H30042") [] = some (bytes, k') ∧
      Within sampleBuffers.Reach (fun _ => 0)
        (readLine wholeOps (sClientSettings []) ⟨0, 0⟩ sampleBuffers 256
          (AvgFields.init wholeOps) bytes) ∧
      factorySends ⟨0, 0⟩ 0 (receivedData ((sClientSettings []).publishSettings 0 0) bytes) =
        factorySends ⟨0, 0⟩ 0 (some (ascii "0042")) := by
  obtain ⟨k', hread⟩ : ∃ k', Hal.readString serialBuffersSize (lineReceived "H30042") [] =
      some (ascii "H30042" ++ [0], k') := ⟨_, rfl⟩
  obtain ⟨hwithin, -, hfields⟩ := @fields_published_iff _ wholeOps (sClientSettings []) ⟨0, 0⟩
    sampleBuffers _ _ _ _ _ hread (by decide) (le_refl _) (AvgFields.init wholeOps) fun _ => 0
  refine ⟨_, k', hread, hwithin, ?_⟩
  have hfirst := (hfields 0 (AvgFields.init wholeOps, [])).mpr (by decide)
  exact congrArg (fun acc => acc.2.map Sent.payload) hfirst

/-- With the factory settings a line of two characters is published as a zero. -/
theorem short_line_published : ∃ bytes k',
    Hal.readString serialBuffersSize (lineReceived "12") [] = some (bytes, k') ∧
      cString bytes = ascii "12" ∧
      field ((sClientSettings []).publishSettings 0 0) (cString bytes) = none ∧
      factorySends ⟨0, 0⟩ 0 (receivedData ((sClientSettings []).publishSettings 0 0) bytes) =
        [ascii "0.000000"] :=
  ⟨_, _, rfl, by decide, by decide, by decide⟩

end Sample

end RadProt.Sensors
