import RadProt.Lib.Batch
import RadProt.Sensors.Task
import RadProt.Settings.Protection
import Mathlib.Algebra.Field.Rat
import Mathlib.Algebra.BigOperators.Group.List.Basic

namespace RadProt.Sensors

open RadProt.Lib RadProt.Settings

/-! The averages of an entry, in exact arithmetic, while its settings are saved again. -/

variable {α : Type}

structure Averaged (entry : PublishSettingsEntry) : Prop where
  isNum : entry.isNum = true
  avgCnt : 0 < entry.avgCnt.toInt

/-- A call of `process_and_publish`: the value it takes, the `avg_cnt` it finds, and what it leaves
and sends. -/
structure Call (α : Type) where
  val : α
  avgCnt : Int32
  avgCntCurrent : Int
  sent : List Sent

structure Averaging (α : Type) where
  device : Device
  avg : Fin 10 → AvgFields α
  calls : List (Call α)

namespace Averaging

inductive Event
  | process (index : Fin 10) (data : List UInt8)
  | save (postData : Except DeserializationError Json)

section Steps

variable (ops : FloatOps α) (sdk : Sdk) (sensor : Sensor) (index : Fin 10)

def entry (s : Averaging α) : PublishSettingsEntry :=
  s.device.flash.publishSettings sensor.settings index

def process (s : Averaging α) (j : Fin 10) (data : List UInt8) : Averaging α :=
  let (avg, sent) := processAndPublish ops s.device.flash sensor s.avg data j
  let call : Call α := {
    val := ops.mul (ops.strtof (cString data)) (s.entry sensor index).scale
    avgCnt := (s.entry sensor index).avgCnt
    avgCntCurrent := (avg index).avgCntCurrent
    sent }
  { s with avg, calls := if j = index then call :: s.calls else s.calls }

def init (device : Device) : Averaging α where
  device
  avg := AvgFields.init ops
  calls := []

inductive Step : Averaging α → Event → Averaging α → Prop
  | process {s j data} : Step s (.process j data) (s.process ops sensor index j data)
  | save {s : Averaging α} {postData device} :
    Settings.Step sdk s.device (.save postData) device →
    Averaged (device.flash.publishSettings sensor.settings index) →
    Step s (.save postData) { s with device }

/-- The entry is not sampled while as many values are gathered as its `avg_cnt` asks for. -/
def Unfilled (s : Averaging α) : Event → Prop
  | .process j _ => j = index → (s.avg index).avgCntCurrent ≠ (s.entry sensor index).avgCnt.toInt
  | .save _ => True

end Steps

end Averaging

section Publish

variable {ops : FloatOps α} {r : ClientModeSettings} {sensor : Sensor} {index j : Fin 10}
  {avg : Fin 10 → AvgFields α} {data : List UInt8}

theorem processAndPublish_averaged (ops : FloatOps α) (avg : Fin 10 → AvgFields α)
    (data : List UInt8) (h : Averaged (r.publishSettings sensor.settings index)) :
    (processAndPublish ops r sensor avg data index).1 index =
        (updateAverage ops (avg index) (r.publishSettings sensor.settings index).avgCnt
          (ops.mul (ops.strtof (cString data)) (r.publishSettings sensor.settings index).scale)).1 ∧
      (processAndPublish ops r sensor avg data index).2.map Sent.payload =
        (updateAverage ops (avg index) (r.publishSettings sensor.settings index).avgCnt
          (ops.mul (ops.strtof (cString data))
            (r.publishSettings sensor.settings index).scale)).2.toList.map ops.format := by
  rw [processAndPublish, if_pos h.isNum, if_pos h.avgCnt]
  refine ⟨if_pos rfl, ?_⟩
  rw [List.map_map]
  rfl

theorem processAndPublish_of_ne (hne : index ≠ j) :
    (processAndPublish ops r sensor avg data j).1 index = avg index := by
  rw [processAndPublish]
  split
  next =>
    split
    next => exact if_neg hne
    next => rfl
  next => rfl

theorem Averaging.process_of_ne (s : Averaging α) (data : List UInt8) (hne : j ≠ index) :
    (s.process ops sensor index j data).calls = s.calls ∧
      (s.process ops sensor index j data).avg index = s.avg index :=
  ⟨if_neg hne, processAndPublish_of_ne hne.symm⟩

end Publish

variable [Field α]

structure FloatOps.Exact (ops : FloatOps α) : Prop where
  zero : ops.zero = 0
  add : ∀ val val', ops.add val val' = val + val'
  div : ∀ val n, ops.div val n = val / n.toInt

def mean (vals : List α) : α := vals.sum / vals.length

/-- What the averages promise: the count stays below `avg_cnt`, an average is that of the last
`avg_cnt` values, and as many calls in a row with one `avg_cnt` publish. -/
structure Averaging.Sound (ops : FloatOps α) (calls : List (Call α)) : Prop where
  below : ∀ c ∈ calls, 0 ≤ c.avgCntCurrent ∧ c.avgCntCurrent < c.avgCnt.toInt
  average : ∀ c earlier, c :: earlier <:+ calls → ∀ sent ∈ c.sent,
    ∃ vals, vals <+: (c :: earlier).map Call.val ∧ vals.length = c.avgCnt.toInt ∧
      sent.payload = ops.format (mean vals)
  due : ∀ window, window <:+: calls → window ≠ [] →
    (∀ c ∈ window, c.avgCnt.toInt = window.length) → ∃ c ∈ window, c.sent ≠ []

theorem Averaging.Sound.suffix {ops : FloatOps α} {calls earlier : List (Call α)}
    (h : Sound ops calls) (hsuffix : earlier <:+ calls) : Sound ops earlier where
  below c hc := h.below c (hsuffix.mem hc)
  average c rest hrest := h.average c rest (hrest.trans hsuffix)
  due window hwindow := h.due window (hwindow.trans hsuffix.isInfix)

/-! Each entry gathers a batch. -/

structure AvgFields.Represents (field : AvgFields α) (batch : List α) : Prop where
  avgCntCurrent : field.avgCntCurrent = batch.length
  accum : field.accum = batch.sum

section Refinement

variable {ops : FloatOps α} {field : AvgFields α} {batch : List α} {avgCnt : Int32}

theorem FloatOps.Exact.div_length (hops : ops.Exact) {vals : List α}
    (hlength : (vals.length : Int) = avgCnt.toInt) : ops.div vals.sum avgCnt = mean vals := by
  rw [hops.div, ← hlength, Int.cast_natCast, mean]

theorem FloatOps.Exact.represents_nil (hops : ops.Exact) :
    AvgFields.Represents { avgCntCurrent := 0, accum := ops.zero } ([] : List α) :=
  ⟨rfl, hops.zero⟩

theorem AvgFields.Represents.kept (h : field.Represents batch) (hops : ops.Exact)
    (hpos : 0 < avgCnt.toInt) :
    (if field.avgCntCurrent > avgCnt.toInt then { avgCntCurrent := 0, accum := ops.zero }
      else field).Represents (Batch.kept avgCnt.toInt.toNat batch) := by
  have hiff : field.avgCntCurrent > avgCnt.toInt ↔ avgCnt.toInt.toNat < batch.length := by
    rw [h.avgCntCurrent]
    omega
  rw [Batch.kept]
  simp only [hiff]
  split
  next => exact hops.represents_nil
  next => exact h

theorem AvgFields.Represents.updateAverage (h : field.Represents batch) (hops : ops.Exact)
    (hpos : 0 < avgCnt.toInt) (val : α) :
    (updateAverage ops field avgCnt val).1.Represents
        (Batch.add avgCnt.toInt.toNat batch val).1 ∧
      (updateAverage ops field avgCnt val).2 =
        (Batch.add avgCnt.toInt.toNat batch val).2.map mean := by
  have hkept := h.kept hops hpos
  rw [Sensors.updateAverage, Batch.add]
  generalize (if field.avgCntCurrent > avgCnt.toInt then { avgCntCurrent := 0, accum := ops.zero }
    else field) = kept at hkept
  have hiff : kept.avgCntCurrent + 1 = avgCnt.toInt ↔
      (Batch.kept avgCnt.toInt.toNat batch).length + 1 = avgCnt.toInt.toNat := by
    rw [hkept.avgCntCurrent]
    omega
  have haccum : ops.add kept.accum val = (val :: Batch.kept avgCnt.toInt.toNat batch).sum := by
    rw [hops.add, hkept.accum, List.sum_cons, add_comm]
  simp only [hiff]
  split
  next hlast =>
    refine ⟨hops.represents_nil, ?_⟩
    rw [Option.map_some, haccum, hops.div_length]
    rw [List.length_cons]
    omega
  next =>
    refine ⟨⟨?_, haccum⟩, rfl⟩
    rw [List.length_cons, hkept.avgCntCurrent]
    rfl

end Refinement

section Calls

variable {ops : FloatOps α}

def Call.input (c : Call α) : Nat × α := (c.avgCnt.toInt.toNat, c.val)

structure Call.Follows (ops : FloatOps α) (c : Call α) (earlier : List (Call α)) : Prop where
  avgCnt : 0 < c.avgCnt.toInt
  avgCntCurrent : c.avgCntCurrent = (Batch.gathered ((c :: earlier).map Call.input)).length
  payloads : c.sent.map Sent.payload =
    ((Batch.add c.avgCnt.toInt.toNat (Batch.gathered (earlier.map Call.input)) c.val).2.map
      mean).toList.map ops.format

def Recorded (ops : FloatOps α) (calls : List (Call α)) : Prop :=
  ∀ c earlier, c :: earlier <:+ calls → c.Follows ops earlier

theorem Recorded.cons {calls : List (Call α)} {c : Call α} (h : Recorded ops calls)
    (hc : c.Follows ops calls) : Recorded ops (c :: calls) := by
  intro c' earlier hsuffix
  obtain heq | hsuffix := List.suffix_cons_iff.mp hsuffix
  · obtain ⟨rfl, rfl⟩ := List.cons_eq_cons.mp heq
    exact hc
  · exact h c' earlier hsuffix

theorem Call.Follows.sent_eq_nil_iff {c : Call α} {earlier : List (Call α)}
    (h : c.Follows ops earlier) :
    c.sent = [] ↔ (Batch.add c.avgCnt.toInt.toNat (Batch.gathered (earlier.map Call.input))
      c.val).2 = none := by
  rw [← List.map_eq_nil_iff (f := Sent.payload), h.payloads]
  simp

theorem Call.Follows.average {c : Call α} {earlier : List (Call α)} (h : c.Follows ops earlier) :
    ∀ sent ∈ c.sent, ∃ vals, vals <+: (c :: earlier).map Call.val ∧
      vals.length = c.avgCnt.toInt ∧ sent.payload = ops.format (mean vals) := by
  intro sent hsent
  have hpayload := List.mem_map_of_mem (f := Sent.payload) hsent
  rw [h.payloads] at hpayload
  obtain ⟨average, haverage, hformat⟩ := List.mem_map.mp hpayload
  obtain ⟨vals, hvals, rfl⟩ := Option.map_eq_some_iff.mp (Option.mem_toList.mp haverage)
  obtain ⟨hlength, hpre⟩ := Batch.outcome_complete hvals
  have hmap : ((c.avgCnt.toInt.toNat, c.val) :: earlier.map Call.input).map Prod.snd =
      (c :: earlier).map Call.val := by
    rw [List.map_cons, List.map_cons, List.map_map]
    rfl
  rw [hmap] at hpre
  refine ⟨vals, hpre, ?_, hformat.symm⟩
  rw [hlength]
  exact Int.toNat_of_nonneg h.avgCnt.le

theorem Recorded.exists_sent {window earlier : List (Call α)}
    (h : Recorded ops (window ++ earlier)) {o : Option (List α)}
    (ho : o ∈ (Batch.outcomes ((window ++ earlier).map Call.input)).take window.length)
    (hsome : o ≠ none) : ∃ c ∈ window, c.sent ≠ [] := by
  induction window with
  | nil => cases ho
  | cons c window ih =>
    obtain rfl | ho := List.mem_cons.mp ho
    · exact ⟨c, List.mem_cons_self, mt (h _ _ List.suffix_rfl).sent_eq_nil_iff.mp hsome⟩
    · obtain ⟨c', hmem, hsent⟩ := ih
        (fun c' rest hrest => h c' rest (hrest.trans (List.suffix_cons _ _))) ho
      exact ⟨c', List.mem_cons_of_mem _ hmem, hsent⟩

theorem Recorded.sound {calls : List (Call α)} (h : Recorded ops calls)
    (hfull : Batch.NeverFull (calls.map Call.input)) : Averaging.Sound ops calls := by
  have hsuffix : ∀ {earlier}, earlier <:+ calls → Batch.NeverFull (earlier.map Call.input) :=
    fun hearlier => hfull.suffix (hearlier.map _)
  refine ⟨fun c hc => ?_, fun c earlier hcalls => (h c earlier hcalls).average, ?_⟩
  · obtain ⟨later, earlier, rfl⟩ := List.append_of_mem hc
    have hcalls : c :: earlier <:+ later ++ c :: earlier := List.suffix_append _ _
    have hfollows := h c earlier hcalls
    have hsize : 0 < c.avgCnt.toInt.toNat := by
      have := hfollows.avgCnt
      omega
    have hlt : (Batch.gathered ((c :: earlier).map Call.input)).length < c.avgCnt.toInt.toNat :=
      (Batch.length_add_lt_iff hsize).mpr (hsuffix hcalls _ _ _ List.suffix_rfl)
    rw [hfollows.avgCntCurrent]
    exact ⟨Int.natCast_nonneg _, Int.lt_toNat.mp hlt⟩
  · rintro window ⟨later, earlier, rfl⟩ hwindow hsame
    have hcalls : window ++ earlier <:+ later ++ window ++ earlier := by
      rw [List.append_assoc]
      exact List.suffix_append _ _
    have hnever := hsuffix hcalls
    rw [List.map_append] at hnever
    obtain ⟨o, ho, hsome⟩ := Batch.exists_complete hnever
      (by simpa using hwindow) (fun v hv => by
        obtain ⟨c, hc, rfl⟩ := List.mem_map.mp hv
        rw [List.length_map]
        exact (congrArg Int.toNat (hsame c hc)).trans (Int.toNat_natCast _))
    rw [← List.map_append, List.length_map] at ho
    have hrecorded : Recorded ops (window ++ earlier) :=
      fun c rest hrest => h c rest (hrest.trans hcalls)
    exact hrecorded.exists_sent ho hsome

end Calls

namespace Averaging

variable {ops : FloatOps α} {sdk : Sdk} {sensor : Sensor} {index : Fin 10} {s t : Averaging α}
  {e : Event} {es : List Event}

structure Refines (ops : FloatOps α) (sensor : Sensor) (index : Fin 10) (s : Averaging α) :
    Prop where
  averaged : Averaged (s.entry sensor index)
  field : (s.avg index).Represents (Batch.gathered (s.calls.map Call.input))
  calls : Recorded ops s.calls

theorem Refines.process (h : s.Refines ops sensor index) (hops : ops.Exact) (data : List UInt8) :
    (s.process ops sensor index index data).Refines ops sensor index ∧
      ∃ c : Call α, c.avgCnt = (s.entry sensor index).avgCnt ∧
        (s.process ops sensor index index data).calls = c :: s.calls := by
  obtain ⟨hfield, hsent⟩ := processAndPublish_averaged ops s.avg data h.averaged
  obtain ⟨hrepresents, haverage⟩ := h.field.updateAverage hops h.averaged.avgCnt
    (ops.mul (ops.strtof (cString data)) (s.entry sensor index).scale)
  have hcalls : (s.process ops sensor index index data).calls =
      { val := ops.mul (ops.strtof (cString data)) (s.entry sensor index).scale
        avgCnt := (s.entry sensor index).avgCnt
        avgCntCurrent :=
          ((processAndPublish ops s.device.flash sensor s.avg data index).1 index).avgCntCurrent
        sent := (processAndPublish ops s.device.flash sensor s.avg data index).2 } :: s.calls :=
    if_pos rfl
  refine ⟨⟨h.averaged, ?_, ?_⟩, _, rfl, hcalls⟩
  · rw [hcalls]
    change ((processAndPublish ops s.device.flash sensor s.avg data index).1 index).Represents _
    rw [hfield]
    exact hrepresents
  · rw [hcalls]
    refine h.calls.cons ⟨h.averaged.avgCnt, ?_, ?_⟩
    · dsimp only
      rw [hfield]
      exact hrepresents.avgCntCurrent
    · exact hsent.trans (congrArg (fun average => average.toList.map ops.format) haverage)

theorem Step.refines (h : Step ops sdk sensor index s e t) (hops : ops.Exact)
    (hs : s.Refines ops sensor index) :
    t.Refines ops sensor index ∧
      (t.calls = s.calls ∧ Unfilled sensor index s e ∨
        ∃ c : Call α, t.calls = c :: s.calls ∧
          (Unfilled sensor index s e ↔
            (Batch.gathered (s.calls.map Call.input)).length ≠ c.avgCnt.toInt.toNat)) := by
  cases h with
  | save hsave haveraged => exact ⟨⟨haveraged, hs.field, hs.calls⟩, .inl ⟨rfl, trivial⟩⟩
  | @process j data =>
    by_cases hj : j = index
    · subst hj
      obtain ⟨hrefines, c, havgCnt, hcalls⟩ := hs.process hops data
      refine ⟨hrefines, .inr ⟨c, hcalls, ?_⟩⟩
      have hpos := hs.averaged.avgCnt
      rw [Unfilled, imp_iff_right rfl, hs.field.avgCntCurrent, havgCnt]
      omega
    · obtain ⟨hcalls, havg⟩ : (s.process ops sensor index j data).calls = s.calls ∧
          (s.process ops sensor index j data).avg index = s.avg index := process_of_ne s data hj
      refine ⟨⟨hs.averaged, ?_, ?_⟩, .inl ⟨hcalls, fun heq => absurd heq hj⟩⟩
      · rw [hcalls, havg]
        exact hs.field
      · rw [hcalls]
        exact hs.calls

theorem refines_init {d : Device} (hops : ops.Exact)
    (hd : Averaged (d.flash.publishSettings sensor.settings index)) :
    (init ops d).Refines ops sensor index where
  averaged := hd
  field := hops.represents_nil
  calls _ _ hsuffix := absurd (List.suffix_nil.mp hsuffix) (List.cons_ne_nil _ _)

theorem Step.unfilled (h : Step ops sdk sensor index s e t) (hops : ops.Exact)
    (hs : s.Refines ops sensor index) (hsound : Sound ops t.calls) :
    Sound ops s.calls ∧ Unfilled sensor index s e := by
  obtain ⟨ht, ⟨hcalls, hunfilled⟩ | ⟨c, hcalls, hiff⟩⟩ := h.refines hops hs
  · exact ⟨hcalls ▸ hsound, hunfilled⟩
  · have hsuffix : c :: s.calls <:+ t.calls := hcalls ▸ List.suffix_rfl
    refine ⟨hsound.suffix ((List.suffix_cons _ _).trans hsuffix), hiff.mpr ?_⟩
    have hfollows := ht.calls c s.calls hsuffix
    have hlt := (hsound.below c (hsuffix.mem List.mem_cons_self)).2
    rw [hfollows.avgCntCurrent] at hlt
    have hpos := hfollows.avgCnt
    exact (Batch.length_add_lt_iff (by omega)).mp (Int.lt_toNat.mpr hlt)

theorem Step.neverFull (h : Step ops sdk sensor index s e t) (hops : ops.Exact)
    (hs : s.Refines ops sensor index) (hunfilled : Unfilled sensor index s e)
    (hfull : Batch.NeverFull (s.calls.map Call.input)) :
    Batch.NeverFull (t.calls.map Call.input) := by
  obtain ⟨-, ⟨hcalls, -⟩ | ⟨c, hcalls, hiff⟩⟩ := h.refines hops hs
  · rw [hcalls]
    exact hfull
  · rw [hcalls]
    exact hfull.cons (hiff.mp hunfilled)

/-- The averages keep what they promise exactly in the runs where the entry is never sampled while
as many values are gathered as its `avg_cnt` asks for. -/
theorem averages_sound_iff {d : Device} (hops : ops.Exact)
    (hd : Averaged (d.flash.publishSettings sensor.settings index))
    (hrun : Run (Step ops sdk sensor index) (init ops d) es t) :
    Sound ops t.calls ↔
      Run (Guarded (Unfilled sensor index) (Step ops sdk sensor index)) (init ops d) es t := by
  constructor
  · intro hsound
    exact (hrun.guarded_of_last (Refines ops sensor index) (fun s => Sound ops s.calls)
      (fun s e t hs hstep => (hstep.refines hops hs).1)
      (fun s e t hs hstep => hstep.unfilled hops hs) (refines_init hops hd) hsound).2
  · intro hunfilled
    obtain ⟨hrefines, hfull⟩ := hunfilled.invariant
      (fun s => s.Refines ops sensor index ∧ Batch.NeverFull (s.calls.map Call.input))
      (fun s e t hs hstep => ⟨(hstep.2.refines hops hs.1).1,
        hstep.2.neverFull hops hs.1 hstep.1 hs.2⟩)
      ⟨refines_init hops hd, fun _ _ _ hsuffix =>
        absurd (List.suffix_nil.mp hsuffix) (List.cons_ne_nil _ _)⟩
    exact hrefines.calls.sound hfull

section Sample

def exactOps : FloatOps ℚ where
  zero := 0
  strtof text := atoi text
  mul val scale := if scale = 0x3f800000 then val else 0
  add val val' := val + val'
  div val n := val / n.toInt
  format val := ascii (toString val.num) ++ ascii ".000000"

theorem exactOps_exact : exactOps.Exact := ⟨rfl, fun _ _ => rfl, fun _ _ => rfl⟩

def averageSdk : Sdk := { sampleSdk with atof _ := 0x3f800000 }

def averageEntry (avgCnt : String) : Json :=
  .obj [("enabled", .bool true), ("name", .str (ascii "H3AVG")), ("start", .int 2),
    ("end", .int 8), ("is_num", .bool true), ("avg_cnt", .str (ascii avgCnt)),
    ("scale", .str (ascii "1")), ("topic", .str (ascii "r/123"))]

def averageSensor (enabled : Bool) (avgCnt : String) : Json :=
  .obj [("baud", .str (ascii "9600")), ("enabled", .bool enabled), ("simulate_values", .bool false),
    ("p_s", .arr (samplePublishSettings :: averageEntry avgCnt ::
      .replicate 8 samplePublishSettings))]

def averageDocument (avgCnt : String) : Json :=
  .obj [
    ("wifi", .obj [("ssid", .str []), ("password", .str []), ("auth_mode", .str (ascii "0")),
      ("dhcp", .bool true), ("ip", .str []), ("nm", .str []), ("gw", .str [])]),
    ("eth", .obj [("dhcp", .bool true), ("ip", .str []), ("nm", .str []), ("gw", .str [])]),
    ("conn_type", .str (ascii "WIFI")),
    ("mqtt", .obj [("broker", .str []), ("port", .str (ascii "1883")), ("username", .str []),
      ("password", .str [])]),
    ("s_s", .arr [averageSensor true avgCnt, averageSensor false avgCnt,
      averageSensor false avgCnt]),
    ("settings", .obj [("password", .str (ascii "secret"))])]

def sampleEvents (avgCnt : String) : List Event :=
  [.process 1 (ascii "4"), .save (.ok (averageDocument avgCnt)), .process 1 (ascii "6")]

def firstSampled (sensor : Sensor) (index : Fin 10) : Averaging ℚ :=
  (init exactOps factoryDevice).process exactOps sensor index index (ascii "4")

def sampled (sensor : Sensor) (index : Fin 10) (device : Device) : Averaging ℚ :=
  { firstSampled sensor index with device }.process exactOps sensor index index (ascii "6")

theorem averaged_two :
    ∃ r, settingsSaveFn averageSdk factoryDevice (.ok (averageDocument "2")) = .ok r ∧
      r.saved = true ∧ r.rebootRequested = false ∧ Sound exactOps (sampled ⟨0, 0⟩ 1 r.device).calls ∧
      (sampled ⟨0, 0⟩ 1 r.device).calls.map (fun c => c.sent.map Sent.payload) =
        [[ascii "5.000000"], []] := by
  obtain ⟨r, hr, hsaved, hreboot, haveraged, hcurrent, hsent⟩ :
      ∃ r, settingsSaveFn averageSdk factoryDevice (.ok (averageDocument "2")) = .ok r ∧
        r.saved = true ∧ r.rebootRequested = false ∧
        Averaged (r.device.flash.publishSettings 0 1) ∧
        (r.device.flash.publishSettings 0 1).avgCnt.toInt = 2 ∧
        (sampled ⟨0, 0⟩ 1 r.device).calls.map (fun c => c.sent.map Sent.payload) =
          [[ascii "5.000000"], []] :=
    ⟨_, rfl, rfl, rfl, ⟨rfl, by decide⟩, by decide, by decide +kernel⟩
  have hrun : Run (Guarded (Unfilled ⟨0, 0⟩ 1) (Step exactOps averageSdk ⟨0, 0⟩ 1))
      (init exactOps factoryDevice) (sampleEvents "2") (sampled ⟨0, 0⟩ 1 r.device) := by
    have hfirst : ((firstSampled ⟨0, 0⟩ 1).avg 1).avgCntCurrent = 1 := by decide +kernel
    have hbelow : ((firstSampled ⟨0, 0⟩ 1).avg 1).avgCntCurrent ≠
        (r.device.flash.publishSettings 0 1).avgCnt.toInt := by
      rw [hfirst, hcurrent]
      decide
    exact .cons ⟨fun _ => (by decide +kernel), .process⟩
      (.cons ⟨trivial, .save (.save hr) haveraged⟩ (.single ⟨fun _ => hbelow, .process⟩))
  exact ⟨r, hr, hsaved, hreboot,
    (averages_sound_iff exactOps_exact ⟨rfl, by decide⟩ hrun.of_guarded).mpr hrun, hsent⟩

/-- One value was asked for when one was gathered: the count goes past it and nothing is sent. -/
theorem averaged_one_missed :
    ∃ r, settingsSaveFn averageSdk factoryDevice (.ok (averageDocument "1")) = .ok r ∧
      r.saved = true ∧ r.rebootRequested = false ∧
      Run (Step exactOps averageSdk ⟨0, 0⟩ 1) (init exactOps factoryDevice) (sampleEvents "1")
        (sampled ⟨0, 0⟩ 1 r.device) ∧
      (sampled ⟨0, 0⟩ 1 r.device).calls.map (fun c => (c.avgCntCurrent, c.avgCnt.toInt, c.sent.length)) =
        [(2, 1, 0), (1, 180, 0)] ∧
      ¬ Sound exactOps (sampled ⟨0, 0⟩ 1 r.device).calls := by
  obtain ⟨r, hr, hsaved, hreboot, haveraged, hcalls⟩ :
      ∃ r, settingsSaveFn averageSdk factoryDevice (.ok (averageDocument "1")) = .ok r ∧
        r.saved = true ∧ r.rebootRequested = false ∧
        Averaged (r.device.flash.publishSettings 0 1) ∧
        (sampled ⟨0, 0⟩ 1 r.device).calls.map (fun c => (c.avgCntCurrent, c.avgCnt.toInt, c.sent.length)) =
          [(2, 1, 0), (1, 180, 0)] :=
    ⟨_, rfl, rfl, rfl, ⟨rfl, by decide⟩, by decide +kernel⟩
  refine ⟨r, hr, hsaved, hreboot, ?_, hcalls, fun hsound => ?_⟩
  · exact .cons .process (.cons (.save (.save hr) haveraged) (.single .process))
  · have hmem : ((2, 1, 0) : Int × Int × Nat) ∈ (sampled ⟨0, 0⟩ 1 r.device).calls.map
        (fun c => (c.avgCntCurrent, c.avgCnt.toInt, c.sent.length)) :=
      hcalls ▸ List.mem_cons_self
    obtain ⟨c, hc, heq⟩ := List.mem_map.mp hmem
    obtain ⟨hcurrent, hrest⟩ := Prod.mk.inj heq
    have hbelow := (hsound.below c hc).2
    rw [hcurrent, (Prod.mk.inj hrest).1] at hbelow
    exact absurd hbelow (by decide)

end Sample

end Averaging

end RadProt.Sensors
