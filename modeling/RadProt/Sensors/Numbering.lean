import RadProt.Sensors.Task

namespace RadProt.Sensors

open RadProt.Lib RadProt.Settings

def Sensor.at (index : Fin 3) : Sensor where
  settings := index
  sensorNum := index

def Sent.sensorNum (sent : Sent) : Json := (sent.json.get "reading").get "s_s"

section

variable {α : Type} {ops : FloatOps α} {r : ClientModeSettings} {s : Sensor}

theorem sensorNum_processAndPublish (avg : Fin 10 → AvgFields α) (data : List UInt8)
    (index : Fin 10) :
    ∀ sent ∈ (processAndPublish ops r s avg data index).2, sent.sensorNum = .int s.sensorNum := by
  intro sent hsent
  simp only [processAndPublish] at hsent
  split at hsent
  next =>
    split at hsent
    next =>
      obtain ⟨value, -, rfl⟩ := List.mem_map.mp hsent
      rfl
    next =>
      rw [List.mem_singleton.mp hsent]
      rfl
  next =>
    rw [List.mem_singleton.mp hsent]
    rfl

theorem sensorNum_publishEntries (avg : Fin 10 → AvgFields α)
    (data : Fin 10 → Option (List UInt8)) :
    ∀ sent ∈ (publishEntries ops r s avg data).2, sent.sensorNum = .int s.sensorNum := by
  apply List.foldlRecOn (List.finRange 10) _
    (motive := fun acc : (Fin 10 → AvgFields α) × List Sent =>
      ∀ sent ∈ acc.2, sent.sensorNum = .int s.sensorNum)
  · exact fun _ hsent => absurd hsent List.not_mem_nil
  · intro acc hacc i _
    cases data i with
    | none => exact hacc
    | some text =>
      intro sent hsent
      rcases List.mem_append.mp hsent with hsent | hsent
      · exact hacc sent hsent
      · exact sensorNum_processAndPublish _ _ _ sent hsent

theorem sensorNum_readTurn (avg : Fin 10 → AvgFields α) (turn : Turn) :
    ∀ sent ∈ (readTurn ops r s avg turn).2, sent.sensorNum = .int s.sensorNum := by
  rw [readTurn]
  split
  next => exact sensorNum_publishEntries _ _
  next =>
    split
    next => exact fun _ hsent => absurd hsent List.not_mem_nil
    next =>
      split
      next => exact sensorNum_publishEntries _ _
      next => exact fun _ hsent => absurd hsent List.not_mem_nil

theorem sensorNum_readTask (avg : Fin 10 → AvgFields α) (turns : List Turn) :
    ∀ sent ∈ readTask ops r s avg turns, sent.sensorNum = .int s.sensorNum := by
  induction turns generalizing avg with
  | nil => exact fun _ hsent => absurd hsent List.not_mem_nil
  | cons turn turns ih =>
    intro sent hsent
    rcases List.mem_append.mp hsent with hsent | hsent
    · exact sensorNum_readTurn avg turn sent hsent
    · exact ih _ sent hsent

end

/-- What comes in on a port is published with the settings that the port was opened with, and
under their number. -/
structure PublishesOwn (r : ClientModeSettings) (o : Opened) : Prop where
  settings : o.sensor.settings = o.index
  sends : ∀ (α : Type) (ops : FloatOps α) (turns : List Turn),
    readTask ops r o.sensor (AvgFields.init ops) turns =
      readTask ops r (.at o.index) (AvgFields.init ops) turns
  sensorNum : ∀ (α : Type) (ops : FloatOps α) (turns : List Turn),
    ∀ sent ∈ readTask ops r o.sensor (AvgFields.init ops) turns, sent.sensorNum = .int o.index

/-- No sensor is enabled behind one that is not. -/
def EnabledInOrder (r : ClientModeSettings) : Prop :=
  ∀ i j : Fin 3, j < i → (r.sensorSettings.get i).enabled = true →
    (r.sensorSettings.get j).enabled = true

instance (r : ClientModeSettings) : Decidable (EnabledInOrder r) :=
  inferInstanceAs (Decidable (∀ i j : Fin 3, j < i → _ → _))

theorem publishesOwn_iff {r : ClientModeSettings} {o : Opened}
    (hnum : o.sensor.sensorNum = o.sensor.settings) :
    PublishesOwn r o ↔ o.sensor.settings = o.index := by
  refine ⟨fun h => h.settings, fun hsettings => ?_⟩
  have hsensor : o.sensor = .at o.index := by
    cases hs : o.sensor with
    | mk settings sensorNum =>
      rw [hs] at hnum hsettings
      simp only at hnum hsettings
      subst hsettings hnum
      rfl
  refine ⟨hsettings, fun α ops turns => by rw [hsensor], fun α ops turns sent hsent => ?_⟩
  rw [sensorNum_readTask _ turns sent hsent, hsensor]
  rfl

theorem enabledInOrder_iff (r : ClientModeSettings) :
    EnabledInOrder r ↔
      ((r.sensorSettings.get 1).enabled = true → (r.sensorSettings.get 0).enabled = true) ∧
        ((r.sensorSettings.get 2).enabled = true →
          (r.sensorSettings.get 0).enabled = true ∧ (r.sensorSettings.get 1).enabled = true) := by
  constructor
  · intro h
    exact ⟨h 1 0 (by decide), fun h2 => ⟨h 2 0 (by decide) h2, h 2 1 (by decide) h2⟩⟩
  · rintro ⟨h1, h2⟩ i j hlt hi
    match i, j, hlt with
    | 1, 0, _ => exact h1 hi
    | 2, 0, _ => exact (h2 hi).1
    | 2, 1, _ => exact (h2 hi).2

/-- Every port that `main_task` opens is published with its own settings exactly if no sensor is
enabled behind one that is not. -/
theorem mainTask_publishesOwn_iff (r : ClientModeSettings) :
    ∃ opened, mainTask r = some opened ∧
      ((∀ o ∈ opened, PublishesOwn r o) ↔ EnabledInOrder r) := by
  rw [enabledInOrder_iff]
  -- A port gets the number of ports opened before it: one case for each set of enabled sensors.
  cases h0 : (r.sensorSettings.get 0).enabled <;> cases h1 : (r.sensorSettings.get 1).enabled <;>
    cases h2 : (r.sensorSettings.get 2).enabled
  all_goals
    refine ⟨_, by simp [mainTask, openSensor, h0, h1, h2, Sensor.new]; rfl, ?_⟩
    simp [publishesOwn_iff]

def secondSensorOnly : ClientModeSettings :=
  { sClientSettings [] with
    sensorSettings := #v[factorySensor false [49, 50, 51], factorySensor true [52, 53, 54],
      factorySensor false [55, 56, 57]] }

def textOps : FloatOps (List UInt8) where
  zero := []
  strtof := id
  mul val _ := val
  add val val' := val ++ val'
  div val _ := val
  format := id

def sampleTurn : Turn where
  randoms _ := 0
  line := some (ascii "Hel987.2233lo, UART!" ++ [0])

/-- The second sensor reads its own port, and publishes under the number and on the topic of the
first. -/
theorem second_sensor_publishes_as_first :
    ∃ o, mainTask secondSensorOnly = some [o] ∧ o.index = 1 ∧ ¬ PublishesOwn secondSensorOnly o ∧
      (readTask textOps secondSensorOnly o.sensor (AvgFields.init textOps) [sampleTurn]).map
        (fun sent => (sent.topic, sent.sensorNum)) = [(ascii "123", .int 0)] ∧
      (readTask textOps secondSensorOnly (.at o.index) (AvgFields.init textOps) [sampleTurn]).map
        (fun sent => (sent.topic, sent.sensorNum)) = [(ascii "456", .int 1)] := by
  refine ⟨_, rfl, rfl, fun h => absurd h.settings (by decide), rfl, rfl⟩

end RadProt.Sensors
