import RadProt.Settings.Protection

namespace RadProt.Settings

open RadProt.Lib

/-! The documents that are converted without handing out a null pointer. -/

def Json.IsText (j : Json) : Prop := ∃ s, j = .str s

def textsUsed (initialConfig : Bool) (post : Json) : List Json :=
  ["ssid", "password", "auth_mode", "ip", "nm", "gw"].map (post.get "wifi").get ++
    ["ip", "nm", "gw"].map (post.get "eth").get ++
    ["broker", "port", "username", "password"].map (post.get "mqtt").get ++
    ((List.finRange 3).flatMap fun i : Fin 3 =>
      ((post.get "s_s").elem i).get "baud" ::
        (List.finRange 10).flatMap fun j : Fin 10 =>
          ["name", "avg_cnt", "scale", "topic"].map
            ((((post.get "s_s").elem i).get "p_s").elem j).get) ++
    if initialConfig then [(post.get "settings").get "password"] else []

variable {sdk : Sdk} {j : Json}

theorem exists_asCStr_iff : (∃ s, j.asCStr = some s) ↔ j.IsText := by
  cases j with
  | str s => exact iff_of_true ⟨_, rfl⟩ ⟨s, rfl⟩
  | _ => exact iff_of_false (fun ⟨_, h⟩ => by cases h) (fun ⟨_, h⟩ => by cases h)

/-! One function at a time: the record that it starts from does not count. -/

theorem convertIpv4_ok_iff (old : Ipv4Settings) :
    (∃ new, convertIpv4 sdk old j = .ok new) ↔ ∀ t ∈ ["ip", "nm", "gw"].map j.get, t.IsText := by
  refine (exists_bind_iff fun _ => exists_bind_iff fun _ => exists_bind_iff fun _ =>
    exists_pure_iff).trans ?_
  simp [exists_asCStr_iff]

theorem convertWifi_ok_iff (old : WifiSettings) :
    (∃ new, convertWifi sdk old j = .ok new) ↔
      ∀ t ∈ ["ssid", "password", "auth_mode", "ip", "nm", "gw"].map j.get, t.IsText := by
  refine (exists_bind_iff fun _ => exists_bind_iff fun _ => exists_bind_iff fun _ =>
    exists_bind_iff fun _ => exists_pure_iff).trans ?_
  simp [exists_asCStr_iff, convertIpv4_ok_iff]

theorem convertEth_ok_iff (old : EthernetSettings) :
    (∃ new, convertEth sdk old j = .ok new) ↔ ∀ t ∈ ["ip", "nm", "gw"].map j.get, t.IsText := by
  refine (exists_bind_iff fun _ => exists_pure_iff).trans ?_
  rw [convertIpv4_ok_iff, and_true]

theorem convertMqtt_ok_iff :
    (∃ new, convertMqtt j = .ok new) ↔
      ∀ t ∈ ["broker", "port", "username", "password"].map j.get, t.IsText := by
  refine (exists_bind_iff fun _ => exists_bind_iff fun _ => exists_bind_iff fun _ =>
    exists_bind_iff fun _ => exists_pure_iff).trans ?_
  simp [exists_asCStr_iff]

theorem convertPublishSettings_ok_iff (old : PublishSettingsEntry) :
    (∃ new, convertPublishSettings sdk old j = .ok new) ↔
      ∀ t ∈ ["name", "avg_cnt", "scale", "topic"].map j.get, t.IsText := by
  refine (exists_bind_iff fun _ => exists_bind_iff fun _ => exists_bind_iff fun _ =>
    exists_bind_iff fun _ => exists_pure_iff).trans ?_
  simp [exists_asCStr_iff]

theorem convertSensor_ok_iff (old : SensorSettingsEntry) :
    (∃ new, convertSensor sdk old j = .ok new) ↔
      ∀ t ∈ j.get "baud" :: (List.finRange 10).flatMap fun k : Fin 10 =>
        ["name", "avg_cnt", "scale", "topic"].map ((j.get "p_s").elem k).get, t.IsText := by
  refine (exists_bind_iff fun _ => exists_bind_iff fun _ => exists_pure_iff).trans ?_
  simp only [deref_eq_ok, exists_asCStr_iff, exists_fillM_eq_ok, convertPublishSettings_ok_iff,
    and_true, List.forall_mem_cons, List.forall_mem_flatMap, List.mem_finRange, true_imp_iff]

theorem checkPassword_ok_iff (initialConfig : Bool) (old new : ClientModeSettings) :
    (∃ check, checkPassword initialConfig old new j = .ok check) ↔
      ∀ t ∈ if initialConfig then [j] else [], t.IsText := by
  cases initialConfig with
  | false => exact iff_of_true (checkPassword_locked_total old new j) (by simp)
  | true =>
    simp only [if_true, List.forall_mem_singleton]
    constructor
    · rintro ⟨check, h⟩
      obtain ⟨s, hs, -⟩ := checkPassword_config h
      exact ⟨s, hs⟩
    · rintro ⟨s, rfl⟩
      exact ⟨_, rfl⟩

/-- A request hands out no null pointer exactly when every value that is used as a string is one. -/
theorem settingsSaveFn_ok_iff (sdk : Sdk) (d : Device) (post : Json) :
    (∃ r, settingsSaveFn sdk d (.ok post) = .ok r) ↔
      ∀ t ∈ textsUsed d.initialConfig post, t.IsText := by
  have hconverted : (∃ new, convertSettings sdk d.flash post = .ok new) ↔
      ∀ t ∈ textsUsed false post, t.IsText := by
    refine (exists_bind_iff fun _ => exists_bind_iff fun _ => exists_bind_iff fun _ =>
      exists_bind_iff fun _ => exists_pure_iff).trans ?_
    simp only [convertWifi_ok_iff, convertEth_ok_iff, convertMqtt_ok_iff, exists_fillM_eq_ok,
      convertSensor_ok_iff, textsUsed, List.forall_mem_append, List.forall_mem_flatMap,
      List.mem_finRange, true_imp_iff, Bool.false_eq_true, if_false, List.not_mem_nil,
      false_imp_iff, implies_true, and_true, and_assoc]
  refine (exists_bind_iff fun _ => (exists_bind_iff fun _ => exists_pure_iff).trans
    (and_congr_left' (checkPassword_ok_iff ..))).trans ?_
  rw [hconverted, and_true]
  simp only [textsUsed, List.forall_mem_append, Bool.false_eq_true, if_false, List.not_mem_nil,
    false_imp_iff, implies_true, and_true]

def dhcpDocument : Json :=
  .obj [
    ("wifi", .obj [("ssid", .str (ascii "home")), ("password", .str (ascii "secret")),
      ("auth_mode", .str (ascii "5")), ("dhcp", .bool true)]),
    ("eth", .obj [("dhcp", .bool true)]),
    ("conn_type", .str (ascii "WIFI")),
    ("mqtt", .obj [("broker", .str []), ("port", .str (ascii "1883")), ("username", .str []),
      ("password", .str [])]),
    ("s_s", .arr (.replicate 3 sampleSensor)),
    ("settings", .obj [("password", .str (ascii "secret"))])]

theorem dhcpDocument_faults :
    settingsSaveFn sampleSdk factoryDevice (.ok dhcpDocument) = .error .ipaddrAton := rfl

end RadProt.Settings
