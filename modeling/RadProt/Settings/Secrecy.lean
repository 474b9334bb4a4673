import RadProt.Mqtt.Packet
import RadProt.Settings.Shown
import RadProt.Settings.Texts

namespace RadProt.Settings

open RadProt.Lib RadProt.Mqtt

/-- Neither the document of `settings_get_fn` nor the packet that opens the MQTT session depends
on the password of the settings. -/
def Hidden (sdk : Sdk) (e : Surface) (r : ClientModeSettings) : Prop :=
  ∀ p p' : CharArray 8,
    settingsGetFn sdk e (r.withPassword p) = settingsGetFn sdk e (r.withPassword p') ∧
      mqttSerializeConnect 80 (connectData (r.withPassword p)) =
        mqttSerializeConnect 80 (connectData (r.withPassword p'))

variable {sdk : Sdk} {e : Surface} {r : ClientModeSettings} {d d' : Device}

theorem connectData_withPassword (h : 0 ∈ r.mqtt.password.bytes) (p p' : CharArray 8) :
    connectData (r.withPassword p) = connectData (r.withPassword p') := by
  have hpassword : mqttPasswordString (r.withPassword p) =
      mqttPasswordString (r.withPassword p') := by
    simp only [mqttPasswordString, List.append_assoc]
    exact cString_withPassword h [] p p'
  have husername : usernameString (r.withPassword p) = usernameString (r.withPassword p') := by
    simp only [usernameString, List.append_assoc]
    exact cString_withPassword h _ p p'
  rw [connectData, connectData, hpassword, husername]

theorem settingsGetFn_mqttPassword (sdk : Sdk) (e : Surface) (r : ClientModeSettings) :
    ((settingsGetFn sdk e r).get "mqtt").get "password" = .str (cString r.fromMqttPassword) :=
  rfl

theorem zero_mem_of_hidden (h : Hidden sdk e r) : 0 ∈ r.mqtt.password.bytes := by
  by_contra hzero
  have hread : ∀ s, 0 ∉ s → s.length < 8 →
      cString (r.withPassword (.strncpy 8 s)).fromMqttPassword = r.mqtt.password.bytes ++ s := by
    intro s hs hlen
    simp only [ClientModeSettings.fromMqttPassword, ClientModeSettings.withPassword]
    rw [cString_append hzero, CharArray.strncpy_bytes, cString_strncpy_append, cString_eq_self hs,
      if_pos hlen]
  have hshown := congrArg (fun j => (j.get "mqtt").get "password")
    (h (.strncpy 8 []) (.strncpy 8 [65])).1
  simp only [settingsGetFn_mqttPassword, Json.str.injEq] at hshown
  rw [hread [] (by decide) (by decide), hread [65] (by decide) (by decide)] at hshown
  exact absurd (List.append_cancel_left hshown) (by decide)

theorem hidden_iff : Hidden sdk e r ↔ 0 ∈ r.mqtt.password.bytes := by
  refine ⟨zero_mem_of_hidden, fun h p p' => ⟨settingsGetFn_withPassword sdk e h p p', ?_⟩⟩
  rw [connectData_withPassword h p p']

def MqttPasswordFits (sdk : Sdk) (d : Device) (e : Event) : Prop :=
  ∀ post r s, e = .save (.ok post) → settingsSaveFn sdk d (.ok post) = .ok r → r.saved = true →
    TextField.mqttPassword.posted post = some s → s.length < 32

theorem saved_hidden_iff {post : Json} {r : SaveResult} {s : List UInt8}
    (h : settingsSaveFn sdk d (.ok post) = .ok r) (hsaved : r.saved = true)
    (hs : TextField.mqttPassword.posted post = some s) :
    Hidden sdk e r.device.flash ↔ s.length < 32 := by
  obtain ⟨s', hs', hbytes⟩ := savedText h hsaved .mqttPassword
  obtain rfl : s = s' := Option.some.inj (hs.symm.trans hs')
  rw [hidden_iff, show r.device.flash.mqtt.password.bytes = strncpy 32 s from hbytes,
    zero_mem_strncpy_iff (TextField.mqttPassword.zero_notMem_posted hs)]

theorem Step.hidden {ev : Event} (h : Step sdk d ev d') (hfits : MqttPasswordFits sdk d ev)
    (hd : Hidden sdk e d.flash) : Hidden sdk e d'.flash := by
  cases h with
  | reboot => exact hd
  | @save postData r hr =>
    cases postData with
    | error err =>
      rw [(settingsSaveFn_error hr).1]
      exact hd
    | ok post =>
      cases hsaved : r.saved with
      | false =>
        rw [(settingsSaveFn_refused hr hsaved).1]
        exact hd
      | true =>
        obtain ⟨s, hs, -⟩ := savedText hr hsaved .mqttPassword
        exact (saved_hidden_iff hr hsaved hs).mpr (hfits post r s rfl hr hsaved hs)

/-- While every accepted request posts an MQTT password shorter than its array, the password of
the settings stays hidden; after any accepted request it is hidden exactly if it did. -/
theorem password_hidden {gap : List UInt8} {button : Bool} {es : List Event}
    (hrun : Run (Guarded (MqttPasswordFits sdk) (Step sdk)) (boot (sClientSettings gap) button)
      es d) (e : Surface) :
    Hidden sdk e d.flash ∧
      ∀ post r s, settingsSaveFn sdk d (.ok post) = .ok r → r.saved = true →
        TextField.mqttPassword.posted post = some s →
        (Hidden sdk e r.device.flash ↔ s.length < 32) := by
  refine ⟨?_, fun post r s h hsaved hs => saved_hidden_iff h hsaved hs⟩
  refine hrun.invariant (fun d => Hidden sdk e d.flash) ?_ (hidden_iff.mpr List.mem_cons_self)
  intro d ev d' hd hstep
  exact hstep.2.hidden hstep.1 hd

section Sample

def sampleSurface : Surface where
  initialConfig := true
  isAvailable := false
  wifiMac := .replicate 6 0
  ethMac := .replicate 6 0
  gaps := { connType := [], wifi := [], eth := [] }
  number _ := .null

def longPasswordDocument : Json :=
  .obj [
    ("wifi", .obj [("ssid", .str []), ("password", .str []), ("auth_mode", .str [48]),
      ("dhcp", .bool true), ("ip", .str []), ("nm", .str []), ("gw", .str [])]),
    ("eth", .obj [("dhcp", .bool true), ("ip", .str []), ("nm", .str []), ("gw", .str [])]),
    ("conn_type", .str [87, 73, 70, 73]),
    ("mqtt", .obj [("broker", .str []), ("port", .str [49, 56, 56, 51]), ("username", .str []),
      ("password", .str (.replicate 32 65))]),
    ("s_s", .arr (.replicate 3 sampleSensor)),
    ("settings", .obj [("password", .str [115, 51, 99])])]

theorem long_password_shown :
    ∃ r r', settingsSaveFn sampleSdk factoryDevice (.ok (sampleDocument [115])) = .ok r ∧
      r.saved = true ∧ Hidden sampleSdk sampleSurface r.device.flash ∧
      settingsSaveFn sampleSdk r.device (.ok longPasswordDocument) = .ok r' ∧ r'.saved = true ∧
      ¬ Hidden sampleSdk sampleSurface r'.device.flash ∧
      cString r'.device.flash.fromMqttPassword = .replicate 32 65 ++ [115, 51, 99] := by
  obtain ⟨r, hr⟩ : ∃ r,
    settingsSaveFn sampleSdk factoryDevice (.ok (sampleDocument [115])) = .ok r := ⟨_, rfl⟩
  have hfits : MqttPasswordFits sampleSdk factoryDevice (.save (.ok (sampleDocument [115]))) := by
    rintro post r s ⟨⟩ - - hs
    exact textsFit_sampleDocument [115] .mqttPassword s hs
  obtain ⟨hhidden, hiff⟩ := password_hidden (.single ⟨hfits, .save hr⟩) sampleSurface
  obtain rfl := Except.ok.inj (hr.symm.trans rfl)
  refine ⟨_, _, hr, rfl, hhidden, rfl, rfl, ?_, by decide +kernel⟩
  have hlong : TextField.mqttPassword.posted longPasswordDocument = some (.replicate 32 65) := rfl
  rw [hiff longPasswordDocument _ _ rfl rfl hlong]
  decide

end Sample

end RadProt.Settings
