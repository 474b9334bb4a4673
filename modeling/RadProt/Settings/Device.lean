import RadProt.Lib.Run
import RadProt.Settings.Password

namespace RadProt.Settings

open RadProt.Lib

inductive Event
  | save (postData : Except DeserializationError Json)
  | reboot (button : Bool)

/-- `main` reads the configuration button; `main_task` also asks for configuration when the
record names no Wi-Fi network to join. -/
def boot (flash : ClientModeSettings) (button : Bool) : Device where
  flash
  initialConfig := button || (flash.connType = .wifi ∧ cString flash.wifi.ssid.bytes = [])
  mqttReconnect := false

/-- A request that hands a null pointer to a C function has no successor. -/
inductive Step (sdk : Sdk) : Device → Event → Device → Prop
  | save {d postData r} : settingsSaveFn sdk d postData = .ok r → Step sdk d (.save postData) r.device
  | reboot {d button} : Step sdk d (.reboot button) (boot d.flash button)

variable {sdk : Sdk} {d d' : Device}

theorem passwordString_eq_nil_iff (r : ClientModeSettings) :
    r.passwordString = [] ↔ r.password.bytes.head? = some 0 := by
  rw [ClientModeSettings.passwordString, cString_eq_nil_iff]
  obtain ⟨b, rest, hb⟩ := List.exists_cons_of_length_pos
    (l := r.password.bytes) (by simp [r.password.length_bytes])
  simp [hb]

theorem passwordString_congr {r r' : ClientModeSettings} (h : r.password = r'.password) :
    r.passwordString = [] ↔ r'.passwordString = [] := by
  rw [passwordString_eq_nil_iff, passwordString_eq_nil_iff, h]

theorem passwordString_strncpy (r : ClientModeSettings) (s : List UInt8) :
    { r with password := .strncpy 8 (cString s) }.passwordString =
      if (cString s).length < 8 then cString s
      else (cString s).take 8 ++ cString r.afterPassword := by
  simp only [ClientModeSettings.passwordString, CharArray.strncpy_bytes, cString_strncpy_append,
    cString_cString]
  rfl

theorem passwordString_strncpy_eq_nil_iff (r : ClientModeSettings) (s : List UInt8) :
    { r with password := .strncpy 8 (cString s) }.passwordString = [] ↔ cString s = [] := by
  rw [ClientModeSettings.passwordString, CharArray.strncpy_bytes,
    cString_strncpy_append_eq_nil_iff (by omega), cString_cString]

theorem Step.password_of_locked {e : Event} (h : Step sdk d e d') (hd : d.initialConfig = false) :
    d'.flash.password = d.flash.password := by
  cases h with
  | reboot => rfl
  | @save postData r h =>
    cases postData with
    | error e => rw [(settingsSaveFn_error h).1]
    | ok post =>
      obtain ⟨converted, check, hconv, hcheck, rfl⟩ := settingsSaveFn_eq_ok_iff.mp h
      rw [hd] at hcheck
      obtain ⟨hnew, -⟩ := checkPassword_locked hcheck
      cases hsave : check.saveSettings with
      | false => rw [(storeSettings_refused hsave).1]
      | true => rw [storeSettings_accepted hsave, hnew, convertSettings_password hconv]

end RadProt.Settings
