import RadProt.Lib.Run
import RadProt.Settings.Save

namespace RadProt.Settings

open RadProt.Lib

variable {sdk : Sdk}

@[simp] theorem deref_eq_ok {f : Fault} {p : Option (List UInt8)} {s : List UInt8} :
    deref f p = .ok s ↔ p = some s := by cases p <;> simp [deref]

/-! What the conversions fault on is in the document, not in the record they start from. -/

theorem convertIpv4_total {old new : Ipv4Settings} {j : Json}
    (h : convertIpv4 sdk old j = .ok new) (old' : Ipv4Settings) :
    ∃ new', convertIpv4 sdk old' j = .ok new' := by
  simp only [convertIpv4, bind_eq_ok, pure_eq_ok, deref_eq_ok] at h ⊢
  obtain ⟨ip, hip, nm, hnm, gw, hgw, -⟩ := h
  exact ⟨_, ip, hip, nm, hnm, gw, hgw, rfl⟩

theorem convertWifi_total {old new : WifiSettings} {j : Json}
    (h : convertWifi sdk old j = .ok new) (old' : WifiSettings) :
    ∃ new', convertWifi sdk old' j = .ok new' := by
  simp only [convertWifi, bind_eq_ok, pure_eq_ok, deref_eq_ok] at h ⊢
  obtain ⟨ssid, hssid, password, hpassword, mode, hmode, ipv4, hipv4, -⟩ := h
  obtain ⟨ipv4', hipv4'⟩ := convertIpv4_total hipv4 old'.ipv4
  exact ⟨_, ssid, hssid, password, hpassword, mode, hmode, ipv4', hipv4', rfl⟩

theorem convertEth_total {old new : EthernetSettings} {j : Json}
    (h : convertEth sdk old j = .ok new) (old' : EthernetSettings) :
    ∃ new', convertEth sdk old' j = .ok new' := by
  simp only [convertEth, bind_eq_ok, pure_eq_ok] at h ⊢
  obtain ⟨ipv4, hipv4, -⟩ := h
  obtain ⟨ipv4', hipv4'⟩ := convertIpv4_total hipv4 old'.ipv4
  exact ⟨_, ipv4', hipv4', rfl⟩

theorem convertPublishSettings_total {old new : PublishSettingsEntry} {j : Json}
    (h : convertPublishSettings sdk old j = .ok new) (old' : PublishSettingsEntry) :
    ∃ new', convertPublishSettings sdk old' j = .ok new' := by
  simp only [convertPublishSettings, bind_eq_ok, pure_eq_ok, deref_eq_ok] at h ⊢
  obtain ⟨name, hname, avgCnt, havgCnt, scale, hscale, topic, htopic, -⟩ := h
  exact ⟨_, name, hname, avgCnt, havgCnt, scale, hscale, topic, htopic, rfl⟩

theorem convertSensor_total {old new : SensorSettingsEntry} {j : Json}
    (h : convertSensor sdk old j = .ok new) (old' : SensorSettingsEntry) :
    ∃ new', convertSensor sdk old' j = .ok new' := by
  simp only [convertSensor, bind_eq_ok, pure_eq_ok, deref_eq_ok] at h ⊢
  obtain ⟨baud, hbaud, entries, hentries, -⟩ := h
  obtain ⟨entries', hentries'⟩ := exists_fillM_eq_ok.mpr fun i =>
    convertPublishSettings_total (fillM_eq_ok_iff.mp hentries i) old'.publishSettings[i]
  exact ⟨_, baud, hbaud, entries', hentries', rfl⟩

theorem convertSettings_total {old new : ClientModeSettings} {post : Json}
    (h : convertSettings sdk old post = .ok new) (old' : ClientModeSettings) :
    ∃ new', convertSettings sdk old' post = .ok new' := by
  simp only [convertSettings, bind_eq_ok, pure_eq_ok] at h ⊢
  obtain ⟨wifi, hwifi, eth, heth, mqtt, hmqtt, sensors, hsensors, -⟩ := h
  obtain ⟨wifi', hwifi'⟩ := convertWifi_total hwifi old'.wifi
  obtain ⟨eth', heth'⟩ := convertEth_total heth old'.eth
  obtain ⟨sensors', hsensors'⟩ := exists_fillM_eq_ok.mpr fun i =>
    convertSensor_total (fillM_eq_ok_iff.mp hsensors i) old'.sensorSettings[i]
  exact ⟨_, wifi', hwifi', eth', heth', mqtt, hmqtt, sensors', hsensors', rfl⟩

theorem convertSettings_password {old new : ClientModeSettings} {post : Json}
    (h : convertSettings sdk old post = .ok new) : new.password = old.password := by
  simp only [convertSettings, bind_eq_ok, pure_eq_ok] at h
  obtain ⟨wifi, -, eth, -, mqtt, -, sensors, -, rfl⟩ := h
  rfl

/-! The password block, one mode at a time. -/

theorem checkPassword_config {old new : ClientModeSettings} {password : Json}
    {check : PasswordCheck} (h : checkPassword true old new password = .ok check) :
    ∃ s, password = .str s ∧
      check.newSettings = { new with password := .strncpy 8 (cString s) } ∧
      (check.saveSettings = true ↔ ¬(cString s = [] ∧ old.passwordString = [])) := by
  cases password with
  | str s =>
    simp only [checkPassword, if_true, Json.asCStr, Json.asBool, deref, bind_eq_ok, pure_eq_ok,
      Except.ok.injEq] at h
    obtain ⟨posted, rfl, src, rfl, newSettings, rfl, rfl⟩ := h
    exact ⟨s, rfl, rfl, by simp [imp_iff_not_or]⟩
  | _ => simp [checkPassword, Json.asCStr, deref, bind, Except.bind] at h

theorem checkPassword_locked {old new : ClientModeSettings} {password : Json}
    {check : PasswordCheck} (h : checkPassword false old new password = .ok check) :
    check.newSettings = new ∧
      (check.saveSettings = true ↔ password.eqCStr old.passwordString = true) := by
  simp only [checkPassword, Bool.false_eq_true, if_false, pure_eq_ok] at h
  subst h
  simp

theorem checkPassword_locked_total (old new : ClientModeSettings) (password : Json) :
    ∃ check, checkPassword false old new password = .ok check := ⟨_, rfl⟩

@[simp] theorem storeSettings_saved (d : Device) (check : PasswordCheck) :
    (storeSettings d check).saved = check.saveSettings := by
  cases h : check.saveSettings <;> simp only [storeSettings, h, if_true]
  · rfl
  · split <;> rfl

theorem storeSettings_accepted {d : Device} {check : PasswordCheck} (h : check.saveSettings = true) :
    (storeSettings d check).device.flash = check.newSettings := by
  simp only [storeSettings, h, if_true]
  split <;> rfl

theorem storeSettings_refused {d : Device} {check : PasswordCheck} (h : check.saveSettings = false) :
    (storeSettings d check).device = d ∧ (storeSettings d check).rebootRequested = false := by
  simp [storeSettings, h]

theorem settingsSaveFn_eq_ok_iff {d : Device} {post : Json} {r : SaveResult} :
    settingsSaveFn sdk d (.ok post) = .ok r ↔
      ∃ converted check, convertSettings sdk d.flash post = .ok converted ∧
        checkPassword d.initialConfig d.flash converted ((post.get "settings").get "password") =
          .ok check ∧
        storeSettings d check = r := by
  simp only [settingsSaveFn, bind_eq_ok, pure_eq_ok]
  constructor
  · rintro ⟨converted, hconv, check, hcheck, hr⟩
    exact ⟨converted, check, hconv, hcheck, hr⟩
  · rintro ⟨converted, check, hconv, hcheck, hr⟩
    exact ⟨converted, hconv, check, hcheck, hr⟩

theorem settingsSaveFn_refused {d : Device} {post : Json} {r : SaveResult}
    (h : settingsSaveFn sdk d (.ok post) = .ok r) (hno : r.saved = false) :
    r.device = d ∧ r.rebootRequested = false := by
  obtain ⟨converted, check, -, -, rfl⟩ := settingsSaveFn_eq_ok_iff.mp h
  exact storeSettings_refused (by rwa [storeSettings_saved] at hno)

theorem settingsSaveFn_error {d : Device} {e : DeserializationError} {r : SaveResult}
    (h : settingsSaveFn sdk d (.error e) = .ok r) : r.device = d ∧ r.saved = false := by
  simp only [settingsSaveFn, pure_eq_ok] at h
  simp [← h]

end RadProt.Settings
