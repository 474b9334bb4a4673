import RadProt.Settings.Texts

namespace RadProt.Settings

open RadProt.Lib

/-! What a save changes, and when it asks for a reboot. -/

/-- The alignment bytes behind the connection type and behind the two `dhcp` flags, which every
assignment between records copies. -/
structure Gaps where
  connType : List UInt8
  wifi : List UInt8
  eth : List UInt8

def Ipv4Settings.image (gap : List UInt8) (s : Ipv4Settings) : List UInt8 :=
  boolByte s.dhcp :: gap ++ le32 s.ip ++ le32 s.nm ++ le32 s.gw ++ le32 s.dns

def WifiSettings.image (gap : List UInt8) (s : WifiSettings) : List UInt8 :=
  s.ssid.bytes ++ s.password.bytes ++ le32 s.authMode.toUInt32 ++ s.ipv4.image gap

def EthernetSettings.image (gap : List UInt8) (s : EthernetSettings) : List UInt8 :=
  s.ipv4.image gap

def MqttSettings.image (s : MqttSettings) : List UInt8 :=
  s.broker.bytes ++ le16 s.port ++ s.username.bytes ++ s.password.bytes

def ConnType.byte : ConnType → UInt8
  | .wifi => 0
  | .ethernet => 1

def ClientModeSettings.image (g : Gaps) (r : ClientModeSettings) : List UInt8 :=
  r.connType.byte :: g.connType ++ r.wifi.image g.wifi ++ r.eth.image g.eth ++ r.mqtt.image ++
    r.password.bytes ++ r.afterPassword

/-- The test of `settings_save_fn` on the memory of both records: `memcmp` finds a difference in
the Wi-Fi, Ethernet or MQTT settings, or the connection type or a port has changed. -/
def imagesDiffer (g : Gaps) (old new : ClientModeSettings) : Bool :=
  old.connType ≠ new.connType || old.wifi.image g.wifi ≠ new.wifi.image g.wifi ||
    old.eth.image g.eth ≠ new.eth.image g.eth ||
    ((List.finRange 3).any fun i =>
      (old.sensorSettings.get i).communicationSettingsChanged (new.sensorSettings.get i)) ||
    old.mqtt.image ≠ new.mqtt.image

/-- The fields that a reboot is asked for have the same values; the value of a `char` array is
its text. -/
structure SameValues (old new : ClientModeSettings) : Prop where
  connType : old.connType = new.connType
  ssid : cString old.wifi.ssid.bytes = cString new.wifi.ssid.bytes
  wifiPassword : cString old.wifi.password.bytes = cString new.wifi.password.bytes
  authMode : old.wifi.authMode = new.wifi.authMode
  wifiIpv4 : old.wifi.ipv4 = new.wifi.ipv4
  ethIpv4 : old.eth.ipv4 = new.eth.ipv4
  broker : cString old.mqtt.broker.bytes = cString new.mqtt.broker.bytes
  port : old.mqtt.port = new.mqtt.port
  username : cString old.mqtt.username.bytes = cString new.mqtt.username.bytes
  mqttPassword : cString old.mqtt.password.bytes = cString new.mqtt.password.bytes
  baudrate : ∀ i : Fin 3,
    (old.sensorSettings.get i).baudrate = (new.sensorSettings.get i).baudrate
  enabled : ∀ i : Fin 3, (old.sensorSettings.get i).enabled = (new.sensorSettings.get i).enabled
  simulateValues : ∀ i : Fin 3,
    (old.sensorSettings.get i).simulateValues = (new.sensorSettings.get i).simulateValues

/-- Behind its text every array holds NULs only. -/
structure Canonical (r : ClientModeSettings) : Prop where
  text : ∀ f : TextField, f.bytes r = strncpy f.size (f.bytes r)
  password : r.password.bytes = strncpy 8 r.password.bytes

section Images

variable {n : Nat} {s t : List UInt8}

theorem append_inj_iff {a b : List UInt8} (h : a.length = b.length) :
    a ++ s = b ++ t ↔ a = b ∧ s = t :=
  ⟨fun heq => List.append_inj heq h, fun ⟨ha, hs⟩ => by rw [ha, hs]⟩

theorem le16_inj {v w : UInt16} : le16 v = le16 w ↔ v = w := by
  refine ⟨fun h => UInt16.toNat_inj.mp ?_, congrArg le16⟩
  have hv := v.toNat_lt
  have hw := w.toNat_lt
  simp only [le16, List.cons.injEq, ← UInt8.toNat_inj, UInt16.toNat_toUInt8,
    UInt16.toNat_shiftRight, Nat.shiftRight_eq_div_pow, UInt16.reduceToNat, Nat.reduceMod,
    Nat.reducePow] at h
  omega

theorem le32_inj {v w : UInt32} : le32 v = le32 w ↔ v = w := by
  refine ⟨fun h => UInt32.toNat_inj.mp ?_, congrArg le32⟩
  have hv := v.toNat_lt
  have hw := w.toNat_lt
  simp only [le32, List.cons.injEq, ← UInt8.toNat_inj, UInt32.toNat_toUInt8,
    UInt32.toNat_shiftRight, Nat.shiftRight_eq_div_pow, UInt32.reduceToNat, Nat.reduceMod,
    Nat.reducePow] at h
  omega

theorem boolByte_inj {b c : Bool} : boolByte b = boolByte c ↔ b = c := by
  cases b <;> cases c <;> decide

theorem CharArray.bytes_inj {a b : CharArray n} : a.bytes = b.bytes ↔ a = b := by
  cases a
  cases b
  simp

theorem bytes_append_inj {a b : CharArray n} : a.bytes ++ s = b.bytes ++ t ↔ a = b ∧ s = t := by
  rw [append_inj_iff (a.length_bytes.trans b.length_bytes.symm), CharArray.bytes_inj]

theorem le16_append_inj {v w : UInt16} : le16 v ++ s = le16 w ++ t ↔ v = w ∧ s = t := by
  rw [append_inj_iff (a := le16 v) (b := le16 w) rfl, le16_inj]

theorem le32_append_inj {v w : UInt32} : le32 v ++ s = le32 w ++ t ↔ v = w ∧ s = t := by
  rw [append_inj_iff (a := le32 v) (b := le32 w) rfl, le32_inj]

theorem toUInt32_inj {a b : Int32} : a.toUInt32 = b.toUInt32 ↔ a = b :=
  ⟨congrArg Int32.ofUInt32, congrArg Int32.toUInt32⟩

theorem Ipv4Settings.image_inj {gap : List UInt8} {a b : Ipv4Settings} :
    a.image gap = b.image gap ↔ a = b := by
  cases a
  cases b
  simp only [Ipv4Settings.image, List.append_assoc, List.cons_append, List.cons.injEq,
    List.append_cancel_left_eq, le32_append_inj, le32_inj, boolByte_inj, Ipv4Settings.mk.injEq]

theorem WifiSettings.image_inj {gap : List UInt8} {a b : WifiSettings} :
    a.image gap = b.image gap ↔ a = b := by
  cases a
  cases b
  simp only [WifiSettings.image, List.append_assoc, bytes_append_inj, le32_append_inj,
    Ipv4Settings.image_inj, toUInt32_inj, WifiSettings.mk.injEq]

theorem EthernetSettings.image_inj {gap : List UInt8} {a b : EthernetSettings} :
    a.image gap = b.image gap ↔ a = b := by
  cases a
  cases b
  simp only [EthernetSettings.image, Ipv4Settings.image_inj, EthernetSettings.mk.injEq]

theorem MqttSettings.image_inj {a b : MqttSettings} : a.image = b.image ↔ a = b := by
  cases a
  cases b
  simp only [MqttSettings.image, List.append_assoc, bytes_append_inj, le16_append_inj,
    CharArray.bytes_inj, MqttSettings.mk.injEq]

theorem communicationSettingsChanged_iff (old new : SensorSettingsEntry) :
    old.communicationSettingsChanged new = true ↔
      ¬ (old.baudrate = new.baudrate ∧ old.enabled = new.enabled ∧
        old.simulateValues = new.simulateValues) := by
  simp only [SensorSettingsEntry.communicationSettingsChanged, Bool.or_eq_true, decide_eq_true_eq,
    not_and_or, or_assoc, ne_eq]

theorem imagesDiffer_eq (g : Gaps) (old new : ClientModeSettings) :
    imagesDiffer g old new = needsReboot old new := by
  simp only [imagesDiffer, needsReboot, ne_eq, WifiSettings.image_inj, EthernetSettings.image_inj,
    MqttSettings.image_inj]
  rfl

end Images

section Canonical

variable {n : Nat} {s rest : List UInt8}

theorem cString_strncpy (n : Nat) (s : List UInt8) : cString (strncpy n s) = (cString s).take n := by
  have h := cString_strncpy_append n s []
  rw [List.append_nil, cString_nil, List.append_nil] at h
  rw [h]
  split
  next hlt => exact (List.take_of_length_le hlt.le).symm
  next => rfl

theorem strncpy_congr {t : List UInt8} (h : cString s = cString t) : strncpy n s = strncpy n t := by
  rw [strncpy, strncpy, h]

@[simp] theorem strncpy_strncpy (n : Nat) (s : List UInt8) :
    strncpy n (strncpy n s) = strncpy n s := by
  rw [strncpy, cString_strncpy, List.take_take, Nat.min_self, List.length_take, strncpy]
  congr 2
  omega

theorem strncpy_readBack {a : CharArray n} (h : a.bytes = strncpy n a.bytes) (rest : List UInt8) :
    strncpy n (cString (a.bytes ++ rest)) = a.bytes := by
  by_cases h0 : 0 ∈ a.bytes
  · obtain ⟨tail, htail⟩ := exists_of_zero_mem h0
    have hread : cString (a.bytes ++ rest) = cString a.bytes := by
      conv_lhs => rw [htail]
      rw [List.append_assoc, cString_append (zero_notMem_cString _), List.cons_append,
        cString_zero_cons, List.append_nil]
    rw [hread]
    exact (strncpy_congr (cString_cString _)).trans h.symm
  · rw [cString_append h0, strncpy, cString_append h0, cString_cString,
      List.take_append_of_le_length a.length_bytes.ge, List.take_of_length_le a.length_bytes.le,
      List.length_append, a.length_bytes, Nat.sub_add_eq, Nat.sub_self, Nat.zero_sub,
      List.replicate_zero, List.append_nil]

theorem bytes_eq_iff {a b : CharArray n} (ha : a.bytes = strncpy n a.bytes)
    (hb : b.bytes = strncpy n b.bytes) : a = b ↔ cString a.bytes = cString b.bytes := by
  refine ⟨fun h => h ▸ rfl, fun h => CharArray.bytes_inj.mp ?_⟩
  rw [ha, hb, strncpy_congr h]

variable {sdk : Sdk} {d d' : Device} {e : Event} {es : List Event} {old new : ClientModeSettings}

theorem canonical_factory (gap : List UInt8) : Canonical (sClientSettings gap) := by
  have hentries : ∀ (i : Fin 3) (j : Fin 10),
      (TextField.name i j).bytes (sClientSettings []) =
          strncpy 10 ((TextField.name i j).bytes (sClientSettings [])) ∧
        (TextField.topic i j).bytes (sClientSettings []) =
          strncpy 30 ((TextField.topic i j).bytes (sClientSettings [])) := by decide +kernel
  refine ⟨fun f => ?_, (strncpy_strncpy 8 []).symm⟩
  cases f with
  | ssid => exact (strncpy_strncpy 32 []).symm
  | wifiPassword => exact (strncpy_strncpy 32 []).symm
  | broker => exact (strncpy_strncpy 32 []).symm
  | username => exact (strncpy_strncpy 32 []).symm
  | mqttPassword => exact (strncpy_strncpy 32 []).symm
  | name i j => exact (hentries i j).1
  | topic i j => exact (hentries i j).2

theorem Step.canonical (h : Step sdk d e d') (hd : Canonical d.flash) : Canonical d'.flash := by
  have hpassword : d'.flash.password.bytes = strncpy 8 d'.flash.password.bytes := by
    obtain hkept | ⟨-, s, -, -, -, -, hstored⟩ := h.password_cases
    · rw [hkept]
      exact hd.password
    · rw [hstored]
      exact (strncpy_strncpy 8 _).symm
  cases h with
  | reboot => exact hd
  | @save postData r hr =>
    cases postData with
    | error err =>
      rw [(settingsSaveFn_error hr).1]
      exact hd
    | ok post =>
      cases hsaved : r.saved with
      | false =>
        rw [(settingsSaveFn_refused hr hsaved).1]
        exact hd
      | true =>
        refine ⟨fun f => ?_, hpassword⟩
        obtain ⟨s, -, hbytes⟩ := savedText hr hsaved f
        rw [hbytes, strncpy_strncpy]

theorem canonical_of_run (h : Run (Step sdk) d es d') (hd : Canonical d.flash) :
    Canonical d'.flash :=
  h.invariant (fun d => Canonical d.flash) (fun _ _ _ hd hstep => hstep.canonical hd) hd

theorem needsReboot_eq_false_iff :
    needsReboot old new = false ↔ old.connType = new.connType ∧ old.wifi = new.wifi ∧
      old.eth = new.eth ∧ old.mqtt = new.mqtt ∧
        ∀ i : Fin 3,
          (old.sensorSettings.get i).baudrate = (new.sensorSettings.get i).baudrate ∧
            (old.sensorSettings.get i).enabled = (new.sensorSettings.get i).enabled ∧
              (old.sensorSettings.get i).simulateValues =
                (new.sensorSettings.get i).simulateValues := by
  have hget : ∀ (r : ClientModeSettings) (i : Fin 3),
      r.sensorSettings[i] = r.sensorSettings.get i := fun _ _ => rfl
  simp only [needsReboot, hget, Bool.or_eq_false_iff, List.any_eq_false,
    communicationSettingsChanged_iff, decide_eq_false_iff_not, ne_eq, not_not, List.mem_finRange,
    true_imp_iff, and_assoc]
  tauto

theorem needsReboot_iff (hold : Canonical old) (hnew : Canonical new) :
    needsReboot old new = true ↔ ¬ SameValues old new := by
  rw [← Bool.not_eq_false, needsReboot_eq_false_iff, not_iff_not]
  have hwifi : old.wifi = new.wifi ↔
      cString old.wifi.ssid.bytes = cString new.wifi.ssid.bytes ∧
        cString old.wifi.password.bytes = cString new.wifi.password.bytes ∧
          old.wifi.authMode = new.wifi.authMode ∧ old.wifi.ipv4 = new.wifi.ipv4 := by
    rw [← bytes_eq_iff (hold.text .ssid) (hnew.text .ssid),
      ← bytes_eq_iff (hold.text .wifiPassword) (hnew.text .wifiPassword), ← WifiSettings.mk.injEq]
  have heth : old.eth = new.eth ↔ old.eth.ipv4 = new.eth.ipv4 := by
    rw [← EthernetSettings.mk.injEq]
  have hmqtt : old.mqtt = new.mqtt ↔
      cString old.mqtt.broker.bytes = cString new.mqtt.broker.bytes ∧
        old.mqtt.port = new.mqtt.port ∧
          cString old.mqtt.username.bytes = cString new.mqtt.username.bytes ∧
            cString old.mqtt.password.bytes = cString new.mqtt.password.bytes := by
    rw [← bytes_eq_iff (hold.text .broker) (hnew.text .broker),
      ← bytes_eq_iff (hold.text .username) (hnew.text .username),
      ← bytes_eq_iff (hold.text .mqttPassword) (hnew.text .mqttPassword), ← MqttSettings.mk.injEq]
  rw [hwifi, heth, hmqtt]
  constructor
  · rintro ⟨hconn, ⟨hssid, hwifiPassword, hmode, hwifiIpv4⟩, hethIpv4,
      ⟨hbroker, hport, husername, hmqttPassword⟩, hsensors⟩
    exact ⟨hconn, hssid, hwifiPassword, hmode, hwifiIpv4, hethIpv4, hbroker, hport, husername,
      hmqttPassword, fun i => (hsensors i).1, fun i => (hsensors i).2.1, fun i => (hsensors i).2.2⟩
  · intro h
    exact ⟨h.connType, ⟨h.ssid, h.wifiPassword, h.authMode, h.wifiIpv4⟩, h.ethIpv4,
      ⟨h.broker, h.port, h.username, h.mqttPassword⟩,
      fun i => ⟨h.baudrate i, h.enabled i, h.simulateValues i⟩⟩

end Canonical

section Again

variable {sdk : Sdk} {post j : Json}

/-! A conversion over what it left leaves the same. -/

theorem convertIpv4_again {old new : Ipv4Settings} (h : convertIpv4 sdk old j = .ok new) :
    convertIpv4 sdk new j = .ok new := by
  simp only [convertIpv4, bind_eq_ok, pure_eq_ok, deref_eq_ok] at h ⊢
  obtain ⟨ip, hip, nm, hnm, gw, hgw, rfl⟩ := h
  refine ⟨ip, hip, nm, hnm, gw, hgw, ?_⟩
  have hkeep : ∀ (parsed : Option UInt32) (x : UInt32), parsed.getD (parsed.getD x) = parsed.getD x :=
    fun parsed x => by cases parsed <;> rfl
  simp only [hkeep]

theorem convertWifi_again {old new : WifiSettings} (h : convertWifi sdk old j = .ok new) :
    convertWifi sdk new j = .ok new := by
  simp only [convertWifi, bind_eq_ok, pure_eq_ok, deref_eq_ok] at h ⊢
  obtain ⟨ssid, hssid, password, hpassword, mode, hmode, ipv4, hipv4, rfl⟩ := h
  exact ⟨ssid, hssid, password, hpassword, mode, hmode, ipv4, convertIpv4_again hipv4, rfl⟩

theorem convertEth_again {old new : EthernetSettings} (h : convertEth sdk old j = .ok new) :
    convertEth sdk new j = .ok new := by
  simp only [convertEth, bind_eq_ok, pure_eq_ok] at h ⊢
  obtain ⟨ipv4, hipv4, rfl⟩ := h
  exact ⟨ipv4, convertIpv4_again hipv4, rfl⟩

theorem convertPublishSettings_again {old new : PublishSettingsEntry}
    (h : convertPublishSettings sdk old j = .ok new) :
    convertPublishSettings sdk new j = .ok new := by
  simp only [convertPublishSettings, bind_eq_ok, pure_eq_ok, deref_eq_ok] at h ⊢
  obtain ⟨name, hname, avgCnt, havgCnt, scale, hscale, topic, htopic, rfl⟩ := h
  exact ⟨name, hname, avgCnt, havgCnt, scale, hscale, topic, htopic, rfl⟩

theorem convertSensor_again {old new : SensorSettingsEntry}
    (h : convertSensor sdk old j = .ok new) : convertSensor sdk new j = .ok new := by
  simp only [convertSensor, bind_eq_ok, pure_eq_ok, deref_eq_ok] at h ⊢
  obtain ⟨baud, hbaud, entries, hentries, rfl⟩ := h
  exact ⟨baud, hbaud, entries, fillM_eq_ok_iff.mpr fun k =>
    convertPublishSettings_again (fillM_eq_ok_iff.mp hentries k), rfl⟩

theorem convertSettings_again {old new : ClientModeSettings}
    (h : convertSettings sdk old post = .ok new) (password : CharArray 8) :
    convertSettings sdk { new with password } post = .ok { new with password } := by
  simp only [convertSettings, bind_eq_ok, pure_eq_ok] at h ⊢
  obtain ⟨wifi, hwifi, eth, heth, mqtt, hmqtt, sensors, hsensors, rfl⟩ := h
  exact ⟨wifi, convertWifi_again hwifi, eth, convertEth_again heth, mqtt, hmqtt, sensors,
    fillM_eq_ok_iff.mpr fun i => convertSensor_again (fillM_eq_ok_iff.mp hsensors i), rfl⟩

variable {d d' : Device} {r r' : SaveResult}

theorem storeSettings_reboot {check : PasswordCheck} (h : check.saveSettings = true) :
    (storeSettings d check).rebootRequested = needsReboot d.flash check.newSettings := by
  cases hreboot : needsReboot d.flash check.newSettings <;> simp [storeSettings, h, hreboot]

theorem exists_converted (hd : Canonical d.flash) (h : settingsSaveFn sdk d (.ok post) = .ok r)
    (hsaved : r.saved = true) :
    ∃ converted password, convertSettings sdk d.flash post = .ok converted ∧
      r.device.flash = { converted with password } ∧
      ∀ s, (post.get "settings").get "password" = .str s → password = .strncpy 8 (cString s) := by
  obtain ⟨converted, check, hconv, hcheck, rfl⟩ := settingsSaveFn_eq_ok_iff.mp h
  rw [storeSettings_saved] at hsaved
  rw [storeSettings_accepted hsaved]
  cases hmode : d.initialConfig with
  | true =>
    rw [hmode] at hcheck
    obtain ⟨s, hs, hnew, -⟩ := checkPassword_config hcheck
    refine ⟨converted, _, hconv, hnew, fun s' hs' => ?_⟩
    rw [Json.str.inj (hs.symm.trans hs')]
  | false =>
    rw [hmode] at hcheck
    obtain ⟨hnew, hiff⟩ := checkPassword_locked hcheck
    have hkept := convertSettings_password hconv
    refine ⟨converted, converted.password, hconv, hnew, fun s hs => ?_⟩
    have hread : s = d.flash.passwordString := by
      have heq := hiff.mp hsaved
      rwa [hs, Json.eqCStr_str] at heq
    refine CharArray.bytes_inj.mp ?_
    rw [hkept, CharArray.strncpy_bytes, hread, ClientModeSettings.passwordString, cString_cString]
    exact (strncpy_readBack hd.password _).symm

theorem settingsSaveFn_again (hd : Canonical d.flash) (h : settingsSaveFn sdk d (.ok post) = .ok r)
    (hsaved : r.saved = true) (hflash : d'.flash = r.device.flash)
    (h' : settingsSaveFn sdk d' (.ok post) = .ok r') (hsaved' : r'.saved = true) :
    r'.device.flash = r.device.flash ∧ r'.rebootRequested = false := by
  obtain ⟨converted, password, hconv, hstored, hpassword⟩ := exists_converted hd h hsaved
  obtain ⟨converted', check, hconv', hcheck, rfl⟩ := settingsSaveFn_eq_ok_iff.mp h'
  rw [storeSettings_saved] at hsaved'
  rw [storeSettings_accepted hsaved', storeSettings_reboot hsaved', hflash]
  have hsame : converted' = r.device.flash := by
    rw [hflash, hstored, convertSettings_again hconv] at hconv'
    rw [hstored]
    exact (Except.ok.inj hconv').symm
  have hnew : check.newSettings = r.device.flash := by
    cases hmode : d'.initialConfig with
    | true =>
      rw [hmode] at hcheck
      obtain ⟨s, hs, hnew, -⟩ := checkPassword_config hcheck
      rw [hnew, hsame, hstored, hpassword s hs]
    | false =>
      rw [hmode] at hcheck
      rw [(checkPassword_locked hcheck).1, hsame]
  rw [hnew]
  exact ⟨rfl, needsReboot_eq_false_iff.mpr ⟨rfl, rfl, rfl, rfl, fun _ => ⟨rfl, rfl, rfl⟩⟩⟩

theorem rebootRequested_iff {postData : Except DeserializationError Json} (hd : Canonical d.flash)
    (h : settingsSaveFn sdk d postData = .ok r) :
    r.rebootRequested = true ↔ ¬ SameValues d.flash r.device.flash := by
  have hsame : SameValues d.flash d.flash := by
    constructor <;> first | rfl | exact fun _ => rfl
  have hcanonical : Canonical r.device.flash := (Step.save h).canonical hd
  cases postData with
  | error err =>
    simp only [settingsSaveFn, pure_eq_ok] at h
    rw [← h]
    exact iff_of_false Bool.false_ne_true (not_not_intro hsame)
  | ok post =>
    cases hsaved : r.saved with
    | false =>
      obtain ⟨hdevice, hreboot⟩ := settingsSaveFn_refused h hsaved
      rw [hdevice, hreboot]
      exact iff_of_false Bool.false_ne_true (not_not_intro hsame)
    | true =>
      obtain ⟨converted, check, -, -, rfl⟩ := settingsSaveFn_eq_ok_iff.mp h
      rw [storeSettings_saved] at hsaved
      rw [storeSettings_accepted hsaved] at hcanonical ⊢
      rw [storeSettings_reboot hsaved]
      exact needsReboot_iff hd hcanonical

end Again

section Runs

variable {sdk : Sdk} {d : Device} {es : List Event} {gap : List UInt8} {button : Bool}

/-- In every run a document that is accepted twice, reboots in between included, leaves the same
bytes the second time and asks for no reboot; and a reboot is asked for exactly when a value
differs, which is what the comparison of the memory finds. -/
theorem saves_settle (hrun : Run (Step sdk) (boot (sClientSettings gap) button) es d) (g : Gaps) :
    (∀ post r d' r', settingsSaveFn sdk d (.ok post) = .ok r → r.saved = true →
      d'.flash = r.device.flash → settingsSaveFn sdk d' (.ok post) = .ok r' → r'.saved = true →
        r'.device.flash.image g = r.device.flash.image g ∧ r'.rebootRequested = false) ∧
      (∀ postData r, settingsSaveFn sdk d postData = .ok r →
        (r.rebootRequested = true ↔ ¬ SameValues d.flash r.device.flash)) ∧
      ∀ old new, needsReboot old new = imagesDiffer g old new := by
  have hd : Canonical d.flash := canonical_of_run hrun (canonical_factory gap)
  refine ⟨fun post r d' r' h hsaved hflash h' hsaved' => ?_, fun postData r h =>
    rebootRequested_iff hd h, fun old new => (imagesDiffer_eq g old new).symm⟩
  obtain ⟨hsame, hreboot⟩ := settingsSaveFn_again hd h hsaved hflash h' hsaved'
  exact ⟨congrArg (ClientModeSettings.image g) hsame, hreboot⟩

theorem second_save_settles :
    ∃ r r', settingsSaveFn sampleSdk factoryDevice (.ok (sampleDocument (ascii "secret"))) = .ok r ∧
      r.rebootRequested = true ∧
      settingsSaveFn sampleSdk (boot r.device.flash false)
        (.ok (sampleDocument (ascii "secret"))) = .ok r' ∧
      r'.saved = true ∧ r'.rebootRequested = false := by
  obtain ⟨r, r', hr, hsaved, hreboot, hr', hsaved'⟩ : ∃ r r',
      settingsSaveFn sampleSdk factoryDevice (.ok (sampleDocument (ascii "secret"))) = .ok r ∧
        r.saved = true ∧ r.rebootRequested = true ∧
        settingsSaveFn sampleSdk (boot r.device.flash false)
          (.ok (sampleDocument (ascii "secret"))) = .ok r' ∧
        r'.saved = true := ⟨_, _, rfl, rfl, by decide +kernel, rfl, by decide +kernel⟩
  exact ⟨r, r', hr, hreboot, hr', hsaved', ((@saves_settle sampleSdk factoryDevice [] [] false .nil
    ⟨[], [], []⟩).1 _ r (boot r.device.flash false) r' hr hsaved rfl hr' hsaved').2⟩

end Runs

end RadProt.Settings
