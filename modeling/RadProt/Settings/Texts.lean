import RadProt.Settings.Protection

namespace RadProt.Settings

open RadProt.Lib

inductive TextField
  | ssid
  | wifiPassword
  | broker
  | username
  | mqttPassword
  | name (i : Fin 3) (j : Fin 10)
  | topic (i : Fin 3) (j : Fin 10)
  deriving DecidableEq

namespace TextField

def size : TextField → Nat
  | .name _ _ => 10
  | .topic _ _ => 30
  | _ => 32

def bytes (r : ClientModeSettings) : TextField → List UInt8
  | .ssid => r.wifi.ssid.bytes
  | .wifiPassword => r.wifi.password.bytes
  | .broker => r.mqtt.broker.bytes
  | .username => r.mqtt.username.bytes
  | .mqttPassword => r.mqtt.password.bytes
  | .name i j => ((r.sensorSettings.get i).publishSettings.get j).name.bytes
  | .topic i j => ((r.sensorSettings.get i).publishSettings.get j).topic.bytes

def posted (post : Json) : TextField → Option (List UInt8)
  | .ssid => ((post.get "wifi").get "ssid").asCStr
  | .wifiPassword => ((post.get "wifi").get "password").asCStr
  | .broker => ((post.get "mqtt").get "broker").asCStr
  | .username => ((post.get "mqtt").get "username").asCStr
  | .mqttPassword => ((post.get "mqtt").get "password").asCStr
  | .name i j => (((((post.get "s_s").elem i).get "p_s").elem j).get "name").asCStr
  | .topic i j => (((((post.get "s_s").elem i).get "p_s").elem j).get "topic").asCStr

end TextField

def TextsTerminated (r : ClientModeSettings) : Prop := ∀ f : TextField, 0 ∈ f.bytes r

/-- Whatever follows a field, it reads back as the posted string, cut to leave room for the
terminator. -/
def ReadsBack (post : Json) (r : ClientModeSettings) : Prop :=
  ∀ (f : TextField) (s : List UInt8), f.posted post = some s →
    0 ∈ f.bytes r ∧ ∀ rest, cString (f.bytes r ++ rest) = s.take (f.size - 1)

def TextsFit (post : Json) : Prop :=
  ∀ (f : TextField) (s : List UInt8), f.posted post = some s → s.length < f.size

theorem TextField.size_pos (f : TextField) : 0 < f.size := by
  cases f <;> exact Nat.succ_pos _

theorem zero_notMem_of_asCStr {j : Json} {s : List UInt8} (h : j.asCStr = some s) : 0 ∉ s := by
  cases j with
  | str s' => exact Option.some.inj h ▸ zero_notMem_cString s'
  | _ => exact nomatch h

theorem TextField.zero_notMem_posted {f : TextField} {post : Json} {s : List UInt8}
    (h : f.posted post = some s) : 0 ∉ s := by
  cases f <;> exact zero_notMem_of_asCStr h

theorem zero_mem_strncpy_iff {n : Nat} {s : List UInt8} (h : 0 ∉ s) :
    0 ∈ strncpy n s ↔ s.length < n := by
  rw [strncpy, cString_eq_self h, List.mem_append, List.mem_replicate]
  have htake : 0 ∉ s.take n := fun hz => h (List.mem_of_mem_take hz)
  simp only [htake, false_or, and_true]
  omega

theorem strncpy_readsBack_iff {n : Nat} {s : List UInt8} (hn : 0 < n) (h : 0 ∉ s) :
    (∀ rest, cString (strncpy n s ++ rest) = s.take (n - 1)) ↔ s.length < n := by
  have hread : ∀ rest, cString (strncpy n s ++ rest) =
      if s.length < n then s else s.take n ++ cString rest := by
    intro rest
    rw [cString_strncpy_append, cString_eq_self h]
  constructor
  · intro hall
    by_contra hge
    have hlen := congrArg List.length ((hread []).symm.trans (hall []))
    rw [if_neg hge] at hlen
    simp at hlen
    omega
  · intro hlt rest
    rw [hread rest, if_pos hlt, List.take_of_length_le (by omega)]

theorem convertSettings_text {sdk : Sdk} {old new : ClientModeSettings} {post : Json}
    (h : convertSettings sdk old post = .ok new) (f : TextField) :
    ∃ s, f.posted post = some s ∧ f.bytes new = strncpy f.size s := by
  simp only [convertSettings, convertWifi, convertMqtt, bind_eq_ok, pure_eq_ok, deref_eq_ok] at h
  obtain ⟨wifi, ⟨ssid, hssid, password, hpassword, -, -, -, -, rfl⟩, eth, -, mqtt,
    ⟨broker, hbroker, -, -, username, husername, mqttPassword, hmqttPassword, rfl⟩, sensors,
    hsensors, rfl⟩ := h
  have hentry : ∀ (i : Fin 3) (j : Fin 10), ∃ name topic,
      (TextField.name i j).posted post = some name ∧ (TextField.topic i j).posted post = some topic ∧
        sensors[i].publishSettings[j].name = .strncpy 10 name ∧
        sensors[i].publishSettings[j].topic = .strncpy 30 topic := by
    intro i j
    have hsensor := fillM_eq_ok_iff.mp hsensors i
    simp only [convertSensor, bind_eq_ok, pure_eq_ok, deref_eq_ok] at hsensor
    obtain ⟨_, _, entries, hentries, hsensor⟩ := hsensor
    have hentry := fillM_eq_ok_iff.mp hentries j
    simp only [convertPublishSettings, bind_eq_ok, pure_eq_ok, deref_eq_ok] at hentry
    obtain ⟨name, hname, _, _, _, _, topic, htopic, hentry⟩ := hentry
    refine ⟨name, topic, hname, htopic, ?_, ?_⟩
    · rw [← hsensor]
      simp only
      rw [← hentry]
    · rw [← hsensor]
      simp only
      rw [← hentry]
  cases f with
  | ssid => exact ⟨ssid, hssid, rfl⟩
  | wifiPassword => exact ⟨password, hpassword, rfl⟩
  | broker => exact ⟨broker, hbroker, rfl⟩
  | username => exact ⟨username, husername, rfl⟩
  | mqttPassword => exact ⟨mqttPassword, hmqttPassword, rfl⟩
  | name i j =>
    obtain ⟨name, -, hname, -, hbytes, -⟩ := hentry i j
    exact ⟨name, hname, congrArg CharArray.bytes hbytes⟩
  | topic i j =>
    obtain ⟨-, topic, -, htopic, -, hbytes⟩ := hentry i j
    exact ⟨topic, htopic, congrArg CharArray.bytes hbytes⟩

variable {sdk : Sdk} {d d' : Device} {post : Json} {r : SaveResult}

theorem savedText (h : settingsSaveFn sdk d (.ok post) = .ok r) (hsaved : r.saved = true)
    (f : TextField) :
    ∃ s, f.posted post = some s ∧ f.bytes r.device.flash = strncpy f.size s := by
  obtain ⟨converted, check, hconv, hcheck, rfl⟩ := settingsSaveFn_eq_ok_iff.mp h
  rw [storeSettings_saved] at hsaved
  obtain ⟨s, hs, hbytes⟩ := convertSettings_text hconv f
  refine ⟨s, hs, ?_⟩
  rw [storeSettings_accepted hsaved, ← hbytes]
  cases hd : d.initialConfig with
  | true =>
    rw [hd] at hcheck
    obtain ⟨password, -, hnew, -⟩ := checkPassword_config hcheck
    rw [hnew]
    cases f <;> rfl
  | false =>
    rw [hd] at hcheck
    rw [(checkPassword_locked hcheck).1]

theorem saved_readsBack_iff (h : settingsSaveFn sdk d (.ok post) = .ok r)
    (hsaved : r.saved = true) :
    TextsTerminated r.device.flash ∧ ReadsBack post r.device.flash ↔ TextsFit post := by
  constructor
  · rintro ⟨hterminated, -⟩ f s hs
    obtain ⟨s', hs', hbytes⟩ := savedText h hsaved f
    obtain rfl : s = s' := Option.some.inj (hs.symm.trans hs')
    exact (zero_mem_strncpy_iff (f.zero_notMem_posted hs)).mp (hbytes ▸ hterminated f)
  · intro hfit
    have hterminated : TextsTerminated r.device.flash := by
      intro f
      obtain ⟨s, hs, hbytes⟩ := savedText h hsaved f
      rw [hbytes]
      exact (zero_mem_strncpy_iff (f.zero_notMem_posted hs)).mpr (hfit f s hs)
    refine ⟨hterminated, fun f s hs => ⟨hterminated f, ?_⟩⟩
    obtain ⟨s', hs', hbytes⟩ := savedText h hsaved f
    obtain rfl : s = s' := Option.some.inj (hs.symm.trans hs')
    rw [hbytes]
    exact (strncpy_readsBack_iff f.size_pos (f.zero_notMem_posted hs)).mpr (hfit f s hs)

def AcceptedFits (sdk : Sdk) (d : Device) (e : Event) : Prop :=
  ∀ post r, e = .save (.ok post) → settingsSaveFn sdk d (.ok post) = .ok r → r.saved = true →
    TextsFit post

theorem Step.textsTerminated {e : Event} (h : Step sdk d e d') (hfits : AcceptedFits sdk d e)
    (hd : TextsTerminated d.flash) : TextsTerminated d'.flash := by
  cases h with
  | reboot => exact hd
  | @save postData r hr =>
    cases postData with
    | error err =>
      rw [(settingsSaveFn_error hr).1]
      exact hd
    | ok post =>
      cases hsaved : r.saved with
      | false =>
        rw [(settingsSaveFn_refused hr hsaved).1]
        exact hd
      | true => exact ((saved_readsBack_iff hr hsaved).mpr (hfits post r rfl hr hsaved)).1

theorem textsTerminated_factory (gap : List UInt8) : TextsTerminated (sClientSettings gap) := by
  have hentries : ∀ (i : Fin 3) (j : Fin 10),
      0 ∈ (TextField.name i j).bytes (sClientSettings []) ∧
        0 ∈ (TextField.topic i j).bytes (sClientSettings []) := by decide +kernel
  intro f
  cases f with
  | ssid => exact List.mem_cons_self
  | wifiPassword => exact List.mem_cons_self
  | broker => exact List.mem_cons_self
  | username => exact List.mem_cons_self
  | mqttPassword => exact List.mem_cons_self
  | name i j => exact (hentries i j).1
  | topic i j => exact (hentries i j).2

/-- While the texts of every accepted request fit, every field ends inside its array; after any
accepted request they do, and read back, exactly if its texts fit. -/
theorem texts_terminated {gap : List UInt8} {button : Bool} {es : List Event}
    (hrun : Run (Guarded (AcceptedFits sdk) (Step sdk)) (boot (sClientSettings gap) button) es d) :
    TextsTerminated d.flash ∧
      ∀ post r, settingsSaveFn sdk d (.ok post) = .ok r → r.saved = true →
        (TextsTerminated r.device.flash ∧ ReadsBack post r.device.flash ↔ TextsFit post) := by
  refine ⟨?_, fun post r h hsaved => saved_readsBack_iff h hsaved⟩
  exact hrun.invariant (fun d => TextsTerminated d.flash)
    (fun _ _ _ hd hstep => hstep.2.textsTerminated hstep.1 hd) (textsTerminated_factory gap)

section Sample

def longDocument : Json :=
  .obj [
    ("wifi", .obj [("ssid", .str (.replicate 32 65)), ("password", .str [112, 119]),
      ("auth_mode", .str [48]), ("dhcp", .bool true), ("ip", .str []), ("nm", .str []),
      ("gw", .str [])]),
    ("eth", .obj [("dhcp", .bool true), ("ip", .str []), ("nm", .str []), ("gw", .str [])]),
    ("conn_type", .str [87, 73, 70, 73]),
    ("mqtt", .obj [("broker", .str []), ("port", .str [49, 56, 56, 51]), ("username", .str []),
      ("password", .str [])]),
    ("s_s", .arr (.replicate 3 sampleSensor)),
    ("settings", .obj [("password", .str [115])])]

theorem textsFit_sampleDocument (password : List UInt8) : TextsFit (sampleDocument password) := by
  have hentries : ∀ (i : Fin 3) (j : Fin 10),
      (TextField.name i j).posted (sampleDocument []) = some [] ∧
        (TextField.topic i j).posted (sampleDocument []) = some [] := by decide +kernel
  intro f s hs
  cases f with
  | ssid => exact Option.some.inj hs ▸ (by decide)
  | wifiPassword => exact Option.some.inj hs ▸ (by decide)
  | broker => exact Option.some.inj hs ▸ (by decide)
  | username => exact Option.some.inj hs ▸ (by decide)
  | mqttPassword => exact Option.some.inj hs ▸ (by decide)
  | name i j => exact Option.some.inj ((hentries i j).1.symm.trans hs) ▸ Nat.succ_pos _
  | topic i j => exact Option.some.inj ((hentries i j).2.symm.trans hs) ▸ Nat.succ_pos _

theorem texts_terminated_sample :
    ∃ r, settingsSaveFn sampleSdk factoryDevice (.ok (sampleDocument [115])) = .ok r ∧
      TextsTerminated r.device.flash := by
  obtain ⟨r, hr⟩ : ∃ r, settingsSaveFn sampleSdk factoryDevice (.ok (sampleDocument [115])) = .ok r :=
    ⟨_, rfl⟩
  have hfits : AcceptedFits sampleSdk factoryDevice (.save (.ok (sampleDocument [115]))) := by
    rintro post r ⟨⟩ - -
    exact textsFit_sampleDocument [115]
  exact ⟨r, hr, (texts_terminated (.single ⟨hfits, .save hr⟩)).1⟩

/-- A network name of 32 characters runs into the password of the network. -/
theorem ssid_runs_on :
    ∃ r, settingsSaveFn sampleSdk factoryDevice (.ok longDocument) = .ok r ∧ r.saved = true ∧
      ¬ TextsTerminated r.device.flash ∧ ¬ ReadsBack longDocument r.device.flash ∧
      cString (r.device.flash.wifi.ssid.bytes ++ r.device.flash.wifi.password.bytes) =
        List.replicate 32 65 ++ [112, 119] := by
  refine ⟨_, rfl, rfl, fun h => absurd (h .ssid) (by decide), fun h => ?_, by decide⟩
  exact absurd (h .ssid _ rfl).1 (by decide)

end Sample

end RadProt.Settings
