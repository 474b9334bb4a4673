import RadProt.Settings.Device

namespace RadProt.Settings

open RadProt.Lib

variable {sdk : Sdk}

def KeepsPassword (sdk : Sdk) (d : Device) (e : Event) (d' : Device) : Prop :=
  Step sdk d e d' ∧ d'.flash.password = d.flash.password

theorem KeepsPassword.run {d d' : Device} {es : List Event} (h : Run (KeepsPassword sdk) d es d') :
    d'.flash.password = d.flash.password := by
  refine h.related (fun d d' => d'.flash.password = d.flash.password) (fun _ => rfl) ?_
  intro d e d' d'' hstep ih
  exact ih.trans hstep.2

theorem passwordString_eq_iff {r : ClientModeSettings} {P : List UInt8}
    (h : r.password = .strncpy 8 (cString P)) :
    r.passwordString = P ↔ 0 ∉ P ∧ (P.length < 8 ∨ cString r.afterPassword = P.drop 8) := by
  have hr : r.passwordString = if (cString P).length < 8 then cString P
      else (cString P).take 8 ++ cString r.afterPassword := by
    rw [← passwordString_strncpy r P, ← h]
  by_cases hz : 0 ∈ P
  · have hne : r.passwordString ≠ P := fun he => zero_notMem_cString _ (he ▸ hz)
    simp [hne, hz]
  · rw [hr, cString_eq_self hz]
    simp only [hz, not_false_eq_true, true_and]
    split
    next hlt => simp [hlt]
    next hge =>
      constructor
      · intro he
        exact Or.inr (List.append_cancel_left (he.trans (List.take_append_drop 8 P).symm))
      · rintro (hlt | he)
        · exact absurd hlt hge
        · rw [he, List.take_append_drop]

theorem settingsSaveFn_locked {d : Device} {post : Json} {r : SaveResult} {Q : List UInt8}
    (hd : d.initialConfig = false) (hQ : (post.get "settings").get "password" = .str Q)
    (h : settingsSaveFn sdk d (.ok post) = .ok r) :
    (r.saved = true ↔ Q = d.flash.passwordString) ∧
      (r.saved = false → r.device = d ∧ r.rebootRequested = false) := by
  refine ⟨?_, settingsSaveFn_refused h⟩
  obtain ⟨converted, check, -, hcheck, rfl⟩ := settingsSaveFn_eq_ok_iff.mp h
  rw [hd, hQ] at hcheck
  obtain ⟨-, hiff⟩ := checkPassword_locked hcheck
  rw [storeSettings_saved]
  exact hiff.trans (Json.eqCStr_str _ _)

theorem settingsSaveFn_locked_total {d d₀ : Device} {post : Json} {r : SaveResult}
    (hd : d.initialConfig = false) (h : settingsSaveFn sdk d₀ (.ok post) = .ok r) :
    ∃ r', settingsSaveFn sdk d (.ok post) = .ok r' := by
  obtain ⟨converted, -, hconv, -⟩ := settingsSaveFn_eq_ok_iff.mp h
  obtain ⟨converted', hconv'⟩ := convertSettings_total hconv d.flash
  obtain ⟨check, hcheck⟩ := checkPassword_locked_total d.flash converted'
    ((post.get "settings").get "password")
  exact ⟨_, settingsSaveFn_eq_ok_iff.mpr ⟨converted', check, hconv', hd ▸ hcheck, rfl⟩⟩

theorem settingsSaveFn_config {d : Device} {post : Json} {r : SaveResult}
    (hd : d.initialConfig = true) (h : settingsSaveFn sdk d (.ok post) = .ok r) :
    ∃ s, (post.get "settings").get "password" = .str s ∧
      (r.saved = true ↔ ¬(cString s = [] ∧ d.flash.passwordString = [])) ∧
      (r.saved = true → r.device.flash.password = .strncpy 8 (cString s)) := by
  obtain ⟨converted, check, -, hcheck, rfl⟩ := settingsSaveFn_eq_ok_iff.mp h
  rw [hd] at hcheck
  obtain ⟨s, hs, hnew, hiff⟩ := checkPassword_config hcheck
  refine ⟨s, hs, by rw [storeSettings_saved, hiff], fun hsaved => ?_⟩
  rw [storeSettings_saved] at hsaved
  rw [storeSettings_accepted hsaved, hnew]

/-- Outside configuration mode the device accepts `P` and nothing else; a refusal changes nothing. -/
def AdmitsExactly (sdk : Sdk) (d : Device) (P : List UInt8) : Prop :=
  ∀ Q post r, (post.get "settings").get "password" = .str Q →
    settingsSaveFn sdk d (.ok post) = .ok r →
    (r.saved = true ↔ Q = P) ∧
      (r.saved = false → r.device.flash = d.flash ∧ r.rebootRequested = false)

/-- A stored password is admitted exactly if and only if the stored array reads back as it. -/
theorem password_admitted_iff {d₀ d₁ : Device} {post : Json} {P : List UInt8} {r : SaveResult}
    {es : List Event} (hmode₀ : d₀.initialConfig = true) (_hP : P ≠ [])
    (hpost : (post.get "settings").get "password" = .str P)
    (hsave : settingsSaveFn sdk d₀ (.ok post) = .ok r) (hsaved : r.saved = true)
    (hrun : Run (KeepsPassword sdk) r.device es d₁) (hmode₁ : d₁.initialConfig = false) :
    AdmitsExactly sdk d₁ P ↔
      0 ∉ P ∧ (P.length < 8 ∨ cString d₁.flash.afterPassword = P.drop 8) := by
  obtain ⟨s, hs, -, hstored⟩ := settingsSaveFn_config hmode₀ hsave
  obtain rfl : P = s := by simpa using hpost.symm.trans hs
  have hpassword : d₁.flash.password = .strncpy 8 (cString P) :=
    (KeepsPassword.run hrun).trans (hstored hsaved)
  rw [← passwordString_eq_iff hpassword]
  constructor
  · intro hall
    obtain ⟨r', hr'⟩ := settingsSaveFn_locked_total hmode₁ hsave
    have haccepted := (hall P post r' hpost hr').1.mpr rfl
    exact ((settingsSaveFn_locked hmode₁ hpost hr').1.mp haccepted).symm
  · intro hread Q post' r' hQ hr'
    obtain ⟨hiff, hrefused⟩ := settingsSaveFn_locked hmode₁ hQ hr'
    refine ⟨by rw [hiff, hread], fun hno => ?_⟩
    obtain ⟨hdev, hreboot⟩ := hrefused hno
    exact ⟨by rw [hdev], hreboot⟩

section Sample

def sampleSdk : Sdk where
  ipaddrAton _ := none
  atof _ := 0
  asUInt16
    | .int n => .ofInt n
    | _ => 0
  authOpen := 0
  authWpaTkipPsk := 0x00200002
  authWpa3Wpa2AesPsk := 0x01400004
  authWpa2MixedPsk := 0x00400006

def samplePublishSettings : Json :=
  .obj [("enabled", .bool false), ("name", .str []), ("start", .int 0), ("end", .int 0),
    ("is_num", .bool false), ("avg_cnt", .str [48]), ("scale", .str [48]), ("topic", .str [])]

def sampleSensor : Json :=
  .obj [("baud", .str [57, 54, 48, 48]), ("enabled", .bool true), ("simulate_values", .bool false),
    ("p_s", .arr (.replicate 10 samplePublishSettings))]

def sampleDocument (password : List UInt8) : Json :=
  .obj [
    ("wifi", .obj [("ssid", .str [104, 111, 109, 101]), ("password", .str []),
      ("auth_mode", .str [48]), ("dhcp", .bool true), ("ip", .str []), ("nm", .str []),
      ("gw", .str [])]),
    ("eth", .obj [("dhcp", .bool true), ("ip", .str []), ("nm", .str []), ("gw", .str [])]),
    ("conn_type", .str [87, 73, 70, 73]),
    ("mqtt", .obj [("broker", .str []), ("port", .str [49, 56, 56, 51]), ("username", .str []),
      ("password", .str [])]),
    ("s_s", .arr (.replicate 3 sampleSensor)),
    ("settings", .obj [("password", .str password)])]

def factoryDevice : Device := boot (sClientSettings []) false

/-- The password `swordfish`, one byte longer than its array, is stored and then refused. -/
theorem password_swordfish_refused :
    ∃ r, settingsSaveFn sampleSdk factoryDevice
        (.ok (sampleDocument [115, 119, 111, 114, 100, 102, 105, 115, 104])) = .ok r ∧
      factoryDevice.initialConfig = true ∧ r.saved = true ∧
      (boot r.device.flash false).initialConfig = false ∧
      ¬ AdmitsExactly sampleSdk (boot r.device.flash false)
        [115, 119, 111, 114, 100, 102, 105, 115, 104] := by
  refine ⟨_, rfl, rfl, rfl, rfl, fun h => ?_⟩
  have haccepted := (h _ (sampleDocument [115, 119, 111, 114, 100, 102, 105, 115, 104]) _ rfl rfl).1
  exact absurd (haccepted.mpr rfl) (by decide)

theorem password_secret_admitted :
    ∃ r, settingsSaveFn sampleSdk factoryDevice
        (.ok (sampleDocument [115, 101, 99, 114, 101, 116])) = .ok r ∧
      AdmitsExactly sampleSdk (boot r.device.flash false) [115, 101, 99, 114, 101, 116] := by
  obtain ⟨r, hr, hsaved, hmode⟩ : ∃ r, settingsSaveFn sampleSdk factoryDevice
        (.ok (sampleDocument [115, 101, 99, 114, 101, 116])) = .ok r ∧
      r.saved = true ∧ (boot r.device.flash false).initialConfig = false :=
    ⟨_, rfl, rfl, rfl⟩
  have hreboot : Step sampleSdk r.device (.reboot false) (boot r.device.flash false) := .reboot
  have hiff := password_admitted_iff rfl (by decide) rfl hr hsaved (.single ⟨hreboot, rfl⟩) hmode
  exact ⟨r, hr, hiff.mpr ⟨by decide, .inl (by decide)⟩⟩

end Sample

/-! Whether a password can disappear. -/

def PostsPassword (d : Device) (e : Event) : Prop :=
  ∀ post s, e = .save (.ok post) → d.initialConfig = true → d.flash.passwordString ≠ [] →
    (post.get "settings").get "password" = .str s → cString s ≠ []

/-- A stored password survives the step, and a record saved in configuration mode has one. -/
def PasswordDefined (sdk : Sdk) (d : Device) (e : Event) (d' : Device) : Prop :=
  (d.flash.passwordString ≠ [] → d'.flash.passwordString ≠ []) ∧
    ∀ postData r, e = .save postData → d.initialConfig = true →
      settingsSaveFn sdk d postData = .ok r → r.saved = true →
      r.device.flash.passwordString ≠ []

theorem Step.password_cases {d d' : Device} {e : Event} (h : Step sdk d e d') :
    d'.flash.password = d.flash.password ∨
      ∃ post s, e = .save (.ok post) ∧ d.initialConfig = true ∧
        (post.get "settings").get "password" = .str s ∧
        (cString s = [] → d.flash.passwordString ≠ []) ∧
        d'.flash.password = .strncpy 8 (cString s) := by
  cases hd : d.initialConfig with
  | false => exact .inl (h.password_of_locked hd)
  | true =>
    cases h with
    | reboot => exact .inl rfl
    | @save postData r hr =>
      cases postData with
      | error err => exact .inl (by rw [(settingsSaveFn_error hr).1])
      | ok post =>
        obtain ⟨s, hs, hsaved, hstored⟩ := settingsSaveFn_config hd hr
        cases hno : r.saved with
        | false => exact .inl (by rw [(settingsSaveFn_refused hr hno).1])
        | true =>
          exact .inr ⟨post, s, rfl, rfl, hs, fun hnil hold => hsaved.mp hno ⟨hnil, hold⟩,
            hstored hno⟩

theorem strncpy_defined_iff {r : ClientModeSettings} {s : List UInt8}
    (h : r.password = .strncpy 8 (cString s)) : r.passwordString ≠ [] ↔ cString s ≠ [] := by
  have hcongr : r.passwordString = [] ↔
      ({ r with password := .strncpy 8 (cString s) }).passwordString = [] := passwordString_congr h
  rw [Ne, Ne, hcongr, passwordString_strncpy_eq_nil_iff]

theorem Step.passwordDefined_iff {d d' : Device} {e : Event} (h : Step sdk d e d') :
    PasswordDefined sdk d e d' ↔ PostsPassword d e := by
  constructor
  · rintro ⟨-, hsave⟩ post s rfl hmode hold hs
    cases h with
    | save hr =>
      obtain ⟨s', hs', hsaved, hstored⟩ := settingsSaveFn_config hmode hr
      obtain rfl : s = s' := by simpa using hs.symm.trans hs'
      have hyes : _ := hsaved.mpr fun hboth => hold hboth.2
      exact (strncpy_defined_iff (hstored hyes)).mp (hsave _ _ rfl hmode hr hyes)
  · intro hposts
    refine ⟨fun hold => ?_, ?_⟩
    · obtain hsame | ⟨post, s, rfl, hmode, hs, -, hstored⟩ := h.password_cases
      · exact fun hnil => hold ((passwordString_congr hsame).mp hnil)
      · exact (strncpy_defined_iff hstored).mpr (hposts post s rfl hmode hold hs)
    · rintro postData r rfl hmode hr hyes
      cases postData with
      | error err => simp [(settingsSaveFn_error hr).2] at hyes
      | ok post =>
        obtain ⟨s, hs, hsaved, hstored⟩ := settingsSaveFn_config hmode hr
        refine (strncpy_defined_iff (hstored hyes)).mpr fun hnil => ?_
        have hold : d.flash.passwordString ≠ [] := fun hold => hsaved.mp hyes ⟨hnil, hold⟩
        exact hposts post s rfl hmode hold hs hnil

/-- If every request made in configuration mode over a stored password posts one, a stored
password is never lost, and no record saved in configuration mode is without one. -/
theorem password_stays_defined {d d' d'' : Device} {es : List Event} {e : Event}
    (hrun : Run (Guarded PostsPassword (Step sdk)) d es d')
    (hstep : Guarded PostsPassword (Step sdk) d' e d'') :
    (d.flash.passwordString ≠ [] → d'.flash.passwordString ≠ []) ∧
      PasswordDefined sdk d' e d'' := by
  refine ⟨fun hold => ?_, hstep.2.passwordDefined_iff.mpr hstep.1⟩
  refine hrun.invariant (fun d => d.flash.passwordString ≠ []) (fun s e t hs hst => ?_) hold
  exact (hst.2.passwordDefined_iff.mpr hst.1).1 hs

section Sample

/-- `secret` is stored; a second request in configuration mode posts the empty string, is
accepted, and leaves the device without a password. -/
theorem password_erased :
    ∃ r r', settingsSaveFn sampleSdk factoryDevice
        (.ok (sampleDocument [115, 101, 99, 114, 101, 116])) = .ok r ∧
      r.device.flash.passwordString ≠ [] ∧ r.device.initialConfig = true ∧
      settingsSaveFn sampleSdk r.device (.ok (sampleDocument [])) = .ok r' ∧
      r'.saved = true ∧ r'.device.flash.passwordString = [] :=
  ⟨_, _, rfl, by decide, rfl, rfl, rfl, rfl⟩

theorem password_replaced :
    ∃ r r', settingsSaveFn sampleSdk factoryDevice
        (.ok (sampleDocument [115, 101, 99, 114, 101, 116])) = .ok r ∧
      settingsSaveFn sampleSdk r.device (.ok (sampleDocument [110, 101, 119])) = .ok r' ∧
      r'.device.flash.passwordString ≠ [] := by
  obtain ⟨r, r', hr, hr', hold⟩ : ∃ r r', settingsSaveFn sampleSdk factoryDevice
        (.ok (sampleDocument [115, 101, 99, 114, 101, 116])) = .ok r ∧
      settingsSaveFn sampleSdk r.device (.ok (sampleDocument [110, 101, 119])) = .ok r' ∧
      r.device.flash.passwordString ≠ [] :=
    ⟨_, _, rfl, rfl, by decide⟩
  have hfirst : PostsPassword factoryDevice
      (.save (.ok (sampleDocument [115, 101, 99, 114, 101, 116]))) :=
    fun _ _ _ _ hstored => absurd rfl hstored
  have hsecond : PostsPassword r.device (.save (.ok (sampleDocument [110, 101, 119]))) := by
    rintro post s ⟨⟩ - - hs
    obtain rfl : [110, 101, 119] = s := Json.str.inj hs
    decide
  have hdefined := password_stays_defined (.single ⟨hfirst, .save hr⟩) ⟨hsecond, .save hr'⟩
  exact ⟨r, r', hr, hr', hdefined.2.1 hold⟩

end Sample

end RadProt.Settings
