import RadProt.Http.Files
import RadProt.Http.HostCheck

namespace RadProt.Http

open RadProt.Lib

structure FitsSettings (settings : ServerSettings) : Prop where
  hostname : settings.hostname.length ≤ 31 ∧ 0 ∉ settings.hostname
  domainName : settings.domainName.length ≤ 31 ∧ 0 ∉ settings.domainName

def locationHost (settings : ServerSettings) : List UInt8 :=
  settings.hostname ++ 46 :: settings.domainName

def LocationComplete (env : Env) : Prop :=
  ∀ hs, (httpRedirect env hs).hdrs.toList[0]? =
    some (some ⟨.hdrCustom, ascii "HTTP/1.0 302 Found\r\nLocation: http://" ++
      locationHost env.settings ++ crlf⟩)

variable {env : Env} {settings : ServerSettings}

theorem length_locationHost : (locationHost settings).length =
    settings.hostname.length + 1 + settings.domainName.length := by
  simp [locationHost]
  omega

theorem FitsSettings.locationComplete (h : FitsSettings env.settings) : LocationComplete env := by
  intro hs
  have hlength : (ascii "HTTP/1.0 302 Found\r\nLocation: http://" ++ locationHost env.settings ++
      crlf).length ≤ 127 := by
    have hhostname := h.hostname.1
    have hdomainName := h.domainName.1
    have hstart : (ascii "HTTP/1.0 302 Found\r\nLocation: http://").length = 37 := by decide
    have hcrlf : crlf.length = 2 := rfl
    rw [List.length_append, List.length_append, length_locationHost, hstart, hcrlf]
    omega
  have htext : ascii "HTTP/1.0 302 Found\r\nLocation: http://" ++ cString env.settings.hostname ++
      ascii "." ++ cString env.settings.domainName ++ crlf =
        ascii "HTTP/1.0 302 Found\r\nLocation: http://" ++ locationHost env.settings ++ crlf := by
    rw [cString_eq_self h.hostname.2, cString_eq_self h.domainName.2]
    simp only [locationHost, List.append_assoc, List.cons_append]
    rfl
  simp only [httpRedirect, htext, List.take_of_length_le hlength]
  simp [Vector.toList_setIfInBounds]

theorem FitsSettings.namesDevice_take_iff (h : FitsSettings settings) :
    NamesDevice settings ((locationHost settings).take 31) ↔
      (locationHost settings).length ≤ 31 ∨ settings.hostname.length = 31 := by
  have hzero : 0 ∉ locationHost settings := by
    simp [locationHost, h.hostname.2, h.domainName.2]
  have htake : cString ((locationHost settings).take 31) = (locationHost settings).take 31 :=
    cString_eq_self fun hmem => hzero (List.mem_of_mem_take hmem)
  have hlength := @length_locationHost settings
  unfold NamesDevice
  rw [htake, cString_eq_self h.hostname.2, cString_eq_self h.domainName.2]
  constructor
  · rintro (heq | heq)
    · have hcut := congrArg List.length heq
      rw [length_fold, length_fold, List.length_take] at hcut
      omega
    · have hcut := congrArg List.length heq
      rw [← locationHost, length_fold, length_fold, List.length_take] at hcut
      omega
  · rintro (hle | hfull)
    · exact .inr (by rw [List.take_of_length_le hle, locationHost])
    · exact .inl (by rw [locationHost, ← hfull, List.take_left])

/-- The redirect leads its client to the device exactly if the host has room in the copy that the
check reads, or if the cut leaves the host name; where the search is misled, exactly if what it
finds is taken. -/
theorem Received.reaches_device_iff (r : Received) (hfits : FitsSettings env.settings)
    (hinitial : env.settings.initialConfig = true) (hhost : r.host.value = locationHost env.settings)
    (hreadable : ∀ behind, r.Readable behind) :
    (LocationComplete env ∧ ∀ left, (parseRequest env.settings left r.queue).Served) ↔
      (r.Plain → (locationHost env.settings).length ≤ 31 ∨ env.settings.hostname.length = 31 ∨
        ReadsAddress env.settings ((locationHost env.settings).take 31)) ∧
      (¬ r.Plain → ∃ host ∈ hostField (requestData r.queue),
        ReadsAddress env.settings host.1 ∨ NamesDevice env.settings host.1) := by
  have hserved : (∀ left, (parseRequest env.settings left r.queue).Served) ↔
      ∃ host ∈ hostField (requestData r.queue),
        ReadsAddress env.settings host.1 ∨ NamesDevice env.settings host.1 := by
    have hiff := @Received.forall_served_iff env.settings r hinitial True
    simp only [iff_true, true_imp_iff, not_true_eq_false, false_imp_iff, and_true] at hiff
    rw [hiff, and_iff_right hreadable]
  rw [and_iff_right hfits.locationComplete, hserved]
  by_cases hplain : r.Plain
  · obtain ⟨lineEnd, hfound⟩ := hplain.hostField (hreadable []).inside
    rw [hfound, hhost]
    simp only [Option.mem_def, Option.some.injEq, exists_eq_left', hplain, true_imp_iff,
      not_true_eq_false, false_imp_iff, and_true]
    rw [hfits.namesDevice_take_iff, or_comm, or_assoc]
  · simp only [hplain, false_imp_iff, not_false_eq_true, true_imp_iff, true_and]

section Sample

def portalEnv (settings : ServerSettings) : Env where
  settings := settings
  fsOpen _ := none
  nullBytesLeft := 182
  lwipVersionString := []

def longNames : ServerSettings where
  hostname := ascii "radiation-monitor"
  domainName := ascii "laboratory.example"
  ipAddress := 0x017BA8C0
  initialConfig := true
  ip4addrAton s := if s = dottedAddress 0x017BA8C0 then some 0x017BA8C0 else none

def longFetch : Received :=
  hostFetch "radiation-monitor.laboratory.example" (by decide +kernel) (by decide +kernel)

def shippedFetch : Received :=
  hostFetch "config.radprot.net" (by decide +kernel) (by decide +kernel)

theorem shippedFetch_reaches_device :
    LocationComplete (portalEnv shippedSettings) ∧
      ∀ left, (parseRequest shippedSettings left shippedFetch.queue).Served := by
  have hplain : shippedFetch.Plain := ⟨rfl, rfl, rfl, by decide +kernel⟩
  have hreadable : ∀ behind, shippedFetch.Readable behind := fun _ => ⟨List.prefix_refl _, .inl rfl⟩
  exact (@Received.reaches_device_iff (portalEnv shippedSettings) shippedFetch
    ⟨by decide, by decide⟩ rfl (by decide) hreadable).mpr
    ⟨fun _ => .inl (by decide), fun hmisled => absurd hplain hmisled⟩

/-- The host that the redirect sends its client to is redirected again. -/
theorem longFetch_redirected :
    FitsSettings longNames ∧ longFetch.host.value = locationHost longNames ∧
      parseRequest longNames ⟨0, []⟩ longFetch.queue = .redirect := by
  refine ⟨⟨?_, ?_⟩, ?_, ?_⟩
  all_goals decide +kernel

end Sample

end RadProt.Http
