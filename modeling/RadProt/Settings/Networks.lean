import Mathlib.Data.Finset.Image
import Mathlib.Data.List.Lex
import Mathlib.Data.List.ReduceOption
import RadProt.Lib.Register
import RadProt.Settings.Json

namespace RadProt.Settings

open RadProt.Lib

structure ScanResult where
  bssid : Vector UInt8 6
  ssid : Vector UInt8 32
  behindSsid : List UInt8
  channel : UInt16
  authMode : UInt8
  rssi : Int16
  deriving DecidableEq

namespace ScanResult

/-- What `operator<` compares: `memcmp` orders byte by byte. -/
def key (r : ScanResult) : List Nat := r.bssid.toList.map UInt8.toNat

def lowerHexDigit (n : UInt8) : UInt8 := if n < 10 then 48 + n else 87 + n

def bssidText (r : ScanResult) : List UInt8 :=
  [58].intercalate (r.bssid.toList.map fun b => [lowerHexDigit (b / 16), lowerHexDigit (b % 16)])

def toJson (r : ScanResult) : Json := .obj [
  ("ssid", .str (cString (r.ssid.toList ++ r.behindSsid))),
  ("rssi", .int r.rssi.toInt),
  ("chann", .int r.channel.toNat),
  ("auth_mode", .int r.authMode.toNat),
  ("bssid", .str r.bssidText)]

end ScanResult

def maxWifiNetworks : Nat := 20

abbrev WifiNetworks := OrderedSet ScanResult.key maxWifiNetworks

def wifiScanCb (set : WifiNetworks) (wifiNetworks : List ScanResult) :
    Option ScanResult → List ScanResult
  | none => wifiNetworks
  | some result => register set wifiNetworks result

def wifiNetsFn (wifiNetworks : List ScanResult) : Json := .arr (wifiNetworks.map ScanResult.toJson)

section Keys

theorem toNat_map_injective :
    Function.Injective fun b : Vector UInt8 6 => b.toList.map UInt8.toNat :=
  fun _ _ h => Vector.toList_inj.mp (List.map_injective_iff.mpr (fun _ _ => UInt8.toNat_inj.mp) h)

theorem key_inj {r q : ScanResult} : r.key = q.key ↔ r.bssid = q.bssid :=
  toNat_map_injective.eq_iff

theorem mem_map_key {r : ScanResult} {heard : List ScanResult} :
    r.key ∈ heard.map ScanResult.key ↔ r.bssid ∈ heard.map ScanResult.bssid := by
  simp only [List.mem_map, key_inj]

theorem card_map_key [DecidableEq (List Nat)] (heard : List ScanResult) :
    (heard.map ScanResult.key).toFinset.card = (heard.map ScanResult.bssid).toFinset.card := by
  have hkeys : (heard.map ScanResult.key).toFinset =
      (heard.map ScanResult.bssid).toFinset.image fun b => b.toList.map UInt8.toNat := by
    ext k
    simp only [List.mem_toFinset, Finset.mem_image, List.mem_map, exists_exists_and_eq_and]
    rfl
  rw [hkeys, Finset.card_image_of_injective _ toNat_map_injective]

end Keys

section Scans

theorem foldl_wifiScanCb (set : WifiNetworks) (wifiNetworks : List ScanResult)
    (results : List (Option ScanResult)) :
    results.foldl (wifiScanCb set) wifiNetworks =
      results.reduceOption.foldl (register set) wifiNetworks := by
  induction results generalizing wifiNetworks with
  | nil => rfl
  | cons result results ih =>
    cases result with
    | none =>
      rw [List.reduceOption_cons_of_none]
      exact ih wifiNetworks
    | some result =>
      rw [List.reduceOption_cons_of_some]
      exact ih _

/-- However many scans there are, the list that the settings page gets has the networks in the order
of their addresses, each as it was first heard, for the first twenty addresses. -/
theorem networks_listed (set : WifiNetworks) (results : List (Option ScanResult)) :
    ∃ shown : List ScanResult,
    wifiNetsFn (results.foldl (wifiScanCb set) []) = .arr (shown.map ScanResult.toJson) ∧
      shown.Pairwise (fun a b => a.key < b.key) ∧
      shown.length = min 20 (results.reduceOption.map ScanResult.bssid).toFinset.card ∧
      ∀ r, r ∈ shown ↔ ∃ before after, results.reduceOption = before ++ r :: after ∧
        r.bssid ∉ before.map ScanResult.bssid ∧
          (before.map ScanResult.bssid).toFinset.card < 20 := by
  have hempty : Registers ScanResult.key maxWifiNetworks [] [] := Registers.nil
  have hrun := hempty.run set results.reduceOption
  rw [List.nil_append, ← foldl_wifiScanCb] at hrun
  refine ⟨results.foldl (wifiScanCb set) [], rfl, hrun.ascending, ?_, fun r => ?_⟩
  · simp only [hrun.length_eq, card_map_key]
    rfl
  · rw [hrun.mem_iff, InTime]
    simp only [mem_map_key, card_map_key]
    rfl

end Scans

section Sample

def network (bssid ssid : UInt8) : ScanResult where
  bssid := .replicate 6 bssid
  ssid := (Vector.replicate 32 0).set 0 ssid
  behindSsid := []
  channel := 6
  authMode := 5
  rssi := -60

def twoScans : List (Option ScanResult) :=
  [some (network 9 97), some (network 3 98), none, some (network 9 99), none]

theorem two_networks_listed :
    (∃ shown : List ScanResult,
      wifiNetsFn (twoScans.foldl (wifiScanCb (.ofList _ _)) []) =
        .arr (shown.map ScanResult.toJson) ∧
      shown.Pairwise (fun a b => a.key < b.key) ∧ shown.length = 2 ∧ network 9 97 ∈ shown) ∧
    twoScans.foldl (wifiScanCb (.ofList _ _)) [] = [network 3 98, network 9 97] := by
  obtain ⟨shown, hlist, hascending, hlength, hmem⟩ := networks_listed (.ofList _ _) twoScans
  refine ⟨⟨shown, hlist, hascending, hlength.trans (by decide +kernel), ?_⟩, by decide +kernel⟩
  exact (hmem _).mpr ⟨[], [network 3 98, network 9 99], rfl, by decide, by decide⟩

end Sample

end RadProt.Settings
