import RadProt.Lib.Queue
import RadProt.Lib.Table
import RadProt.Mqtt.Topics

namespace RadProt.Mqtt

open RadProt.Lib

universe u

structure MessageHandler (H : Type u) where
  topicFilter : Option (List UInt8)
  fp : Option H

structure MqttMessage where
  qos : Nat
  retained : Nat
  dup : Nat
  id : Option Nat
  payload : List UInt8
  deriving DecidableEq

structure MessageData where
  topicName : List UInt8
  message : MqttMessage
  deriving DecidableEq

def maxMessageHandlers : Nat := 5

variable {H : Type u}

def mqttCleanSession (slots : List (MessageHandler H)) : List (MessageHandler H) :=
  slots.map fun slot => { slot with topicFilter := none }

def mqttSetMessageHandler (slots : List (MessageHandler H)) (topicFilter : List UInt8)
    (messageHandler : Option H) : Int × List (MessageHandler H) :=
  match slots.findIdx? fun slot => slot.topicFilter = some topicFilter, messageHandler with
  | some i, none => (0, slots.set i ⟨none, none⟩)
  | none, none => (-1, slots)
  | some i, some fp => (0, slots.set i ⟨some topicFilter, some fp⟩)
  | none, some fp =>
    match slots.findIdx? fun slot => slot.topicFilter = none with
    | some i => (0, slots.set i ⟨some topicFilter, some fp⟩)
    | none => (-1, slots)

def reached (topicFilter topicName : List UInt8) : Bool :=
  topicName = topicFilter || isTopicMatched topicFilter topicName

def calledHandlers (slots : List (MessageHandler H)) (topicName : List UInt8) : List H :=
  slots.filterMap fun slot =>
    slot.topicFilter.bind fun f => if reached f topicName then slot.fp else none

def deliverMessage (slots : List (MessageHandler H)) (defaultMessageHandler : Option H)
    (topicName : List UInt8) (message : MqttMessage) : Int × List (H × MessageData) :=
  let called := calledHandlers slots topicName
  let called := if called = [] then defaultMessageHandler.toList else called
  (if called = [] then -1 else 0, called.map fun fp => (fp, ⟨topicName, message⟩))

inductive HandlerCall (H : Type u)
  | setMessageHandler (topicFilter : List UInt8) (messageHandler : Option H)
  | cleanSession

def HandlerCall.step (slots : List (MessageHandler H)) :
    HandlerCall H → Option Int × List (MessageHandler H)
  | .setMessageHandler f fp =>
    ((mqttSetMessageHandler slots f fp).1, (mqttSetMessageHandler slots f fp).2)
  | .cleanSession => (none, mqttCleanSession slots)

/-- What the slots are for: a handler for each filter, for so many filters at most. -/
abbrev Subscriptions (H : Type u) := Finmap fun _ : List UInt8 => H

namespace Subscriptions

variable (m : Subscriptions H)

def set (topicFilter : List UInt8) : Option H → Int × Subscriptions H
  | none => (if (m.lookup topicFilter).isSome then 0 else -1, m.erase topicFilter)
  | some fp =>
    if (m.lookup topicFilter).isSome ∨ m.keys.card < maxMessageHandlers then
      (0, m.insert topicFilter fp)
    else (-1, m)

def step : HandlerCall H → Option Int × Subscriptions H
  | .setMessageHandler f fp => ((m.set f fp).1, (m.set f fp).2)
  | .cleanSession => (none, ∅)

def recipients (defaultMessageHandler : Option H) (topicName : List UInt8) : Multiset H :=
  let called := (m.entries.filter fun e => reached e.1 topicName).map Sigma.snd
  if called.card = 0 then defaultMessageHandler.toList else called

end Subscriptions

def MessageHandler.entry (slot : MessageHandler H) : Option (Σ _ : List UInt8, H) :=
  slot.topicFilter.bind fun f => slot.fp.map fun fp => ⟨f, fp⟩

/-- The slots stand for `m`: a filter always has a handler. -/
structure Represents (slots : List (MessageHandler H)) (m : Subscriptions H) : Prop where
  length_eq : slots.length = maxMessageHandlers
  complete : ∀ slot ∈ slots, slot.topicFilter.isSome → slot.fp.isSome
  tabulates : Tabulates (slots.map MessageHandler.entry) m

namespace Represents

variable {slots : List (MessageHandler H)} {m : Subscriptions H} {f : List UInt8} {fp : H} {i : Nat}

theorem cleanSession (hlength : slots.length = maxMessageHandlers) :
    Represents (mqttCleanSession slots) (∅ : Subscriptions H) where
  length_eq := by rw [mqttCleanSession, List.length_map, hlength]
  complete := by simp [mqttCleanSession]
  tabulates := by
    have hcells : (mqttCleanSession slots).map MessageHandler.entry =
        List.replicate maxMessageHandlers none := by
      rw [mqttCleanSession, List.map_map, ← hlength, ← List.map_const']
      rfl
    rw [hcells]
    exact .replicate _

theorem mem_iff (h : Represents slots m) :
    f ∈ m ↔ ∃ slot ∈ slots, slot.topicFilter = some f := by
  rw [h.tabulates.mem_iff]
  simp only [List.mem_map]
  constructor
  · rintro ⟨fp, slot, hslot, hentry⟩
    obtain ⟨f', hf', hfp⟩ := Option.bind_eq_some_iff.mp hentry
    obtain ⟨fp', -, heq⟩ := Option.map_eq_some_iff.mp hfp
    cases heq
    exact ⟨slot, hslot, hf'⟩
  · rintro ⟨slot, hslot, hf⟩
    obtain ⟨fp, hfp⟩ := Option.isSome_iff_exists.mp (h.complete slot hslot (by rw [hf]; rfl))
    exact ⟨fp, slot, hslot, by rw [MessageHandler.entry, hf, hfp]; rfl⟩

theorem free_iff (h : Represents slots m) :
    (∃ slot ∈ slots, slot.topicFilter = none) ↔ m.keys.card < maxMessageHandlers := by
  rw [← h.length_eq, ← List.length_map MessageHandler.entry, ← h.tabulates.none_mem_iff,
    List.mem_map]
  refine exists_congr fun slot => and_congr_right fun hslot => ⟨fun hf => ?_, fun hentry => ?_⟩
  · rw [MessageHandler.entry, hf, Option.bind_none]
  · by_contra hf
    obtain ⟨f, hf⟩ := Option.ne_none_iff_exists'.mp hf
    obtain ⟨fp, hfp⟩ := Option.isSome_iff_exists.mp (h.complete slot hslot (by rw [hf]; rfl))
    simp [MessageHandler.entry, hf, hfp] at hentry

theorem write (h : Represents slots m) {slot : MessageHandler H} {m' : Subscriptions H}
    (hslot : slot.topicFilter.isSome → slot.fp.isSome)
    (ht : Tabulates ((slots.map MessageHandler.entry).set i slot.entry) m') :
    Represents (slots.set i slot) m' where
  length_eq := by rw [List.length_set, h.length_eq]
  complete := by
    intro slot' hmem
    obtain hmem | rfl := List.mem_or_eq_of_mem_set hmem
    · exact h.complete slot' hmem
    · exact hslot
  tabulates := by rwa [List.map_set]

theorem entry_of_filter (h : Represents slots m)
    (hi : slots.findIdx? (fun slot => slot.topicFilter = some f) = some i) :
    ∃ fp, (slots.map MessageHandler.entry)[i]? = some (some ⟨f, fp⟩) := by
  obtain ⟨hlt, hf, -⟩ := List.findIdx?_eq_some_iff_getElem.mp hi
  rw [decide_eq_true_iff] at hf
  obtain ⟨fp, hfp⟩ := Option.isSome_iff_exists.mp
    (h.complete slots[i] (List.getElem_mem hlt) (by rw [hf]; rfl))
  exact ⟨fp, by simp [hlt, MessageHandler.entry, hf, hfp]⟩

theorem entry_of_free (hi : slots.findIdx? (fun slot => slot.topicFilter = none) = some i) :
    (slots.map MessageHandler.entry)[i]? = some none := by
  obtain ⟨hlt, hf, -⟩ := List.findIdx?_eq_some_iff_getElem.mp hi
  rw [decide_eq_true_iff] at hf
  simp [hlt, MessageHandler.entry, hf]

theorem set (h : Represents slots m) (f : List UInt8) (messageHandler : Option H) :
    (mqttSetMessageHandler slots f messageHandler).1 = (m.set f messageHandler).1 ∧
      Represents (mqttSetMessageHandler slots f messageHandler).2 (m.set f messageHandler).2 := by
  unfold mqttSetMessageHandler
  cases hfound : slots.findIdx? (fun slot => slot.topicFilter = some f) with
  | some i =>
    obtain ⟨fp, hentry⟩ := h.entry_of_filter hfound
    have hmem : (m.lookup f).isSome = true := by rw [h.tabulates.lookup hentry]; rfl
    cases messageHandler with
    | none =>
      rw [Subscriptions.set, if_pos hmem]
      exact ⟨rfl, h.write (fun hsome => hsome) (h.tabulates.erase hentry)⟩
    | some fp =>
      rw [Subscriptions.set, if_pos (.inl hmem)]
      exact ⟨rfl, h.write (fun _ => rfl) (h.tabulates.insert_again hentry)⟩
  | none =>
    have hmem : f ∉ m := by
      rw [h.mem_iff]
      rintro ⟨slot, hslot, hf⟩
      simpa [hf] using List.findIdx?_eq_none_iff.mp hfound slot hslot
    have hlookup : ¬ (m.lookup f).isSome = true := by rwa [Finmap.lookup_isSome]
    cases messageHandler with
    | none =>
      rw [Subscriptions.set, if_neg hlookup, erase_of_notMem hmem]
      exact ⟨rfl, h⟩
    | some fp =>
      cases hfree : slots.findIdx? (fun slot => slot.topicFilter = none) with
      | some i =>
        obtain ⟨hlt, hf, -⟩ := List.findIdx?_eq_some_iff_getElem.mp hfree
        have hroom := h.free_iff.mp ⟨slots[i], List.getElem_mem hlt, of_decide_eq_true hf⟩
        rw [Subscriptions.set, if_pos (.inr hroom)]
        exact ⟨rfl, h.write (fun _ => rfl) (h.tabulates.insert_new (entry_of_free hfree) hmem)⟩
      | none =>
        have hfull : ¬ m.keys.card < maxMessageHandlers := by
          rw [← h.free_iff]
          rintro ⟨slot, hslot, hf⟩
          simpa [hf] using List.findIdx?_eq_none_iff.mp hfree slot hslot
        rw [Subscriptions.set, if_neg (not_or.mpr ⟨hlookup, hfull⟩)]
        exact ⟨rfl, h⟩

theorem step (h : Represents slots m) (call : HandlerCall H) :
    (HandlerCall.step slots call).1 = (m.step call).1 ∧
      Represents (HandlerCall.step slots call).2 (m.step call).2 := by
  cases call with
  | setMessageHandler f fp => exact ⟨congrArg some (h.set f fp).1, (h.set f fp).2⟩
  | cleanSession => exact ⟨rfl, cleanSession h.length_eq⟩

theorem calledHandlers (h : Represents slots m) (topicName : List UInt8) :
    (↑(calledHandlers slots topicName) : Multiset H) =
      (m.entries.filter fun e => reached e.1 topicName).map Sigma.snd := by
  rw [h.tabulates, Multiset.filter_coe, Multiset.map_coe, List.reduceOption, List.filterMap_map,
    ← List.filterMap_eq_filter, ← List.filterMap_eq_map, List.filterMap_filterMap,
    List.filterMap_filterMap, Mqtt.calledHandlers]
  refine congrArg _ (List.filterMap_congr fun slot _ => ?_)
  obtain ⟨topicFilter, fp⟩ := slot
  cases topicFilter with
  | none => rfl
  | some f =>
    cases fp with
    | none => simp [MessageHandler.entry]
    | some fp => by_cases hf : reached f topicName <;> simp [MessageHandler.entry, Option.guard, hf]

theorem deliver (h : Represents slots m) (defaultMessageHandler : Option H)
    (topicName : List UInt8) (message : MqttMessage) :
    (↑(deliverMessage slots defaultMessageHandler topicName message).2 : Multiset (H × MessageData)) =
      (m.recipients defaultMessageHandler topicName).map fun fp => (fp, ⟨topicName, message⟩) := by
  rw [deliverMessage, Subscriptions.recipients, ← h.calledHandlers]
  by_cases hnil : Mqtt.calledHandlers slots topicName = []
  · simp [hnil]
  · simp [hnil]

end Represents

theorem messages_reach_subscribers {slots : List (MessageHandler H)}
    (hslots : slots.length = maxMessageHandlers) (calls : List (HandlerCall H)) :
    (responses HandlerCall.step (mqttCleanSession slots) calls).1 =
        (responses Subscriptions.step ∅ calls).1 ∧
      ∀ defaultMessageHandler topicName message,
        (↑(deliverMessage (responses HandlerCall.step (mqttCleanSession slots) calls).2
          defaultMessageHandler topicName message).2 : Multiset (H × MessageData)) =
        ((responses Subscriptions.step ∅ calls).2.recipients defaultMessageHandler topicName).map
          fun fp => (fp, ⟨topicName, message⟩) := by
  obtain ⟨hanswers, hend⟩ := responses_related Represents (fun _ _ call h => h.step call)
    (Represents.cleanSession hslots) calls
  exact ⟨hanswers, hend.deliver⟩

theorem sixth_filter_refused :
    (responses HandlerCall.step (mqttCleanSession (List.replicate 5 ⟨none, some 0⟩))
      [.setMessageHandler (ascii "a/+") (some 1), .setMessageHandler (ascii "b") (some 2),
        .setMessageHandler (ascii "c") (some 3), .setMessageHandler (ascii "d") (some 4),
        .setMessageHandler (ascii "e") (some 5), .setMessageHandler (ascii "f") (some 6),
        .setMessageHandler (ascii "a/+") (some 7)]).1 =
      [some 0, some 0, some 0, some 0, some 0, some (-1), some 0] :=
  ((messages_reach_subscribers (H := Nat) (List.length_replicate ..) _).1).trans (by decide)

end RadProt.Mqtt
