import RadProt.Dns.Reply
import RadProt.Dns.Termination

namespace RadProt.Dns

open RadProt.Lib

/-! What stands in the packet buffer behind a datagram is from earlier ones; nothing depends on
it. -/

section Agreement

variable {settings : DnsServerSettings} {buffer buffer' : Nat → UInt8} {size fuel i : Nat}

theorem component_le {c : Component}
    (h : getEncodedDomainNameComponent buffer size fuel i = some (some c)) :
    c.ptr + c.len ≤ size := by
  induction fuel generalizing i with
  | zero => cases h
  | succ fuel ih =>
    rw [getEncodedDomainNameComponent] at h
    split at h
    next hi =>
      split at h
      next => exact ih h
      next =>
        dsimp only at h
        split at h
        next => cases h
        next hover =>
          split at h
          next => cases h
          next =>
            obtain rfl := Option.some.inj (Option.some.inj h)
            dsimp only
            omega
    next => cases h

theorem getEncodedDomainNameComponent_congr (h : ∀ j ≤ size, buffer j = buffer' j) :
    getEncodedDomainNameComponent buffer size fuel i =
      getEncodedDomainNameComponent buffer' size fuel i := by
  induction fuel generalizing i with
  | zero => rfl
  | succ fuel ih =>
    rw [getEncodedDomainNameComponent, getEncodedDomainNameComponent]
    by_cases hi : i < size
    · rw [if_pos hi, if_pos hi, pointerTarget, pointerTarget, ih, h i hi.le, h (i + 1) hi]
    · rw [if_neg hi, if_neg hi]

theorem step_congr (h : ∀ j ≤ size, buffer j = buffer' j) {c : Component}
    (hc : c.ptr + c.len ≤ size) (s : Matching) :
    s.step settings buffer c = s.step settings buffer' c := by
  have hbytes : (List.range c.len).map (fun i => buffer (c.ptr + i)) =
      (List.range c.len).map fun i => buffer' (c.ptr + i) := by
    refine List.map_congr_left fun i hi => h _ ?_
    have hlt := List.mem_range.mp hi
    omega
  rw [Matching.step, Matching.step, hbytes]

theorem matchLoop_congr (h : ∀ j ≤ size, buffer j = buffer' j) (s : Matching) :
    matchLoop settings buffer size fuel i s = matchLoop settings buffer' size fuel i s := by
  induction fuel generalizing i s with
  | zero => rfl
  | succ fuel ih =>
    rw [matchLoop, matchLoop, getEncodedDomainNameComponent_congr h]
    cases hc : getEncodedDomainNameComponent buffer' size (fuel + 1) i with
    | none => rfl
    | some r =>
      cases r with
      | none => rfl
      | some c =>
        dsimp only
        rw [step_congr h (component_le hc), ih]

end Agreement

section Turns

variable {settings : DnsServerSettings} {buffer : Nat → UInt8} {size fuel i : Nat}

theorem getEncodedDomainNameComponent_succ {r : Option Component}
    (h : getEncodedDomainNameComponent buffer size fuel i = some r) :
    getEncodedDomainNameComponent buffer size (fuel + 1) i = some r := by
  induction fuel generalizing i with
  | zero => cases h
  | succ fuel ih =>
    cases position buffer size i with
    | last _ loop => rw [loop, ← h, loop]
    | pointer j _ loop =>
      rw [loop]
      exact ih ((loop fuel).symm.trans h)
    | label c _ loop => rw [loop, ← h, loop]

theorem matchLoop_succ {s : Matching} {ip : UInt32}
    (h : matchLoop settings buffer size fuel i s = some ip) :
    matchLoop settings buffer size (fuel + 1) i s = some ip := by
  induction fuel generalizing i s with
  | zero => cases h
  | succ fuel ih =>
    rw [matchLoop] at h
    cases hc : getEncodedDomainNameComponent buffer size (fuel + 1) i with
    | none =>
      rw [hc] at h
      cases h
    | some r =>
      rw [hc] at h
      rw [matchLoop, getEncodedDomainNameComponent_succ hc]
      cases r with
      | none => exact h
      | some c => exact ih h

theorem matchLoop_le {s : Matching} {ip : UInt32} {fuel' : Nat} (hle : fuel ≤ fuel')
    (h : matchLoop settings buffer size fuel i s = some ip) :
    matchLoop settings buffer size fuel' i s = some ip := by
  induction hle with
  | refl => exact h
  | step _ ih => exact matchLoop_succ ih

theorem getAddress_unique {fuel' : Nat} {ip ip' : UInt32}
    (h : getAddressForEncodedDomain settings buffer i size fuel = some ip)
    (h' : getAddressForEncodedDomain settings buffer i size fuel' = some ip') : ip = ip' := by
  have hmax := matchLoop_le (Nat.le_max_left fuel fuel') h
  have hmax' := matchLoop_le (Nat.le_max_right fuel fuel') h'
  exact Option.some.inj (hmax.symm.trans hmax')

end Turns

section Reply

variable {settings : DnsServerSettings} {packet packet' : Nat → UInt8} {datagram : List UInt8}

theorem edited_congr (packet packet' : Nat → UInt8) (hle : sizeofHeader ≤ datagram.length) :
    ∀ j ≤ datagram.length, edited (received packet datagram) datagram.length j =
      edited (received packet' datagram) datagram.length j := by
  intro j hj
  have hsame {i : Nat} (hi : i < datagram.length) :
      received packet datagram i = received packet' datagram i := by
    rw [received_of_lt hi, received_of_lt hi]
  have hflags : received packet datagram 2 = received packet' datagram 2 :=
    hsame (lt_of_lt_of_le (by decide) hle)
  rw [edited, edited, hflags]
  by_cases hlast : j = datagram.length
  · have hne : j ≠ datagram.length + 1 := by omega
    rw [if_neg hne, if_neg hne, if_pos hlast, if_pos hlast]
  · rw [hsame (by omega)]

theorem headerOk_congr (packet' : Nat → UInt8)
    (h : headerOk (received packet datagram) datagram.length = true) :
    headerOk (received packet' datagram) datagram.length = true := by
  have hle : 12 ≤ datagram.length := by
    simp only [headerOk, Bool.decide_and, Bool.and_eq_true, decide_eq_true_eq] at h
    exact h.1
  have hsame {i : Nat} (hi : i < 12) : received packet' datagram i = received packet datagram i := by
    rw [received_of_lt (by omega), received_of_lt (by omega)]
  rw [headerOk] at h ⊢
  rwa [hsame (by decide), hsame (by decide), hsame (by decide), hsame (by decide),
    hsame (by decide), hsame (by decide), hsame (by decide), hsame (by decide),
    hsame (by decide)]

/-- The reply to an accepted datagram whose name can be resolved is a matter of the settings and of
the datagram, whatever stood in the packet buffer before. -/
theorem reply_independent (hok : headerOk (received packet datagram) datagram.length = true)
    (hanswers : Answers settings packet datagram) :
    ∃ reply, ∀ packet', Answers settings packet' datagram ∧
      ∀ fuel turn, serverTurn settings packet' datagram fuel = some turn →
        turn.reply = some reply := by
  obtain ⟨-, x, y, high, low, rest, hdatagram⟩ := exists_of_headerOk hok
  have hle : sizeofHeader ≤ datagram.length := by
    rw [hdatagram]
    exact Nat.le_add_left 12 rest.length
  obtain ⟨fuel, turn, hturn⟩ := hanswers
  obtain ⟨ip, hip, -⟩ := turn_of_headerOk hok hturn
  refine ⟨replyBytes x y high low rest ip, fun packet' => ?_⟩
  have hok' := headerOk_congr packet' hok
  have hip' : getAddressForEncodedDomain settings
      (edited (received packet' datagram) datagram.length) sizeofHeader datagram.length fuel =
        some ip :=
    (matchLoop_congr (edited_congr packet' packet hle) _).trans hip
  constructor
  · exact (answers_iff_ends settings hok').mpr
      ((getAddress_terminates_iff settings _ _ _).mp ⟨fuel, ip, hip'⟩)
  · intro fuel' turn' hturn'
    obtain ⟨ip'', hip'', hsent⟩ := turn_of_headerOk hok' hturn'
    obtain rfl := getAddress_unique hip' hip''
    exact hsent.trans (congrArg some (map_answered packet' (resourceRecord ip) hdatagram))

def cutPointer : List UInt8 := [18, 52, 1, 0, 0, 1, 0, 0, 0, 0, 0, 0, 0xC0]

theorem cutPointer_independent :
    ∃ reply, ∀ packet', Answers accessPoint packet' cutPointer ∧
      ∀ fuel turn, serverTurn accessPoint packet' cutPointer fuel = some turn →
        turn.reply = some reply := by
  have hok : headerOk (received (fun _ => 0) cutPointer) cutPointer.length = true := by decide
  have hrun : (serverTurn accessPoint (fun _ => 0) cutPointer 2).isSome = true := by
    decide +kernel
  obtain ⟨turn, hturn⟩ := Option.isSome_iff_exists.mp hrun
  exact reply_independent hok ⟨2, turn, hturn⟩

end Reply

end RadProt.Dns
