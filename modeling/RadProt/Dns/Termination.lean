import RadProt.Dns.Server
import RadProt.Lib.Walk

namespace RadProt.Dns

open RadProt.Lib

variable {settings : DnsServerSettings} {buffer : Nat → UInt8} {size : Nat}

def nextPosition (buffer : Nat → UInt8) (size i : Nat) : Option Nat :=
  if i < size then
    if buffer i &&& 0xC0 ≠ 0 then some (pointerTarget buffer i)
    else if size ≤ i + (buffer i &&& 0x3F).toNat then none
    else if (buffer i &&& 0x3F).toNat = 0 then none
    else some (i + 1 + (buffer i &&& 0x3F).toNat)
  else none

theorem pointerTarget_lt (buffer : Nat → UInt8) (i : Nat) : pointerTarget buffer i < 65536 := by
  unfold pointerTarget
  apply Nat.or_lt_two_pow (n := 16)
  · rw [Nat.shiftLeft_eq]
    have := (buffer i &&& 0x3F).toNat_lt
    omega
  · have := (buffer (i + 1)).toNat_lt
    omega

theorem nextPosition_le {i j : Nat} (h : nextPosition buffer size i = some j) :
    j ≤ size + 65536 := by
  unfold nextPosition at h
  split at h
  · split at h
    · have := pointerTarget_lt buffer i
      obtain rfl := Option.some.inj h
      omega
    · split at h
      · exact nomatch h
      · split at h
        · exact nomatch h
        · obtain rfl := Option.some.inj h
          omega
  · exact nomatch h

inductive Position (buffer : Nat → UInt8) (size i : Nat) : Prop
  | last (h : nextPosition buffer size i = none)
      (loop : ∀ fuel, getEncodedDomainNameComponent buffer size (fuel + 1) i = some none)
  | pointer (j : Nat) (h : nextPosition buffer size i = some j)
      (loop : ∀ fuel, getEncodedDomainNameComponent buffer size (fuel + 1) i =
        getEncodedDomainNameComponent buffer size fuel j)
  | label (c : Component) (h : nextPosition buffer size i = some (c.ptr + c.len))
      (loop : ∀ fuel, getEncodedDomainNameComponent buffer size (fuel + 1) i = some (some c))

theorem position (buffer : Nat → UInt8) (size i : Nat) : Position buffer size i := by
  by_cases hi : i < size
  · by_cases hptr : buffer i &&& 0xC0 ≠ 0
    · refine .pointer (pointerTarget buffer i) ?_ fun fuel => ?_
      · rw [nextPosition, if_pos hi, if_pos hptr]
      · rw [getEncodedDomainNameComponent, if_pos hi, if_pos hptr]
    · by_cases hover : size ≤ i + (buffer i &&& 0x3F).toNat
      · refine .last ?_ fun fuel => ?_
        · rw [nextPosition, if_pos hi, if_neg hptr, if_pos hover]
        · rw [getEncodedDomainNameComponent, if_pos hi, if_neg hptr]
          exact if_pos hover
      · by_cases hroot : (buffer i &&& 0x3F).toNat = 0
        · refine .last ?_ fun fuel => ?_
          · rw [nextPosition, if_pos hi, if_neg hptr, if_neg hover, if_pos hroot]
          · rw [getEncodedDomainNameComponent, if_pos hi, if_neg hptr]
            exact (if_neg hover).trans (if_pos hroot)
        · refine .label { ptr := i + 1, len := (buffer i &&& 0x3F).toNat } ?_ fun fuel => ?_
          · rw [nextPosition, if_pos hi, if_neg hptr, if_neg hover, if_neg hroot]
          · rw [getEncodedDomainNameComponent, if_pos hi, if_neg hptr]
            exact (if_neg hover).trans (if_neg hroot)
  · refine .last ?_ fun fuel => ?_
    · rw [nextPosition, if_neg hi]
    · rw [getEncodedDomainNameComponent, if_neg hi]

theorem getEncodedDomainNameComponent_of_walk {n fuel i : Nat}
    (hwalk : walk (nextPosition buffer size) n i = none) (hn : n ≤ fuel) :
    ∃ r, getEncodedDomainNameComponent buffer size fuel i = some r ∧
      ∀ c, r = some c → ∃ k < n, walk (nextPosition buffer size) k (c.ptr + c.len) = none := by
  induction n generalizing i fuel with
  | zero => simp [walk] at hwalk
  | succ n ih =>
    obtain ⟨fuel, rfl⟩ : ∃ f, fuel = f + 1 := ⟨fuel - 1, by omega⟩
    rw [walk] at hwalk
    cases position buffer size i with
    | last h loop => exact ⟨none, loop fuel, by simp⟩
    | pointer j h loop =>
      rw [h, Option.bind_some] at hwalk
      obtain ⟨r, hr, hnext⟩ := ih hwalk (Nat.le_of_succ_le_succ hn)
      refine ⟨r, (loop fuel).trans hr, fun c hc => ?_⟩
      obtain ⟨k, hk, hend⟩ := hnext c hc
      exact ⟨k, Nat.lt_succ_of_lt hk, hend⟩
    | label c h loop =>
      rw [h, Option.bind_some] at hwalk
      refine ⟨some c, loop fuel, fun d hd => ?_⟩
      obtain rfl := Option.some.inj hd
      exact ⟨n, Nat.lt_succ_self n, hwalk⟩

theorem ends_of_getEncodedDomainNameComponent {fuel i : Nat} {r : Option Component}
    (h : getEncodedDomainNameComponent buffer size fuel i = some r)
    (hrest : ∀ c, r = some c → Ends (nextPosition buffer size) (c.ptr + c.len)) :
    Ends (nextPosition buffer size) i := by
  induction fuel generalizing i with
  | zero => exact nomatch h
  | succ fuel ih =>
    cases position buffer size i with
    | last hnext loop => exact ends_of_step_eq_none hnext
    | pointer j hnext loop => exact .of_step hnext (ih ((loop fuel).symm.trans h))
    | label c hnext loop =>
      exact .of_step hnext (hrest c (Option.some.inj (h.symm.trans (loop fuel))))

theorem matchLoop_of_walk {n fuel i : Nat} (hwalk : walk (nextPosition buffer size) n i = none)
    (hn : n ≤ fuel) (s : Matching) : ∃ ip, matchLoop settings buffer size fuel i s = some ip := by
  induction fuel generalizing n i s with
  | zero =>
    obtain rfl := Nat.le_zero.mp hn
    exact nomatch hwalk
  | succ fuel ih =>
    obtain ⟨r, hr, hnext⟩ := getEncodedDomainNameComponent_of_walk hwalk hn
    rw [matchLoop, hr]
    cases r with
    | none => exact ⟨_, rfl⟩
    | some c =>
      obtain ⟨k, hk, hend⟩ := hnext c rfl
      exact ih hend (by omega) _

theorem ends_of_matchLoop {fuel i : Nat} {s : Matching} {ip : UInt32}
    (h : matchLoop settings buffer size fuel i s = some ip) : Ends (nextPosition buffer size) i := by
  induction fuel generalizing i s with
  | zero => exact nomatch h
  | succ fuel ih =>
    rw [matchLoop] at h
    split at h
    next => exact nomatch h
    next c hc =>
      apply ends_of_getEncodedDomainNameComponent hc
      intro d hd
      obtain rfl := Option.some.inj hd
      exact ih h
    next hnull => exact ends_of_getEncodedDomainNameComponent hnull fun c hc => nomatch hc

theorem getAddress_terminates_iff (settings : DnsServerSettings) (buffer : Nat → UInt8)
    (offset size : Nat) :
    (∃ fuel ip, getAddressForEncodedDomain settings buffer offset size fuel = some ip) ↔
      Ends (nextPosition buffer size) offset := by
  constructor
  · rintro ⟨fuel, ip, h⟩
    exact ends_of_matchLoop h
  · rintro ⟨n, hn⟩
    exact ⟨n, matchLoop_of_walk hn (Nat.le_refl n) _⟩

theorem ends_iff_positions_fresh {offset : Nat} (hoffset : offset ≤ size + 65536) :
    Ends (nextPosition buffer size) offset ↔ ¬ Revisits (nextPosition buffer size) offset :=
  ends_iff_not_revisits (Set.finite_le_nat (size + 65536)) (fun _ _ => nextPosition_le) hoffset

def Answers (settings : DnsServerSettings) (packet : Nat → UInt8) (datagram : List UInt8) : Prop :=
  ∃ fuel turn, serverTurn settings packet datagram fuel = some turn

def namePositions (packet : Nat → UInt8) (datagram : List UInt8) : Nat → Option Nat :=
  nextPosition (edited (received packet datagram) datagram.length) datagram.length

theorem answers_iff_ends (settings : DnsServerSettings) {packet : Nat → UInt8}
    {datagram : List UInt8} (hok : headerOk (received packet datagram) datagram.length = true) :
    Answers settings packet datagram ↔ Ends (namePositions packet datagram) sizeofHeader := by
  rw [namePositions, ← getAddress_terminates_iff settings, Answers]
  simp only [serverTurn, if_pos hok]
  constructor
  · rintro ⟨fuel, turn, h⟩
    split at h
    next => exact nomatch h
    next ip hip => exact ⟨fuel, ip, hip⟩
  · rintro ⟨fuel, ip, hip⟩
    refine ⟨fuel, ?_⟩
    rw [hip]
    exact ⟨_, rfl⟩

theorem answers_of_not_headerOk (settings : DnsServerSettings) {packet : Nat → UInt8}
    {datagram : List UInt8} (hok : ¬ headerOk (received packet datagram) datagram.length = true) :
    Answers settings packet datagram := by
  refine ⟨0, { packet := received packet datagram, reply := none }, ?_⟩
  rw [serverTurn]
  exact if_neg hok

/-- The server's turn ends exactly when the name of an accepted datagram does not lead back to a
position it was read at before. -/
theorem answers_iff_not_revisits (settings : DnsServerSettings) (packet : Nat → UInt8)
    (datagram : List UInt8) :
    Answers settings packet datagram ↔
      (headerOk (received packet datagram) datagram.length = true →
        ¬ Revisits (namePositions packet datagram) sizeofHeader) := by
  by_cases hok : headerOk (received packet datagram) datagram.length = true
  · have hheader : sizeofHeader ≤ datagram.length + 65536 := by rw [sizeofHeader]; omega
    rw [forall_prop_of_true hok, answers_iff_ends settings hok]
    exact ends_iff_positions_fresh hheader
  · exact iff_of_true (answers_of_not_headerOk settings hok) fun h => absurd h hok

def selfPointer : List UInt8 := [0, 1, 1, 0, 0, 1, 0, 0, 0, 0, 0, 0, 0xC0, 12]

theorem selfPointer_unanswered :
    headerOk (received (fun _ => 0) selfPointer) selfPointer.length = true ∧
      ∀ settings, ¬ Answers settings (fun _ => 0) selfPointer := by
  have hok : headerOk (received (fun _ => 0) selfPointer) selfPointer.length = true := by decide
  have hself : Revisits (namePositions (fun _ => 0) selfPointer) sizeofHeader :=
    ⟨0, 1, by decide, 12, by decide, by decide⟩
  refine ⟨hok, fun settings h => ?_⟩
  exact hself.not_ends ((answers_iff_ends settings hok).mp h)

end RadProt.Dns
