import RadProt.Http.Request
import RadProt.Lib.Dotted

namespace RadProt.Http

open RadProt.Lib

def ReadsAddress (settings : ServerSettings) (host : List UInt8) : Prop :=
  settings.ip4addrAton (cString host) = some settings.ipAddress

def ReadsOther (settings : ServerSettings) (host : List UInt8) : Prop :=
  ∃ addr ∈ settings.ip4addrAton (cString host), addr ≠ settings.ipAddress

/-- The text is no address, and what the local `addr` holds is that of the access point. -/
def LeftoverAddress (settings : ServerSettings) (addr : UInt32) (host : List UInt8) : Prop :=
  settings.ip4addrAton (cString host) = none ∧ addr = settings.ipAddress

def NamesDevice (settings : ServerSettings) (host : List UInt8) : Prop :=
  fold (cString host) = fold (cString settings.hostname) ∨
    fold (cString host) = fold (cString settings.hostname ++ 46 :: cString settings.domainName)

instance (settings : ServerSettings) (host : List UInt8) : Decidable (ReadsAddress settings host) :=
  inferInstanceAs (Decidable (_ = _))

instance (settings : ServerSettings) (host : List UInt8) : Decidable (ReadsOther settings host) :=
  inferInstanceAs (Decidable (∃ addr ∈ _, _))

instance (settings : ServerSettings) (addr : UInt32) (host : List UInt8) :
    Decidable (LeftoverAddress settings addr host) := inferInstanceAs (Decidable (_ ∧ _))

instance (settings : ServerSettings) (host : List UInt8) : Decidable (NamesDevice settings host) :=
  inferInstanceAs (Decidable (_ ∨ _))

def Answers (settings : ServerSettings) (host : List UInt8) : Prop :=
  settings.initialConfig = true → ReadsAddress settings host ∨ NamesDevice settings host

def Refuses (settings : ServerSettings) (host : List UInt8) : Prop :=
  settings.initialConfig = true ∧ ReadsOther settings host ∧ ¬ NamesDevice settings host

instance (settings : ServerSettings) (host : List UInt8) : Decidable (Answers settings host) :=
  inferInstanceAs (Decidable (_ = _ → _))

instance (settings : ServerSettings) (host : List UInt8) : Decidable (Refuses settings host) :=
  inferInstanceAs (Decidable (_ ∧ _))

variable {settings : ServerSettings} {addr : UInt32} {host : List UInt8}

theorem addr_eq_iff :
    settings.ipAddress = (settings.ip4addrAton (cString host)).getD addr ↔
      ReadsAddress settings host ∨ LeftoverAddress settings addr host := by
  unfold ReadsAddress LeftoverAddress
  cases settings.ip4addrAton (cString host) with
  | none => simp [eq_comm]
  | some addr => simp [eq_comm]

theorem namesDevice_iff :
    (if (!strncaseEq host settings.hostname (cString settings.hostname).length) = true then false
      else
        match (cString host).drop (cString settings.hostname).length with
        | [] => true
        | 46 :: rest => strcaseEq rest settings.domainName
        | _ => false) = true ↔ NamesDevice settings host := by
  unfold NamesDevice
  have hzero := zero_notMem_cString host
  have hprefix : strncaseEq host settings.hostname (cString settings.hostname).length = true ↔
      fold ((cString host).take (cString settings.hostname).length) = fold (cString settings.hostname) := by
    rw [strncaseEq_iff, fold_take, List.take_of_length_le (l := fold (cString settings.hostname))]
    exact Nat.le_of_eq (length_fold _)
  generalize cString settings.hostname = name at *
  generalize cString host = text at *
  split
  next hne =>
    have hne : ¬ fold (text.take name.length) = fold name := by
      rw [← hprefix]
      simpa using hne
    refine iff_of_false Bool.false_ne_true fun hnames => hne ?_
    obtain hname | hname := hnames
    · exact fold_take_of_eq (hname.trans (List.append_nil _).symm)
    · exact fold_take_of_eq (hname.trans (fold_append ..))
  next heq =>
    have heq : fold (text.take name.length) = fold name := by
      rw [← hprefix]
      simpa using heq
    have htext : fold text = fold name ++ fold (text.drop name.length) := by
      rw [← heq, ← fold_append, List.take_append_drop]
    have hzero' : 0 ∉ text.drop name.length := fun hmem => hzero (List.mem_of_mem_drop hmem)
    rw [htext]
    split
    next hnil => exact iff_of_true rfl (.inl (by rw [hnil, fold_nil, List.append_nil]))
    next rest hrest =>
      rw [hrest] at hzero' ⊢
      have hrest' : 0 ∉ rest := fun hmem => hzero' (List.mem_cons_of_mem _ hmem)
      simp [strcaseEq_iff, cString_eq_self hrest', toLower]
    next hnil hdot =>
      refine iff_of_false Bool.false_ne_true fun hnames => ?_
      cases hdrop : text.drop name.length with
      | nil => exact hnil hdrop
      | cons b rest =>
        rw [hdrop] at hnames
        obtain hnames | hnames := hnames
        · simp at hnames
        · have hb : toLower b = toLower 46 := by
            simp at hnames
            exact hnames.1
          obtain rfl := toLower_eq_dot_iff.mp hb
          exact hdot rest hdrop

theorem hostNameMatches_iff (hinitial : settings.initialConfig = true) :
    hostNameMatches settings addr host = true ↔
      ReadsAddress settings host ∨ LeftoverAddress settings addr host ∨
        NamesDevice settings host := by
  rw [hostNameMatches, if_pos hinitial, ← or_assoc, ← addr_eq_iff, ← namesDevice_iff]
  dsimp only
  split
  next haddr => exact iff_of_true rfl (.inl haddr)
  next haddr => exact (or_iff_right haddr).symm

theorem add_one_ne (addr : UInt32) : addr + 1 ≠ addr := by simp

theorem forall_hostNameMatches_iff :
    (∀ addr, hostNameMatches settings addr host = true) ↔ Answers settings host := by
  by_cases hinitial : settings.initialConfig = true
  · simp only [hostNameMatches_iff hinitial, Answers, hinitial, true_imp_iff]
    constructor
    · intro h
      -- the local may hold another address
      obtain hreads | hleft | hnames := h (settings.ipAddress + 1)
      · exact .inl hreads
      · exact absurd hleft.2 (add_one_ne _)
      · exact .inr hnames
    · exact fun h addr => h.imp_right .inr
  · refine iff_of_true (fun addr => ?_) fun h => absurd h hinitial
    rw [hostNameMatches, if_neg hinitial]

theorem forall_not_hostNameMatches_iff :
    (∀ addr, ¬ hostNameMatches settings addr host = true) ↔ Refuses settings host := by
  by_cases hinitial : settings.initialConfig = true
  · simp only [hostNameMatches_iff hinitial, Refuses, hinitial, true_and, not_or]
    constructor
    · intro h
      -- the local may hold the address of the access point
      obtain ⟨hreads, hleft, hnames⟩ := h settings.ipAddress
      refine ⟨?_, hnames⟩
      cases haton : settings.ip4addrAton (cString host) with
      | none => exact absurd ⟨haton, rfl⟩ hleft
      | some addr =>
        refine ⟨addr, haton, ?_⟩
        rintro rfl
        exact hreads haton
    · rintro ⟨⟨other, haton, hne⟩, hnames⟩ addr
      refine ⟨fun hreads => hne ?_, fun hleft => ?_, hnames⟩
      · exact Option.some.inj (haton.symm.trans hreads)
      · cases haton.symm.trans hleft.1
  · refine iff_of_false (fun h => h 0 ?_) fun h => hinitial h.1
    rw [hostNameMatches, if_neg hinitial]

end RadProt.Http
