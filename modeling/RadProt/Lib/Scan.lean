import RadProt.Lib.Access
import RadProt.Lib.CString

namespace RadProt.Lib.Access

/-! What the string searches do over bytes that are known, and where they leave them. -/

def Span (a n b : Nat) : Prop := a ≤ b ∧ b < a + n

/-- A search over the `n` bytes from `a` on that finds nothing there looks at the byte behind them,
and ends at it if it is a NUL. -/
structure EndsAt {α : Type} (m : Nat → UInt8) (a n : Nat) (x : Access (Option α)) : Prop where
  touched : a + n ∈ (x m).touched
  ended : m (a + n) = 0 → Reads (Span a (n + 1)) m x none

section Compose

variable {α β : Type} {P : Nat → Prop} {m : Nat → UInt8} {a b n k : Nat}

theorem touched_bind_left {x : Access α} {f : α → Access β} (h : b ∈ (x m).touched) :
    b ∈ ((x >>= f) m).touched := by
  rw [bind_apply]
  exact List.mem_append_left _ h

theorem Reads.touched_bind {x : Access α} {f : α → Access β} {v : α} (hx : Reads P m x v)
    (h : b ∈ (f v m).touched) : b ∈ ((x >>= f) m).touched := by
  rw [bind_apply, hx.value, hx.memory]
  exact List.mem_append_right _ h

theorem Reads.span {x : Access α} {v : α} (h : Reads (Span b k) m x v) (hleft : a ≤ b)
    (hright : b + k ≤ a + n) : Reads (Span a n) m x v :=
  h.mono fun _ hc => ⟨hleft.trans hc.1, hc.2.trans_le hright⟩

theorem EndsAt.bind_none {x : Access (Option α)} {f : Option α → Access (Option β)}
    (h : EndsAt m a n x) (hf : f none = pure none) : EndsAt m a n (x >>= f) where
  touched := touched_bind_left h.touched
  ended hz := (h.ended hz).bind (hf ▸ .pure none)

theorem Reads.bind_endsAt {x : Access α} {f : α → Access (Option β)} {v : α}
    (hx : Reads (Span a n) m x v) (hf : EndsAt m b k (f v)) (hleft : a ≤ b)
    (hend : b + k = a + n) : EndsAt m a n (x >>= f) where
  touched := hx.touched_bind (hend ▸ hf.touched)
  ended hz := (hx.span le_rfl (Nat.le_succ _)).bind ((hf.ended (hend ▸ hz)).span hleft (by omega))

end Compose

section Search

variable {m : Nat → UInt8} {a n : Nat} {text s : List UInt8}

theorem startsWith_cases (text : List UInt8) (h : Holds m a s) :
    text <+: s ∧ Reads (Span a s.length) m (startsWith a text) true ∨
      ¬ text <+: s ∧ ¬ s <+: text ∧ Reads (Span a s.length) m (startsWith a text) false ∨
      ¬ text <+: s ∧ s <+: text ∧ a + s.length ∈ (startsWith a text m).touched ∧
        (m (a + s.length) = 0 → 0 ∉ text →
          Reads (Span a (s.length + 1)) m (startsWith a text) false) := by
  induction text generalizing a s with
  | nil => exact .inl ⟨List.nil_prefix, .pure _⟩
  | cons c text ih =>
    cases s with
    | nil =>
      refine .inr (.inr ⟨fun hpre => List.cons_ne_nil _ _ (List.prefix_nil.mp hpre),
        List.nil_prefix, touched_bind_left (List.mem_singleton_self _), fun hz h0 => ?_⟩)
      have hne : m a ≠ c := fun heq => h0 (hz ▸ heq ▸ List.mem_cons_self)
      refine (Reads.load ⟨le_rfl, Nat.lt_succ_self _⟩).bind ?_
      rw [if_neg hne]
      exact .pure _
    | cons b s =>
      obtain ⟨hb, hs⟩ := holds_cons_iff.mp h
      have hload : Reads (Span a (s.length + 1)) m (load a) b := hb ▸ .load ⟨le_rfl, by omega⟩
      by_cases hc : b = c
      · subst hc
        have hlen : a + 1 + s.length = a + (s.length + 1) := by omega
        have hstep : ∀ {k v}, Reads (Span (a + 1) k) m (startsWith (a + 1) text) v →
            Reads (Span a (k + 1)) m (startsWith a (b :: text)) v := by
          intro k v hv
          have hfirst : Reads (Span a (k + 1)) m (load a) b := hb ▸ .load ⟨le_rfl, by omega⟩
          refine hfirst.bind ?_
          rw [if_pos rfl]
          exact hv.span (Nat.le_succ _) (by omega)
        rw [List.length_cons, List.cons_prefix_cons, List.cons_prefix_cons]
        obtain ⟨hpre, hreads⟩ | ⟨hpre, hpre', hreads⟩ | ⟨hpre, hpre', htouched, hended⟩ := ih hs
        · exact .inl ⟨⟨rfl, hpre⟩, hstep hreads⟩
        · exact .inr (.inl ⟨fun hboth => hpre hboth.2, fun hboth => hpre' hboth.2, hstep hreads⟩)
        · refine .inr (.inr ⟨fun hboth => hpre hboth.2, ⟨rfl, hpre'⟩, ?_, fun hz h0 => ?_⟩)
          · refine hload.touched_bind ?_
            rw [if_pos rfl, ← hlen]
            exact htouched
          · exact hstep (hended (hlen ▸ hz) fun hzero => h0 (List.mem_cons_of_mem _ hzero))
      · refine .inr (.inl ⟨fun hpre => hc (List.cons_prefix_cons.mp hpre).1.symm,
          fun hpre => hc (List.cons_prefix_cons.mp hpre).1, hload.bind ?_⟩)
        rw [if_neg hc]
        exact .pure _

theorem strnstr_of_short (h : s.length < text.length) : strnstr s text s.length = none := by
  cases s with
  | nil => rfl
  | cons b s => rw [strnstr, if_pos (.inr h)]

theorem strnstr_cons_of_pos {b : UInt8} (hb : b ≠ 0) (h : text <+: b :: s) :
    strnstr (b :: s) text (b :: s).length = some 0 := by
  rw [strnstr, if_neg (not_or.mpr ⟨hb, h.length_le.not_gt⟩),
    if_pos (List.isPrefixOf_iff_prefix.mpr h)]

theorem strnstr_cons_of_not {b : UInt8} (hb : b ≠ 0) (h : ¬ text <+: b :: s) :
    strnstr (b :: s) text (b :: s).length = (strnstr s text s.length).map (· + 1) := by
  by_cases hshort : (b :: s).length < text.length
  · rw [strnstr_of_short hshort, strnstr_of_short (Nat.lt_of_succ_lt hshort)]
    rfl
  · rw [strnstr, if_neg (not_or.mpr ⟨hb, hshort⟩), if_neg (mt List.isPrefixOf_iff_prefix.mp h)]
    rfl

theorem strstr_cases (text : List UInt8) (h : Holds m a s) (h0 : 0 ∉ s) (htext : text ≠ [])
    (htext0 : 0 ∉ text) (hn : s.length < n) :
    (∃ i, strnstr s text s.length = some i ∧
        Reads (Span a s.length) m (strstr text a n) (some (a + i))) ∨
      strnstr s text s.length = none ∧ EndsAt m a s.length (strstr text a n) := by
  induction s generalizing a n with
  | nil =>
    obtain ⟨n, rfl⟩ : ∃ k, n = k + 1 := ⟨n - 1, by omega⟩
    obtain ⟨hpre, -⟩ | ⟨-, hpre, -⟩ | ⟨-, -, htouched, hended⟩ := startsWith_cases text h
    · exact absurd (List.prefix_nil.mp hpre) htext
    · exact absurd List.nil_prefix hpre
    · refine .inr ⟨rfl, touched_bind_left htouched, fun hz => (hended hz htext0).bind ?_⟩
      have hz : m a = 0 := hz
      refine (Reads.load ⟨le_rfl, Nat.lt_succ_self _⟩).bind ?_
      rw [if_pos hz]
      exact .pure _
  | cons b s ih =>
    obtain ⟨n, rfl⟩ : ∃ k, n = k + 1 := ⟨n - 1, by omega⟩
    have hb : b ≠ 0 := fun hb => h0 (hb ▸ List.mem_cons_self)
    obtain ⟨hm, hs⟩ := holds_cons_iff.mp h
    have hrest := ih hs (fun hz => h0 (List.mem_cons_of_mem _ hz)) (Nat.lt_of_succ_lt_succ hn)
    have hend : a + 1 + s.length = a + (b :: s).length := by rw [List.length_cons]; omega
    -- What is left once the text does not stand at `a`.
    have hstep : ∀ {P : Nat → Prop} {v}, P a → Reads P m (strstr text (a + 1) n) v →
        Reads P m (do if (← load a) = 0 then return none else strstr text (a + 1) n) v := by
      intro P v ha hv
      refine (Reads.load ha).bind ?_
      rw [if_neg (hm ▸ hb)]
      exact hv
    have hskip : ∀ {k}, EndsAt m (a + 1) s.length (strstr text (a + 1) n) → k = (b :: s).length →
        EndsAt m a k (do if (← load a) = 0 then return none else strstr text (a + 1) n) := by
      rintro k hk rfl
      refine Reads.bind_endsAt (v := m a) (.load ⟨le_rfl, ?_⟩) (b := a + 1) ?_ (Nat.le_succ _) hend
      · rw [List.length_cons]
        omega
      · rw [if_neg (hm ▸ hb)]
        exact hk
    obtain ⟨hpre, hreads⟩ | ⟨hpre, -, hreads⟩ | ⟨hpre, hpre', htouched, hended⟩ :=
      startsWith_cases text h
    · exact .inl ⟨0, strnstr_cons_of_pos hb hpre, hreads.bind (.pure _)⟩
    · rw [strnstr_cons_of_not hb hpre]
      obtain ⟨i, hi, hfound⟩ | ⟨hnone, hends⟩ := hrest
      · refine .inl ⟨i + 1, by rw [hi]; rfl, hreads.bind (hstep ⟨le_rfl, ?_⟩ ?_)⟩
        · rw [List.length_cons]
          omega
        · rw [Nat.add_comm i 1, ← Nat.add_assoc]
          exact hfound.span (Nat.le_succ _) hend.le
      · exact .inr ⟨by rw [hnone]; rfl, hreads.bind_endsAt (hskip hends rfl) le_rfl rfl⟩
    · -- The text begins in the known bytes and would go on behind them.
      have hshort : (b :: s).length < text.length := by
        refine Nat.lt_of_le_of_ne hpre'.length_le fun heq => hpre ?_
        exact hpre'.eq_of_length heq ▸ List.prefix_rfl
      have hnone : strnstr s text s.length = none := strnstr_of_short (Nat.lt_of_succ_lt hshort)
      refine .inr ⟨strnstr_of_short hshort, touched_bind_left htouched, fun hz => ?_⟩
      refine (hended hz htext0).bind (hstep ⟨le_rfl, by omega⟩ ?_)
      obtain ⟨i, hi, -⟩ | ⟨-, hends⟩ := hrest
      · rw [hnone] at hi
        cases hi
      · exact (hends.ended (hend ▸ hz)).span (Nat.le_succ _) (by omega)

theorem strchr_cases {c : UInt8} (h : Holds m a s) (h0 : 0 ∉ s) (hc : c ≠ 0) (hn : s.length < n) :
    c ∈ s ∧ Reads (Span a s.length) m (strchr c a n)
        (some (a + (s.takeWhile (· ≠ c)).length)) ∨
      c ∉ s ∧ EndsAt m a s.length (strchr c a n) := by
  induction s generalizing a n with
  | nil =>
    obtain ⟨n, rfl⟩ : ∃ k, n = k + 1 := ⟨n - 1, by omega⟩
    refine .inr ⟨List.not_mem_nil, touched_bind_left (List.mem_singleton_self _), fun hz => ?_⟩
    have hz : m a = 0 := hz
    refine (Reads.load ⟨le_rfl, Nat.lt_succ_self _⟩).bind ?_
    rw [if_neg (hz ▸ hc.symm)]
    refine (Reads.load ⟨le_rfl, Nat.lt_succ_self _⟩).bind ?_
    rw [if_pos hz]
    exact .pure _
  | cons b s ih =>
    obtain ⟨n, rfl⟩ : ∃ k, n = k + 1 := ⟨n - 1, by omega⟩
    have hb : b ≠ 0 := fun hb => h0 (hb ▸ List.mem_cons_self)
    obtain ⟨hm, hs⟩ := holds_cons_iff.mp h
    have hend : a + 1 + s.length = a + (b :: s).length := by rw [List.length_cons]; omega
    have hload : Reads (Span a (b :: s).length) m (load a) b :=
      hm ▸ .load ⟨le_rfl, by rw [List.length_cons]; omega⟩
    by_cases hbc : b = c
    · subst hbc
      refine .inl ⟨List.mem_cons_self, hload.bind ?_⟩
      rw [if_pos rfl, List.takeWhile_cons_of_neg (by simp)]
      exact .pure _
    · obtain ⟨hmem, hfound⟩ | ⟨hmem, hends⟩ :=
        ih hs (fun hz => h0 (List.mem_cons_of_mem _ hz)) (Nat.lt_of_succ_lt_succ hn)
      · have hplace : a + ((b :: s).takeWhile (· ≠ c)).length =
            a + 1 + (s.takeWhile (· ≠ c)).length := by
          rw [List.takeWhile_cons_of_pos (by simpa using hbc), List.length_cons]
          omega
        refine .inl ⟨List.mem_cons_of_mem _ hmem, hload.bind ?_⟩
        rw [if_neg hbc]
        refine hload.bind ?_
        rw [if_neg hb, hplace]
        exact hfound.span (Nat.le_succ _) hend.le
      · refine .inr ⟨fun hin => hmem ((List.mem_cons.mp hin).resolve_left (Ne.symm hbc)), ?_⟩
        refine hload.bind_endsAt (b := a) (k := (b :: s).length) ?_ le_rfl rfl
        rw [if_neg hbc]
        refine hload.bind_endsAt (b := a + 1) (k := s.length) ?_ (Nat.le_succ _) hend
        rw [if_neg hb]
        exact hends

theorem loadBytes_span (h : Holds m a s) {k : Nat} (hk : k ≤ s.length) :
    Reads (Span a s.length) m (loadBytes a k) (s.take k) := by
  induction k generalizing a s with
  | zero => exact .pure _
  | succ k ih =>
    obtain ⟨b, s, rfl⟩ := List.exists_cons_of_length_pos (l := s) (by omega)
    obtain ⟨hb, hs⟩ := holds_cons_iff.mp h
    rw [List.length_cons] at hk ⊢
    refine Reads.bind (v := b) (hb ▸ .load ⟨le_rfl, by omega⟩) ?_
    refine Reads.bind ((ih hs (Nat.le_of_succ_le_succ hk)).span (Nat.le_succ _) (by omega)) ?_
    exact .pure _

end Search

end RadProt.Lib.Access
