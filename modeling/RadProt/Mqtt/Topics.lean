import RadProt.Lib.CString
import RadProt.Lib.Split

namespace RadProt.Mqtt

open RadProt.Lib

def slash : UInt8 := 47

def plus : UInt8 := 43

def hash : UInt8 := 35

def topicLoop : List UInt8 → List UInt8 → List UInt8 × List UInt8
  | f :: curf, n :: curn =>
    if n = slash ∧ f ≠ slash then (f :: curf, n :: curn)
    else if f ≠ plus ∧ f ≠ hash ∧ f ≠ n then (f :: curf, n :: curn)
    -- The name goes on to the next separator.
    else if f = plus then topicLoop curf (curn.dropWhile (· ≠ slash))
    else if f = hash then topicLoop curf []
    else topicLoop curf curn
  | curf, curn => (curf, curn)

def isTopicMatched (topicFilter topicName : List UInt8) : Bool :=
  topicLoop topicFilter topicName = ([], [])

def levels (text : List UInt8) : List (List UInt8) := text.splitOn slash

/-- The format that `isTopicMatched` assumes: `#` stands at the end, and `+` and `#` stand between
separators. -/
def Formatted : List (List UInt8) → Prop
  | [] => True
  | s :: fs => (plus ∉ s ∧ hash ∉ s ∨ s = [plus] ∨ s = [hash] ∧ fs = []) ∧ Formatted fs

/-- What the levels of a filter stand for by the protocol: `+` for one level, and `#` for any
number of them. -/
inductive Matches : List (List UInt8) → List (List UInt8) → Prop
  | nil : Matches [] []
  | multi (ts : List (List UInt8)) : Matches [[hash]] ts
  | single {fs ts : List (List UInt8)} (t : List UInt8) :
    Matches fs ts → Matches ([plus] :: fs) (t :: ts)
  | plain {s : List UInt8} {fs ts : List (List UInt8)} :
    plus ∉ s → hash ∉ s → Matches fs ts → Matches (s :: fs) (s :: ts)

/-- No wildcard stands for nothing: where the filter has one, the name has a level that is not
empty. -/
def Filled (fs ts : List (List UInt8)) : Prop :=
  ∀ i : Nat, fs[i]? = some [plus] ∨ fs[i]? = some [hash] → ∃ t, ts[i]? = some t ∧ t ≠ []

section Levels

variable {s t : List UInt8} {fs ts : List (List UInt8)}

theorem filled_nil : Filled [] ts := by
  intro i h
  simp at h

theorem filled_cons_cons : Filled (s :: fs) (t :: ts) ↔
    (s = [plus] ∨ s = [hash] → t ≠ []) ∧ Filled fs ts := by
  constructor
  · refine fun h => ⟨fun hs => ?_, fun i hi => ?_⟩
    · obtain ⟨t', ht', hne⟩ := h 0 (by simpa using hs)
      obtain rfl : t = t' := by simpa using ht'
      exact hne
    · simpa using h (i + 1) (by simpa using hi)
  · rintro ⟨hs, h⟩ i hi
    cases i with
    | zero => exact ⟨t, by simp, hs (by simpa using hi)⟩
    | succ i => simpa using h i (by simpa using hi)

theorem not_matches_filled_nil : ¬ (Matches (s :: fs) [] ∧ Filled (s :: fs) []) := by
  rintro ⟨hm, hf⟩
  cases hm with
  | multi => simpa using hf 0 (by simp)

theorem matches_plain (hs : plus ∉ s ∧ hash ∉ s) :
    Matches (s :: fs) (t :: ts) ↔ s = t ∧ Matches fs ts := by
  constructor
  · intro h
    cases h with
    | multi => simp at hs
    | single => simp at hs
    | plain _ _ h => exact ⟨rfl, h⟩
  · rintro ⟨rfl, h⟩
    exact .plain hs.1 hs.2 h

theorem matches_single : Matches ([plus] :: fs) (t :: ts) ↔ Matches fs ts := by
  refine ⟨fun h => ?_, .single t⟩
  generalize hs : [plus] = s at h
  cases h with
  | multi => exact absurd hs (by decide)
  | single _ h => exact h
  | plain hp _ h => simp [← hs] at hp

end Levels

def behind (ls : List (List UInt8)) : List UInt8 := ls.flatMap (slash :: ·)

@[simp] theorem behind_nil : behind [] = [] := rfl

@[simp] theorem behind_cons (s : List UInt8) (ls : List (List UInt8)) :
    behind (s :: ls) = slash :: (s ++ behind ls) := rfl

theorem behind_levels (text : List UInt8) : behind (levels text) = slash :: text := by
  induction text using split_induction slash with
  | nil => rfl
  | last s _ hs => simp [levels, List.splitOn_eq_singleton hs]
  | piece s rest hs ih =>
    rw [levels, List.splitOn_append_cons_self_of_not_mem hs, behind_cons]
    exact congrArg (fun r => slash :: (s ++ r)) ih

theorem slash_notMem_levels (text : List UInt8) : ∀ s ∈ levels text, slash ∉ s := by
  induction text using split_induction slash with
  | nil => simp [levels]
  | last s _ hs => simpa [levels, List.splitOn_eq_singleton hs] using hs
  | piece s rest hs ih =>
    rw [levels, List.splitOn_append_cons_self_of_not_mem hs]
    exact List.forall_mem_cons.mpr ⟨hs, ih⟩

section Loop

variable {s t fr nr : List UInt8} {fs ts : List (List UInt8)} {c d : UInt8}

@[simp] theorem topicLoop_nil_left (n : List UInt8) : topicLoop [] n = ([], n) := by
  cases n <;> rfl

@[simp] theorem topicLoop_nil_right (f : List UInt8) : topicLoop f [] = (f, []) := by
  cases f <;> rfl

@[simp] theorem topicLoop_slash : topicLoop (slash :: fr) (slash :: nr) = topicLoop fr nr := by
  simp [topicLoop, slash, plus, hash]

theorem topicLoop_self (hc : c ≠ slash ∧ c ≠ plus ∧ c ≠ hash) :
    topicLoop (c :: fr) (c :: nr) = topicLoop fr nr := by
  simp [topicLoop, hc]

theorem topicLoop_ne (hc : c ≠ plus ∧ c ≠ hash) (hne : c ≠ d) :
    topicLoop (c :: fr) (d :: nr) = (c :: fr, d :: nr) := by
  simp [topicLoop, hc, hne]

theorem topicLoop_wildcard_slash (hc : c ≠ slash) :
    topicLoop (c :: fr) (slash :: nr) = (c :: fr, slash :: nr) := by
  simp [topicLoop, hc]

theorem topicLoop_plain (hs : slash ∉ s ∧ plus ∉ s ∧ hash ∉ s) (ht : slash ∉ t) :
    topicLoop (s ++ behind fs) (t ++ behind ts) = ([], []) ↔
      s = t ∧ topicLoop (behind fs) (behind ts) = ([], []) := by
  induction s generalizing t with
  | nil =>
    cases t with
    | nil => simp
    | cons d t =>
      have hd : slash ≠ d := fun hd => ht (hd ▸ List.mem_cons_self)
      cases fs with
      | nil => simp
      | cons f fs => simp [topicLoop_ne (c := slash) (by decide) hd]
  | cons c s ih =>
    have hc : c ≠ slash ∧ c ≠ plus ∧ c ≠ hash := by
      simp only [List.mem_cons, not_or] at hs
      exact ⟨Ne.symm hs.1.1, Ne.symm hs.2.1.1, Ne.symm hs.2.2.1⟩
    cases t with
    | nil =>
      cases ts with
      | nil => simp
      | cons t ts => simp [topicLoop_wildcard_slash hc.1]
    | cons d t =>
      by_cases hcd : c = d
      · subst hcd
        simp only [List.mem_cons, not_or] at hs ht
        simpa [topicLoop_self hc] using ih ⟨hs.1.2, hs.2.1.2, hs.2.2.2⟩ ht.2
      · simp [topicLoop_ne hc.2 hcd, hcd]

theorem dropWhile_behind (ht : slash ∉ t) :
    (t ++ behind ts).dropWhile (· ≠ slash) = behind ts := by
  rw [List.dropWhile_append_of_pos fun b hb => by simpa using fun h : b = slash => ht (h ▸ hb)]
  cases ts <;> simp

theorem topicLoop_single (ht : slash ∉ t) :
    topicLoop (plus :: fr) (t ++ behind ts) = ([], []) ↔
      t ≠ [] ∧ topicLoop fr (behind ts) = ([], []) := by
  cases t with
  | nil =>
    cases ts with
    | nil => simp
    | cons t ts => simp [topicLoop_wildcard_slash (c := plus) (by decide)]
  | cons d t =>
    simp only [List.mem_cons, not_or] at ht
    have hstep : topicLoop (plus :: fr) (d :: (t ++ behind ts)) = topicLoop fr (behind ts) := by
      refine Eq.trans ?_ (congrArg (topicLoop fr) (dropWhile_behind ht.2))
      rw [topicLoop, if_neg (fun h => ht.1 h.1.symm), if_neg (fun h => h.1 rfl), if_pos rfl]
    simp [hstep]

theorem topicLoop_multi (ht : slash ∉ t) :
    topicLoop [hash] (t ++ behind ts) = ([], []) ↔ t ≠ [] := by
  cases t with
  | nil =>
    cases ts with
    | nil => simp
    | cons t ts => simp [topicLoop_wildcard_slash (c := hash) (by decide)]
  | cons d t =>
    simp only [List.mem_cons, not_or] at ht
    simp [topicLoop, Ne.symm ht.1, plus, hash]

theorem topicLoop_behind (hformat : Formatted fs) (hfs : ∀ s ∈ fs, slash ∉ s)
    (hts : ∀ t ∈ ts, slash ∉ t) :
    topicLoop (behind fs) (behind ts) = ([], []) ↔ Matches fs ts ∧ Filled fs ts := by
  induction fs generalizing ts with
  | nil =>
    cases ts with
    | nil => exact iff_of_true rfl ⟨.nil, filled_nil⟩
    | cons t ts => exact iff_of_false (by simp) fun h => by cases h.1
  | cons s fs ih =>
    cases ts with
    | nil => exact iff_of_false (by simp) not_matches_filled_nil
    | cons t ts =>
      rw [List.forall_mem_cons] at hfs hts
      have ih := ih hformat.2 hfs.2 hts.2
      rw [behind_cons, behind_cons, topicLoop_slash, filled_cons_cons]
      obtain hs | rfl | ⟨rfl, rfl⟩ := hformat.1
      · have hwild : ¬ (s = [plus] ∨ s = [hash]) := by
          rintro (rfl | rfl)
          · exact hs.1 List.mem_cons_self
          · exact hs.2 List.mem_cons_self
        rw [topicLoop_plain ⟨hfs.1, hs⟩ hts.1, matches_plain hs, ih]
        simp [hwild, and_assoc]
      · rw [List.singleton_append, topicLoop_single hts.1, matches_single, ih]
        simp [and_left_comm]
      · rw [List.singleton_append, behind_nil, topicLoop_multi hts.1]
        simp [Matches.multi, filled_nil]

end Loop

theorem topic_matched_iff {topicFilter : List UInt8} (hformat : Formatted (levels topicFilter))
    (topicName : List UInt8) : isTopicMatched topicFilter topicName = true ↔
      Matches (levels topicFilter) (levels topicName) ∧
        Filled (levels topicFilter) (levels topicName) := by
  rw [← topicLoop_behind hformat (slash_notMem_levels _) (slash_notMem_levels _), behind_levels,
    behind_levels, topicLoop_slash, isTopicMatched, decide_eq_true_iff]

theorem level_above_not_matched :
    Matches (levels (ascii "rad/#")) (levels (ascii "rad")) ∧
      isTopicMatched (ascii "rad/#") (ascii "rad") = false ∧
      isTopicMatched (ascii "rad/#") (ascii "rad/1/mean") = true := by
  have hformat : Formatted (levels (ascii "rad/#")) :=
    ⟨.inl (by decide), .inr (.inr ⟨rfl, rfl⟩), trivial⟩
  refine ⟨.plain (by decide) (by decide) (.multi []), ?_, ?_⟩
  · refine Bool.eq_false_iff.mpr fun h => ?_
    obtain ⟨t, ht, -⟩ := ((topic_matched_iff hformat _).mp h).2 1 (.inr rfl)
    have hone : (levels (ascii "rad"))[1]? = none := by decide
    simp [hone] at ht
  · refine (topic_matched_iff hformat _).mpr ⟨.plain (by decide) (by decide) (.multi _), ?_⟩
    refine filled_cons_cons.mpr ⟨by decide, filled_cons_cons.mpr ⟨by decide, filled_nil⟩⟩

end RadProt.Mqtt
