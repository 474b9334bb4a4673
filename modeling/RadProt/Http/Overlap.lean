import RadProt.Lib.Slot
import RadProt.Http.Serving

namespace RadProt.Http

open RadProt.Lib

universe u

variable {env : Env}

section Bytes

theorem length_itoa_mono {m n : Nat} (h : m ≤ n) : (itoa m).length ≤ (itoa n).length := by
  rw [itoa, List.length_map, Nat.length_toDigits_le_iff (by decide)]
  · refine lt_of_le_of_lt h ((Nat.length_toDigits_le_iff (by decide) ?_).mp ?_)
    · simp [itoa, Nat.length_toDigits_pos]
    · simp [itoa]
  · simp [itoa, Nat.length_toDigits_pos]

theorem jsonAnswer_take_iff (env : Env) (body : List UInt8) :
    jsonAnswer env (body.take (body.length % 65536)) = jsonAnswer env body ↔
      body.length < 65536 := by
  constructor
  · intro h
    by_contra hlong
    have hlt : body.length % 65536 < body.length :=
      lt_of_lt_of_le (Nat.mod_lt _ (by decide)) (Nat.le_of_not_lt hlong)
    have hdigits := length_itoa_mono hlt.le
    have hlen := congrArg List.length h
    simp only [jsonAnswer, List.length_append, List.length_take, Nat.min_eq_left hlt.le] at hlen
    omega
  · intro hshort
    rw [Nat.mod_eq_of_lt hshort, List.take_length]

theorem badRequestAnswer_ne (env : Env) (body : List UInt8) :
    badRequestAnswer env ≠ jsonAnswer env body := by
  intro h
  have hstatus := congrArg (fun bytes => bytes[9]?) h
  simp [badRequestAnswer, jsonAnswer, headerString, ascii] at hstatus

theorem postAnswer_eq_iff (env : Env) (uri : List UInt8) (current : Bool) (body : List UInt8) :
    postAnswer env uri current body = jsonAnswer env body ↔
      Handled uri ∧ current = true ∧ body.length < 65536 := by
  rw [postAnswer]
  split
  next hhandled =>
    cases current with
    | true =>
      rw [if_pos rfl, jsonAnswer_take_iff]
      exact ⟨fun h => ⟨hhandled, rfl, h⟩, fun h => h.2.2⟩
    | false =>
      rw [if_neg Bool.false_ne_true]
      exact ⟨fun h => absurd h (badRequestAnswer_ne env body), fun h => absurd h.2.1 Bool.false_ne_true⟩
  next hhandled =>
    refine ⟨fun h => ?_, fun h => absurd h.1 hhandled⟩
    have hlen := congrArg List.length h
    simp [jsonAnswer, headerString, ascii] at hlen

end Bytes

section Follow

variable {κ : Type u} {requests : κ → PostRequest env}

/-- A POST is a session over `current_connection`, from the segment that completes the header to
the one that completes the body. -/
def sessions (requests : κ → PostRequest env) : Sessions κ where
  first x := (requests x).head.length
  last x := (requests x).head.length + (requests x).rest.length
  first_le_last _ := Nat.le_add_right _ _

theorem last_iff {x : κ} {done todo : List Segment} {seg : Segment}
    (hsegs : (requests x).segments = done ++ seg :: todo) :
    done.length = (sessions requests).last x ↔ todo = [] := by
  have hlen := congrArg List.length hsegs
  rw [PostRequest.length_segments, List.length_append, List.length_cons] at hlen
  change done.length = (requests x).head.length + (requests x).rest.length ↔ todo = []
  rw [← List.length_eq_zero_iff]
  omega

variable [DecidableEq κ]

/-- No header is completed while the body of another request is incomplete. -/
def Apart (requests : κ → PostRequest env) (es : List (κ × Segment)) : Prop :=
  (sessions requests).Apart Sessions.start (es.map Prod.fst)

instance [Fintype κ] (requests : κ → PostRequest env) (es : List (κ × Segment)) :
    Decidable (Apart requests es) :=
  inferInstanceAs (Decidable (Feasible ..))

structure Follows (requests : κ → PostRequest env) (t : Slot κ) (done : κ → List Segment)
    (s : Server κ) : Prop where
  holder : s.currentConnection = t.holder
  calls : ∀ x, t.calls x = (done x).length
  serving : ∀ x, Serving (requests x) (done x) (s.conns x)

theorem Follows.start (requests : κ → PostRequest env) :
    Follows requests Sessions.start (fun _ => []) Server.start where
  holder := rfl
  calls _ := rfl
  serving x := Serving.start env (requests x) false

theorem Serving.other {r : PostRequest env} {done : List Segment} {c : Conn}
    (h : Serving r done c) : Serving r done (httpStep env c .other) where
  waiting := h.waiting
  collecting ps todo hdone hrest hne := by
    obtain ⟨hs, hsome, hcollecting⟩ := h.collecting ps todo hdone hrest hne
    exact ⟨hs, hsome, { hcollecting with }⟩

variable {t : Slot κ} {done : κ → List Segment} {s : Server κ} {x : κ} {seg : Segment}
  {todo : List Segment}

/-- The step lemma: the server does with `current_connection` what a call does with the slot. -/
theorem Follows.step (h : Follows requests t done s)
    (hsegs : (requests x).segments = done x ++ seg :: todo) :
    Follows requests ((sessions requests).call t x)
      (Function.update done x (done x ++ [seg])) (s.serve env x (receive seg)) := by
  have hserved := (h.serving x).step hsegs
  have hne : receive seg ≠ .other := by simp
  refine ⟨?_, fun y => ?_, fun y => ?_⟩
  · have hlast := last_iff hsegs
    rw [Server.serve_currentConnection hserved.assigns, h.holder, Sessions.call, Sessions.holding,
      h.calls]
    simp only [hlast]
    by_cases hfirst : (done x).length = (requests x).head.length <;> by_cases hnil : todo = [] <;>
      simp [assignedBy, sessions, hfirst, hnil]
  · by_cases hyx : y = x
    · subst hyx
      rw [Sessions.calls_call_self, h.calls, Function.update_self, List.length_append,
        List.length_singleton]
    · rw [Sessions.calls_call_of_ne hyx, h.calls, Function.update_of_ne hyx]
  · by_cases hyx : y = x
    · subst hyx
      rw [Function.update_self, Server.serve_conns_self hne]
      exact hserved.serving
    · rw [Function.update_of_ne hyx]
      rcases Server.serve_conns_of_ne hne hyx with hsame | hlost
      · rw [hsame]
        exact h.serving y
      · rw [hlost]
        exact (h.serving y).other

theorem Follows.answer_step (h : Follows requests t done s)
    (hsegs : (requests x).segments = done x ++ [seg]) :
    ((s.serve env x (receive seg)).conns x).answer =
      (requests x).answer (decide ((sessions requests).holding t x = some x)) := by
  have hserved := (h.serving x).step hsegs
  have hself : (decide ((done x).length = (requests x).head.length) || (s.conns x).net.current) =
      decide ((sessions requests).holding t x = some x) := by
    rw [s.agrees, h.holder, Sessions.holding, h.calls]
    by_cases hfirst : (done x).length = (requests x).head.length <;> simp [sessions, hfirst]
  rw [Server.serve_conns_self (by simp), hserved.answer rfl, hself, PostRequest.answer,
    PostRequest.json_eq hsegs]

/-- The run lemma: what a connection is sent depends on who is in the slot at its last call. -/
theorem Follows.answer {es : List (κ × Segment)} {s' : Server κ} (h : Follows requests t done s)
    (hsegs : ∀ x, (requests x).segments = done x ++ own x es)
    (hrun : Run (Server.Step env) s (es.map fun e => (e.1, receive e.2)) s')
    (hne : own x es ≠ []) :
    (s'.conns x).answer =
      (requests x).answer (decide ((sessions requests).Keeps t (es.map Prod.fst) x)) := by
  induction es generalizing t done s with
  | nil => exact absurd rfl hne
  | cons e es ih =>
    obtain ⟨z, seg⟩ := e
    obtain ⟨s₁, ⟨-, rfl⟩, hrest⟩ := Run.cons_inv hrun
    have hz : (requests z).segments = done z ++ seg :: own z es := by simpa using hsegs z
    have hcalls : t.calls z = (sessions requests).last z ↔ own z es = [] :=
      (h.calls z).symm ▸ last_iff hz
    by_cases hown : own x es = []
    · obtain rfl : z = x := by
        by_contra hzx
        rw [own_cons_of_ne hzx] at hne
        exact hne hown
      have hlater : (s'.conns z).answer = ((s.serve env z (receive seg)).conns z).answer := by
        obtain ⟨fs, hfs, hothers⟩ := Server.run_conn hrest z
        rw [own_map, hown] at hothers
        exact answer_of_others hfs hothers
      have hkeeps : (sessions requests).Keeps t (z :: es.map Prod.fst) z ↔
          (sessions requests).holding t z = some z := by
        refine ⟨fun hkeeps => hkeeps.1 rfl (hcalls.mpr hown), fun hholding => ⟨fun _ _ => hholding, ?_⟩⟩
        apply Sessions.keeps_of_notMem
        rw [← List.count_eq_zero, ← length_own, hown, List.length_nil]
      rw [hown] at hz
      rw [hlater, h.answer_step hz]
      simp only [List.map_cons, hkeeps]
    · have hkeeps : (sessions requests).Keeps t (z :: es.map Prod.fst) x ↔
          (sessions requests).Keeps ((sessions requests).call t z) (es.map Prod.fst) x := by
        refine ⟨fun hkeeps => hkeeps.2, fun hkeeps => ⟨?_, hkeeps⟩⟩
        rintro rfl hlast
        exact absurd (hcalls.mp hlast) hown
      have hsegs' : ∀ y, (requests y).segments =
          Function.update done z (done z ++ [seg]) y ++ own y es := by
        intro y
        by_cases hyz : y = z
        · subst hyz
          rw [Function.update_self, hz, List.append_assoc]
          rfl
        · rw [Function.update_of_ne hyz, hsegs y, own_cons_of_ne (Ne.symm hyz)]
      rw [ih (h.step hz) hsegs' hrest hown]
      simp only [List.map_cons, hkeeps]

/-- Each connection is sent what its request gets alone, and this is status 200 with the JSON of
its handler and the length of it, if and only if each request has a handler, each JSON is shorter
than 65536 bytes, and the requests stay apart. -/
theorem posts_answered_iff {es : List (κ × Segment)}
    (hes : ∀ x, own x es = (requests x).segments)
    (hrun : Run (Server.Step env) Server.start (es.map fun e => (e.1, receive e.2)) s) :
    (∀ x, (s.conns x).answer = (requests x).alone.answer ∧
        (s.conns x).answer = jsonAnswer env (requests x).json) ↔
      (∀ x, Handled (requests x).uri ∧ (requests x).json.length < 65536) ∧ Apart requests es := by
  have hcompletes : (sessions requests).Completes Sessions.start (es.map Prod.fst) := by
    intro x
    rw [← length_own, hes, PostRequest.length_segments]
    exact Nat.zero_add _
  have hanswer : ∀ x, (s.conns x).answer = (requests x).answer
      (decide ((sessions requests).Keeps Sessions.start (es.map Prod.fst) x)) := by
    intro x
    refine (Follows.start requests).answer (fun x => ?_) hrun ?_
    · rw [hes, List.nil_append]
    · rw [hes]
      exact List.append_ne_nil_of_right_ne_nil _ (List.cons_ne_nil _ _)
  rw [Apart, ← Sessions.kept_iff_apart hcompletes]
  constructor
  · intro h
    have hpost : ∀ x, _ := fun x => (postAnswer_eq_iff env (requests x).uri _ (requests x).json).mp
      ((hanswer x).symm.trans (h x).2)
    exact ⟨fun x => ⟨(hpost x).1, (hpost x).2.2⟩, fun x => of_decide_eq_true (hpost x).2.1⟩
  · rintro ⟨hfit, hkept⟩ x
    rw [hanswer, decide_eq_true (hkept x), PostRequest.alone_answer]
    exact ⟨rfl, (postAnswer_eq_iff ..).mpr ⟨(hfit x).1, rfl, (hfit x).2⟩⟩

end Follow

section Sample

def splitRequest : PostRequest sampleEnv where
  head := []
  first := (sampleRequest [97], sampleOutside 11680)
  rest := [({ payload := [98, 99], next := [] }, sampleOutside 11680)]
  uri := ascii "/restart.cgi"
  contentLen := 3
  hdrLen := 64
  waits ps seg qs h := by simp at h
  posts := by decide
  whole := by decide
  needed _ := by decide

def wholeRequest : PostRequest sampleEnv where
  head := []
  first := (sampleRequest [97, 98, 99], sampleOutside 11680)
  rest := []
  uri := ascii "/restart.cgi"
  contentLen := 3
  hdrLen := 64
  waits ps seg qs h := by simp at h
  posts := by decide
  whole := by decide
  needed h := absurd rfl h

def sampleRequests : Bool → PostRequest sampleEnv
  | false => splitRequest
  | true => wholeRequest

def overlapping : List (Bool × Segment) :=
  [(false, splitRequest.first), (true, wholeRequest.first),
    (false, ({ payload := [98, 99], next := [] }, sampleOutside 11680))]

/-- The first request, whose handler has run like that of the second one, is answered with
status 400. -/
theorem overlapping_refused :
    ∃ s, Run (Server.Step sampleEnv) Server.start (overlapping.map fun e => (e.1, receive e.2)) s ∧
      (∀ x, own x overlapping = (sampleRequests x).segments) ∧
      (s.conns false).answer = badRequestAnswer sampleEnv ∧
      ¬ ∀ x, (s.conns x).answer = (sampleRequests x).alone.answer ∧
        (s.conns x).answer = jsonAnswer sampleEnv (sampleRequests x).json := by
  obtain ⟨s, hrun, hanswer⟩ : ∃ s, Run (Server.Step sampleEnv) Server.start
      (overlapping.map fun e => (e.1, receive e.2)) s ∧
      (s.conns false).answer = badRequestAnswer sampleEnv :=
    ⟨_, .cons ⟨⟨by simp, trivial⟩, rfl⟩ (.cons ⟨⟨by simp, trivial⟩, rfl⟩
      (.cons ⟨⟨by simp, trivial⟩, rfl⟩ .nil)), by decide +kernel⟩
  refine ⟨s, hrun, fun x => by cases x <;> rfl, hanswer, fun h => ?_⟩
  exact badRequestAnswer_ne _ _ (hanswer.symm.trans (h false).2)

def following : List (Bool × Segment) :=
  [(false, splitRequest.first),
    (false, ({ payload := [98, 99], next := [] }, sampleOutside 11680)),
    (true, wholeRequest.first)]

theorem following_answered :
    ∃ s, Run (Server.Step sampleEnv) Server.start (following.map fun e => (e.1, receive e.2)) s ∧
      ∀ x, (s.conns x).answer = (sampleRequests x).alone.answer ∧
        (s.conns x).answer = jsonAnswer sampleEnv (sampleRequests x).json := by
  obtain ⟨s, hrun⟩ : ∃ s, Run (Server.Step sampleEnv) Server.start
      (following.map fun e => (e.1, receive e.2)) s :=
    ⟨_, .cons ⟨⟨by simp, trivial⟩, rfl⟩ (.cons ⟨⟨by simp, trivial⟩, rfl⟩
      (.cons ⟨⟨by simp, trivial⟩, rfl⟩ .nil))⟩
  refine ⟨s, hrun, (posts_answered_iff (fun x => by cases x <;> rfl) hrun).mpr ⟨?_, by decide⟩⟩
  intro x
  cases x <;> decide

end Sample

end RadProt.Http
