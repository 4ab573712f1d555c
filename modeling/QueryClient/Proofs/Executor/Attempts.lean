import Mathlib.Data.List.Nodup
import QueryClient.Query.Executor

/-!
# The attempts of an executor

An executor that runs from its creation on is well formed (`ExecutorOK`): its attempts are numbered
downwards from the youngest, only the youngest can be without an outcome, and the slot holds that
one. What is stored follows from the outcomes of the attempts.

* `Executor.results`: the outcomes so far, the latest first.
* `settle_eq`: **every outcome is stored**: an attempt that ends has a number above all that are
  stored.
* `begin_cases`, `answer_cases`, `resume_cases`, `kill_cases`, `await?_cases`, `join_cases`: all that
  an operation can do to a well-formed executor; `Executor.Step` is what they have in common.
* `ExecutorOK.step`: it stays well formed.
* `ExecutorExt`: it keeps its attempts, their outcomes and its results.
-/

namespace QueryClient

/-- The outcome of an attempt that has one. -/
def Stage.outcome? : Stage → Option NumberedOutcome
  | .settled o => some o
  | _ => none

/-- The attempt has no outcome yet. -/
def Attempt.Unsettled (a : Attempt) : Prop := a.stage.outcome? = none

/-- The backend was called for the attempt, and its answer has not been taken. -/
def Attempt.isCalling (a : Attempt) : Bool :=
  match a.stage with
  | .calling | .answered _ => true
  | _ => false

/-- The attempt's task has taken its first step, or died before it. -/
def Attempt.hasBegun (a : Attempt) : Bool :=
  match a.stage with
  | .spawned => false
  | _ => true

/-- **The results stored so far,** the latest first. -/
def Executor.results (e : Executor) : List NumberedOutcome :=
  e.attempts.filterMap fun a => a.stage.outcome?

/-- The executor after an attempt was started. -/
def Executor.start (e : Executor) (number : Int) (request : RequestId) : Executor :=
  { e with slot := some number, attempts := { number, request, stage := .spawned } :: e.attempts }

/-- The executor after the attempt at the head of its list moved to another stage. -/
def Executor.advance (e : Executor) (a : Attempt) (rest : List Attempt) (stage : Stage) : Executor :=
  { e with attempts := { a with stage } :: rest }

/-- The executor after the attempt at the head of its list ended in an outcome, which is stored. -/
def Executor.store (e : Executor) (a : Attempt) (rest : List Attempt) (o : NumberedOutcome) :
    Executor :=
  { e with
    last := some o
    lastSuccess := if o.value.isSuccess then some o else e.lastSuccess
    version := e.version + 1
    slot := none
    attempts := { a with stage := .settled o } :: rest }

/-- What one step of an attempt's task, of the backend or of one who waits can do to an executor. -/
inductive Executor.Step (e : Executor) : Executor → Prop where
  | rest : Step e e
  | close : Step e e.close
  | advance {a : Attempt} {rest : List Attempt} {stage : Stage} (hl : e.attempts = a :: rest)
      (hu : a.Unsettled) (hst : stage.outcome? = none) : Step e (e.advance a rest stage)
  | store {a : Attempt} {rest : List Attempt} (result : Except Error OperationResult)
      (hl : e.attempts = a :: rest) (hu : a.Unsettled) :
      Step e (e.store a rest (e.outcomeOf a result))

/-- An executor is well formed, given what has been drawn. -/
structure ExecutorOK (s : Supply) (e : Executor) : Prop where
  ordered : e.attempts.Pairwise fun a b => b.number < a.number ∧ b.request.index < a.request.index
  drawn : ∀ a ∈ e.attempts, a.number ≤ s.number ∧ a.request.index ≤ s.request
  settled : ∀ a ∈ e.attempts.tail, ¬ a.Unsettled
  slot : ∀ n, e.slot = some n ↔ ∃ a, e.attempts.head? = some a ∧ a.Unsettled ∧ a.number = n
  outcome : ∀ a ∈ e.attempts, ∀ o, a.stage = .settled o →
    o.number = a.number ∧ o.value.request = a.request ∧ o.value.key = e.key
  last : e.last = e.results.head?
  lastSuccess : e.lastSuccess = e.results.find? fun o => o.value.isSuccess
  version : e.version = e.results.length

variable {s s' : Supply} {e : Executor} {a b : Attempt} {rest : List Attempt} {n : Int}

theorem Stage.outcome?_eq_some {st : Stage} {o : NumberedOutcome} :
    st.outcome? = some o ↔ st = .settled o := by
  cases st <;> simp [Stage.outcome?]

theorem Attempt.unsettled_of_stage {st : Stage} (h : a.stage = st) (hst : st.outcome? = none) :
    a.Unsettled := by
  unfold Attempt.Unsettled
  rw [h]
  exact hst

/-- One who asks finds a newer result, joins the attempt in the slot, or starts one. -/
theorem Executor.join_cases (e : Executor) (least : Int) (s : Supply) :
    (∃ o, e.join least s = (e, s, .found o) ∧ e.last = some o ∧ least < o.number) ∨
      (∃ n, e.join least s = (e, s, .joined n) ∧ e.slot = some n ∧ e.newerThan? least = none) ∨
        e.join least s = (e.start (s.number + 1) ⟨s.request + 1⟩, ⟨s.number + 1, s.request + 1⟩,
            .started (s.number + 1)) ∧ e.slot = none ∧ e.newerThan? least = none := by
  cases hn : e.newerThan? least with
  | some o =>
    obtain ⟨hl, hlt⟩ := Option.filter_eq_some_iff.1 hn
    exact .inl ⟨o, by unfold Executor.join; rw [hn], hl, by simpa using hlt⟩
  | none =>
    cases hs : e.slot with
    | some n => exact .inr (.inl ⟨n, by unfold Executor.join; rw [hn, hs], rfl, rfl⟩)
    | none => exact .inr (.inr ⟨by unfold Executor.join; rw [hn, hs]; rfl, rfl, rfl⟩)

namespace ExecutorOK

theorem mono (h : ExecutorOK s e) (hn : s.number ≤ s'.number) (hr : s.request ≤ s'.request) :
    ExecutorOK s' e := by
  refine ⟨h.ordered, ?_, h.settled, h.slot, h.outcome, h.last, h.lastSuccess, h.version⟩
  intro a ha
  have := h.drawn a ha
  omega

theorem fresh (spec : QuerySpec) (closed : Bool) : ExecutorOK s (.ofSpec spec closed) := by
  constructor <;> simp [Executor.ofSpec, Executor.results]

theorem close (h : ExecutorOK s e) : ExecutorOK s e.close :=
  ⟨h.ordered, h.drawn, h.settled, h.slot, h.outcome, h.last, h.lastSuccess, h.version⟩

/-! ## Finding attempts -/

/-- Attempts are told apart by their numbers. -/
theorem eq_of_number (h : ExecutorOK s e) (ha : a ∈ e.attempts) (hb : b ∈ e.attempts)
    (hab : a.number = b.number) : a = b := by
  have hn : (e.attempts.map Attempt.number).Nodup :=
    List.Pairwise.map _ (fun _ _ hlt => by omega) h.ordered
  exact List.inj_on_of_nodup_map hn ha hb hab

theorem attempt?_eq_some (h : ExecutorOK s e) :
    e.attempt? n = some a ↔ a ∈ e.attempts ∧ a.number = n := by
  unfold Executor.attempt?
  constructor
  · intro ha
    exact ⟨List.mem_of_find?_eq_some ha, by simpa using List.find?_some ha⟩
  · rintro ⟨ha, rfl⟩
    cases hf : e.attempts.find? fun b => b.number = a.number with
    | none => exact absurd (List.find?_eq_none.1 hf a ha) (by simp)
    | some b =>
      have hb : b.number = a.number := by simpa using List.find?_some hf
      rw [h.eq_of_number (List.mem_of_find?_eq_some hf) ha hb]

theorem stage?_eq_some (h : ExecutorOK s e) {st : Stage} :
    e.stage? n = some st ↔ ∃ a ∈ e.attempts, a.number = n ∧ a.stage = st := by
  unfold Executor.stage?
  rw [Option.map_eq_some_iff]
  constructor
  · rintro ⟨a, ha, hst⟩
    obtain ⟨hm, hn⟩ := h.attempt?_eq_some.1 ha
    exact ⟨a, hm, hn, hst⟩
  · rintro ⟨a, hm, hn, hst⟩
    exact ⟨a, h.attempt?_eq_some.2 ⟨hm, hn⟩, hst⟩

theorem rest_lt (h : ExecutorOK s e) (hl : e.attempts = a :: rest) :
    ∀ b ∈ rest, b.number < a.number := by
  intro b hb
  have hord := h.ordered
  rw [hl] at hord
  exact (List.rel_of_pairwise_cons hord hb).1

/-- **Only the youngest attempt can be without an outcome,** and then it is in the slot. -/
theorem head_of_unsettled (h : ExecutorOK s e) (ha : a ∈ e.attempts) (hu : a.Unsettled) :
    (∃ rest, e.attempts = a :: rest) ∧ e.slot = some a.number := by
  cases hl : e.attempts with
  | nil => rw [hl] at ha; simp at ha
  | cons b rest =>
    rw [hl] at ha
    rcases List.mem_cons.1 ha with rfl | hr
    · exact ⟨⟨rest, rfl⟩, (h.slot _).2 ⟨a, by rw [hl]; rfl, hu, rfl⟩⟩
    · exact absurd hu (h.settled a (by rw [hl]; exact hr))

/-- The slot holds an attempt without an outcome. -/
theorem attempt_of_slot (h : ExecutorOK s e) (hs : e.slot = some n) :
    ∃ a rest, e.attempts = a :: rest ∧ a.Unsettled ∧ a.number = n := by
  obtain ⟨a, ha, hu, hn⟩ := (h.slot n).1 hs
  obtain ⟨rest, hr⟩ := List.head?_eq_some_iff.1 ha
  exact ⟨a, rest, hr, hu, hn⟩

theorem settled_of_slot_none (h : ExecutorOK s e) (hs : e.slot = none) :
    ∀ a ∈ e.attempts, ¬ a.Unsettled := by
  intro a ha hu
  rw [(h.head_of_unsettled ha hu).2] at hs
  simp at hs

/-! ## Results -/

theorem mem_results {o : NumberedOutcome} :
    o ∈ e.results ↔ ∃ a ∈ e.attempts, a.stage = .settled o := by
  simp [Executor.results, List.mem_filterMap, Stage.outcome?_eq_some]

theorem results_cons_unsettled (hl : e.attempts = a :: rest) (hu : a.Unsettled) :
    e.results = rest.filterMap fun b => b.stage.outcome? := by
  unfold Executor.results
  rw [hl]
  exact List.filterMap_cons_none hu

/-- What is stored has a smaller number than the attempt that has no outcome yet. -/
theorem results_lt (h : ExecutorOK s e) (hl : e.attempts = a :: rest) (hu : a.Unsettled) :
    ∀ o ∈ e.results, o.number < a.number := by
  intro o ho
  rw [results_cons_unsettled hl hu, List.mem_filterMap] at ho
  obtain ⟨b, hb, hbo⟩ := ho
  have hlt := h.rest_lt hl b hb
  have hno := h.outcome b (by rw [hl]; exact List.mem_cons_of_mem _ hb) o
    (Stage.outcome?_eq_some.1 hbo)
  omega

/-- The later of two results has the larger number. -/
theorem results_ordered (h : ExecutorOK s e) :
    e.results.Pairwise fun o r => r.number < o.number := by
  refine List.Pairwise.filterMap (R := fun a b => a ∈ e.attempts ∧ b ∈ e.attempts ∧ b.number < a.number)
    _ ?_ (List.Pairwise.and_mem.1 (h.ordered.imp And.left))
  intro a b hab o ho r hr
  have h1 := h.outcome a hab.1 o (Stage.outcome?_eq_some.1 ho)
  have h2 := h.outcome b hab.2.1 r (Stage.outcome?_eq_some.1 hr)
  omega

/-! ## What an operation does -/

theorem setStage_head (hl : e.attempts = a :: rest) (hord : ∀ b ∈ rest, b.number < a.number)
    (st : Stage) : e.setStage a.number st = e.advance a rest st := by
  have hrest : rest.map (fun b => if b.number = a.number then { b with stage := st } else b) = rest := by
    refine (List.map_congr_left fun b hb => ?_).trans (List.map_id _)
    have := hord b hb
    rw [if_neg (by omega)]
    rfl
  unfold Executor.setStage Executor.advance
  rw [hl, List.map_cons, if_pos rfl, hrest]

/-- **Every outcome is stored:** the attempt that ends has a number above all that are stored. -/
theorem settle_eq (h : ExecutorOK s e) (hl : e.attempts = a :: rest) (hu : a.Unsettled)
    (result : Except Error OperationResult) :
    e.settle a result = e.store a rest (e.outcomeOf a result) := by
  have hslot : e.slot = some a.number :=
    (h.head_of_unsettled (by rw [hl]; exact List.mem_cons_self) hu).2
  have hlast : ∀ r, e.last = some r → r.number < a.number := by
    intro r hr
    rw [h.last] at hr
    exact h.results_lt hl hu r (List.mem_of_mem_head? hr)
  have hsucc : ∀ r, e.lastSuccess = some r → r.number < a.number := by
    intro r hr
    rw [h.lastSuccess] at hr
    exact h.results_lt hl hu r (List.mem_of_find?_eq_some hr)
  have hall : ∀ q : Option NumberedOutcome, (∀ r, q = some r → r.number < a.number) →
      (q.all fun r => (e.outcomeOf a result).isNewerThan r) = true := by
    intro q hq
    cases q with
    | none => rfl
    | some r => exact decide_eq_true (hq r rfl)
  have hnum : (e.outcomeOf a result).number = a.number := rfl
  unfold Executor.settle Executor.complete Executor.publish Executor.accepts
  simp only [hnum, hslot, if_true, hall _ hlast, hall _ hsucc, Bool.and_true]
  exact setStage_head (e := { e with slot := none, last := _, lastSuccess := _, version := _ }) hl
    (h.rest_lt hl) _

/-- The first step of an attempt's task changes nothing unless the attempt is new. -/
theorem begin_cases (h : ExecutorOK s e) (n : Int) :
    (e.stage? n ≠ some .spawned ∧ e.begin n = e) ∨
      ∃ a rest, e.attempts = a :: rest ∧ a.number = n ∧ a.stage = .spawned ∧
        (e.closed = false ∧ e.begin n = e.advance a rest .calling ∨
          e.closed = true ∧ e.begin n = e.store a rest (e.outcomeOf a (.error .executorClosed))) := by
  unfold Executor.begin Executor.stage?
  cases ha : e.attempt? n with
  | none => exact .inl ⟨by simp, rfl⟩
  | some a =>
    obtain ⟨hm, rfl⟩ := h.attempt?_eq_some.1 ha
    cases hst : a.stage with
    | spawned =>
      have hu := Attempt.unsettled_of_stage hst rfl
      obtain ⟨⟨rest, hl⟩, -⟩ := h.head_of_unsettled hm hu
      refine .inr ⟨a, rest, hl, rfl, hst, ?_⟩
      cases hc : e.closed with
      | false => exact .inl ⟨rfl, by simpa [hst] using setStage_head hl (h.rest_lt hl) .calling⟩
      | true => exact .inr ⟨rfl, by simpa [hst] using h.settle_eq hl hu (.error .executorClosed)⟩
    | _ => exact .inl (by simp [hst])

/-- An answer changes nothing unless the attempt waits for it. -/
theorem answer_cases (h : ExecutorOK s e) (n : Int) (reply : Reply) :
    e.answer n reply = e ∨ ∃ a rest, e.attempts = a :: rest ∧ a.number = n ∧ a.stage = .calling ∧
      e.answer n reply = e.advance a rest (.answered reply) := by
  unfold Executor.answer
  split
  · rename_i hcalling
    obtain ⟨a, hm, rfl, hst⟩ := h.stage?_eq_some.1 hcalling
    obtain ⟨⟨rest, hl⟩, -⟩ := h.head_of_unsettled hm (Attempt.unsettled_of_stage hst rfl)
    exact .inr ⟨a, rest, hl, rfl, hst, setStage_head hl (h.rest_lt hl) _⟩
  · exact .inl rfl

/-- The next step of an attempt's task changes nothing unless the backend was called: then the
attempt is cancelled, or ends in the answer that is there, or dies of it. -/
theorem resume_cases (h : ExecutorOK s e) (n : Int) :
    e.resume n = e ∨ ∃ a rest, e.attempts = a :: rest ∧ a.number = n ∧ a.isCalling ∧
      (e.closed = true ∧
          e.resume n = e.store a rest (e.outcomeOf a (.error .executionCancelled)) ∨
        e.closed = false ∧ ((∃ result, a.stage = .answered (.returned result) ∧
            e.resume n = e.store a rest (e.outcomeOf a result)) ∨
          (∃ text, a.stage = .answered (.panicked text)) ∧ e.resume n = e.advance a rest .dead)) := by
  unfold Executor.resume
  cases ha : e.attempt? n with
  | none => exact .inl rfl
  | some a =>
    obtain ⟨hm, rfl⟩ := h.attempt?_eq_some.1 ha
    cases hst : a.stage with
    | calling =>
      have hu := Attempt.unsettled_of_stage hst rfl
      obtain ⟨⟨rest, hl⟩, -⟩ := h.head_of_unsettled hm hu
      cases hc : e.closed with
      | false => exact .inl (by simp [hst])
      | true =>
        refine .inr ⟨a, rest, hl, rfl, by simp [Attempt.isCalling, hst], .inl ⟨rfl, ?_⟩⟩
        simpa [hst] using h.settle_eq hl hu (.error .executionCancelled)
    | answered reply =>
      have hu := Attempt.unsettled_of_stage hst rfl
      obtain ⟨⟨rest, hl⟩, -⟩ := h.head_of_unsettled hm hu
      refine .inr ⟨a, rest, hl, rfl, by simp [Attempt.isCalling, hst], ?_⟩
      cases hc : e.closed with
      | true => exact .inl ⟨rfl, by simpa [hst] using h.settle_eq hl hu (.error .executionCancelled)⟩
      | false =>
        refine .inr ⟨rfl, ?_⟩
        cases reply with
        | returned result =>
          exact .inl ⟨result, hst, by simpa [hst] using h.settle_eq hl hu result⟩
        | panicked text =>
          exact .inr ⟨⟨text, hst⟩, by simpa [hst] using setStage_head hl (h.rest_lt hl) .dead⟩
    | _ => exact .inl (by simp [hst])

/-- A task that dies leaves the attempt without an outcome. -/
theorem kill_cases (h : ExecutorOK s e) (n : Int) :
    e.kill n = e ∨ ∃ a rest, e.attempts = a :: rest ∧ a.number = n ∧ a.Unsettled ∧
      e.kill n = e.advance a rest .dead := by
  have hkill : ∀ st, e.stage? n = some st → st.outcome? = none →
      ∃ a rest, e.attempts = a :: rest ∧ a.number = n ∧ a.Unsettled ∧
        e.setStage n .dead = e.advance a rest .dead := by
    intro st hst hno
    obtain ⟨a, hm, rfl, rfl⟩ := h.stage?_eq_some.1 hst
    obtain ⟨⟨rest, hl⟩, -⟩ := h.head_of_unsettled hm hno
    exact ⟨a, rest, hl, rfl, hno, setStage_head hl (h.rest_lt hl) _⟩
  unfold Executor.kill
  split
  · rename_i hst; exact .inr (hkill _ hst rfl)
  · rename_i hst; exact .inr (hkill _ hst rfl)
  · rename_i hst; exact .inr (hkill _ hst rfl)
  · exact .inl rfl

/-- One who waits for an attempt gets its outcome; when its task died, the outcome is made up and
stored. -/
theorem await?_cases (h : ExecutorOK s e) {e' : Executor} {o : NumberedOutcome} {madeUp : Bool}
    (ha : e.await? n = some (e', o, madeUp)) :
    (e' = e ∧ ∃ a ∈ e.attempts, a.number = n ∧ a.stage = .settled o) ∨
      ∃ a rest, e.attempts = a :: rest ∧ a.number = n ∧ a.stage = .dead ∧
        o = e.outcomeOf a (.error .executionDropped) ∧ e' = e.store a rest o := by
  unfold Executor.await? at ha
  cases hf : e.attempt? n with
  | none => simp [hf] at ha
  | some a =>
    obtain ⟨hm, rfl⟩ := h.attempt?_eq_some.1 hf
    cases hst : a.stage with
    | settled r =>
      simp only [hf, hst, Option.some.injEq, Prod.mk.injEq] at ha
      obtain ⟨rfl, rfl, -⟩ := ha
      exact .inl ⟨rfl, a, hm, rfl, hst⟩
    | dead =>
      have hu := Attempt.unsettled_of_stage hst rfl
      obtain ⟨⟨rest, hl⟩, -⟩ := h.head_of_unsettled hm hu
      simp only [hf, hst, Option.some.injEq, Prod.mk.injEq] at ha
      obtain ⟨rfl, rfl, -⟩ := ha
      exact .inr ⟨a, rest, hl, rfl, hst, rfl, h.settle_eq hl hu _⟩
    | _ => simp [hf, hst] at ha

/-- One who waits for an attempt that has its outcome gets it. -/
theorem await?_settled (h : ExecutorOK s e) (ha : a ∈ e.attempts) {o : NumberedOutcome}
    (hst : a.stage = .settled o) : e.await? a.number = some (e, o, false) := by
  unfold Executor.await?
  rw [h.attempt?_eq_some.2 ⟨ha, rfl⟩]
  simp [hst]

theorem unsettled_of_isCalling (h : a.isCalling) : a.Unsettled := by
  unfold Attempt.isCalling at h
  unfold Attempt.Unsettled
  cases hst : a.stage <;> simp_all [Stage.outcome?]

theorem step_answer (h : ExecutorOK s e) (n : Int) (reply : Reply) : e.Step (e.answer n reply) := by
  rcases h.answer_cases n reply with hb | ⟨a, rest, hl, -, hst, hb⟩ <;> rw [hb]
  · exact .rest
  · exact .advance hl (Attempt.unsettled_of_stage hst rfl) rfl

/-! ## Well-formedness is kept -/

theorem results_advance (hl : e.attempts = a :: rest) (hu : a.Unsettled) {st : Stage}
    (hst : st.outcome? = none) : (e.advance a rest st).results = e.results := by
  rw [results_cons_unsettled hl hu]
  exact results_cons_unsettled rfl hst

theorem advance (h : ExecutorOK s e) (hl : e.attempts = a :: rest) (hu : a.Unsettled) {st : Stage}
    (hst : st.outcome? = none) : ExecutorOK s (e.advance a rest st) := by
  have hres := results_advance hl hu hst
  obtain ⟨hord, hdrawn, hset, hslot, hout, hlast, hsucc, hver⟩ := h
  rw [hl] at hord hdrawn hset hslot hout
  refine ⟨?_, ?_, hset, ?_, ?_, hlast.trans (by rw [hres]), hsucc.trans (by rw [hres]),
    hver.trans (by rw [hres])⟩
  · exact List.pairwise_cons.2 ⟨fun b hb => List.rel_of_pairwise_cons hord hb, hord.of_cons⟩
  · intro b hb
    rcases List.mem_cons.1 hb with rfl | hb
    · exact hdrawn a List.mem_cons_self
    · exact hdrawn b (List.mem_cons_of_mem _ hb)
  · intro n
    rw [show (e.advance a rest st).slot = e.slot from rfl, hslot n]
    simp [Executor.advance, hu, show ({ a with stage := st } : Attempt).Unsettled from hst]
  · intro b hb o hbo
    rcases List.mem_cons.1 hb with rfl | hb
    · rw [show ({ a with stage := st } : Attempt).stage = st from rfl] at hbo
      rw [hbo] at hst
      simp [Stage.outcome?] at hst
    · exact hout b (List.mem_cons_of_mem _ hb) o hbo

theorem results_store (hl : e.attempts = a :: rest) (hu : a.Unsettled) (o : NumberedOutcome) :
    (e.store a rest o).results = o :: e.results := by
  rw [results_cons_unsettled hl hu]
  exact List.filterMap_cons_some rfl

theorem store (h : ExecutorOK s e) (hl : e.attempts = a :: rest) (hu : a.Unsettled)
    (result : Except Error OperationResult) :
    ExecutorOK s (e.store a rest (e.outcomeOf a result)) := by
  have hres := results_store hl hu (e.outcomeOf a result)
  obtain ⟨hord, hdrawn, hset, hslot, hout, hlast, hsucc, hver⟩ := h
  rw [hl] at hord hdrawn hset hslot hout
  refine ⟨?_, ?_, hset, ?_, ?_, ?_, ?_, ?_⟩
  · exact List.pairwise_cons.2 ⟨fun b hb => List.rel_of_pairwise_cons hord hb, hord.of_cons⟩
  · intro b hb
    rcases List.mem_cons.1 hb with rfl | hb
    · exact hdrawn a List.mem_cons_self
    · exact hdrawn b (List.mem_cons_of_mem _ hb)
  · intro n
    simp [Executor.store, Attempt.Unsettled, Stage.outcome?]
  · intro b hb o hbo
    rcases List.mem_cons.1 hb with rfl | hb
    · simp only [Stage.settled.injEq] at hbo
      rw [← hbo]
      exact ⟨rfl, rfl, rfl⟩
    · exact hout b (List.mem_cons_of_mem _ hb) o hbo
  · rw [hres]; rfl
  · rw [hres, List.find?_cons]
    show (if (e.outcomeOf a result).value.isSuccess then _ else e.lastSuccess) = _
    cases (e.outcomeOf a result).value.isSuccess with
    | true => rfl
    | false => exact hsucc
  · rw [hres, List.length_cons, ← hver]; rfl

/-- An attempt is started under numbers not drawn before. -/
theorem start (h : ExecutorOK s e) (hs : e.slot = none) {r : RequestId} (hn : s.number < n)
    (hr : s.request < r.index) (hn' : n ≤ s'.number) (hr' : r.index ≤ s'.request) :
    ExecutorOK s' (e.start n r) := by
  have hres : (e.start n r).results = e.results := List.filterMap_cons_none rfl
  refine ⟨?_, ?_, h.settled_of_slot_none hs, ?_, ?_, h.last.trans (by rw [hres]),
    h.lastSuccess.trans (by rw [hres]), h.version.trans (by rw [hres])⟩
  · refine List.pairwise_cons.2 ⟨fun b hb => ?_, h.ordered⟩
    have := h.drawn b hb
    exact ⟨Int.lt_of_le_of_lt this.1 hn, Nat.lt_of_le_of_lt this.2 hr⟩
  · intro b hb
    rcases List.mem_cons.1 hb with rfl | hb
    · exact ⟨hn', hr'⟩
    · have := h.drawn b hb
      omega
  · intro m
    simp [Executor.start, Attempt.Unsettled, Stage.outcome?]
  · intro b hb o hbo
    rcases List.mem_cons.1 hb with rfl | hb
    · simp at hbo
    · exact h.outcome b hb o hbo

theorem step (h : ExecutorOK s e) {e' : Executor} (hs : e.Step e') : ExecutorOK s e' := by
  cases hs with
  | rest => exact h
  | close => exact h.close
  | advance hl hu hst => exact h.advance hl hu hst
  | store result hl hu => exact h.store hl hu result

end ExecutorOK

/-! ## Executors only grow -/

/-- **What an executor had, it keeps:** its attempts, their outcomes, and its results. -/
structure ExecutorExt (e e' : Executor) : Prop where
  spec : e'.spec = e.spec
  key : e'.key = e.key
  attempts : ∀ a ∈ e.attempts, ∃ b ∈ e'.attempts, b.number = a.number ∧ b.request = a.request ∧
    ∀ o, a.stage = .settled o → b.stage = .settled o
  results : e.results <:+ e'.results

namespace ExecutorExt

variable {e' e'' : Executor}

theorem refl (e : Executor) : ExecutorExt e e :=
  ⟨rfl, rfl, fun a ha => ⟨a, ha, rfl, rfl, fun _ h => h⟩, List.suffix_rfl⟩

theorem start (e : Executor) (n : Int) (r : RequestId) : ExecutorExt e (e.start n r) := by
  refine ⟨rfl, rfl, fun a ha => ⟨a, List.mem_cons_of_mem _ ha, rfl, rfl, fun _ h => h⟩, ?_⟩
  exact ⟨[], (List.filterMap_cons_none rfl).symm⟩

/-- An attempt without an outcome moved to another stage; the others stay as they are. -/
theorem attempts_head (hl : e.attempts = a :: rest) (hu : a.Unsettled) (st : Stage) :
    ∀ b ∈ e.attempts, ∃ c ∈ ({ a with stage := st } : Attempt) :: rest,
      c.number = b.number ∧ c.request = b.request ∧ ∀ o, b.stage = .settled o → c.stage = .settled o := by
  intro b hb
  rw [hl] at hb
  rcases List.mem_cons.1 hb with rfl | hb
  · refine ⟨_, List.mem_cons_self, rfl, rfl, fun o ho => ?_⟩
    unfold Attempt.Unsettled at hu
    rw [ho] at hu
    simp [Stage.outcome?] at hu
  · exact ⟨b, List.mem_cons_of_mem _ hb, rfl, rfl, fun _ h => h⟩

theorem step (hs : e.Step e') : ExecutorExt e e' := by
  cases hs with
  | rest => exact refl e
  | close => exact ⟨rfl, rfl, fun a ha => ⟨a, ha, rfl, rfl, fun _ h => h⟩, List.suffix_rfl⟩
  | advance hl hu hst =>
    refine ⟨rfl, rfl, attempts_head hl hu _, ?_⟩
    exact ⟨[], (ExecutorOK.results_advance hl hu hst).symm⟩
  | store result hl hu =>
    refine ⟨rfl, rfl, attempts_head hl hu _, ?_⟩
    rw [ExecutorOK.results_store hl hu]
    exact List.suffix_cons _ _

end ExecutorExt

end QueryClient
