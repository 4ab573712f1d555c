import Mathlib.Order.Hom.Basic
import QueryClient.Proofs.Executor.Attempts
import QueryClient.Query.Task

/-!
# Other names

Numbers, request identifiers, instances and tasks are names: what executors and readers do with them
is to compare them. Under other names, in the same order, they do the same.

* `Renaming`: other names, in the same order.
* `Renaming.executor`, `Renaming.updates`: an executor, and a reader, under other names.
* `executor_settle`, …, `updates_next`: **they do the same under other names.**
* `Renaming.Level`: two supplies that have drawn the same, but for what others drew.
* `Level.enter`: asking for a result.
-/

namespace QueryClient

/-- **Other names,** in the same order. -/
structure Renaming where
  number : ℤ ↪o ℤ
  request : ℕ ↪o ℕ
  inst : ℕ ↪o ℕ
  task : ℕ ↪o ℕ

namespace Renaming

/-! ## Everything under other names -/

def requestId (g : Renaming) (r : RequestId) : RequestId := ⟨g.request r.index⟩

def outcome (g : Renaming) (o : Outcome) : Outcome := { o with request := g.requestId o.request }

def numbered (g : Renaming) (o : NumberedOutcome) : NumberedOutcome := ⟨g.number o.number, g.outcome o.value⟩

def delivery (g : Renaming) (d : Delivery) : Delivery := { d with outcome := g.numbered d.outcome }

def stage (g : Renaming) : Stage → Stage
  | .settled o => .settled (g.numbered o)
  | st => st

def attempt (g : Renaming) (a : Attempt) : Attempt :=
  ⟨g.number a.number, g.requestId a.request, g.stage a.stage⟩

def executor (g : Renaming) (e : Executor) : Executor :=
  { e with
    last := e.last.map g.numbered
    lastSuccess := e.lastSuccess.map g.numbered
    slot := e.slot.map g.number
    attempts := e.attempts.map g.attempt }

def updates (g : Renaming) (u : Updates) : Updates :=
  { pending := u.pending.map g.numbered
    delivered := u.delivered.map g.number
    replayedThrough := u.replayedThrough.map g.number
    seen := u.seen }

def entry (g : Renaming) : Entry → Entry
  | .found o => .found (g.numbered o)
  | .joined n => .joined (g.number n)
  | .started n => .started (g.number n)

variable (g : Renaming) {e e' : Executor} {a : Attempt} {n : Int} {o : NumberedOutcome} {u : Updates}

/-! ## Numbers are compared -/

@[simp] theorem numbered_number (o : NumberedOutcome) : (g.numbered o).number = g.number o.number := rfl

@[simp] theorem numbered_isSuccess (o : NumberedOutcome) :
    (g.numbered o).value.isSuccess = o.value.isSuccess := rfl

@[simp] theorem numbered_isNewerThan (o p : NumberedOutcome) :
    (g.numbered o).isNewerThan (g.numbered p) = o.isNewerThan p := by
  unfold Sequenced.isNewerThan
  simp

@[simp] theorem attempt_number (a : Attempt) : (g.attempt a).number = g.number a.number := rfl

@[simp] theorem attempt_stage (a : Attempt) : (g.attempt a).stage = g.stage a.stage := rfl

@[simp] theorem executor_closed (e : Executor) : (g.executor e).closed = e.closed := rfl

/-! ## Executors -/

@[simp] theorem executor_attempt? (e : Executor) (n : Int) :
    (g.executor e).attempt? (g.number n) = (e.attempt? n).map g.attempt := by
  unfold Executor.attempt? executor
  rw [List.find?_map]
  refine congrArg (fun p => (e.attempts.find? p).map g.attempt) (funext fun a => ?_)
  simp

@[simp] theorem executor_stage? (e : Executor) (n : Int) :
    (g.executor e).stage? (g.number n) = (e.stage? n).map g.stage := by
  unfold Executor.stage?
  rw [executor_attempt?]
  cases e.attempt? n <;> rfl

theorem executor_setStage (e : Executor) (n : Int) (st : Stage) :
    (g.executor e).setStage (g.number n) (g.stage st) = g.executor (e.setStage n st) := by
  unfold Executor.setStage executor
  simp only [List.map_map]
  congr 1
  refine List.map_congr_left fun a _ => ?_
  by_cases ha : a.number = n <;> simp [ha, attempt]

theorem executor_newerThan? (e : Executor) (n : Int) :
    (g.executor e).newerThan? (g.number n) = (e.newerThan? n).map g.numbered := by
  unfold Executor.newerThan? executor
  cases e.last with
  | none => rfl
  | some o => by_cases h : n < o.number <;> simp [Option.filter, h]

theorem executor_publish (e : Executor) (o : NumberedOutcome) :
    (g.executor e).publish (g.numbered o) = g.executor (e.publish o) := by
  have haccepts : (g.executor e).accepts (g.numbered o) = e.accepts o := by
    unfold Executor.accepts executor
    cases e.last <;> simp
  have hsuccess : ((g.executor e).lastSuccess.all fun r => (g.numbered o).isNewerThan r) =
      e.lastSuccess.all fun r => o.isNewerThan r := by
    unfold executor
    cases e.lastSuccess <;> simp
  unfold Executor.publish
  rw [haccepts, hsuccess]
  cases e.accepts o with
  | false => rfl
  | true =>
    simp only [if_true, numbered_isSuccess]
    by_cases hs : (o.value.isSuccess && e.lastSuccess.all fun r => o.isNewerThan r) = true
    · simp only [hs, if_true]
      rfl
    · simp only [hs]
      rfl

theorem executor_complete (e : Executor) (o : NumberedOutcome) :
    (g.executor e).complete (g.numbered o) = g.executor (e.complete o) := by
  unfold Executor.complete
  rw [← executor_publish]
  congr 1
  unfold executor
  congr 1
  cases e.slot with
  | none => rfl
  | some n => by_cases h : n = o.number <;> simp [h]

theorem executor_settle (e : Executor) (a : Attempt) (result : Except Error OperationResult) :
    (g.executor e).settle (g.attempt a) result = g.executor (e.settle a result) := by
  have houtcome : (g.executor e).outcomeOf (g.attempt a) result = g.numbered (e.outcomeOf a result) := rfl
  unfold Executor.settle
  simp only [houtcome, executor_complete]
  exact executor_setStage g _ a.number (.settled (e.outcomeOf a result))

theorem executor_begin (e : Executor) (n : Int) :
    (g.executor e).begin (g.number n) = g.executor (e.begin n) := by
  unfold Executor.begin
  rw [executor_attempt?]
  cases e.attempt? n with
  | none => rfl
  | some a =>
    simp only [Option.map_some, attempt_stage]
    cases a.stage with
    | spawned =>
      simp only [stage, executor_closed]
      by_cases hc : e.closed
      · simp only [hc, if_true]
        exact executor_settle g e a _
      · simp only [hc]
        exact executor_setStage g e n .calling
    | _ => rfl

theorem executor_answer (e : Executor) (n : Int) (reply : Reply) :
    (g.executor e).answer (g.number n) reply = g.executor (e.answer n reply) := by
  unfold Executor.answer
  rw [executor_stage?]
  cases e.stage? n with
  | none => rfl
  | some st =>
    cases st with
    | calling => exact executor_setStage g e n (.answered reply)
    | _ => rfl

theorem executor_resume (e : Executor) (n : Int) :
    (g.executor e).resume (g.number n) = g.executor (e.resume n) := by
  unfold Executor.resume
  rw [executor_attempt?]
  cases e.attempt? n with
  | none => rfl
  | some a =>
    simp only [Option.map_some, attempt_stage]
    cases a.stage with
    | calling =>
      simp only [stage, executor_closed]
      by_cases hc : e.closed
      · simp only [hc, if_true]
        exact executor_settle g e a _
      · simp only [hc]
        rfl
    | answered reply =>
      simp only [stage, executor_closed]
      by_cases hc : e.closed
      · simp only [hc, if_true]
        exact executor_settle g e a _
      · simp only [hc]
        cases reply with
        | returned result => exact executor_settle g e a result
        | panicked text => exact executor_setStage g e n .dead
    | _ => rfl

theorem executor_attemptReady (e : Executor) (n : Int) :
    (g.executor e).attemptReady (g.number n) = e.attemptReady n := by
  unfold Executor.attemptReady
  rw [executor_stage?]
  cases e.stage? n with
  | none => rfl
  | some st => cases st <;> rfl

theorem executor_awaitReady (e : Executor) (n : Int) :
    (g.executor e).awaitReady (g.number n) = e.awaitReady n := by
  unfold Executor.awaitReady
  rw [executor_stage?]
  cases e.stage? n with
  | none => rfl
  | some st => cases st <;> rfl

theorem executor_await? (e : Executor) (n : Int) : (g.executor e).await? (g.number n) =
    (e.await? n).map fun w => (g.executor w.1, g.numbered w.2.1, w.2.2) := by
  unfold Executor.await?
  rw [executor_attempt?]
  cases e.attempt? n with
  | none => rfl
  | some a =>
    simp only [Option.map_some, attempt_stage]
    cases a.stage with
    | dead =>
      simp only [stage, Option.map_some]
      rw [executor_settle]
      rfl
    | _ => rfl

/-! ## Readers -/

theorem updates_replay (e : Executor) :
    Updates.replay (g.executor e) = (Updates.replay e).map g.numbered := by
  unfold Updates.replay executor
  cases e.lastSuccess with
  | none => cases e.last <;> rfl
  | some success =>
    cases e.last with
    | none => rfl
    | some last =>
      simp only [Option.map_some, numbered_isNewerThan]
      split <;> rfl

theorem updates_open (e : Executor) : Updates.open (g.executor e) = g.updates (.open e) := by
  unfold Updates.open updates
  simp only [updates_replay, List.getLast?_map, Option.map_map]
  rfl

theorem updates_source (u : Updates) (o : NumberedOutcome) :
    (g.updates u).source (g.numbered o) = u.source o := by
  unfold Updates.source updates
  cases u.replayedThrough <;> simp

theorem updates_ready (u : Updates) (e : Executor) : (g.updates u).ready (g.executor e) = u.ready e := by
  unfold Updates.ready updates executor
  simp

theorem updates_fresh? (u : Updates) (e : Executor) :
    (g.updates u).fresh? (g.executor e) = (u.fresh? e).map g.numbered := by
  unfold Updates.fresh? updates executor
  cases e.last with
  | none => rfl
  | some o =>
    cases u.delivered with
    | none => rfl
    | some n => by_cases h : n < o.number <;> simp [Option.filter, h]

theorem updates_next (u : Updates) (e : Executor) :
    (g.updates u).next (g.executor e) = ((g.updates (u.next e).1), (u.next e).2.map g.numbered) := by
  unfold Updates.next
  cases hp : u.pending with
  | cons o rest =>
    have hp' : (g.updates u).pending = g.numbered o :: rest.map g.numbered := by
      unfold updates
      rw [hp]
      rfl
    simp only [hp']
    rfl
  | nil =>
    have hp' : (g.updates u).pending = [] := by
      unfold updates
      rw [hp]
      rfl
    simp only [hp', updates_fresh?]
    rw [show (g.updates u).seen = u.seen from rfl, show (g.executor e).version = e.version from rfl]
    split
    · rfl
    · cases u.fresh? e <;> rfl

/-! ## Drawing -/

/-- **Two supplies that have drawn the same,** but for what others drew. -/
structure Level (s' s : Supply) : Prop where
  number : ∀ k, k ≤ s'.number ↔ g.number k ≤ s.number
  request : ∀ k, k ≤ s'.request ↔ g.request k ≤ s.request

/-- All that is drawn between two points has another name. -/
structure Names (s s₁ : Supply) : Prop where
  number : ∀ n, s.number < n → n ≤ s₁.number → ∃ k, g.number k = n
  request : ∀ r, s.request < r → r ≤ s₁.request → ∃ k, g.request k = r

namespace Level

variable {g} {s' s s₁ : Supply}

/-- The next number is drawn. -/
theorem next_number (h : g.Level s' s) (hname : ∃ k, g.number k = s.number + 1) :
    g.number (s'.number + 1) = s.number + 1 ∧
      ∀ k, k ≤ s'.number + 1 ↔ g.number k ≤ s.number + 1 := by
  obtain ⟨n, hn⟩ := hname
  -- the number before that of the new name was drawn already
  have habove : s'.number < n := by
    have := h.number n
    omega
  have hbelow : n - 1 ≤ s'.number := by
    rw [h.number]
    have hlt : g.number (n - 1) < g.number n := g.number.lt_iff_lt.2 (by omega)
    omega
  obtain rfl : n = s'.number + 1 := by omega
  refine ⟨hn, fun k => ?_⟩
  rw [← hn]
  exact g.number.le_iff_le.symm

theorem next_request (h : g.Level s' s) (hname : ∃ k, g.request k = s.request + 1) :
    g.request (s'.request + 1) = s.request + 1 ∧
      ∀ k, k ≤ s'.request + 1 ↔ g.request k ≤ s.request + 1 := by
  obtain ⟨r, hr⟩ := hname
  have habove : s'.request < r := by
    have := h.request r
    omega
  have hbelow : r - 1 ≤ s'.request := by
    rw [h.request]
    have hlt : g.request (r - 1) < g.request r := g.request.lt_iff_lt.2 (by omega)
    omega
  obtain rfl : r = s'.request + 1 := by omega
  refine ⟨hr, fun k => ?_⟩
  rw [← hr]
  exact g.request.le_iff_le.symm

/-- **Asking for a result** does the same under other names. -/
theorem enter (h : g.Level s' s) (e : Executor) (hnames : g.Names s ((g.executor e).enter s).2.1) :
    ((g.executor e).enter s).1 = g.executor (e.enter s').1 ∧
      ((g.executor e).enter s).2.2 = g.entry (e.enter s').2.2 ∧
      g.Level (e.enter s').2.1 ((g.executor e).enter s).2.1 := by
  have hdrawn : s.number < ((g.executor e).enter s).2.1.number := by
    unfold Executor.enter
    rcases (g.executor e).join_cases s.drawNumber.1 s.drawNumber.2 with ⟨o, hj, -⟩ | ⟨n, hj, -⟩ | ⟨hj, -⟩ <;>
      simp only [hj] <;> simp only [Supply.drawNumber] <;> omega
  obtain ⟨hleast, hnumber⟩ := h.next_number (hnames.number _ (Int.lt_succ _) hdrawn)
  have hlevel : g.Level s'.drawNumber.2 s.drawNumber.2 := ⟨hnumber, h.request⟩
  have hnewer : (g.executor e).newerThan? s.drawNumber.1 = (e.newerThan? s'.drawNumber.1).map g.numbered := by
    rw [← executor_newerThan?]
    exact congrArg _ hleast.symm
  have hslot : (g.executor e).slot = e.slot.map g.number := rfl
  unfold Executor.enter Executor.join at hnames ⊢
  simp only [hnewer, hslot] at hnames ⊢
  cases hn : e.newerThan? s'.drawNumber.1 with
  | some o => exact ⟨rfl, rfl, hlevel⟩
  | none =>
    cases hs : e.slot with
    | some n => exact ⟨rfl, rfl, hlevel⟩
    | none =>
      simp only [hn, hs, Option.map_none] at hnames
      -- the attempt that is started gets a number and a request
      obtain ⟨hstarted, hnumber'⟩ := hlevel.next_number (hnames.number _ (by
        show s.number < s.number + 1 + 1
        omega) (Int.le_refl _))
      obtain ⟨hrequest, hrequest'⟩ := h.next_request (hnames.request _ (Nat.lt_succ_self _) (Nat.le_refl _))
      refine ⟨?_, ?_, hnumber', hrequest'⟩
      · simp only [Option.map_none, Supply.drawNumber, Supply.drawRequest, executor, attempt, requestId,
          Option.map_some, List.map_cons, hrequest]
        rw [show g.number (s'.number + 1 + 1) = s.number + 1 + 1 from hstarted]
        rfl
      · simp only [Option.map_none, Supply.drawNumber, entry]
        rw [show g.number (s'.number + 1 + 1) = s.number + 1 + 1 from hstarted]

end Level

end Renaming

end QueryClient
