import QueryClient.Proofs.Executor.Desk
import QueryClient.Proofs.Mutation.Executions

/-!
# The course of an execution

What is seen of an execution is at most one call of the backend, for its own operation and variables and under
a request that no other call carries, and then its end. It ends in what the backend replied to this very call,
or is cancelled with its manager, or is abandoned; and it makes no call when its manager is closed before.

* `MutationDesk`: a manager with the backend's replies; executions go on in any order.
* `MutationAct`, `MutationDesk.acts_step`: **every event is made of acts.**
* `ExecutionCourse`: the course of an execution, by its stage and by what was seen of it.
* `MutationDesk.Straight`: every execution has gone its own course; `MutationAct.straight`.
-/

namespace QueryClient

/-- The execution that is seen. -/
def MutationNote.execution : MutationNote → TaskId
  | .called u .. | .ended u _ => u

/-- The call that is seen, and whose it is. -/
def MutationNote.call? : MutationNote → Option (TaskId × BackendCall)
  | .called u operation vars request => some (u, ⟨request, operation, vars⟩)
  | .ended .. => none

namespace MutationManager

/-- **What was seen of an execution,** in order. -/
def notesOf (m : MutationManager) (u : TaskId) : List MutationNote := m.journal.filter fun n => n.execution = u

/-- **The calls of the backend,** in order, and whose they are. -/
def calls (m : MutationManager) : List (TaskId × BackendCall) := m.journal.filterMap MutationNote.call?

/-- The requests that calls carry. -/
def requests (m : MutationManager) : List RequestId := m.calls.map fun c => c.2.request

/-- The backend is called for an execution, under the next request. -/
def call (m : MutationManager) (u : TaskId) (x : Execution) : MutationManager :=
  ({ m with supply := m.supply.drawRequest.2 }.setStage u (.calling m.supply.drawRequest.1)).note
    (.called u x.operation x.vars m.supply.drawRequest.1)

end MutationManager

/-- A manager of mutations, and the backend's replies. -/
structure MutationDesk where
  manager : MutationManager := {}
  /-- Each reply with the request that it answers. -/
  replies : List (RequestId × Reply) := []

/-- What happens at a desk of mutations. -/
inductive MutationMove where
  | event (ev : MutationEvent)
  /-- An execution goes on, whoever's turn it is. -/
  | goOn (execution : TaskId)
  /-- The manager is closed. -/
  | close

namespace MutationDesk

/-- The reply to a call that waits for one. -/
def heard (d : MutationDesk) : MutationEvent → List (RequestId × Reply)
  | .answer u reply | .answerNow u reply =>
    match d.manager.stage? u with
    | some (.calling request) => [(request, reply)]
    | _ => []
  | _ => []

/-- **What happens to a desk of mutations.** -/
def step (d : MutationDesk) : MutationMove → MutationDesk
  | .event ev => ⟨d.manager.step ev, d.replies ++ d.heard ev⟩
  | .goOn u => { d with manager := d.manager.runExecution u }
  | .close => { d with manager := d.manager.cancel }

end MutationDesk

/-- The execution whose turn it is. -/
def MutationMove.turn? (m : MutationManager) : MutationMove → Option TaskId
  | .event .poll => m.queue.head?
  | .event (.abort u) | .event (.answer u _) | .event (.answerNow u _) | .goOn u => some u
  | _ => none

/-- **What executions do,** and what is done to them. It is given whose turn it is, and who may be abandoned. -/
inductive MutationAct (turn gone : TaskId → Prop) : MutationDesk → MutationDesk → Prop where
  | draw {m : MutationManager} {replies : List (RequestId × Reply)} (s : Supply)
      (hn : m.supply.number ≤ s.number) (hr : m.supply.request ≤ s.request) :
      MutationAct turn gone ⟨m, replies⟩ ⟨{ m with supply := s }, replies⟩
  | queue {m : MutationManager} {replies : List (RequestId × Reply)} (queue : List TaskId) :
      MutationAct turn gone ⟨m, replies⟩ ⟨{ m with queue }, replies⟩
  | close {m : MutationManager} {replies : List (RequestId × Reply)} :
      MutationAct turn gone ⟨m, replies⟩ ⟨{ m with cancelled := true }, replies⟩
  | arrive {m : MutationManager} {replies : List (RequestId × Reply)} (operation : String) (vars : Struct) :
      MutationAct turn gone ⟨m, replies⟩
        ⟨{ m with executions := m.executions ++ [{ operation, vars }] }, replies⟩
  | call {m : MutationManager} {replies : List (RequestId × Reply)} {u : TaskId} {x : Execution}
      (ht : turn u) (hx : m.executions[u]? = some x) (hst : x.stage = .arriving) (hopen : m.cancelled = false) :
      MutationAct turn gone ⟨m, replies⟩ ⟨m.call u x, replies⟩
  | hear {m : MutationManager} {replies : List (RequestId × Reply)} {u : TaskId} {x : Execution}
      {request : RequestId} (ht : turn u) (hx : m.executions[u]? = some x) (hst : x.stage = .calling request)
      (reply : Reply) :
      MutationAct turn gone ⟨m, replies⟩ ⟨m.setStage u (.answered request reply), replies ++ [(request, reply)]⟩
  | finish {m : MutationManager} {replies : List (RequestId × Reply)} {u : TaskId} {x : Execution}
      {ending : Ending MutationOutcome} (ht : turn u) (hx : m.executions[u]? = some x)
      (hstep : ExecutionStep m.cancelled (gone u) x.stage (.ended ending)) :
      MutationAct turn gone ⟨m, replies⟩ ⟨m.finish u ending, replies⟩

/-- What happens until something waits again. -/
abbrev MutationActs (turn gone : TaskId → Prop) : MutationDesk → MutationDesk → Prop :=
  Relation.ReflTransGen (MutationAct turn gone)

variable {turn gone gone' : TaskId → Prop} {d d' : MutationDesk} {m m' : MutationManager} {u v : TaskId}
variable {x : Execution} {replies replies' : List (RequestId × Reply)}

/-! ## Events are made of acts -/

namespace MutationActs

theorem runExecution (m : MutationManager) (ht : turn u) :
    MutationActs turn gone ⟨m, replies⟩ ⟨m.runExecution u, replies⟩ := by
  unfold MutationManager.runExecution
  split
  · exact .refl
  rename_i x hx
  split
  · rename_i hst
    split
    · rename_i hc
      exact .single (.finish ht hx (by rw [hst]; exact .refused hc))
    · rename_i hc
      exact .single (.call ht hx hst (by simpa using hc))
  · rename_i hst
    split
    · rename_i hc
      exact .single (.finish ht hx (.cancelled hc (by rw [hst]; rfl)))
    · exact .refl
  · rename_i hst
    split
    · rename_i hc
      exact .single (.finish ht hx (.cancelled hc (by rw [hst]; rfl)))
    · rename_i hc
      exact .single (.finish ht hx (by rw [hst]; exact .taken (by simpa using hc) _ _))
  · exact .refl

theorem abort (m : MutationManager) (ht : turn u) (hg : gone u) :
    MutationActs turn gone ⟨m, replies⟩ ⟨m.abort u, replies⟩ := by
  unfold MutationManager.abort
  split
  · exact .refl
  · exact .refl
  · rename_i hended hnone
    obtain ⟨st, hst⟩ := Option.ne_none_iff_exists'.1 hnone
    obtain ⟨x, hx, rfl⟩ := Option.map_eq_some_iff.1 hst
    exact .single (.finish ht hx (.dropped hg fun ending h => hended ending (by rw [hst, h])))

/-- A reply reaches a call that waits for one. -/
theorem setReply (m : MutationManager) (ht : turn u) (reply : Reply) : MutationActs turn gone ⟨m, replies⟩
    ⟨m.setReply u reply, replies ++ MutationDesk.heard ⟨m, replies⟩ (.answer u reply)⟩ := by
  unfold MutationManager.setReply MutationDesk.heard
  cases hst : m.stage? u with
  | none => simpa [hst] using Relation.ReflTransGen.refl
  | some st =>
    cases st with
    | calling request =>
      obtain ⟨x, hx, hst'⟩ := Option.map_eq_some_iff.1 hst
      simpa [hst] using Relation.ReflTransGen.single (MutationAct.hear ht hx hst' reply)
    | _ => simpa [hst] using Relation.ReflTransGen.refl

theorem wakes (h : MutationManager.Wakes m m') : MutationActs turn gone ⟨m, replies⟩ ⟨m', replies⟩ := by
  rw [h.frame]
  exact .single (.queue _)

end MutationActs

/-- **Every event is made of acts** of the execution whose turn it is. -/
theorem MutationDesk.acts_step (d : MutationDesk) {move : MutationMove}
    (hgone : ∀ u, move = .event (.abort u) → gone u) :
    MutationActs (fun u => move.turn? d.manager = some u) gone d (d.step move) := by
  obtain ⟨m, replies⟩ := d
  have hnone : ∀ {turn m'}, MutationActs turn gone ⟨m, replies⟩ ⟨m', replies⟩ →
      MutationActs turn gone ⟨m, replies⟩ ⟨m', replies ++ []⟩ := fun h => by rwa [List.append_nil]
  cases move with
  | goOn u => exact .runExecution m rfl
  | close => exact Relation.ReflTransGen.head .close (MutationActs.wakes (MutationManager.wakes_cancel m))
  | event ev =>
    cases ev with
    | drawn requests =>
      exact hnone (.single (.draw ⟨m.supply.number, m.supply.request + requests⟩ (Int.le_refl _)
        (Nat.le_add_right _ _)))
    | poll =>
      refine hnone ?_
      show MutationActs _ gone _ ⟨m.poll, replies⟩
      unfold MutationManager.poll
      split
      · exact .refl
      · rename_i u rest hq
        have ht : MutationMove.turn? m (.event .poll) = some u := congrArg List.head? hq
        exact Relation.ReflTransGen.head (.queue _) (MutationActs.runExecution _ ht)
    | execute operation vars =>
      exact hnone (Relation.ReflTransGen.head (.arrive operation vars) (.single (.queue _)))
    | abort u => exact hnone (.abort m rfl (hgone u rfl))
    | answer u reply =>
      exact Relation.ReflTransGen.trans (MutationActs.setReply m (by rfl) reply)
        (MutationActs.wakes (.wakeExecution _ u))
    | answerNow u reply =>
      exact Relation.ReflTransGen.trans (MutationActs.setReply m (by rfl) reply)
        (MutationActs.runExecution _ (by rfl))

/-! ## Courses -/

/-- What has ended does nothing. -/
theorem ExecutionStep.not_of_ended {closed : Bool} {p : Prop} {ending : Ending MutationOutcome}
    {st : ExecutionStage} : ¬ ExecutionStep closed p (.ended ending) st := by
  intro hstep
  cases hstep with
  | cancelled hc hcalling => simp [ExecutionStage.isCalling] at hcalling
  | dropped hg hno => exact hno ending rfl

/-- **What an execution can end in** that called the backend under the given request. -/
inductive Verdict (closed : Bool) (gone : Prop) (replies : List (RequestId × Reply)) (request : RequestId) :
    Ending MutationOutcome → Prop where
  /-- What the backend replied to this call. -/
  | answer {reply : Reply} (h : (request, reply) ∈ replies) :
      Verdict closed gone replies request (MutationManager.ending request reply)
  | cancelled (hc : closed) : Verdict closed gone replies request (.returned (.error .mutationCancelled))
  | dropped (hg : gone) : Verdict closed gone replies request .dropped

/-- **The course of an execution:** how far it is, and what was seen of it. -/
inductive ExecutionCourse (closed : Bool) (gone : Prop) (replies : List (RequestId × Reply)) (u : TaskId) (x : Execution) :
    List MutationNote → Prop where
  | arriving (hst : x.stage = .arriving) : ExecutionCourse closed gone replies u x []
  | calling {request : RequestId} (hst : x.stage = .calling request)
      (hnew : ∀ reply, (request, reply) ∉ replies) :
      ExecutionCourse closed gone replies u x [.called u x.operation x.vars request]
  | answered {request : RequestId} {reply : Reply} (hst : x.stage = .answered request reply)
      (hreply : (request, reply) ∈ replies) :
      ExecutionCourse closed gone replies u x [.called u x.operation x.vars request]
  /-- It found the manager closed. -/
  | refused (hst : x.stage = .ended (.returned (.error .mutationsClosed))) (hc : closed) :
      ExecutionCourse closed gone replies u x [.ended u (.returned (.error .mutationsClosed))]
  /-- It was abandoned before it went on. -/
  | abandoned (hst : x.stage = .ended .dropped) (hg : gone) :
      ExecutionCourse closed gone replies u x [.ended u .dropped]
  | finished {request : RequestId} {ending : Ending MutationOutcome} (hst : x.stage = .ended ending)
      (hverdict : Verdict closed gone replies request ending) :
      ExecutionCourse closed gone replies u x [.called u x.operation x.vars request, .ended u ending]

namespace ExecutionCourse

variable {closed closed' : Bool} {p p' : Prop} {notes : List MutationNote} {request : RequestId}

/-- A course is not changed by what happens to others. -/
theorem mono (h : ExecutionCourse closed p replies u x notes) (hc : closed → closed') (hp : p → p')
    (hr : ∀ c ∈ replies, c ∈ replies')
    (hnew : ∀ request, x.stage = .calling request → ∀ reply, (request, reply) ∉ replies →
      (request, reply) ∉ replies') : ExecutionCourse closed' p' replies' u x notes := by
  cases h with
  | arriving hst => exact .arriving hst
  | calling hst hno => exact .calling hst fun reply => hnew _ hst reply (hno reply)
  | answered hst hreply => exact .answered hst (hr _ hreply)
  | refused hst hclosed => exact .refused hst (hc hclosed)
  | abandoned hst hg => exact .abandoned hst (hp hg)
  | finished hst hverdict =>
    refine .finished hst ?_
    cases hverdict with
    | answer h => exact .answer (hr _ h)
    | cancelled hclosed => exact .cancelled (hc hclosed)
    | dropped hg => exact .dropped (hp hg)

/-- An execution that waits for the backend has called it. -/
theorem called (h : ExecutionCourse closed p replies u x notes) (hst : x.stage = .calling request) :
    notes = [.called u x.operation x.vars request] ∧ ∀ reply, (request, reply) ∉ replies := by
  cases h with
  | calling hst' hnew =>
    obtain rfl := ExecutionStage.calling.inj (hst.symm.trans hst')
    exact ⟨rfl, hnew⟩
  | arriving hst' | answered hst' | refused hst' | abandoned hst' | finished hst' => simp [hst] at hst'

/-- An execution that arrives has not been seen. -/
theorem unseen (h : ExecutionCourse closed p replies u x notes) (hst : x.stage = .arriving) : notes = [] := by
  cases h with
  | arriving => rfl
  | calling hst' | answered hst' | refused hst' | abandoned hst' | finished hst' => simp [hst] at hst'

/-- **An execution ends in one of the ways that its course allows.** -/
theorem finish {ending : Ending MutationOutcome} (h : ExecutionCourse closed p replies u x notes)
    (hstep : ExecutionStep closed p x.stage (.ended ending)) :
    ExecutionCourse closed p replies u { x with stage := .ended ending } (notes ++ [.ended u ending]) := by
  cases h with
  | arriving hst =>
    rw [hst] at hstep
    cases hstep with
    | refused hc => exact .refused rfl hc
    | cancelled hc hcalling => simp [ExecutionStage.isCalling] at hcalling
    | dropped hg => exact .abandoned rfl hg
  | calling hst =>
    rw [hst] at hstep
    cases hstep with
    | cancelled hc => exact .finished rfl (.cancelled hc)
    | dropped hg => exact .finished rfl (.dropped hg)
  | answered hst hreply =>
    rw [hst] at hstep
    cases hstep with
    | cancelled hc => exact .finished rfl (.cancelled hc)
    | taken => exact .finished rfl (.answer hreply)
    | dropped hg => exact .finished rfl (.dropped hg)
  | refused hst | abandoned hst | finished hst =>
    rw [hst] at hstep
    exact absurd hstep ExecutionStep.not_of_ended

end ExecutionCourse

/-! ## Every execution goes its own course -/

/-- **All goes straight at a desk of mutations.** -/
structure MutationDesk.Straight (gone : TaskId → Prop) (d : MutationDesk) : Prop where
  courses : ∀ (u : TaskId) x, d.manager.executions[u]? = some x →
    ExecutionCourse d.manager.cancelled (gone u) d.replies u x (d.manager.notesOf u)
  /-- Nobody else is seen. -/
  known : ∀ n ∈ d.manager.journal, n.execution < d.manager.executions.length
  drawn : ∀ request ∈ d.manager.requests, request.index ≤ d.manager.supply.request
  /-- No two calls carry the same request, -/
  nodup : d.manager.requests.Nodup
  /-- and none is answered twice. -/
  once : (d.replies.map Prod.fst).Nodup
  asked : ∀ c ∈ d.replies, c.1 ∈ d.manager.requests

namespace MutationManager

theorem notesOf_note_self (m : MutationManager) {n : MutationNote} (h : n.execution = u) :
    (m.note n).notesOf u = m.notesOf u ++ [n] := by
  unfold notesOf note
  rw [List.filter_append, List.filter_cons_of_pos (by simpa using h), List.filter_nil]

theorem notesOf_note_ne (m : MutationManager) {n : MutationNote} (h : n.execution ≠ u) :
    (m.note n).notesOf u = m.notesOf u := by
  unfold notesOf note
  rw [List.filter_append, List.filter_cons_of_neg (by simpa using h), List.filter_nil, List.append_nil]

theorem calls_note (m : MutationManager) (n : MutationNote) : (m.note n).calls = m.calls ++ n.call?.toList := by
  unfold calls note
  rw [List.filterMap_append]
  cases h : n.call? <;> simp [h]

theorem notesOf_call_self (m : MutationManager) (u : TaskId) (x : Execution) :
    (m.call u x).notesOf u = m.notesOf u ++ [.called u x.operation x.vars ⟨m.supply.request + 1⟩] :=
  notesOf_note_self _ rfl

theorem notesOf_call_ne (m : MutationManager) (x : Execution) (h : v ≠ u) : (m.call u x).notesOf v = m.notesOf v :=
  notesOf_note_ne _ (Ne.symm h)

theorem requests_call (m : MutationManager) (u : TaskId) (x : Execution) :
    (m.call u x).requests = m.requests ++ [⟨m.supply.request + 1⟩] := by
  unfold requests call
  rw [calls_note, List.map_append]
  rfl

theorem notesOf_finish_self (m : MutationManager) (u : TaskId) (ending : Ending MutationOutcome) :
    (m.finish u ending).notesOf u = m.notesOf u ++ [.ended u ending] :=
  notesOf_note_self _ rfl

theorem notesOf_finish_ne (m : MutationManager) (ending : Ending MutationOutcome) (h : v ≠ u) :
    (m.finish u ending).notesOf v = m.notesOf v :=
  notesOf_note_ne _ (Ne.symm h)

theorem requests_finish (m : MutationManager) (u : TaskId) (ending : Ending MutationOutcome) :
    (m.finish u ending).requests = m.requests := by
  unfold requests finish
  rw [calls_note]
  exact congrArg _ (List.append_nil _)

theorem mem_calls {request : RequestId} (h : MutationNote.called u x.operation x.vars request ∈ m.notesOf u) :
    (u, ⟨request, x.operation, x.vars⟩) ∈ m.calls :=
  List.mem_filterMap.2 ⟨_, (List.mem_filter.1 h).1, rfl⟩

end MutationManager

namespace MutationDesk.Straight

theorem init : Straight gone {} := by
  constructor <;> simp [MutationManager.requests, MutationManager.calls]

/-- Who calls under the same request is the same. -/
theorem caller_unique (h : Straight gone d) {c c' : BackendCall} (hc : (u, c) ∈ d.manager.calls)
    (hc' : (v, c') ∈ d.manager.calls) (hr : c.request = c'.request) : u = v :=
  (Prod.ext_iff.1 (List.inj_on_of_nodup_map h.nodup hc hc' hr)).1

/-- One execution goes on, and what is seen is of this one. -/
theorem courses_move (h : Straight gone ⟨m, replies⟩) {st : ExecutionStage} (hx : m.executions[u]? = some x)
    (hexec : m'.executions = (m.setStage u st).executions) (hc : m'.cancelled = m.cancelled)
    (hothers : ∀ v ≠ u, m'.notesOf v = m.notesOf v) (hr : ∀ c ∈ replies, c ∈ replies')
    (hnew : ∀ v ≠ u, ∀ y request, m.executions[v]? = some y → y.stage = .calling request →
      ∀ reply, (request, reply) ∉ replies → (request, reply) ∉ replies')
    (hown : ExecutionCourse m.cancelled (gone u) replies' u { x with stage := st } (m'.notesOf u)) :
    ∀ (v : TaskId) y, m'.executions[v]? = some y →
      ExecutionCourse m'.cancelled (gone v) replies' v y (m'.notesOf v) := by
  intro v y hy
  rw [hexec, MutationManager.getElem?_setStage] at hy
  obtain ⟨z, hz, rfl⟩ := Option.map_eq_some_iff.1 hy
  rw [hc]
  by_cases huv : u = v
  · -- a place has one execution
    subst huv
    obtain rfl := Option.some.inj (hx.symm.trans hz)
    simpa using hown
  · rw [hothers v (Ne.symm huv), if_neg huv]
    exact (h.courses v z hz).mono id id hr fun request hst => hnew v (Ne.symm huv) z request hz hst

/-- An execution that is there is seen. -/
theorem known_note (h : Straight gone ⟨m, replies⟩) {n : MutationNote} (hx : m.executions[u]? = some x)
    (hn : n.execution = u) {st : ExecutionStage} (hexec : m'.executions = (m.setStage u st).executions)
    (hj : m'.journal = m.journal) :
    ∀ n' ∈ (m'.note n).journal, n'.execution < (m'.note n).executions.length := by
  intro n' hmem
  have hlen : (m'.note n).executions.length = m.executions.length := by
    show m'.executions.length = _
    rw [hexec]
    exact List.length_modify ..
  rw [hlen]
  rcases List.mem_append.1 hmem with hmem | hmem
  · rw [hj] at hmem
    exact h.known n' hmem
  · rw [List.mem_singleton.1 hmem, hn]
    exact (List.getElem?_eq_some_iff.1 hx).1

/-- A new execution has not been seen. -/
theorem arrive (h : Straight gone ⟨m, replies⟩) (operation : String) (vars : Struct) :
    Straight gone ⟨{ m with executions := m.executions ++ [{ operation, vars }] }, replies⟩ := by
  refine { h with courses := fun u x hx => ?_, known := fun n hn => ?_ }
  · have hx : (m.executions ++ [({ operation, vars } : Execution)])[u]? = some x := hx
    rcases Nat.lt_or_ge u m.executions.length with hlt | hge
    · exact h.courses u x ((List.getElem?_append_left hlt).symm.trans hx)
    · rw [List.getElem?_append_right hge] at hx
      obtain rfl := List.mem_singleton.1 (List.mem_of_getElem? hx)
      -- nobody has been seen of whom there was none
      have hnone : m.notesOf u = [] := List.filter_eq_nil_iff.2 fun n hn => by
        simpa using Nat.ne_of_lt (Nat.lt_of_lt_of_le (h.known n hn) hge)
      show ExecutionCourse _ _ _ u _ (m.notesOf u)
      rw [hnone]
      exact .arriving rfl
  · have := h.known n hn
    show _ < (m.executions ++ [_]).length
    rw [List.length_append]
    exact Nat.lt_succ_of_lt this

/-- The request of a call is new. -/
theorem call (h : Straight gone ⟨m, replies⟩) (hx : m.executions[u]? = some x) (hst : x.stage = .arriving) :
    Straight gone ⟨m.call u x, replies⟩ := by
  -- all requests that calls carry have been drawn before
  have hnew : ⟨m.supply.request + 1⟩ ∉ m.requests := fun hm => Nat.not_succ_le_self _ (h.drawn _ hm)
  refine ⟨h.courses_move hx rfl rfl (fun v hv => m.notesOf_call_ne x hv) (fun _ hc => hc)
    (fun _ _ _ _ _ _ _ hn => hn) ?_, h.known_note hx rfl rfl rfl, fun request hm => ?_, ?_, h.once, fun c hc => ?_⟩
  · rw [MutationManager.notesOf_call_self, (h.courses u x hx).unseen hst]
    exact .calling rfl fun reply hreply => hnew (h.asked _ hreply)
  · rw [MutationManager.requests_call] at hm
    rcases List.mem_append.1 hm with hm | hm
    · exact Nat.le_succ_of_le (h.drawn request hm)
    · rw [List.mem_singleton.1 hm]
      exact Nat.le_refl _
  · rw [MutationManager.requests_call]
    refine List.nodup_append.2 ⟨h.nodup, List.nodup_singleton _, fun a ha b hb hab => hnew ?_⟩
    rw [hab, List.mem_singleton.1 hb] at ha
    exact ha
  · rw [MutationManager.requests_call]
    exact List.mem_append_left _ (h.asked c hc)

/-- A call that waits is answered for the first time. -/
theorem hear {request : RequestId} (h : Straight gone ⟨m, replies⟩) (hx : m.executions[u]? = some x)
    (hst : x.stage = .calling request) (reply : Reply) :
    Straight gone ⟨m.setStage u (.answered request reply), replies ++ [(request, reply)]⟩ := by
  obtain ⟨hnotes, hnone⟩ := (h.courses u x hx).called hst
  have hcall := MutationManager.mem_calls (x := x) (by rw [hnotes]; exact List.mem_cons_self)
  refine ⟨h.courses_move hx rfl rfl (fun v hv => rfl) (fun c hc => List.mem_append_left _ hc)
    (fun v hv y other hy hcalling reply' hno hmem => ?_) ?_, fun n hn => ?_, h.drawn, h.nodup, ?_, fun c hc => ?_⟩
  · -- another call that waits carries another request
    have heq := List.mem_singleton.1 ((List.mem_append.1 hmem).resolve_left hno)
    obtain ⟨hnotes', -⟩ := (h.courses v y hy).called hcalling
    have hcall' := MutationManager.mem_calls (x := y) (by rw [hnotes']; exact List.mem_cons_self)
    exact hv (h.caller_unique hcall' hcall (Prod.ext_iff.1 heq).1)
  · rw [show (m.setStage u (.answered request reply)).notesOf u = m.notesOf u from rfl, hnotes]
    exact .answered rfl (List.mem_append_right _ List.mem_cons_self)
  · exact Nat.lt_of_lt_of_eq (h.known n hn) (List.length_modify ..).symm
  · rw [List.map_append]
    refine List.nodup_append.2 ⟨h.once, List.nodup_singleton _, fun a ha b hb hab => ?_⟩
    obtain ⟨⟨other, reply'⟩, hc, rfl⟩ := List.mem_map.1 ha
    obtain rfl : other = request := hab.trans (List.mem_singleton.1 hb)
    exact hnone reply' hc
  · rcases List.mem_append.1 hc with hc | hc
    · exact h.asked c hc
    · rw [List.mem_singleton.1 hc]
      exact List.mem_map_of_mem hcall

/-- An execution ends. -/
theorem finish {ending : Ending MutationOutcome} (h : Straight gone ⟨m, replies⟩) (hx : m.executions[u]? = some x)
    (hstep : ExecutionStep m.cancelled (gone u) x.stage (.ended ending)) :
    Straight gone ⟨m.finish u ending, replies⟩ := by
  have hrequests := m.requests_finish u ending
  refine ⟨h.courses_move hx rfl rfl (fun v hv => m.notesOf_finish_ne ending hv) (fun _ hc => hc)
    (fun _ _ _ _ _ _ _ hn => hn) ?_, h.known_note hx rfl rfl rfl, ?_, ?_, h.once, ?_⟩
  · rw [MutationManager.notesOf_finish_self]
    exact (h.courses u x hx).finish hstep
  · rw [hrequests]; exact h.drawn
  · rw [hrequests]; exact h.nodup
  · rw [hrequests]; exact h.asked

end MutationDesk.Straight

/-- **Every act keeps executions on their course.** -/
theorem MutationAct.straight (hact : MutationAct turn gone d d') (h : d.Straight gone) : d'.Straight gone := by
  cases hact with
  | draw s hn hr => exact { h with drawn := fun request hm => Nat.le_trans (h.drawn request hm) hr }
  | queue queue => exact { h with }
  | close =>
    exact { h with
      courses := fun u x hx => (h.courses u x hx).mono (fun _ => rfl) id (fun _ hc => hc) fun _ _ _ hn => hn }
  | arrive operation vars => exact h.arrive operation vars
  | call _ hx hst _ => exact h.call hx hst
  | hear _ hx hst reply => exact h.hear hx hst reply
  | finish _ hx hstep => exact h.finish hx hstep

/-- **An execution stays what it is,** and where it is, too, unless it is its turn. -/
theorem MutationAct.kept (hact : MutationAct turn gone d d') (hx : d.manager.executions[u]? = some x) :
    (∃ st, d'.manager.executions[u]? = some { x with stage := st }) ∧
      (¬ turn u → d'.manager.executions[u]? = some x ∧ d'.manager.notesOf u = d.manager.notesOf u) := by
  have hsame : ∀ {xs : List Execution}, xs[u]? = some x → ∃ st, xs[u]? = some { x with stage := st } :=
    fun h => ⟨x.stage, h⟩
  have hset : ∀ {m : MutationManager} {v st}, m.executions[u]? = some x →
      (∃ st', (m.setStage v st).executions[u]? = some { x with stage := st' }) ∧
        (u ≠ v → (m.setStage v st).executions[u]? = some x) := by
    intro m v st hx
    rw [MutationManager.getElem?_setStage, hx]
    by_cases hv : v = u
    · exact ⟨⟨st, by simp [hv]⟩, fun hne => absurd hv.symm hne⟩
    · exact ⟨⟨x.stage, by simp [hv]⟩, fun _ => by simp [hv]⟩
  cases hact with
  | draw s hn hr => exact ⟨hsame hx, fun _ => ⟨hx, rfl⟩⟩
  | queue queue => exact ⟨hsame hx, fun _ => ⟨hx, rfl⟩⟩
  | close => exact ⟨hsame hx, fun _ => ⟨hx, rfl⟩⟩
  | @arrive m replies operation vars =>
    have hold : (m.executions ++ [({ operation, vars } : Execution)])[u]? = some x :=
      (List.getElem?_append_left (List.getElem?_eq_some_iff.1 hx).1).trans hx
    exact ⟨hsame hold, fun _ => ⟨hold, rfl⟩⟩
  | @call m replies v y ht _ _ _ =>
    refine ⟨(hset hx).1, fun hturn => ?_⟩
    have hne : u ≠ v := fun heq => hturn (heq ▸ ht)
    exact ⟨(hset hx).2 hne, m.notesOf_call_ne y hne⟩
  | @hear m replies v y request ht _ _ reply =>
    exact ⟨(hset hx).1, fun hturn => ⟨(hset hx).2 fun heq => hturn (heq ▸ ht), rfl⟩⟩
  | @finish m replies v y ending ht _ _ =>
    refine ⟨(hset hx).1, fun hturn => ?_⟩
    have hne : u ≠ v := fun heq => hturn (heq ▸ ht)
    exact ⟨(hset hx).2 hne, m.notesOf_finish_ne ending hne⟩

/-- **New calls carry new requests,** what was seen stays seen, and a manager that has been closed stays closed. -/
structure MutationDesk.GoesForward (d d' : MutationDesk) : Prop where
  number : d.manager.supply.number ≤ d'.manager.supply.number
  request : d.manager.supply.request ≤ d'.manager.supply.request
  requests : ∀ r ∈ d'.manager.requests, r ∈ d.manager.requests ∨ d.manager.supply.request < r.index
  journal : d.manager.journal <+: d'.manager.journal
  closed : d.manager.cancelled → d'.manager.cancelled

theorem MutationDesk.GoesForward.refl (d : MutationDesk) : d.GoesForward d :=
  ⟨Int.le_refl _, Nat.le_refl _, fun _ h => .inl h, List.prefix_rfl, id⟩

theorem MutationAct.goesForward (hact : MutationAct turn gone d d') : d.GoesForward d' := by
  cases hact with
  | draw s hn hr => exact ⟨hn, hr, fun r h => .inl h, List.prefix_rfl, id⟩
  | queue | arrive | hear => exact { MutationDesk.GoesForward.refl _ with }
  | close => exact { MutationDesk.GoesForward.refl _ with closed := fun _ => rfl }
  | @call m replies u x =>
    refine ⟨Int.le_refl _, Nat.le_succ _, fun r h => ?_, List.prefix_append .., id⟩
    rw [MutationManager.requests_call] at h
    refine (List.mem_append.1 h).imp_right fun h => ?_
    rw [List.mem_singleton.1 h]
    exact Nat.lt_succ_self _
  | @finish m replies u x ending =>
    refine ⟨Int.le_refl _, Nat.le_refl _, fun r h => .inl ?_, List.prefix_append .., id⟩
    rwa [MutationManager.requests_finish] at h

namespace MutationActs

variable (h : MutationActs turn gone d d')
include h

theorem straight (hd : d.Straight gone) : d'.Straight gone := by
  induction h with
  | refl => exact hd
  | tail _ hact ih => exact hact.straight ih

theorem goesForward : d.GoesForward d' := by
  induction h with
  | refl => exact .refl _
  | tail _ hact ih =>
    have hnext := hact.goesForward
    refine ⟨Int.le_trans ih.number hnext.number, Nat.le_trans ih.request hnext.request, fun r hr => ?_,
      ih.journal.trans hnext.journal, fun hc => hnext.closed (ih.closed hc)⟩
    rcases hnext.requests r hr with hr | hlt
    · exact ih.requests r hr
    · exact .inr (Nat.lt_of_le_of_lt ih.request hlt)

theorem kept (hx : d.manager.executions[u]? = some x) :
    (∃ st, d'.manager.executions[u]? = some { x with stage := st }) ∧
      (¬ turn u → d'.manager.executions[u]? = some x ∧ d'.manager.notesOf u = d.manager.notesOf u) := by
  induction h with
  | refl => exact ⟨⟨x.stage, hx⟩, fun _ => ⟨hx, rfl⟩⟩
  | tail _ hact ih =>
    obtain ⟨⟨st, hst⟩, hstill⟩ := ih
    refine ⟨(hact.kept hst).1, fun hturn => ?_⟩
    obtain ⟨hx', hnotes⟩ := hstill hturn
    obtain ⟨hx'', hnotes'⟩ := (hact.kept hx').2 hturn
    exact ⟨hx'', hnotes'.trans hnotes⟩

end MutationActs

/-! ## Going on -/

/-- **Where an execution goes** when it goes on, in a manager that has been closed, or has not. -/
def ExecutionStage.onward (closed : Bool) (next : RequestId) : ExecutionStage → ExecutionStage
  | .arriving => if closed then .ended (.returned (.error .mutationsClosed)) else .calling next
  | .calling request => if closed then .ended (.returned (.error .mutationCancelled)) else .calling request
  | .answered request reply =>
    .ended (if closed then .returned (.error .mutationCancelled) else MutationManager.ending request reply)
  | .ended ending => .ended ending

theorem MutationManager.executions_runExecution (hx : m.executions[u]? = some x) :
    (m.runExecution u).executions[u]? =
      some { x with stage := x.stage.onward m.cancelled ⟨m.supply.request + 1⟩ } := by
  have hset : ∀ {m' : MutationManager} {st}, m'.executions = (m.setStage u st).executions →
      m'.executions[u]? = some { x with stage := st } := fun h => by
    rw [h, getElem?_setStage, hx]
    simp
  have hstill : ∀ {st}, x.stage = st → m.executions[u]? = some { x with stage := st } := fun h => by
    rw [hx, ← h]
  unfold runExecution
  simp only [hx]
  cases hst : x.stage with
  | arriving =>
    cases hc : m.cancelled with
    | true => exact hset rfl
    | false => exact hset rfl
  | calling request =>
    cases hc : m.cancelled with
    | true => exact hset rfl
    | false => exact hstill hst
  | answered request reply =>
    cases hc : m.cancelled with
    | true => exact hset rfl
    | false => exact hset rfl
  | ended ending => exact hstill hst

/-- **Executions that can go on stay queued.** -/
theorem MutationManager.Awake.desk_step (h : d.manager.Awake) (move : MutationMove) : (d.step move).manager.Awake := by
  cases move with
  | event ev => exact h.step ev
  | goOn u => exact .runExecution fun v x _ hx hr => h v x hx hr
  | close => exact .cancel _

end QueryClient
