import Mathlib.Data.Nat.Notation
import Mathlib.Logic.Relation
import QueryClient.Mutation

/-!
# The executions of mutations

Executions go on one at a time and do not concern each other: all that happens to a manager is that
one execution takes a few steps (`Proceeds`), or that one is added. When a manager has been
cancelled, no execution calls the backend any more, and one that had called it is cancelled.

* `MutationManager.step`: one event.
* `ExecutionStep`: **what an execution can do.**
* `Proceeds.runExecution`: one execution goes on, and the others stay as they are.
* `MutationManager.Follows.step`, `MutationManager.Awake.step`: executions take steps, and those that
  can go on are queued.
* `MutationManager.Lost`: an execution that had called the backend is cancelled with its manager.
-/

namespace QueryClient

/-- What happens to the executions of mutations. -/
inductive MutationEvent where
  /-- Others draw request identifiers. -/
  | drawn (requests : ℕ)
  | poll
  | execute (operation : String) (vars : Struct)
  | abort (execution : TaskId)
  | answer (execution : TaskId) (reply : Reply)
  | answerNow (execution : TaskId) (reply : Reply)

/-- A call of the backend is noted. -/
def MutationNote.isCall : MutationNote → Bool
  | .called .. => true
  | .ended .. => false

/-- The backend was called, and its answer has not been taken. -/
def ExecutionStage.isCalling : ExecutionStage → Bool
  | .calling _ | .answered .. => true
  | _ => false

/-- **What an execution can do** in a manager that has been cancelled, or has not, when it may be
abandoned, or not. -/
inductive ExecutionStep (cancelled : Bool) (gone : Prop) : ExecutionStage → ExecutionStage → Prop where
  | call (hc : cancelled = false) (request : RequestId) :
      ExecutionStep cancelled gone .arriving (.calling request)
  | refused (hc : cancelled = true) :
      ExecutionStep cancelled gone .arriving (.ended (.returned (.error .mutationsClosed)))
  | reply (request : RequestId) (reply : Reply) :
      ExecutionStep cancelled gone (.calling request) (.answered request reply)
  | cancelled {st : ExecutionStage} (hc : cancelled = true) (hst : st.isCalling) :
      ExecutionStep cancelled gone st (.ended (.returned (.error .mutationCancelled)))
  | taken (hc : cancelled = false) (request : RequestId) (reply : Reply) :
      ExecutionStep cancelled gone (.answered request reply)
        (.ended (MutationManager.ending request reply))
  | dropped {st : ExecutionStage} (hg : gone) (hst : ∀ ending, st ≠ .ended ending) :
      ExecutionStep cancelled gone st (.ended .dropped)

namespace MutationManager

/-- **What an event does to the executions.** -/
def step (m : MutationManager) : MutationEvent → MutationManager
  | .drawn requests => { m with supply := ⟨m.supply.number, m.supply.request + requests⟩ }
  | .poll => m.poll
  | .execute operation vars => (m.execute operation vars).1
  | .abort execution => m.abort execution
  | .answer execution reply => m.answer execution reply
  | .answerNow execution reply => m.answerNow execution reply

variable {m m' m'' : MutationManager} {id u : TaskId} {x : Execution} {st : ExecutionStage}
variable {gone : TaskId → Prop}

theorem getElem?_setStage (m : MutationManager) (id u : TaskId) (st : ExecutionStage) :
    (m.setStage id st).executions[u]? =
      (m.executions[u]?).map fun x => if id = u then { x with stage := st } else x := by
  unfold setStage
  rw [List.getElem?_modify]
  rfl

/-! ## One execution goes on -/

/-- **One execution goes on;** the others stay as they are. -/
structure Proceeds (gone : TaskId → Prop) (m m' : MutationManager) (id : TaskId) : Prop where
  cancelled : m'.cancelled = m.cancelled
  queue : m'.queue = m.queue
  others : ∀ u ≠ id, m'.executions[u]? = m.executions[u]?
  own : ∀ x, m.executions[id]? = some x → ∃ st, m'.executions[id]? = some { x with stage := st } ∧
    Relation.ReflTransGen (ExecutionStep m.cancelled (gone id)) x.stage st
  /-- In a manager that has been cancelled, no call is noted. -/
  quiet : m.cancelled → m'.journal.filter MutationNote.isCall = m.journal.filter MutationNote.isCall

namespace Proceeds

theorem refl (m : MutationManager) (id : TaskId) : Proceeds gone m m id :=
  ⟨rfl, rfl, fun _ _ => rfl, fun x hx => ⟨x.stage, hx, .refl⟩, fun _ => rfl⟩

/-- An execution comes to a stage, and something is noted. -/
theorem of_step (hx : m.executions[id]? = some x) (hst : ExecutionStep m.cancelled (gone id) x.stage st)
    (hexec : m'.executions = (m.setStage id st).executions) (hc : m'.cancelled = m.cancelled)
    (hq : m'.queue = m.queue) (hn : m.cancelled →
      m'.journal.filter MutationNote.isCall = m.journal.filter MutationNote.isCall) :
    Proceeds gone m m' id := by
  refine ⟨hc, hq, fun u hu => ?_, fun y hy => ?_, hn⟩
  · rw [hexec, getElem?_setStage]
    cases m.executions[u]? with
    | none => rfl
    | some y => simp [Ne.symm hu]
  · obtain rfl := Option.some.inj (hx.symm.trans hy)
    exact ⟨st, by rw [hexec, getElem?_setStage, hx]; simp, .single hst⟩

theorem finish {ending : Ending MutationOutcome} (hx : m.executions[id]? = some x)
    (hst : ExecutionStep m.cancelled (gone id) x.stage (.ended ending)) :
    Proceeds gone m (m.finish id ending) id :=
  of_step hx hst rfl rfl rfl fun _ => by
    simp [MutationManager.finish, MutationManager.note, MutationManager.setStage, MutationNote.isCall]

theorem setReply (m : MutationManager) (id : TaskId) (reply : Reply) :
    Proceeds gone m (m.setReply id reply) id := by
  unfold MutationManager.setReply
  split
  · rename_i request hst
    obtain ⟨x, hx, hst⟩ := Option.map_eq_some_iff.1 hst
    exact of_step hx (by rw [hst]; exact .reply request reply) rfl rfl rfl fun _ => rfl
  · exact refl m id

/-- **What an execution does when it goes on.** -/
theorem runExecution (m : MutationManager) (id : TaskId) : Proceeds gone m (m.runExecution id) id := by
  unfold MutationManager.runExecution
  split
  · exact refl m id
  rename_i x hx
  split
  · rename_i hst
    split
    · rename_i hc
      exact finish hx (by rw [hst]; exact .refused hc)
    · rename_i hc
      have hopen : m.cancelled = false := by simpa using hc
      refine of_step hx (by rw [hst]; exact .call hopen _) rfl rfl rfl fun hc' => ?_
      exact absurd hc' hc
  · rename_i hst
    split
    · rename_i hc
      exact finish hx (.cancelled hc (by rw [hst]; rfl))
    · exact refl m id
  · rename_i hst
    split
    · rename_i hc
      exact finish hx (.cancelled hc (by rw [hst]; rfl))
    · rename_i hc
      exact finish hx (by rw [hst]; exact .taken (by simpa using hc) _ _)
  · exact refl m id

theorem abort (m : MutationManager) (hg : gone id) : Proceeds gone m (m.abort id) id := by
  unfold MutationManager.abort
  split
  · exact refl m id
  · exact refl m id
  · rename_i hended hnone
    cases hx : m.executions[id]? with
    | none => exact absurd (by unfold stage?; rw [hx]; rfl) hnone
    | some x =>
      refine finish hx (.dropped hg fun ending hst => hended ending ?_)
      unfold stage?
      rw [hx]
      exact congrArg some hst

end Proceeds

/-! ## Executions that can go on are queued -/

/-- An execution that has gone on has to wait. -/
theorem isReady_runExecution (h : (m.runExecution id).executions[id]? = some x) :
    m.isReady x = false := by
  have hfinish : ∀ {ending : Ending MutationOutcome}, (m.finish id ending).executions[id]? = some x →
      m.isReady x = false := by
    intro ending hx
    have hx' : (m.setStage id (.ended ending)).executions[id]? = some x := hx
    rw [getElem?_setStage] at hx'
    obtain ⟨y, -, rfl⟩ := Option.map_eq_some_iff.1 hx'
    simp [isReady]
  unfold runExecution at h
  split at h
  · rename_i hnone
    rw [hnone] at h
    simp at h
  rename_i y hy
  split at h
  · split at h
    · exact hfinish h
    · rename_i hc
      have h' : ({ m with supply := m.supply.drawRequest.2 }.setStage id
        (.calling m.supply.drawRequest.1)).executions[id]? = some x := h
      rw [getElem?_setStage] at h'
      obtain ⟨z, -, rfl⟩ := Option.map_eq_some_iff.1 h'
      simpa [isReady] using hc
  · rename_i request hst
    split at h
    · exact hfinish h
    · rename_i hc
      obtain rfl := Option.some.inj (hy.symm.trans h)
      simpa [isReady, hst] using hc
  · split at h
    · exact hfinish h
    · exact hfinish h
  · rename_i hst
    obtain rfl := Option.some.inj (hy.symm.trans h)
    simp [isReady, hst]

/-- Executions are queued; nothing else happens. -/
structure Wakes (m m' : MutationManager) : Prop where
  frame : m' = { m with queue := m'.queue }
  queue : ∀ u ∈ m.queue, u ∈ m'.queue

namespace Wakes

theorem refl (m : MutationManager) : Wakes m m := ⟨rfl, fun _ h => h⟩

theorem trans (h : Wakes m m') (h' : Wakes m' m'') : Wakes m m'' :=
  ⟨by rw [h'.frame, h.frame], fun u hu => h'.queue u (h.queue u hu)⟩

theorem wakeExecution (m : MutationManager) (id : TaskId) : Wakes m (m.wakeExecution id) := by
  unfold MutationManager.wakeExecution
  split
  · exact ⟨rfl, fun _ hu => List.mem_append_left _ hu⟩
  · exact refl m

theorem foldl (us : List TaskId) : ∀ m, Wakes m (us.foldl MutationManager.wakeExecution m) := by
  induction us with
  | nil => exact refl
  | cons u us ih => exact fun m => (wakeExecution m u).trans (ih _)

theorem isReady (h : Wakes m m') (x : Execution) : m'.isReady x = m.isReady x := by
  rw [h.frame]
  rfl

end Wakes

theorem mem_queue_wakeExecution (hx : m.executions[u]? = some x) (hr : m.isReady x) :
    u ∈ (m.wakeExecution u).queue := by
  unfold wakeExecution
  by_cases hu : u ∈ m.queue
  · simp [hu]
  · simp [hx, hr, hu]

theorem mem_queue_foldl (us : List TaskId) : ∀ {m : MutationManager}, u ∈ us →
    m.executions[u]? = some x → m.isReady x → u ∈ (us.foldl wakeExecution m).queue := by
  induction us with
  | nil => simp
  | cons v us ih =>
    intro m hu hx hr
    have hwake := Wakes.wakeExecution m v
    rcases List.mem_cons.1 hu with rfl | hu
    · exact (Wakes.foldl us _).queue _ (mem_queue_wakeExecution hx hr)
    · exact ih hu (by rw [hwake.frame]; exact hx) (by rw [hwake.isReady]; exact hr)

/-- A manager is cancelled: executions are queued. -/
theorem wakes_cancel (m : MutationManager) : Wakes { m with cancelled := true } m.cancel :=
  Wakes.foldl _ _

theorem cancelled_cancel (m : MutationManager) : m.cancel.cancelled = true := by
  rw [(wakes_cancel m).frame]

/-- **Executions that can go on are queued.** -/
def Awake (m : MutationManager) : Prop :=
  ∀ (u : TaskId) (x : Execution), m.executions[u]? = some x → m.isReady x → u ∈ m.queue

namespace Awake

/-- An execution goes on until it has to wait, or is queued. -/
theorem proceeds (h : ∀ (u : TaskId) (x : Execution), u ≠ id → m.executions[u]? = some x →
      m.isReady x → u ∈ m.queue)
    (hp : Proceeds gone m m' id)
    (hid : ∀ x, m'.executions[id]? = some x → m'.isReady x → id ∈ m'.queue) : Awake m' := by
  intro u x hx hr
  by_cases hu : u = id
  · subst hu
    exact hid x hx hr
  · rw [hp.others u hu] at hx
    rw [hp.queue]
    refine h u x hu hx ?_
    unfold isReady at hr ⊢
    rwa [hp.cancelled] at hr

theorem runExecution (h : ∀ (u : TaskId) (x : Execution), u ≠ id → m.executions[u]? = some x →
    m.isReady x → u ∈ m.queue) : Awake (m.runExecution id) := by
  have hp : Proceeds (fun _ => False) m _ id := .runExecution m id
  refine proceeds h hp fun x hx hr => ?_
  have hrest := isReady_runExecution hx
  unfold isReady at hr hrest
  rw [hp.cancelled, hrest] at hr
  simp at hr

theorem wakeExecution (h : ∀ (u : TaskId) (x : Execution), u ≠ id → m.executions[u]? = some x →
    m.isReady x → u ∈ m.queue) : Awake (m.wakeExecution id) := by
  have hwake := Wakes.wakeExecution m id
  intro u x hx hr
  rw [hwake.isReady] at hr
  rw [hwake.frame] at hx
  by_cases hu : u = id
  · subst hu
    exact mem_queue_wakeExecution hx hr
  · exact hwake.queue u (h u x hu hx hr)

theorem cancel (m : MutationManager) : Awake m.cancel := by
  have hwake := wakes_cancel m
  intro u x hx hr
  rw [hwake.isReady] at hr
  rw [hwake.frame] at hx
  have hx' : m.executions[u]? = some x := hx
  exact mem_queue_foldl _ (List.mem_reverse.2 (List.mem_range.2 (List.getElem?_eq_some_iff.1 hx').1)) hx' hr

/-- An execution that has ended cannot go on. -/
theorem finish (h : Awake m) (id : TaskId) (ending : Ending MutationOutcome) :
    Awake (m.finish id ending) := by
  intro u x hx hr
  have hx' : (m.setStage id (.ended ending)).executions[u]? = some x := hx
  rw [getElem?_setStage] at hx'
  obtain ⟨y, hy, hyx⟩ := Option.map_eq_some_iff.1 hx'
  split at hyx
  · rw [← hyx] at hr
    simp [isReady] at hr
  · rw [← hyx] at hr
    exact h u y hy hr

theorem abort (h : Awake m) (id : TaskId) : Awake (m.abort id) := by
  unfold MutationManager.abort
  split
  · exact h
  · exact h
  · exact h.finish id .dropped

/-- **Executions that can go on stay queued.** -/
theorem step (h : Awake m) (ev : MutationEvent) : Awake (m.step ev) := by
  have hreply : ∀ (id : TaskId) (reply : Reply) (u : TaskId) (x : Execution), u ≠ id →
      (m.setReply id reply).executions[u]? = some x → (m.setReply id reply).isReady x →
      u ∈ (m.setReply id reply).queue := by
    intro id reply u x hu hx hr
    have hp : Proceeds (fun _ => False) m _ id := .setReply m id reply
    rw [hp.others u hu] at hx
    rw [hp.queue]
    refine h u x hx ?_
    unfold isReady at hr ⊢
    rwa [hp.cancelled] at hr
  cases ev with
  | drawn requests => exact h
  | poll =>
    show Awake m.poll
    unfold MutationManager.poll
    split
    · exact h
    · rename_i id rest hq
      refine runExecution fun u x hu hx hr => ?_
      have hmem := h u x hx hr
      rw [hq] at hmem
      exact (List.mem_cons.1 hmem).resolve_left hu
  | execute operation vars =>
    intro u x hx hr
    have hx' : (m.executions ++ [({ operation, vars } : Execution)])[u]? = some x := hx
    rcases Nat.lt_or_ge u m.executions.length with hlt | hge
    · rw [List.getElem?_append_left hlt] at hx'
      exact List.mem_append_left _ (h u x hx' hr)
    · have hu : u < (m.executions ++ [({ operation, vars } : Execution)]).length :=
        (List.getElem?_eq_some_iff.1 hx').1
      rw [List.length_append, List.length_singleton] at hu
      exact List.mem_append_right _ (List.mem_singleton.2 (Nat.le_antisymm (Nat.le_of_lt_succ hu) hge))
  | abort id => exact h.abort id
  | answer id reply => exact wakeExecution (hreply id reply)
  | answerNow id reply => exact runExecution (hreply id reply)

end Awake

/-! ## What an event can do -/

/-- **What an event does to executions:** they are still there, and took some steps. In a manager that
has been cancelled, no call is noted. -/
structure Follows (gone : TaskId → Prop) (m m' : MutationManager) : Prop where
  cancelled : m'.cancelled = m.cancelled
  own : ∀ (u : TaskId) (x : Execution), m.executions[u]? = some x →
    ∃ st, m'.executions[u]? = some { x with stage := st } ∧
      Relation.ReflTransGen (ExecutionStep m.cancelled (gone u)) x.stage st
  quiet : m.cancelled → m'.journal.filter MutationNote.isCall = m.journal.filter MutationNote.isCall

namespace Follows

theorem of_eq (hexec : m'.executions = m.executions) (hc : m'.cancelled = m.cancelled)
    (hj : m'.journal = m.journal) : Follows gone m m' :=
  ⟨hc, fun u x hx => ⟨x.stage, by rw [hexec]; exact hx, .refl⟩, fun _ => by rw [hj]⟩

theorem of_proceeds (h : Proceeds gone m m' id) : Follows gone m m' := by
  refine ⟨h.cancelled, fun u x hx => ?_, h.quiet⟩
  by_cases hu : u = id
  · subst hu
    exact h.own x hx
  · exact ⟨x.stage, (h.others u hu).trans hx, .refl⟩

theorem trans (h : Follows gone m m') (h' : Follows gone m' m'') : Follows gone m m'' := by
  refine ⟨h'.cancelled.trans h.cancelled, fun u x hx => ?_,
    fun hc => (h'.quiet (h.cancelled.trans hc)).trans (h.quiet hc)⟩
  obtain ⟨st, hst, hsteps⟩ := h.own u x hx
  obtain ⟨st', hst', hsteps'⟩ := h'.own u _ hst
  rw [h.cancelled] at hsteps'
  exact ⟨st', hst', hsteps.trans hsteps'⟩

theorem wakes (h : Wakes m m') : Follows gone m m' := by
  rw [h.frame]
  exact .of_eq rfl rfl rfl

/-- **What an event does.** -/
theorem step (m : MutationManager) {ev : MutationEvent} (hgone : ∀ t, ev = .abort t → gone t) :
    Follows gone m (m.step ev) := by
  cases ev with
  | drawn requests => exact .of_eq rfl rfl rfl
  | poll =>
    show Follows gone m m.poll
    unfold MutationManager.poll
    split
    · exact .of_eq rfl rfl rfl
    · rename_i id rest _
      have htaken : Follows gone m { m with queue := rest } := .of_eq rfl rfl rfl
      exact htaken.trans (.of_proceeds (.runExecution _ id))
  | execute operation vars =>
    refine ⟨rfl, fun u x hx => ⟨x.stage, ?_, .refl⟩, fun _ => rfl⟩
    exact (List.getElem?_append_left (List.getElem?_eq_some_iff.1 hx).1).trans hx
  | abort id => exact .of_proceeds (.abort m (hgone id rfl))
  | answer id reply =>
    exact trans (.of_proceeds (.setReply m id reply)) (.wakes (.wakeExecution _ id))
  | answerNow id reply =>
    exact trans (.of_proceeds (.setReply m id reply)) (.of_proceeds (.runExecution _ id))

end Follows

/-! ## After the end -/

/-- The backend was called and the manager has been cancelled since; the execution may have been
abandoned. -/
def Lost (gone : Prop) (st : ExecutionStage) : Prop :=
  st.isCalling ∨ gone ∧ st = .ended .dropped ∨ st = .ended (.returned (.error .mutationCancelled))

/-- **An execution that had called the backend** is cancelled, unless it is abandoned. -/
theorem Lost.steps {p : Prop} {st' : ExecutionStage} (h : Lost p st)
    (hsteps : Relation.ReflTransGen (ExecutionStep true p) st st') : Lost p st' := by
  induction hsteps with
  | refl => exact h
  | tail _ hstep ih =>
    cases hstep with
    | call hc => simp at hc
    | refused =>
      rcases ih with hcalling | hend | hend
      · simp [ExecutionStage.isCalling] at hcalling
      · simp at hend
      · simp at hend
    | reply => exact .inl rfl
    | cancelled => exact .inr (.inr rfl)
    | taken hc => simp at hc
    | dropped hg => exact .inr (.inl ⟨hg, rfl⟩)

/-- **When a cancelled manager has no execution that can go on, none is left.** -/
theorem Awake.allOver (h : Awake m) (hc : m.cancelled) (hidle : m.queue = [])
    (hx : m.executions[u]? = some x) : ∃ ending, x.stage = .ended ending := by
  have hrest : m.isReady x ≠ true := by
    intro hr
    have hmem := h u x hx hr
    rw [hidle] at hmem
    simp at hmem
  unfold isReady at hrest
  cases hst : x.stage with
  | ended ending => exact ⟨ending, rfl⟩
  | calling request => simp [hst, hc] at hrest
  | _ => simp [hst] at hrest

end MutationManager

end QueryClient
