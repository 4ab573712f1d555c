import QueryClient.Proofs.Manager.Origins
import QueryClient.Proofs.Mutation.Courses

/-!
# Mutations are never shared, stored or lost

A manager of mutations works beside a manager of live queries, over one backend. Every execution of a mutation
that finds its manager open makes a call of its own, and what it ends in is the answer to this call.

* `Agency`: the two managers, which draw from one supply.
* `QueryManager.Draws`, `draws_step`: new attempts at queries carry new requests.
* `Agency.Consistent`: all is well; `Agency.Consistent.run`.
* `Unshared`, `unshared`: the law.
-/

namespace QueryClient

/-- A manager of mutations and a manager of live queries, over one backend. -/
structure Agency where
  desk : MutationDesk := {}
  queries : QueryManager := {}

/-- What happens at an agency. -/
inductive AgencyEvent where
  | mutations (move : MutationMove)
  | queries (ev : ManagerEvent)

namespace Agency

/-- **What an event does to an agency:** the managers draw from one supply. -/
def step (a : Agency) : AgencyEvent → Agency
  | .mutations move =>
    let desk := a.desk.step move
    { desk, queries := { a.queries with supply := desk.manager.supply } }
  | .queries ev =>
    let queries := a.queries.step ev
    { queries, desk := { a.desk with manager := { a.desk.manager with supply := queries.supply } } }

/-- A run. -/
def run (a : Agency) (es : List AgencyEvent) : Agency := es.foldl step a

/-- The execution with the given name. -/
def execution? (a : Agency) (u : TaskId) : Option Execution := a.desk.manager.executions[u]?

/-- The manager of mutations has been closed. -/
def closed (a : Agency) : Bool := a.desk.manager.cancelled

/-- The execution whose turn it is. -/
def turn? (a : Agency) : AgencyEvent → Option TaskId
  | .mutations move => move.turn? a.desk.manager
  | .queries _ => none

end Agency

/-- The execution is abandoned at some point. -/
def AgencyEvent.Abandons (es : List AgencyEvent) (u : TaskId) : Prop := .mutations (.event (.abort u)) ∈ es

variable {a : Agency} {m m' : QueryManager} {b b' : Bench} {t u : TaskId} {given : Input} {x : Execution}
variable {request : RequestId} {es : List AgencyEvent}

/-! ## The requests of queries -/

/-- An attempt at a query carries the request. -/
def QueryManager.Carries (m : QueryManager) (request : RequestId) : Prop :=
  ∃ id e, m.executor? id = some e ∧ ∃ c ∈ e.attempts, c.request = request

/-- What has been drawn stays drawn. -/
theorem Effect.supply_le {stored : Bool} (h : Effect t m stored m') :
    m.supply.number ≤ m'.supply.number ∧ m.supply.request ≤ m'.supply.request := by
  induction h with
  | refl => exact ⟨Int.le_refl _, Nat.le_refl _⟩
  | calm _ hcalm ih =>
    cases hcalm with
    | draw s hn hr => exact ⟨Int.le_trans ih.1 hn, Nat.le_trans ih.2 hr⟩
    | leases hl => rw [hl.frame]; exact ih
    | _ => exact ih
  | start _ hstart ih =>
    cases hstart with
    | intro he hs hn hr hn' hr' =>
      exact ⟨Int.le_trans ih.1 (Int.le_trans (Int.le_of_lt hn) hn'),
        Nat.le_trans ih.2 (Nat.le_trans (Nat.le_of_lt hr) hr')⟩
  | store _ hstore ih =>
    cases hstore with
    | intro => exact ih

/-- What a manager has drawn, and the requests that its attempts carry: new ones are new. -/
structure QueryManager.Draws (m m' : QueryManager) : Prop where
  number : m.supply.number ≤ m'.supply.number
  request : m.supply.request ≤ m'.supply.request
  carries : ∀ r, m'.Carries r → m.Carries r ∨ m.supply.request < r.index

theorem Act.draws (h : Act t given b b') (hc : Coherent b.manager) (hok : ManagerOK b.manager) :
    b.manager.Draws b'.manager := by
  obtain ⟨stored, heffect⟩ := h.effect
  refine ⟨heffect.supply_le.1, heffect.supply_le.2, ?_⟩
  rintro r ⟨id, e', he', c', hc', rfl⟩
  rcases h.request_cases hc hok he' hc' with ⟨e, c, he, hmem, hreq, -⟩ | ⟨hlt, -⟩
  · exact .inl ⟨id, e, he, c, hmem, hreq⟩
  · exact .inr hlt

theorem Acts.draws (h : Acts t given b b') (hc : Coherent b.manager) (hok : ManagerOK b.manager) :
    b.manager.Draws b'.manager ∧ Coherent b'.manager ∧ ManagerOK b'.manager := by
  induction h with
  | refl => exact ⟨⟨Int.le_refl _, Nat.le_refl _, fun r hr => .inl hr⟩, hc, hok⟩
  | tail _ hact ih =>
    obtain ⟨hdraws, hc', hok'⟩ := ih
    have hnext := hact.draws hc' hok'
    refine ⟨⟨Int.le_trans hdraws.number hnext.number, Nat.le_trans hdraws.request hnext.request, fun r hr => ?_⟩,
      hact.coherent hc' hok', hact.ok hok'⟩
    rcases hnext.carries r hr with hr | hlt
    · exact hdraws.carries r hr
    · exact .inr (Nat.lt_of_le_of_lt hdraws.request hlt)

/-- **New attempts at queries carry new requests.** -/
theorem draws_step (hc : Coherent m) (hok : ManagerOK m) (ev : ManagerEvent) : m.Draws (m.step ev) := by
  obtain ⟨hstart, hacts, hq, -, -⟩ := performed hok hc ev
  rw [hq.frame]
  rcases hstart with rfl | rfl
  · have hdraws := (hacts.draws hc hok).1
    exact ⟨hdraws.number, hdraws.request, hdraws.carries⟩
  · have hdraws := (hacts.draws hc.taken hok.taken).1
    exact ⟨hdraws.number, hdraws.request, hdraws.carries⟩

/-! ## An agency -/

/-- **All is well at an agency.** The executions that may have been abandoned are given. -/
structure Agency.Consistent (gone : TaskId → Prop) (a : Agency) : Prop where
  straight : a.desk.Straight gone
  awake : a.desk.manager.Awake
  traced : Traced (fun _ _ => True) (fun _ => True) a.queries
  supply : a.queries.supply = a.desk.manager.supply
  /-- Queries and mutations carry different requests. -/
  apart : ∀ r ∈ a.desk.manager.requests, ¬ a.queries.Carries r

namespace Agency.Consistent

variable {gone : TaskId → Prop}

theorem init : Consistent gone {} := by
  refine ⟨.init, fun u x hx => by simp at hx, ⟨.init {}, .init {}, .init, .init⟩, rfl, fun r hr => ?_⟩
  simp [MutationManager.requests, MutationManager.calls] at hr

/-- What queries carry has been drawn. -/
theorem carried_le (h : Consistent gone a) (hr : a.queries.Carries request) :
    request.index ≤ a.desk.manager.supply.request := by
  obtain ⟨id, e, he, c, hc, rfl⟩ := hr
  rw [← h.supply]
  exact ((h.traced.ok.executor he).drawn c hc).2

theorem mutations (h : Consistent gone a) (move : MutationMove) (hgone : ∀ u, move = .event (.abort u) → gone u) :
    Consistent gone (a.step (.mutations move)) := by
  have hacts := a.desk.acts_step hgone
  have hgrows := hacts.goesForward
  have hdraw : Acts 0 {} ⟨a.queries, none, none⟩
      ⟨{ a.queries with supply := (a.desk.step move).manager.supply }, none, none⟩ :=
    .single (.draw _ (by rw [h.supply]; exact hgrows.number) (by rw [h.supply]; exact hgrows.request))
  refine ⟨hacts.straight h.straight, h.awake.desk_step move, ?_, rfl, fun r hr hcarried => ?_⟩
  · exact h.traced.acts hdraw (fun _ _ => trivial) fun _ _ => trivial
  · rcases hgrows.requests r hr with hr | hlt
    · exact h.apart r hr hcarried
    · exact absurd (h.carried_le hcarried) (Nat.not_le.2 hlt)

theorem queries (h : Consistent gone a) (ev : ManagerEvent) : Consistent gone (a.step (.queries ev)) := by
  have hdraws := draws_step h.traced.coherent h.traced.ok ev
  -- to the manager of mutations, an event of queries is a drawing from the supply
  have hdraw : MutationAct (fun _ => False) gone a.desk (a.step (.queries ev)).desk := by
    refine .draw _ ?_ ?_
    · rw [← h.supply]; exact hdraws.number
    · rw [← h.supply]; exact hdraws.request
  refine ⟨hdraw.straight h.straight, fun u x hx hr => h.awake u x hx hr, h.traced.step ev (fun _ _ _ _ => trivial)
    fun _ _ => trivial, rfl, fun r hr hcarried => ?_⟩
  rcases hdraws.carries r hcarried with hcarried | hlt
  · exact h.apart r hr hcarried
  · rw [h.supply] at hlt
    exact absurd (h.straight.drawn r hr) (Nat.not_le.2 hlt)

theorem step (h : Consistent gone a) (ev : AgencyEvent) (hgone : ∀ u, ev = .mutations (.event (.abort u)) → gone u) :
    Consistent gone (a.step ev) := by
  cases ev with
  | mutations move => exact h.mutations move fun u hu => hgone u (by rw [hu])
  | queries ev => exact h.queries ev

theorem run (h : Consistent gone a) (es : List AgencyEvent) (hgone : ∀ u, AgencyEvent.Abandons es u → gone u) :
    Consistent gone (a.run es) := by
  induction es generalizing a with
  | nil => exact h
  | cons ev es ih =>
    refine ih (h.step ev fun u hu => hgone u ?_) fun u hu => hgone u (List.mem_cons_of_mem _ hu)
    exact List.mem_cons.2 (.inl hu.symm)

end Agency.Consistent

/-! ## What becomes of an execution -/

namespace Agency

/-- **Whatever happens, an execution stays what it is,** and where it is, too, unless it is its turn. -/
theorem kept (a : Agency) (ev : AgencyEvent) (hx : a.execution? u = some x) :
    (∃ st, (a.step ev).execution? u = some { x with stage := st }) ∧
      (a.turn? ev ≠ some u → (a.step ev).execution? u = some x ∧
        (a.step ev).desk.manager.notesOf u = a.desk.manager.notesOf u) := by
  cases ev with
  | mutations move =>
    have hacts : MutationActs _ (fun _ => True) a.desk (a.desk.step move) := a.desk.acts_step fun _ _ => trivial
    exact hacts.kept hx
  | queries ev => exact ⟨⟨x.stage, hx⟩, fun _ => ⟨hx, rfl⟩⟩

theorem kept_run (es : List AgencyEvent) (hx : a.execution? u = some x) :
    ∃ st, (a.run es).execution? u = some { x with stage := st } := by
  induction es generalizing a x with
  | nil => exact ⟨x.stage, hx⟩
  | cons ev es ih =>
    obtain ⟨st, hst⟩ := (a.kept ev hx).1
    obtain ⟨st', hst'⟩ := ih hst
    exact ⟨st', hst'⟩

/-- **What was seen stays seen,** and a manager that has been closed stays closed. -/
theorem goesForward (a : Agency) (ev : AgencyEvent) :
    a.desk.manager.journal <+: (a.step ev).desk.manager.journal ∧ (a.closed → (a.step ev).closed) := by
  cases ev with
  | mutations move =>
    have hacts : MutationActs _ (fun _ => True) a.desk (a.desk.step move) := a.desk.acts_step fun _ _ => trivial
    exact ⟨hacts.goesForward.journal, hacts.goesForward.closed⟩
  | queries ev => exact ⟨List.prefix_rfl, id⟩

theorem grows_run (a : Agency) (es : List AgencyEvent) :
    a.desk.manager.journal <+: (a.run es).desk.manager.journal ∧ (a.closed → (a.run es).closed) := by
  induction es generalizing a with
  | nil => exact ⟨List.prefix_rfl, id⟩
  | cons ev es ih =>
    obtain ⟨hseen, hclosed⟩ := a.goesForward ev
    obtain ⟨hseen', hclosed'⟩ := ih (a.step ev)
    exact ⟨hseen.trans hseen', fun hc => hclosed' (hclosed hc)⟩

end Agency

/-- What goes on at the head of the queue goes on as it would by itself. -/
theorem MutationManager.executions_poll {m : MutationManager} (hq : m.queue.head? = some u)
    (hx : m.executions[u]? = some x) : m.poll.executions[u]? =
      some { x with stage := x.stage.onward m.cancelled ⟨m.supply.request + 1⟩ } := by
  obtain ⟨rest, hrest⟩ := List.head?_eq_some_iff.1 hq
  have hrun : ({ m with queue := rest } : MutationManager).executions[u]? = some x := hx
  unfold poll
  rw [hrest]
  exact executions_runExecution hrun

/-- The reply to a call that waits for one is there for it. -/
theorem MutationManager.executions_answer {m : MutationManager} (hx : m.executions[u]? = some x)
    (hst : x.stage = .calling request) (reply : Reply) :
    (m.answer u reply).executions[u]? = some { x with stage := .answered request reply } := by
  have hstage : m.stage? u = some (.calling request) := by
    rw [stage?, hx, Option.map_some, hst]
  have hset : m.setReply u reply = m.setStage u (.answered request reply) := by
    rw [setReply, hstage]
  show (wakeExecution (m.setReply u reply) u).executions[u]? = _
  rw [(Wakes.wakeExecution _ u).frame, hset]
  show (m.setStage u _).executions[u]? = _
  rw [getElem?_setStage, hx, Option.map_some, if_pos rfl]

/-! ## The theorem -/

/-- **Mutations are never shared, stored or lost,** at an agency that the events led to. -/
structure Unshared (es : List AgencyEvent) (a : Agency) : Prop where
  /-- Every execution has gone its own course: it has made one call at most, for its own operation and variables,
  and has ended in the answer to this call, unless it was cancelled with its manager or abandoned. -/
  courses : ∀ u x, a.execution? u = some x →
    ExecutionCourse a.closed (AgencyEvent.Abandons es u) a.desk.replies u x (a.desk.manager.notesOf u)
  /-- Its operation and its variables are those that it was given. -/
  given : ∀ before operation vars more, es = before ++ .mutations (.event (.execute operation vars)) :: more →
    ∃ st, a.execution? (({} : Agency).run before).desk.manager.executions.length = some ⟨operation, vars, st⟩
  /-- Only executions call. -/
  known : ∀ n ∈ a.desk.manager.journal, ∃ x, a.execution? n.execution = some x
  /-- The request of a mutation's call is carried by no other call, of a mutation or of a query, -/
  requests : a.desk.manager.requests.Nodup ∧
    ∀ t spec r, .called t spec r ∈ a.queries.journal → r ∉ a.desk.manager.requests
  /-- and it is answered once at most. -/
  replies : (a.desk.replies.map Prod.fst).Nodup
  /-- An execution that goes on when its manager is open calls the backend, or takes the answer to its call; it is
  refused or cancelled when its manager has been closed. -/
  onward : ∀ move u x, a.execution? u = some x →
    move = .goOn u ∨ move = .event .poll ∧ a.desk.manager.queue.head? = some u →
    (a.step (.mutations move)).execution? u =
      some { x with stage := x.stage.onward a.closed ⟨a.desk.manager.supply.request + 1⟩ }
  refusals : Error.mutationsClosed.code = .closed ∧ Error.mutationCancelled.code = .cancelled
  /-- What the backend replies to its call is there for it. -/
  heard : ∀ u x request reply, a.execution? u = some x → x.stage = .calling request →
    (a.step (.mutations (.event (.answer u reply)))).execution? u =
      some { x with stage := .answered request reply }
  /-- What happens to other mutations and to queries leaves it alone. -/
  others : ∀ ev u x, a.execution? u = some x → a.turn? ev ≠ some u →
    (a.step ev).execution? u = some x ∧ (a.step ev).desk.manager.notesOf u = a.desk.manager.notesOf u
  /-- What was seen stays seen, and a manager that has been closed stays closed. -/
  lasting : ∀ more, (∀ u, a.desk.manager.notesOf u <+: (a.run more).desk.manager.notesOf u) ∧
    (a.closed → (a.run more).closed)
  /-- When nothing can go on, every execution has ended, or waits for the backend in an open manager. -/
  rest : a.desk.manager.queue = [] → ∀ u x, a.execution? u = some x →
    (∃ ending, x.stage = .ended ending) ∨ a.closed = false ∧ ∃ request, x.stage = .calling request

/-- **Mutations are never shared, stored or lost,** whatever happens at an agency, and in whatever order. -/
theorem unshared (es : List AgencyEvent) : Unshared es (({} : Agency).run es) := by
  have h : Agency.Consistent (AgencyEvent.Abandons es) (({} : Agency).run es) := Agency.Consistent.init.run es fun _ hu => hu
  constructor
  case courses => exact h.straight.courses
  case given =>
    intro before operation vars more hes
    have hrun : ({} : Agency).run es =
        ((({} : Agency).run before).step (.mutations (.event (.execute operation vars)))).run more := by
      rw [hes]
      exact List.foldl_append
    rw [hrun]
    generalize ({} : Agency).run before = b
    -- a new execution is the last of all, and keeps its place
    have hnew : (b.step (.mutations (.event (.execute operation vars)))).execution? b.desk.manager.executions.length =
        some ⟨operation, vars, .arriving⟩ := List.getElem?_concat_length
    exact Agency.kept_run more hnew
  case known => exact fun n hn => ⟨_, List.getElem?_eq_getElem (h.straight.known n hn)⟩
  case requests =>
    refine ⟨h.straight.nodup, fun t spec r hn hr => h.apart r hr ?_⟩
    -- a call for a query is the call of one of its attempts
    obtain ⟨id, e, he, c, hc, hreq, -⟩ := h.traced.origins.noted t spec r hn
    exact ⟨id, e, he, c, hc, hreq⟩
  case replies => exact h.straight.once
  case onward =>
    rintro move u x hx (rfl | ⟨rfl, hq⟩)
    · exact MutationManager.executions_runExecution hx
    · exact MutationManager.executions_poll hq hx
  case refusals => exact ⟨rfl, rfl⟩
  case heard =>
    intro u x request reply hx hst
    exact MutationManager.executions_answer hx hst reply
  case others => exact fun ev u x hx => (Agency.kept _ ev hx).2
  case lasting =>
    intro more
    obtain ⟨hseen, hclosed⟩ := Agency.grows_run _ more
    exact ⟨fun u => hseen.filter _, hclosed⟩
  case rest =>
    intro hq u x hx
    -- what can go on is queued, and nothing is
    have hno : (({} : Agency).run es).desk.manager.isReady x ≠ true := fun hr => by
      have := h.awake u x hx hr
      simp [hq] at this
    unfold MutationManager.isReady at hno
    cases hst : x.stage with
    | ended ending => exact .inl ⟨ending, rfl⟩
    | calling request => exact .inr ⟨by simpa [Agency.closed, hst] using hno, request, rfl⟩
    | arriving => simp [hst] at hno
    | answered => simp [hst] at hno

/-- Two executions of one mutation are answered in the other order: each ends in the answer to its own call. -/
example (data : OperationResult) (e : Error) :
    let m := (({} : Agency).run ([.execute "CreateMovie" [], .execute "CreateMovie" [], .poll, .poll,
      .answer 1 (.returned (.ok data)), .answer 0 (.returned (.error e)), .poll, .poll].map
        fun ev => .mutations (.event ev))).desk.manager
    m.notesOf 0 = [.called 0 "CreateMovie" [] ⟨1⟩, .ended 0 (.returned (.error e))] ∧
      m.notesOf 1 = [.called 1 "CreateMovie" [] ⟨2⟩, .ended 1 (.returned (.ok ⟨⟨2⟩, data⟩))] := ⟨rfl, rfl⟩

end QueryClient
