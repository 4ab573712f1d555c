import QueryClient.Proofs.Auth.Trace
import QueryClient.Rest.Transport

/-!
# Traffic with the backend

Any number of calls go to the backend through any transports, while anything else happens to the token
managers that the transports use. A call checks its headers, has a token fetched, sends its request and
gets an answer, and each of these may come at any time, or never.

* `Errand`, `Traffic`: a call of the backend, and all of them with the realm of their tokens.
* `TrafficEvent`, `Traffic.step`: **what happens,** one event at a time.
* `Traffic.heard`, `Traffic.realm_step`, `Traffic.heard_cases`: what the realm hears of an event.
* `trafficAt`: the traffic after the first events.
-/

namespace QueryClient

/-- How far a call of the backend is. -/
inductive ErrandStage where
  /-- Its token is being fetched. -/
  | fetching (fetch : FetchId)
  /-- Its request was sent with a token or without one, and has not been answered. -/
  | sent (token : Option String) (request : HttpRequest)
  | ended (ending : Ending (Except Error OperationResult))

/-- A call of the backend. -/
structure Errand where
  transport : RestTransport
  action : Action
  operation : String
  vars : Struct
  stage : ErrandStage

/-- The calls of the backend there have been, and the realm that has their tokens. -/
structure Traffic where
  realm : AuthRealm := {}
  errands : List Errand := []

/-- What happens to calls of the backend and to the tokens. -/
inductive TrafficEvent where
  | auth (ev : AuthEvent)
  /-- The backend is called through a transport. -/
  | start (transport : RestTransport) (action : Action) (operation : String) (vars : Struct)
  /-- A call goes on once its fetch has ended. -/
  | goOn (place : ℕ)
  | answer (place : ℕ) (answer : HttpAnswer)
  /-- Nobody waits for a call any more. -/
  | abandon (place : ℕ)

namespace Errand

/-- A call goes on with what its fetch has returned: its request is sent, or it ends without one. -/
def onToken (x : Errand) : TokenOutcome → ErrandStage
  | .error e => .ended (.returned (.error e))
  | .ok token =>
    match x.transport.request x.action x.operation x.vars token with
    | .error e => .ended (.returned (.error e))
    | .ok request => .sent token request

/-- The call has ended. -/
def isOver (x : Errand) : Bool :=
  match x.stage with
  | .ended _ => true
  | _ => false

/-- A call that goes on ends, or sends its request with what its fetch has brought. -/
theorem onToken_cases (x : Errand) (outcome : TokenOutcome) :
    (∃ result, x.onToken outcome = .ended (.returned result)) ∨
      ∃ token request, outcome = .ok token ∧ x.onToken outcome = .sent token request := by
  cases outcome with
  | error e => exact .inl ⟨_, rfl⟩
  | ok token =>
    cases h : x.transport.request x.action x.operation x.vars token with
    | error e => exact .inl ⟨.error e, by simp [onToken, h]⟩
    | ok request => exact .inr ⟨token, request, rfl, by simp [onToken, h]⟩

/-- What the call's request was sent with, while it has not been answered: a token, or none. -/
def token? (x : Errand) : Option (Option String) :=
  match x.stage with
  | .sent token _ => some token
  | _ => none

/-- The fetch that the call waits for. -/
def fetch? (x : Errand) : Option FetchId :=
  match x.stage with
  | .fetching fetch => some fetch
  | _ => none

/-- **A call over the web is its two halves:** what its token leads to, and what the answer means. -/
theorem complete_eq (x : Errand) (token : TokenOutcome) (network : HttpRequest → HttpAnswer) :
    (∀ sent request, x.onToken token = .sent sent request →
      x.transport.complete x.action x.operation x.vars token network =
        { sent := some request
          result := Rest.interpret x.action request.url (network request)
          refused := Rest.refusesToken (network request) }) ∧
    ∀ result, x.onToken token = .ended (.returned result) →
      x.transport.complete x.action x.operation x.vars token network =
        { sent := none, result, refused := false } := by
  unfold RestTransport.complete
  cases token with
  | error e => simp [onToken, Except.bind]
  | ok token =>
    simp only [onToken, Except.bind]
    cases x.transport.request x.action x.operation x.vars token with
    | error e => simp
    | ok request => simp

end Errand

namespace Traffic

/-- A call is at another stage. -/
def setStage (s : Traffic) (place : ℕ) (stage : ErrandStage) : Traffic :=
  { s with errands := s.errands.modify place fun x => { x with stage } }

/-- The backend is called: the headers are checked, and a fetch of a token comes. The fetch is one like any
other, and goes on step by step. -/
def start (s : Traffic) (transport : RestTransport) (action : Action) (operation : String)
    (vars : Struct) : Traffic :=
  let begun (stage : ErrandStage) : List Errand :=
    s.errands ++ [{ transport, action, operation, vars, stage }]
  match transport.headers with
  | .error e => { s with errands := begun (.ended (.returned (.error e))) }
  | .ok _ =>
    let (realm, fetch) := s.realm.fetch transport.manager
    { realm, errands := begun (.fetching fetch) }

/-- A call goes on if the fetch of its token has ended. -/
def goOn (s : Traffic) (place : ℕ) : Traffic :=
  match s.errands[place]? with
  | none => s
  | some x =>
    match x.stage with
    | .fetching fetch =>
      match s.realm.stage? fetch with
      | some (.ended (.returned token)) => s.setStage place (x.onToken token)
      | _ => s
    | _ => s

/-- A request is answered. An answer that refuses the token makes the next fetch ask for a new one. -/
def answer (s : Traffic) (place : ℕ) (answer : HttpAnswer) : Traffic :=
  match s.errands[place]? with
  | none => s
  | some x =>
    match x.stage with
    | .sent _ request =>
      let s := s.setStage place (.ended (.returned (Rest.interpret x.action request.url answer)))
      if Rest.refusesToken answer then { s with realm := s.realm.forceRefresh x.transport.manager } else s
    | _ => s

/-- A call is given up, and the fetch of its token with it, unless that is underway: who gives it up has to
wait until it waits. -/
def abandon (s : Traffic) (place : ℕ) : Traffic :=
  match s.errands[place]? with
  | none => s
  | some x =>
    match x.stage with
    | .fetching fetch =>
      if (s.realm.stage? fetch).any FetchStage.isUnderway then s
      else { s.setStage place (.ended .dropped) with realm := s.realm.abort fetch }
    | .sent .. => s.setStage place (.ended .dropped)
    | .ended _ => s

/-- **What an event does.** -/
def step (s : Traffic) : TrafficEvent → Traffic
  | .auth ev => { s with realm := s.realm.step ev }
  | .start transport action operation vars => s.start transport action operation vars
  | .goOn place => s.goOn place
  | .answer place answer => s.answer place answer
  | .abandon place => s.abandon place

/-! ## What the realm hears -/

/-- The call at a place has sent its request through a transport of the manager. -/
def Sent (s : Traffic) (place : ℕ) (id : AuthId) : Prop :=
  ∃ x token request, s.errands[place]? = some x ∧ x.transport.manager = id ∧ x.stage = .sent token request

instance (s : Traffic) (place : ℕ) (id : AuthId) : Decidable (s.Sent place id) :=
  decidable_of_iff ((s.errands[place]?).any fun x => x.transport.manager == id && x.token?.isSome) <| by
    cases hx : s.errands[place]? with
    | none => simp [Sent, hx]
    | some x => cases hst : x.stage <;> simp [Sent, hx, Errand.token?, hst]

/-- What an event is to the realm of the tokens, if it is anything. -/
def heard (s : Traffic) : TrafficEvent → Option AuthEvent
  | .auth ev => some ev
  | .start transport _ _ _ => transport.headers.toOption.map fun _ => .fetch transport.manager
  | .goOn _ => none
  | .answer place answer =>
    match s.errands[place]? with
    | none => none
    | some x =>
      match x.stage with
      | .sent .. =>
        if Rest.refusesToken answer then some (.forceRefresh x.transport.manager) else none
      | _ => none
  | .abandon place =>
    match s.errands[place]? with
    | none => none
    | some x =>
      match x.stage with
      | .fetching fetch => some (.abort fetch)
      | _ => none

/-- **The realm hears of an event as one of its own,** or not at all. -/
theorem realm_step (s : Traffic) (ev : TrafficEvent) :
    (s.step ev).realm = (s.heard ev).elim s.realm s.realm.step := by
  cases ev with
  | auth ev => rfl
  | start transport action operation vars =>
    simp only [step, start, heard]
    cases transport.headers <;> rfl
  | goOn place =>
    simp only [step, goOn, heard]
    repeat' split
    all_goals rfl
  | answer place answer =>
    simp only [step, Traffic.answer, heard]
    cases s.errands[place]? with
    | none => rfl
    | some x =>
      simp only
      cases x.stage with
      | sent token request =>
        simp only
        cases Rest.refusesToken answer <;> rfl
      | _ => rfl
  | abandon place =>
    simp only [step, abandon, heard]
    cases s.errands[place]? with
    | none => rfl
    | some x =>
      simp only
      cases x.stage with
      | fetching fetch =>
        simp only [Option.elim_some, AuthRealm.step]
        split
        · rename_i hunder
          exact (AuthRealm.abort_underway hunder).symm
        · rfl
      | _ => rfl

/-- **What the realm hears of:** its own events, the fetch of a call that begins, a refresh, or the end of
a fetch that was given up. -/
inductive Heard (s : Traffic) : TrafficEvent → AuthEvent → Prop where
  | auth {e : AuthEvent} : Heard s (.auth e) e
  | start {t : RestTransport} {action : Action} {operation : String} {vars : Struct}
      {headers : List (String × String)} (h : t.headers = .ok headers) :
      Heard s (.start t action operation vars) (.fetch t.manager)
  | answer {place : ℕ} {answer : HttpAnswer} {id : AuthId} : Heard s (.answer place answer) (.forceRefresh id)
  | abandon {place : ℕ} {f : FetchId} : Heard s (.abandon place) (.abort f)

theorem heard_cases {s : Traffic} {ev : TrafficEvent} {e : AuthEvent} (h : s.heard ev = some e) :
    s.Heard ev e := by
  cases ev with
  | auth e' =>
    obtain rfl : e' = e := Option.some.inj h
    exact .auth
  | start t action operation vars =>
    cases hh : t.headers with
    | error e => simp [heard, hh, Except.toOption] at h
    | ok headers =>
      simp only [heard, hh, Except.toOption, Option.map_some, Option.some.injEq] at h
      rw [← h]
      exact .start hh
  | goOn place => simp [heard] at h
  | answer place answer =>
    simp only [heard] at h
    split at h
    · simp at h
    split at h
    · split at h
      · rw [← Option.some.inj h]
        exact .answer
      · simp at h
    · simp at h
  | abandon place =>
    simp only [heard] at h
    split at h
    · simp at h
    split at h
    · rw [← Option.some.inj h]
      exact .abandon
    · simp at h

end Traffic

/-! ## Traces -/

/-- The traffic after the first `n` events. -/
def trafficAt (es : List TrafficEvent) (n : ℕ) : Traffic := (es.take n).foldl Traffic.step {}

variable {es : List TrafficEvent} {n i j : ℕ}

theorem trafficAt_succ (hn : n < es.length) :
    trafficAt es (n + 1) = (trafficAt es n).step es[n] := by
  simp only [trafficAt]
  rw [List.take_add_one, List.getElem?_eq_getElem hn, Option.toList_some, List.foldl_append]
  rfl

/-- After the last event nothing happens. -/
theorem trafficAt_of_le (hn : es.length ≤ n) : trafficAt es (n + 1) = trafficAt es n := by
  simp only [trafficAt]
  rw [List.take_of_length_le hn, List.take_of_length_le (Nat.le_succ_of_le hn)]

/-- What every event of the realm keeps holds of the realm, whatever happens to the calls of the backend. -/
theorem realmOf_trafficAt {P : AuthRealm → Prop} (hstep : ∀ r, P r → ∀ ev, P (AuthRealm.step r ev)) (h : P {})
    (n : ℕ) : P (trafficAt es n).realm := by
  induction n with
  | zero => exact h
  | succ n ih =>
    rcases Nat.lt_or_ge n es.length with hn | hn
    · rw [trafficAt_succ hn, Traffic.realm_step]
      cases (trafficAt es n).heard es[n] with
      | none => exact ih
      | some ev => exact hstep _ ih ev
    · rw [trafficAt_of_le hn]
      exact ih

/-- What every event keeps holds along a trace. -/
theorem trafficAt_induction {P : Traffic → Prop} (hstep : ∀ s ev, P s → P (s.step ev))
    (hij : i ≤ j) (h : P (trafficAt es i)) : P (trafficAt es j) := by
  induction hij with
  | refl => exact h
  | @step j _ ih =>
    rcases Nat.lt_or_ge j es.length with hj | hj
    · rw [trafficAt_succ hj]
      exact hstep _ _ ih
    · rw [trafficAt_of_le hj]
      exact ih

/-- What is closed stays closed. -/
theorem isClosed_trafficAt {id : AuthId} (hij : i ≤ j) (hc : (trafficAt es i).realm.isClosed id) :
    (trafficAt es j).realm.isClosed id := by
  refine trafficAt_induction (P := fun s => s.realm.isClosed id = true) (fun s ev hs => ?_) hij hc
  rw [s.realm_step]
  cases s.heard ev with
  | none => exact hs
  | some ev => exact (step_mono _ ev).2.2 id hs

end QueryClient
