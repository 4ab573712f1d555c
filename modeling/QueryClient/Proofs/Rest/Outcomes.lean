import QueryClient.Proofs.Rest.Refused
import QueryClient.Proofs.Rest.Requests

/-!
# How a call of the backend comes out

A call sends one request at most, whatever else happens meanwhile to it, to other calls and to the token
managers. It ends without one when its headers are refused, when its fetch brings no token or an illegal
one, and when its address is no good; and it is then told why, and no new token is asked for. A request
that was sent is answered, and the answer alone decides what the call returns and whether a new token
is asked for.

* `fetch_fails_as`: the codes of fetches that fail.
* `Errand.Begun`, `Errand.SentAt`, `Errand.AnsweredAt`, `Errand.Returned`: the call, and what happens to
  it.
* `Errand.MovesTo`, `Errand.exists_movesTo`: what an event makes of a call.
* `Errand.CallCourse`, `Errand.CallCourse.step`: **what may have happened to a call so far.**
* `Errand.Outcome`, `errand_outcome`: **one call, one exchange at most, and one outcome.**
-/

namespace QueryClient

variable {es : List TrafficEvent} {p b i j n : ℕ} {t : RestTransport} {action : Action}
  {operation : String} {vars : Struct} {f : FetchId} {token : Option String} {request : HttpRequest}
  {outcome : TokenOutcome} {answer : HttpAnswer} {e : Error}

/-! ## Fetches that fail -/

/-- The fetch that an event moves, answers or gives up, if it is one that was there. -/
def AuthEvent.mover? (r : AuthRealm) : AuthEvent → Option FetchId
  | .go f | .answer f _ | .answerNow f _ | .abort f => some f
  | .poll => r.queue.head?
  | _ => none

/-- The codes of fetches that fail. -/
def Error.FailsFetch (e : Error) : Prop := e.code = .auth ∨ e.code = .closed ∨ e.code = .cancelled

/-- Fetches have failed with these codes alone. -/
def AuthRealm.FailsAs (r : AuthRealm) : Prop := ∀ (f : FetchId) (y : Fetch) (e : Error),
  r.fetches[f]? = some y → y.stage = .ended (.returned (.error e)) → e.FailsFetch

theorem AuthRealm.FailsAs.step {r : AuthRealm} (h : r.FailsAs) (ev : AuthEvent) : (r.step ev).FailsAs := by
  intro f y e hy hst
  obtain ⟨st, hbefore, hstep⟩ := step_moves r ev f y hy
  rw [hst] at hstep
  generalize hst' : FetchStage.ended (.returned (.error e)) = st' at hstep
  cases hstep with
  | rest =>
    subst hst'
    generalize hst' : FetchStage.ended (.returned (.error e)) = st' at hbefore
    cases hbefore with
    | there hx => exact h f _ e hx hst'.symm
    | fresh => cases hst'
    | replied => cases hst'
  | dropped => cases hst'
  | closed =>
    cases hst'
    exact .inr (.inl rfl)
  | absent => cases hst'
  | called _ _ _ _ _ hasks => exact absurd hst'.symm (hasks.ne_ended _)
  | reached => cases hst'
  | overtaken => cases hst'
  | cancelled =>
    cases hst'
    exact .inr (.inr rfl)
  | @returned call reply =>
    cases reply with
    | ok token => cases hst'
    | error cause =>
      rw [AuthRealm.outcome] at hst'
      split at hst'
      · cases hst'
      · cases hst'
        exact .inl rfl

/-- **A fetch fails as one of three.** -/
theorem fetch_fails_as (h : fetchAt es f n = some (.ended (.returned (.error e)))) : e.FailsFetch := by
  have hrealm : (trafficAt es n).realm.FailsAs := by
    refine trafficAt_induction (P := fun s => s.realm.FailsAs) (fun s ev h => ?_) (Nat.zero_le n)
      (fun f y e hy => by simp [trafficAt] at hy)
    rw [s.realm_step]
    cases s.heard ev with
    | none => exact h
    | some ev => exact h.step ev
  obtain ⟨y, hy, hst⟩ := Option.map_eq_some_iff.1 h
  exact hrealm f y e hy hst

namespace Errand

/-! ## What happens to a call -/

/-- How far the call at a place is after the first `n` events. -/
def stageAt (es : List TrafficEvent) (p n : ℕ) : Option ErrandStage :=
  ((trafficAt es n).errands[p]?).map (·.stage)

/-- **A call begins** at event `b`, through a transport whose manager is there. -/
structure Begun (es : List TrafficEvent) (p b : ℕ) (t : RestTransport) (action : Action)
    (operation : String) (vars : Struct) : Prop where
  event : es[b]? = some (.start t action operation vars)
  place : (trafficAt es b).errands.length = p
  manager : t.manager < (trafficAt es b).realm.managers.length

/-- The call sends a request at event `i`, with what its fetch has brought. -/
def SentAt (es : List TrafficEvent) (p i : ℕ) (token : Option String) (request : HttpRequest) : Prop :=
  (∃ f, stageAt es p i = some (.fetching f)) ∧ stageAt es p (i + 1) = some (.sent token request)

/-- The call's request is answered at event `j`. -/
def AnsweredAt (es : List TrafficEvent) (p j : ℕ) (answer : HttpAnswer) : Prop :=
  es[j]? = some (.answer p answer) ∧ ∃ token request, stageAt es p j = some (.sent token request)

/-- The call has returned by event `n`. -/
def Returned (es : List TrafficEvent) (p n : ℕ) (result : Except Error OperationResult) : Prop :=
  stageAt es p n = some (.ended (.returned result))

/-- The fetch of a call that begins at event `b`. -/
def fetchFrom (es : List TrafficEvent) (b : ℕ) : FetchId := (trafficAt es b).realm.fetches.length

/-- An event is one of the call's own, or of the fetch of its token. -/
def OwnAt (es : List TrafficEvent) (p b n : ℕ) : Prop :=
  n = b ∨ es[n]? = some (.goOn p) ∨ es[n]? = some (.abandon p) ∨
    (∃ answer, es[n]? = some (.answer p answer)) ∨
    ∃ ev, es[n]? = some (.auth ev) ∧ ev.mover? (trafficAt es n).realm = some (fetchFrom es b)

theorem stageAt_eq_some {x : Errand} (hx : (trafficAt es n).errands[p]? = some x) :
    stageAt es p n = some x.stage := by
  rw [stageAt, hx]
  rfl

/-! ## One event -/

/-- **What an event makes of a call** that is there, by the stage that the call comes to. -/
inductive MovesTo (es : List TrafficEvent) (p n : ℕ) (x : Errand) : ErrandStage → Prop
  | stays : MovesTo es p n x x.stage
  | went {f : FetchId} {outcome : TokenOutcome} (hst : x.stage = .fetching f)
      (hf : fetchAt es f n = some (.ended (.returned outcome))) (hev : es[n]? = some (.goOn p)) :
      MovesTo es p n x (x.onToken outcome)
  | answered {token : Option String} {request : HttpRequest} {answer : HttpAnswer}
      (hst : x.stage = .sent token request) (hev : es[n]? = some (.answer p answer)) :
      MovesTo es p n x (.ended (.returned (Rest.interpret x.action request.url answer)))
  | abandoned (ho : x.isOver = false) (hev : es[n]? = some (.abandon p)) : MovesTo es p n x (.ended .dropped)

theorem exists_movesTo {x : Errand} (hx : (trafficAt es n).errands[p]? = some x) : ∃ stage,
    (trafficAt es (n + 1)).errands[p]? = some { x with stage } ∧ MovesTo es p n x stage := by
  rcases Nat.lt_or_ge n es.length with hn | hn
  case inr =>
    refine ⟨x.stage, ?_, .stays⟩
    rw [trafficAt_of_le hn]
    exact hx
  have hevent := List.getElem?_eq_getElem hn
  have hlt : p < ((trafficAt es n).step es[n]).errands.length :=
    Nat.lt_of_lt_of_le (List.getElem?_eq_some_iff.1 hx).1 (errands_length _ _)
  obtain ⟨y, hy⟩ : ∃ y, ((trafficAt es n).step es[n]).errands[p]? = some y :=
    ⟨_, List.getElem?_eq_getElem hlt⟩
  rw [trafficAt_succ hn]
  cases errandStep hy with
  | same hx' =>
    obtain rfl := Option.some.inj (hx.symm.trans hx')
    exact ⟨_, hy, .stays⟩
  | went hx' hst hf hev =>
    obtain rfl := Option.some.inj (hx.symm.trans hx')
    exact ⟨_, hy, .went hst hf (hevent.trans (congrArg some hev))⟩
  | answered hx' hst hev =>
    obtain rfl := Option.some.inj (hx.symm.trans hx')
    exact ⟨_, hy, .answered hst (hevent.trans (congrArg some hev))⟩
  | abandoned hx' hev ho =>
    obtain rfl := Option.some.inj (hx.symm.trans hx')
    exact ⟨_, hy, .abandoned ho (hevent.trans (congrArg some hev))⟩
  | begun hp =>
    rw [hp] at hx
    simp at hx

/-- **What a call does with what its fetch has brought,** if its headers are legal: it ends for a reason, or it
sends a request, for no reason that speaks against it, that carries what it should. -/
theorem onToken_of_legal (x : Errand) (hlegal : ¬ x.transport.Illegal) (outcome : TokenOutcome) :
    (∃ e, x.transport.Unsent x.action outcome e ∧ x.onToken outcome = .ended (.returned (.error e))) ∨
    ∃ token request, outcome = .ok token ∧ (∀ e, ¬ x.transport.Unsent x.action (.ok token) e) ∧
      x.transport.Carries x.action x.operation x.vars token request ∧ x.onToken outcome = .sent token request := by
  cases outcome with
  | error e => exact .inl ⟨e, .fetch, rfl⟩
  | ok token =>
    simp only [onToken]
    rcases RestTransport.request_cases hlegal x.operation x.vars token with
      ⟨e, hrequest, hunsent⟩ | ⟨request, hrequest, hnone, hcarries⟩
    · exact .inl ⟨e, hunsent, by rw [hrequest]⟩
    · exact .inr ⟨token, request, rfl, hnone, hcarries, by rw [hrequest]⟩

/-- What has ended has ended for good. -/
theorem stageAt_ended {ending : Ending (Except Error OperationResult)} {m : ℕ}
    (hst : stageAt es p n = some (.ended ending)) (hnm : n ≤ m) :
    stageAt es p m = some (.ended ending) := by
  induction hnm with
  | refl => exact hst
  | @step m _ ih =>
    obtain ⟨x, hx, hstage⟩ := Option.map_eq_some_iff.1 ih
    obtain ⟨stage, hy, hmoves⟩ := exists_movesTo hx
    rw [stageAt_eq_some hy]
    cases hmoves with
    | stays => exact congrArg some hstage
    | went hst => cases hstage.symm.trans hst
    | answered hst => cases hstage.symm.trans hst
    | abandoned ho => simp [isOver, hstage] at ho

/-! ## The course of a call -/

/-- The call sends a request at event `i`. -/
def Sends (es : List TrafficEvent) (p i : ℕ) : Prop := ∃ token request, SentAt es p i token request

/-- The call has sent nothing in the first `n` events. -/
def Silent (es : List TrafficEvent) (p n : ℕ) : Prop := ∀ i < n, ¬ Sends es p i

/-- The call has sent nothing in the first `n` events but at event `i`. -/
def SentOnly (es : List TrafficEvent) (p n i : ℕ) : Prop := ∀ j < n, Sends es p j → j = i

/-- **What may have happened so far to a call** that began at event `b`, by its stage. -/
inductive CallCourse (es : List TrafficEvent) (p b : ℕ) (t : RestTransport) (action : Action)
    (operation : String) (vars : Struct) (n : ℕ) : ErrandStage → Prop
  | refused (h : t.Illegal) (hsilent : Silent es p n) :
      CallCourse es p b t action operation vars n (.ended (.returned (.error .invalidHeader)))
  | fetching (h : ¬ t.Illegal) (hsilent : Silent es p n) :
      CallCourse es p b t action operation vars n (.fetching (fetchFrom es b))
  | unsent {m : ℕ} {outcome : TokenOutcome} {e : Error} (hlegal : ¬ t.Illegal) (hbm : b < m) (hmn : m < n)
      (hf : fetchAt es (fetchFrom es b) m = some (.ended (.returned outcome)))
      (h : t.Unsent action outcome e) (hsilent : Silent es p n) :
      CallCourse es p b t action operation vars n (.ended (.returned (.error e)))
  | sent {i : ℕ} {token : Option String} {request : HttpRequest} (hi : SentAt es p i token request)
      (hin : i < n) (honly : SentOnly es p n i) :
      CallCourse es p b t action operation vars n (.sent token request)
  | answered {i j : ℕ} {token : Option String} {request : HttpRequest} {answer : HttpAnswer}
      (hi : SentAt es p i token request) (hij : i < j) (hj : AnsweredAt es p j answer) (hjn : j < n)
      (honly : SentOnly es p n i) : CallCourse es p b t action operation vars n
        (.ended (.returned (Rest.interpret action request.url answer)))
  | dropped {i : ℕ} (honly : SentOnly es p n i) :
      CallCourse es p b t action operation vars n (.ended .dropped)

theorem Silent.succ (h : Silent es p n) (hn : ¬ Sends es p n) : Silent es p (n + 1) := by
  intro i hi
  rcases Nat.lt_succ_iff_lt_or_eq.1 hi with hi | rfl
  · exact h i hi
  · exact hn

theorem SentOnly.succ (h : SentOnly es p n i) (hn : ¬ Sends es p n) : SentOnly es p (n + 1) i := by
  intro j hj hsends
  rcases Nat.lt_succ_iff_lt_or_eq.1 hj with hj | rfl
  · exact h j hj hsends
  · exact absurd hsends hn

theorem Silent.only (h : Silent es p n) (i : ℕ) : SentOnly es p n i :=
  fun j hj hsends => absurd hsends (h j hj)

theorem Silent.sends (h : Silent es p n) : SentOnly es p (n + 1) n := by
  intro j hj hsends
  rcases Nat.lt_succ_iff_lt_or_eq.1 hj with hj | rfl
  · exact absurd hsends (h j hj)
  · rfl

/-- Who has ended without a request sends none. -/
theorem Silent.of_ended {ending : Ending (Except Error OperationResult)} (h : Silent es p n)
    (hst : stageAt es p n = some (.ended ending)) (i : ℕ) : ¬ Sends es p i := by
  intro hi
  rcases Nat.lt_or_ge i n with hlt | hge
  · exact h i hlt hi
  · obtain ⟨-, -, ⟨f, hf⟩, -⟩ := hi
    rw [stageAt_ended hst hge] at hf
    cases hf

/-- A call that stays where it is sends nothing. -/
theorem not_sends_of_same (h : stageAt es p (n + 1) = stageAt es p n) : ¬ Sends es p n := by
  rintro ⟨token, request, ⟨f, hf⟩, hsent⟩
  rw [h, hf] at hsent
  cases hsent

theorem not_sends_of_ended {ending : Ending (Except Error OperationResult)}
    (h : stageAt es p (n + 1) = some (.ended ending)) : ¬ Sends es p n := by
  rintro ⟨token, request, -, hsent⟩
  rw [h] at hsent
  cases hsent

namespace CallCourse

variable {stage : ErrandStage}

/-- What has happened stays so, while nothing is sent. -/
theorem succ (h : CallCourse es p b t action operation vars n stage) (hn : ¬ Sends es p n) :
    CallCourse es p b t action operation vars (n + 1) stage := by
  cases h with
  | refused h hsilent => exact .refused h (hsilent.succ hn)
  | fetching h hsilent => exact .fetching h (hsilent.succ hn)
  | unsent hlegal hbm hmn hf h hsilent =>
    exact .unsent hlegal hbm (Nat.lt_succ_of_lt hmn) hf h (hsilent.succ hn)
  | sent hi hin honly => exact .sent hi (Nat.lt_succ_of_lt hin) (honly.succ hn)
  | answered hi hij hj hjn honly => exact .answered hi hij hj (Nat.lt_succ_of_lt hjn) (honly.succ hn)
  | dropped honly => exact .dropped (honly.succ hn)

/-- A call sends once at most. -/
theorem once (h : CallCourse es p b t action operation vars n stage) (hi : i < n) (hj : j < n)
    (hsi : Sends es p i) (hsj : Sends es p j) : i = j := by
  have hone : ∀ {k}, SentOnly es p n k → i = j := fun honly => (honly i hi hsi).trans (honly j hj hsj).symm
  cases h with
  | refused _ hsilent => exact absurd hsi (hsilent i hi)
  | fetching _ hsilent => exact absurd hsi (hsilent i hi)
  | unsent _ _ _ _ _ hsilent => exact absurd hsi (hsilent i hi)
  | sent _ _ honly => exact hone honly
  | answered _ _ _ _ honly => exact hone honly
  | dropped honly => exact hone honly

/-- **What an event makes of a call.** -/
theorem step (hbn : b < n) (hx : (trafficAt es n).errands[p]? = some ⟨t, action, operation, vars, stage⟩)
    (h : CallCourse es p b t action operation vars n stage) :
    ∃ stage', (trafficAt es (n + 1)).errands[p]? = some ⟨t, action, operation, vars, stage'⟩ ∧
      CallCourse es p b t action operation vars (n + 1) stage' := by
  obtain ⟨stage', hy, hmoves⟩ := exists_movesTo hx
  have hstage := stageAt_eq_some hx
  have hnext := stageAt_eq_some hy
  refine ⟨stage', hy, ?_⟩
  cases hmoves with
  | stays => exact h.succ (not_sends_of_same (hnext.trans hstage.symm))
  | @went f outcome hst hf =>
    subst hst
    cases h with
    | fetching hlegal hsilent =>
      rcases onToken_of_legal ⟨t, action, operation, vars, .fetching (fetchFrom es b)⟩ hlegal outcome with
        ⟨e, hunsent, hto⟩ | ⟨token, request, -, -, -, hto⟩
      · rw [hto] at hnext ⊢
        exact .unsent hlegal hbn (Nat.lt_succ_self n) hf hunsent (hsilent.succ (not_sends_of_ended hnext))
      · rw [hto] at hnext ⊢
        exact .sent ⟨⟨_, hstage⟩, hnext⟩ (Nat.lt_succ_self n) hsilent.sends
  | answered hst hev =>
    subst hst
    cases h with
    | sent hi hin honly =>
      exact .answered hi hin ⟨hev, _, _, hstage⟩ (Nat.lt_succ_self n) (honly.succ (not_sends_of_ended hnext))
  | abandoned ho =>
    have hno := not_sends_of_ended hnext
    cases h with
    | fetching _ hsilent => exact .dropped ((hsilent.only n).succ hno)
    | sent _ _ honly => exact .dropped (honly.succ hno)
    | refused => cases ho
    | unsent => cases ho
    | answered => cases ho
    | dropped => cases ho

end CallCourse

/-! ## A call begins -/

namespace Begun

variable (h : Begun es p b t action operation vars)

include h

theorem lt : b < es.length := (List.getElem?_eq_some_iff.1 h.event).1

theorem step_eq : trafficAt es (b + 1) = (trafficAt es b).start t action operation vars :=
  (trafficAt_succ h.lt).trans (congrArg (trafficAt es b).step (List.getElem?_eq_some_iff.1 h.event).2)

/-- The call is not there before. -/
theorem before (hn : n ≤ b) : stageAt es p n = none := by
  have hmore : (trafficAt es n).errands.length ≤ (trafficAt es b).errands.length :=
    trafficAt_induction (P := fun s => (trafficAt es n).errands.length ≤ s.errands.length)
      (fun s ev hs => Nat.le_trans hs (errands_length s ev)) hn (Nat.le_refl _)
  rw [h.place] at hmore
  rw [stageAt, List.getElem?_eq_none hmore]
  rfl

theorem silent : Silent es p (b + 1) := by
  rintro i hi ⟨token, request, ⟨f, hf⟩, -⟩
  rw [h.before (Nat.le_of_lt_succ hi)] at hf
  cases hf

theorem refused (hillegal : t.Illegal) : (trafficAt es (b + 1)).errands[p]? =
    some ⟨t, action, operation, vars, .ended (.returned (.error .invalidHeader))⟩ := by
  have hheaders := RestTransport.headers_eq_error_iff.2 ⟨hillegal, rfl⟩
  rw [h.step_eq, Traffic.start, hheaders, ← h.place]
  exact List.getElem?_concat_length

theorem fetching (hlegal : ¬ t.Illegal) : (trafficAt es (b + 1)).errands[p]? =
      some ⟨t, action, operation, vars, .fetching (fetchFrom es b)⟩ ∧
    (trafficAt es (b + 1)).realm = (trafficAt es b).realm.step (.fetch t.manager) := by
  obtain ⟨hillegal, -⟩ | ⟨-, hheaders⟩ := t.headers_cases
  · exact absurd hillegal hlegal
  rw [h.step_eq, Traffic.start, hheaders, ← h.place]
  exact ⟨List.getElem?_concat_length, rfl⟩

/-- **The course of a call** from its beginning. -/
theorem course (hn : b < n) : ∃ stage,
    (trafficAt es n).errands[p]? = some ⟨t, action, operation, vars, stage⟩ ∧
      CallCourse es p b t action operation vars n stage := by
  induction hn with
  | refl =>
    by_cases hillegal : t.Illegal
    · exact ⟨_, h.refused hillegal, .refused hillegal h.silent⟩
    · exact ⟨_, (h.fetching hillegal).1, .fetching hillegal h.silent⟩
  | @step n hbn ih =>
    obtain ⟨stage, hx, hcourse⟩ := ih
    exact hcourse.step hbn hx

/-- The stage of a call tells its course. -/
theorem course_of_stage {stage : ErrandStage} (hst : stageAt es p n = some stage) : b < n ∧
    (trafficAt es n).errands[p]? = some ⟨t, action, operation, vars, stage⟩ ∧
      CallCourse es p b t action operation vars n stage := by
  have hbn : b < n := by
    by_contra hle
    rw [h.before (Nat.le_of_not_lt hle)] at hst
    cases hst
  obtain ⟨stage', hx, hcourse⟩ := h.course hbn
  obtain rfl : stage' = stage := Option.some.inj ((stageAt_eq_some hx).symm.trans hst)
  exact ⟨hbn, hx, hcourse⟩

theorem once (hi : Sends es p i) (hj : Sends es p j) : i = j := by
  obtain ⟨-, request, -, hsent⟩ := id hi
  obtain ⟨stage, -, hcourse⟩ := h.course (n := max b (max i j) + 1) (by omega)
  exact hcourse.once (by omega) (by omega) hi hj

/-- The stage that a call comes to with what its fetch has brought. -/
theorem onToken (hev : es[n]? = some (.goOn p)) (hst : stageAt es p n = some (.fetching f))
    (hf : fetchAt es f n = some (.ended (.returned outcome))) :
    stageAt es p (n + 1) = some (Errand.onToken ⟨t, action, operation, vars, .fetching f⟩ outcome) := by
  obtain ⟨-, hx, -⟩ := h.course_of_stage hst
  obtain ⟨hn, hgo⟩ := List.getElem?_eq_some_iff.1 hev
  have hf' : (trafficAt es n).realm.stage? f = some (.ended (.returned outcome)) := hf
  rw [stageAt, trafficAt_succ hn, hgo]
  simp [Traffic.step, Traffic.goOn, hx, hf', Traffic.setStage]

/-- **What a call does with what its fetch has brought.** -/
theorem goesOn (hev : es[n]? = some (.goOn p)) (hst : stageAt es p n = some (.fetching f))
    (hf : fetchAt es f n = some (.ended (.returned outcome))) :
    (∀ e, t.Unsent action outcome e → Returned es p (n + 1) (.error e)) ∧
      ((∀ e, ¬ t.Unsent action outcome e) → Sends es p n) := by
  obtain ⟨-, hx, hcourse⟩ := h.course_of_stage hst
  have hlegal : ¬ t.Illegal := by
    cases hcourse with
    | fetching hlegal => exact hlegal
  have hnext := h.onToken hev hst hf
  rcases onToken_of_legal ⟨t, action, operation, vars, .fetching f⟩ hlegal outcome with
    ⟨e, hunsent, hto⟩ | ⟨token, request, rfl, hnone, -, hto⟩
  · rw [hto] at hnext
    refine ⟨fun e' hunsent' => ?_, fun hnone => absurd hunsent (hnone e)⟩
    rw [hunsent'.unique hunsent]
    exact hnext
  · rw [hto] at hnext
    exact ⟨fun e hunsent => absurd hunsent (hnone e), fun _ => ⟨token, request, ⟨f, hst⟩, hnext⟩⟩

/-- **A call comes out as it would in one piece,** with what its fetch has brought and what the network
answers. -/
theorem complete (network : HttpRequest → HttpAnswer) (hev : es[n]? = some (.goOn p))
    (hst : stageAt es p n = some (.fetching f)) (hf : fetchAt es f n = some (.ended (.returned outcome))) :
    (∃ token request, SentAt es p n token request ∧ t.complete action operation vars outcome network =
      { sent := some request
        result := Rest.interpret action request.url (network request)
        refused := Rest.refusesToken (network request) }) ∨
    ∃ result, Returned es p (n + 1) result ∧ t.complete action operation vars outcome network =
      { sent := none, result, refused := false } := by
  have hnext := h.onToken hev hst hf
  generalize hx : (⟨t, action, operation, vars, .fetching f⟩ : Errand) = x at hnext
  obtain ⟨hsent, hreturned⟩ := x.complete_eq outcome network
  rw [← hx] at hsent hreturned hnext
  rcases Errand.onToken_cases ⟨t, action, operation, vars, .fetching f⟩ outcome with
    ⟨result, hto⟩ | ⟨token, request, -, hto⟩
  · exact .inr ⟨result, hnext.trans (congrArg some hto), hreturned result hto⟩
  · exact .inl ⟨token, request, ⟨⟨f, hst⟩, hnext.trans (congrArg some hto)⟩, hsent token request hto⟩

/-- **What is sent carries what it should,** with the token that was fetched. -/
theorem sent (hi : SentAt es p i token request) : b < i ∧ ¬ t.Illegal ∧
    fetchAt es (fetchFrom es b) i = some (.ended (.returned (.ok token))) ∧
      (∀ e, ¬ t.Unsent action (.ok token) e) ∧ t.Carries action operation vars token request := by
  obtain ⟨⟨f, hst⟩, hnext⟩ := id hi
  obtain ⟨hbi, hx, hcourse⟩ := h.course_of_stage hst
  cases hcourse with
  | fetching hlegal _ =>
    refine ⟨hbi, hlegal, ?_⟩
    obtain ⟨stage, hy, hmoves⟩ := exists_movesTo hx
    have hsent : stage = .sent token request := Option.some.inj ((stageAt_eq_some hy).symm.trans hnext)
    cases hmoves with
    | stays => cases hsent
    | @went g outcome hst' hf =>
      obtain rfl := ErrandStage.fetching.inj hst'
      rcases onToken_of_legal ⟨t, action, operation, vars, .fetching (fetchFrom es b)⟩ hlegal outcome with
        ⟨e, -, hto⟩ | ⟨token', request', rfl, hnone, hcarries, hto⟩
      · cases hto.symm.trans hsent
      · cases hto.symm.trans hsent
        exact ⟨hf, hnone, hcarries⟩
    | answered => cases hsent
    | abandoned => cases hsent

/-- **An answer ends the call.** -/
theorem answered (hi : SentAt es p i token request) (hj : AnsweredAt es p j answer) :
    i < j ∧ Returned es p (j + 1) (Rest.interpret action request.url answer) := by
  obtain ⟨hev, token', request', hst⟩ := hj
  obtain ⟨-, hx, hcourse⟩ := h.course_of_stage hst
  have hj : j < es.length := (List.getElem?_eq_some_iff.1 hev).1
  cases hcourse with
  | @sent i' _ _ hi' hij' _ =>
    obtain rfl := h.once ⟨_, _, hi⟩ ⟨_, _, hi'⟩
    cases hi.2.symm.trans hi'.2
    refine ⟨hij', ?_⟩
    have hanswer : es[j] = .answer p answer := (List.getElem?_eq_some_iff.1 hev).2
    rw [Returned, stageAt, trafficAt_succ hj, hanswer]
    simp only [Traffic.step, Traffic.answer, hx]
    cases Rest.refusesToken answer <;> simp [Traffic.setStage, hx]

/-- **What a call returns** is said by an answer, or nothing was sent. -/
theorem returned {result : Except Error OperationResult} (hr : Returned es p n result) :
    ((∀ i, ¬ Sends es p i) ∧ (t.Illegal ∧ result = .error .invalidHeader ∨
      ¬ t.Illegal ∧ ∃ m outcome e, b < m ∧ m < n ∧
        fetchAt es (fetchFrom es b) m = some (.ended (.returned outcome)) ∧
          t.Unsent action outcome e ∧ result = .error e)) ∨
    ∃ i j token request answer, SentAt es p i token request ∧ i < j ∧ j < n ∧ AnsweredAt es p j answer ∧
      result = Rest.interpret action request.url answer := by
  obtain ⟨-, -, hcourse⟩ := h.course_of_stage hr
  cases hcourse with
  | refused hillegal hsilent => exact .inl ⟨hsilent.of_ended hr, .inl ⟨hillegal, rfl⟩⟩
  | unsent hlegal hbm hmn hf hunsent hsilent =>
    exact .inl ⟨hsilent.of_ended hr, .inr ⟨hlegal, _, _, _, hbm, hmn, hf, hunsent, rfl⟩⟩
  | answered hi hij hj hjn _ => exact .inr ⟨_, _, _, _, _, hi, hij, hjn, hj, rfl⟩

theorem serves (hlegal : ¬ t.Illegal) (hbn : b < n) : (trafficAt es n).realm.Serves t.manager (fetchFrom es b) := by
  refine trafficAt_induction (P := fun s => s.realm.Serves t.manager (fetchFrom es b)) (fun s ev hs => ?_) hbn ?_
  · rw [s.realm_step]
    cases s.heard ev with
    | none => exact hs
    | some ev => exact hs.step ev
  · rw [(h.fetching hlegal).2]
    exact .fetch _ _

/-- A fetch whose manager has been closed before it came fails, if it does not wait for its turn or is given
up. -/
theorem fetch_closed (hlegal : ¬ t.Illegal) (hc : (trafficAt es b).realm.isClosed t.manager) (hbn : b < n) :
    fetchAt es (fetchFrom es b) n = some .arriving ∨ fetchAt es (fetchFrom es b) n = some (.ended .dropped) ∨
      fetchAt es (fetchFrom es b) n = some (.ended (.returned (.error .authClosed))) := by
  induction hbn with
  | refl =>
    left
    refine fetchAt_eq_some (x := { manager := t.manager }) ?_
    rw [(h.fetching hlegal).2]
    exact List.getElem?_concat_length
  | @step n hbn ih =>
    rcases Nat.lt_or_ge n es.length with hn | hn
    case inr => simpa only [fetchAt, trafficAt_of_le hn] using ih
    have hserves := h.serves hlegal hbn
    obtain ⟨x, hx⟩ : ∃ x, (trafficAt es n).realm.fetches[fetchFrom es b]? = some x :=
      ⟨_, List.getElem?_eq_getElem hserves.lt⟩
    have hid := hserves.manager x hx
    obtain ⟨y, hy, -, hstep⟩ := fetchAt_step hn hx
    rw [hid] at hstep
    rw [fetchAt_eq_some hx] at ih
    rw [fetchAt_eq_some hy]
    simp only [Option.some.injEq] at ih ⊢
    have hclosed := isClosed_trafficAt (Nat.le_of_lt hbn) hc
    rcases hstep with ⟨call, c, reply, hfetching, -⟩ | hstep
    · simp [hfetching] at ih
    rcases ih with ih | ih | ih
    · rw [ih] at hstep
      generalize hbefore : FetchStage.arriving = st₀ at hstep
      generalize y.stage = st at hstep ⊢
      cases hstep with
      | rest => exact .inl rfl
      | dropped => exact .inr (.inl rfl)
      | closed => exact .inr (.inr rfl)
      | absent _ hopen => simp [hclosed] at hopen
      | called _ _ hopen => simp [hclosed] at hopen
      | cancelled hs =>
        subst hbefore
        simp [FetchStage.isOutstanding] at hs
      | _ => simp at hbefore
    · rw [ih] at hstep
      exact .inr (.inl (hstep.of_ended.elim id id))
    · rw [ih] at hstep
      exact .inr hstep.of_ended.symm

/-- **A closed manager lets no request be sent.** -/
theorem closed (hc : (trafficAt es b).realm.isClosed t.manager) :
    (∀ i, ¬ Sends es p i) ∧ ∀ n result, Returned es p n result →
      t.Illegal ∧ result = .error .invalidHeader ∨ result = .error .authClosed := by
  have hbrought : ¬ t.Illegal → ∀ m outcome, b < m →
      fetchAt es (fetchFrom es b) m = some (.ended (.returned outcome)) → outcome = .error .authClosed := by
    intro hlegal m outcome hbm hf
    rcases h.fetch_closed hlegal hc hbm with hm | hm | hm
    · cases hf.symm.trans hm
    · cases hf.symm.trans hm
    · cases hf.symm.trans hm
      rfl
  have hsilent : ∀ i, ¬ Sends es p i := by
    rintro i ⟨token, request, hi⟩
    obtain ⟨hbi, hlegal, hf, -⟩ := h.sent hi
    cases hbrought hlegal i _ hbi hf
  refine ⟨hsilent, fun n result hr => ?_⟩
  rcases h.returned hr with ⟨-, hillegal | ⟨hlegal, m, outcome, e, hbm, -, hf, hunsent, rfl⟩⟩ |
    ⟨i, j, token, request, answer, hi, -⟩
  · exact .inl hillegal
  · cases hbrought hlegal m outcome hbm hf
    cases hunsent
    exact .inr rfl
  · exact absurd ⟨token, request, hi⟩ (hsilent i)

/-! ## Whether a new token is asked for -/

theorem manager_lt (hbn : b ≤ n) : t.manager < (trafficAt es n).realm.managers.length := by
  refine trafficAt_induction (P := fun s => t.manager < s.realm.managers.length) (fun s ev hs => ?_) hbn
    h.manager
  rw [s.realm_step]
  cases s.heard ev with
  | none => exact hs
  | some ev => exact Nat.lt_of_lt_of_le hs (step_mono s.realm ev).1

/-- An answer that refuses the token is one. -/
theorem forcedAt {body : List UInt8} (hn : AnsweredAt es p n (.answered 401 body)) :
    ForcedAt es t.manager n := by
  obtain ⟨hev, token, request, hst⟩ := hn
  obtain ⟨hbn, hx, -⟩ := h.course_of_stage hst
  exact ⟨h.manager_lt (Nat.le_of_lt hbn), .inr ⟨p, body, hev, _, _, _, hx, rfl, rfl⟩⟩

/-- The events of a call and of its fetch are no refreshes, and answer no other call. -/
theorem own_event (hown : OwnAt es p b n) : (∀ id, es[n]? ≠ some (.auth (.forceRefresh id))) ∧
    ∀ place answer, es[n]? = some (.answer place answer) → place = p := by
  rcases hown with rfl | hown | hown | ⟨answer, hown⟩ | ⟨ev, hown, hmover⟩
  · simp [h.event]
  · simp [hown]
  · simp [hown]
  · simp only [hown, Option.some.injEq, TrafficEvent.answer.injEq]
    exact ⟨fun id => by simp, fun place _ heq => heq.1.symm⟩
  · refine ⟨fun id heq => ?_, fun place answer heq => by simp [hown] at heq⟩
    rw [hown, Option.some.injEq, TrafficEvent.auth.injEq] at heq
    simp [heq, AuthEvent.mover?] at hmover

/-- **A call and its fetch ask for a new token only when the call's own is refused.** -/
theorem of_forcedAt {id : AuthId} (hown : OwnAt es p b n) (hforced : ForcedAt es id n) :
    id = t.manager ∧ ∃ body, AnsweredAt es p n (.answered 401 body) := by
  obtain ⟨hauth, hplace⟩ := h.own_event hown
  obtain ⟨-, hev | ⟨place, body, hev, x, token, request, hx, hid, hst⟩⟩ := hforced
  · exact absurd hev (hauth id)
  · obtain rfl := hplace _ _ hev
    have hstage := (stageAt_eq_some hx).trans (congrArg some hst)
    obtain ⟨-, hx', -⟩ := h.course_of_stage hstage
    have htransport := congrArg Errand.transport (Option.some.inj (hx.symm.trans hx'))
    exact ⟨hid.symm.trans (congrArg RestTransport.manager htransport), body, hev, token, request, hstage⟩

end Begun

/-! ## The outcome -/

/-- **One call, one exchange at most, and one outcome.** -/
structure Outcome (es : List TrafficEvent) (p b : ℕ) (t : RestTransport) (action : Action)
    (operation : String) (vars : Struct) : Prop where
  /-- One request is sent at most, … -/
  once : ∀ i j, Sends es p i → Sends es p j → i = j
  /-- … with what a fetch of the manager has brought, for no reason that speaks against it, and carrying
  what it should. -/
  sent : ∀ i token request, SentAt es p i token request → b < i ∧ ¬ t.Illegal ∧
    fetchAt es (fetchFrom es b) i = some (.ended (.returned (.ok token))) ∧
      (∀ e, ¬ t.Unsent action (.ok token) e) ∧ t.Carries action operation vars token request
  /-- A location or an app id that is refused as a header ends the call at once. -/
  illegal : t.Illegal → Returned es p (b + 1) (.error .invalidHeader)
  /-- Otherwise a token of the manager is fetched, … -/
  fetches : ¬ t.Illegal → stageAt es p (b + 1) = some (.fetching (fetchFrom es b)) ∧
    (trafficAt es (b + 1)).realm.Serves t.manager (fetchFrom es b)
  /-- … and what the fetch has brought ends the call for a reason, or lets it send its request. -/
  goesOn : ∀ n f outcome, es[n]? = some (.goOn p) → stageAt es p n = some (.fetching f) →
    fetchAt es f n = some (.ended (.returned outcome)) →
      (∀ e, t.Unsent action outcome e → Returned es p (n + 1) (.error e)) ∧
        ((∀ e, ¬ t.Unsent action outcome e) → Sends es p n)
  /-- It comes out as it would in one piece: with what the fetch has brought, and whatever the network answers. -/
  complete : ∀ n f outcome network, es[n]? = some (.goOn p) → stageAt es p n = some (.fetching f) →
    fetchAt es f n = some (.ended (.returned outcome)) →
      (∃ token request, SentAt es p n token request ∧ t.complete action operation vars outcome network =
        { sent := some request
          result := Rest.interpret action request.url (network request)
          refused := Rest.refusesToken (network request) }) ∨
      ∃ result, Returned es p (n + 1) result ∧ t.complete action operation vars outcome network =
        { sent := none, result, refused := false }
  /-- The reason is told by its code. A request that cannot be sent to its address is a failure of the
  network. -/
  reason : ∀ n outcome e, fetchAt es (fetchFrom es b) n = some (.ended (.returned outcome)) →
    t.Unsent action outcome e → e.code = .internal ∨ e.FailsFetch ∨
      e.code = .network ∧ ∃ u, t.url action = .ok u ∧ u.anonymous.isSendable = false
  /-- A closed manager lets no request be sent. -/
  closed : (trafficAt es b).realm.isClosed t.manager →
    (∀ i, ¬ Sends es p i) ∧ ∀ n result, Returned es p n result →
      t.Illegal ∧ result = .error .invalidHeader ∨ result = .error .authClosed
  /-- An answer ends the call, and means one thing. -/
  answered : ∀ i j token request answer, SentAt es p i token request → AnsweredAt es p j answer →
    i < j ∧ ∃ result, Returned es p (j + 1) result ∧ Rest.Meaning answer result
  /-- A call returns what its answer means, or it has sent nothing and returns the reason. -/
  returned : ∀ n result, Returned es p n result →
    (∃ i j token request answer, SentAt es p i token request ∧ i < j ∧ j < n ∧ AnsweredAt es p j answer ∧
      Rest.Meaning answer result) ∨
    (∀ i, ¬ Sends es p i) ∧ (t.Illegal ∧ result = .error .invalidHeader ∨
      ¬ t.Illegal ∧ ∃ m outcome e, b < m ∧ m < n ∧
        fetchAt es (fetchFrom es b) m = some (.ended (.returned outcome)) ∧
          t.Unsent action outcome e ∧ result = .error e)
  /-- A new token is asked for when the answer refuses the call's own, … -/
  forces : ∀ n body, AnsweredAt es p n (.answered 401 body) → owesAt es t.manager (n + 1) = true
  /-- … and never else by the call, nor by the fetch of its token. -/
  spares : ∀ n id, OwnAt es p b n → (id ≠ t.manager ∨ ∀ body, ¬ AnsweredAt es p n (.answered 401 body)) →
    owesAt es id (n + 1) = true → owesAt es id n = true

theorem reason_code (hf : fetchAt es f n = some (.ended (.returned outcome)))
    (h : t.Unsent action outcome e) : e.code = .internal ∨ e.FailsFetch ∨
      e.code = .network ∧ ∃ u, t.url action = .ok u ∧ u.anonymous.isSendable = false := by
  cases h with
  | fetch => exact .inr (.inl (fetch_fails_as hf))
  | token => exact .inl rfl
  | address => exact .inl rfl
  | send _ hurl hsend => exact .inr (.inr ⟨rfl, _, hurl, hsend⟩)

end Errand

/-- **A call sends one request at most and returns what its answer means,** whatever else happens. -/
theorem errand_outcome (h : Errand.Begun es p b t action operation vars) :
    Errand.Outcome es p b t action operation vars where
  once _ _ := h.once
  sent _ _ _ := h.sent
  illegal hillegal := Errand.stageAt_eq_some (h.refused hillegal)
  fetches hlegal := by
    obtain ⟨hx, hrealm⟩ := h.fetching hlegal
    refine ⟨Errand.stageAt_eq_some hx, ?_⟩
    rw [hrealm]
    exact AuthRealm.Serves.fetch _ _
  goesOn _ _ _ := h.goesOn
  complete _ _ _ network := h.complete network
  reason _ _ _ := Errand.reason_code
  closed := h.closed
  answered _ _ _ request _ hi hj :=
    (h.answered hi hj).imp id fun hr => ⟨_, hr, Rest.meaning action request.url _⟩
  returned _ _ hr := by
    rcases h.returned hr with hsilent | ⟨i, j, token, request, answer, hi, hij, hjn, hj, rfl⟩
    · exact .inr hsilent
    · exact .inl ⟨i, j, token, request, answer, hi, hij, hjn, hj, Rest.meaning action request.url answer⟩
  forces n _ hn := by
    cases flag_event es t.manager n with
    | forced _ _ howes => exact howes
    | taken hnot => exact absurd (h.forcedAt hn) hnot
    | kept hnot => exact absurd (h.forcedAt hn) hnot
  spares n id hown hnot howes := by
    cases flag_event es id n with
    | forced hforced =>
      obtain ⟨hid, body, hanswer⟩ := h.of_forcedAt hown hforced
      exact (hnot.elim (absurd hid) fun hnone => absurd hanswer (hnone body))
    | taken _ _ _ _ howes' =>
      rw [howes'] at howes
      cases howes
    | kept _ _ howes' =>
      rw [howes'] at howes
      exact howes

/-- A call sends a request with the ticket that was fetched; the ticket is refused, so the next fetch is to
bring a new one. -/
theorem errand_outcome_refused : Errand.Begun refusedRun 0 2 cinemaTransport .query "films" [] ∧
    Errand.Outcome refusedRun 0 2 cinemaTransport .query "films" [] ∧
    (∃ request, Errand.SentAt refusedRun 0 5 (some "ticket") request) ∧
    Errand.AnsweredAt refusedRun 0 6 (.answered 401 []) ∧ owesAt refusedRun 0 6 = false ∧
    owesAt refusedRun 0 7 = true := by
  have hbegun : Errand.Begun refusedRun 0 2 cinemaTransport .query "films" [] := ⟨rfl, rfl, by decide⟩
  have hlaw := errand_outcome hbegun
  obtain ⟨hwaits, hsent, htoken⟩ : (trafficAt refusedRun 5).Waits 0 0 0 ∧ (trafficAt refusedRun 6).Sent 0 0 ∧
      ((trafficAt refusedRun 6).errands[0]?).bind Errand.token? = some (some "ticket") := by
    decide +kernel
  obtain ⟨x, hx, -, hxst⟩ := hwaits
  obtain ⟨y, token, request, hy, -, hyst⟩ := hsent
  have hstage := (Errand.stageAt_eq_some hy).trans (congrArg some hyst)
  have hans : Errand.AnsweredAt refusedRun 0 6 (.answered 401 []) := ⟨rfl, token, request, hstage⟩
  obtain rfl : token = some "ticket" := by simpa [hy, Errand.token?, hyst] using htoken
  have hfetching := (Errand.stageAt_eq_some hx).trans (congrArg some hxst)
  exact ⟨hbegun, hlaw, ⟨request, ⟨0, hfetching⟩, hstage⟩, hans, by decide +kernel, hlaw.forces 6 [] hans⟩

end QueryClient
