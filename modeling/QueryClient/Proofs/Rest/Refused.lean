import QueryClient.Proofs.Rest.OneByOne
import QueryClient.Proofs.Rest.Refreshes

/-!
# After a refused token

Calls of the backend come one after another, and one of them is answered with status 401. No request is
sent then before the provider has answered a call that asks for a new token: the first call that is made
for the manager. What that call brings is used up with it. If it fails, or is overtaken by a change, the
refresh is not repeated.

* `RefusedAt`, `SendsAt`: a token is refused, a request is sent.
* `FirstCall`, `Replied`: the first call of the provider since an event, and the answer to it.
* `Phase`, `Phase.step`: **how far the manager is since a token was refused.**
* `CallAt.next_forced`: **a call uses up what is owed.**
* `Refreshed`, `refreshed_before_send`: **the provider was asked for a new token, and has answered,
  before the next request is sent.**
* `refresh_used_up`: a call that fails or is overtaken uses up the refresh.
-/

namespace QueryClient

/-! ## Requests and answers -/

/-- The backend answers a request with status 401. -/
def RefusedAt (es : List TrafficEvent) (id : AuthId) (a : ℕ) : Prop :=
  ∃ place body, es[a]? = some (.answer place (.answered 401 body)) ∧ (trafficAt es a).Sent place id

/-- A call sends its request at an event, with what its fetch has brought: a token, or none. -/
def SendsAt (es : List TrafficEvent) (id : AuthId) (f : FetchId) (b : ℕ) (token : Option String) : Prop :=
  ∃ p, (trafficAt es b).Waits id p f ∧ ((trafficAt es (b + 1)).errands[p]?).bind Errand.token? = some token

/-- How far a fetch is after the first `n` events. -/
def fetchAt (es : List TrafficEvent) (f : FetchId) (n : ℕ) : Option FetchStage :=
  (trafficAt es n).realm.stage? f

/-- The counter of a manager after the first `n` events. -/
def counterAt (es : List TrafficEvent) (id : AuthId) (n : ℕ) : ℕ := (trafficAt es n).realm.counter id

/-- **The first call of the provider for a manager since an event;** it is for a fetch. -/
structure FirstCall (es : List TrafficEvent) (id : AuthId) (a m : ℕ) (f : FetchId) (call : ℕ) : Prop where
  after : a < m
  made : CallAt es id (callsAt es id a).length m
  number : (trafficAt es m).realm.calls.length + 1 = call
  waits : ∃ st, fetchAt es f (m + 1) = some st ∧ st.Asks call (counterAt es id m)

/-- The provider answers the first call since an event. -/
structure Replied (es : List TrafficEvent) (id : AuthId) (a m j : ℕ) (f : FetchId) (call : ℕ)
    (reply : TokenReply) : Prop where
  first : FirstCall es id a m f call
  after : m < j
  replied : es[j]? = some (.auth (.answer f reply)) ∨ es[j]? = some (.auth (.answerNow f reply))
  waited : ∃ c, fetchAt es f j = some (.fetching call c)

variable {es : List TrafficEvent} {id : AuthId} {a b m n j call c : ℕ} {f : FetchId} {reply : TokenReply}
  {token : Option String}

theorem realmOK_trafficAt (es : List TrafficEvent) (n : ℕ) : RealmOK (trafficAt es n).realm :=
  realmOf_trafficAt (fun _ h ev => h.step ev) .init n

theorem fetchAt_eq_some {x : Fetch} (hx : (trafficAt es n).realm.fetches[f]? = some x) :
    fetchAt es f n = some x.stage := by
  unfold fetchAt AuthRealm.stage?
  rw [hx]
  rfl

/-! ## What an event does to a fetch -/

/-- **What an event does to a fetch,** as far as its calls are concerned: it is answered first, if the
event is an answer, and then goes on. -/
theorem fetchAt_step {x : Fetch} (hn : n < es.length) (hx : (trafficAt es n).realm.fetches[f]? = some x) :
    ∃ y, (trafficAt es (n + 1)).realm.fetches[f]? = some y ∧ y.manager = x.manager ∧
      ((∃ call c reply, x.stage = .fetching call c ∧
          (es[n]? = some (.auth (.answer f reply)) ∨ es[n]? = some (.auth (.answerNow f reply))) ∧
          FetchStep (trafficAt es n).realm (trafficAt es (n + 1)).realm x.manager
            (.answered call c reply) y.stage) ∨
        FetchStep (trafficAt es n).realm (trafficAt es (n + 1)).realm x.manager x.stage y.stage) := by
  rw [trafficAt_succ hn, List.getElem?_eq_getElem hn]
  generalize es[n] = ev
  generalize trafficAt es n = s at hx ⊢
  rw [s.realm_step]
  cases hheard : s.heard ev with
  | none => exact ⟨x, hx, rfl, .inr .rest⟩
  | some e =>
    obtain ⟨y, hy, hid⟩ := manager_mono s.realm e hx
    refine ⟨y, hy, hid, ?_⟩
    obtain ⟨st, hb, hs⟩ := step_moves s.realm e f y hy
    rw [hid] at hs
    cases hb with
    | there hx' _ =>
      obtain rfl := Option.some.inj (hx.symm.trans hx')
      exact .inr hs
    | fresh hnone =>
      rw [hx] at hnone
      simp at hnone
    | @replied x' call c reply hx' _ hst hev =>
      obtain rfl := Option.some.inj (hx.symm.trans hx')
      refine .inl ⟨call, c, reply, hst, ?_, hs⟩
      cases Traffic.heard_cases hheard with
      | auth =>
        rcases hev with rfl | rfl
        · exact .inl rfl
        · exact .inr rfl
      | _ => simp at hev

/-- A fetch that asks for a token goes on asking with the same call, is given up, or is cancelled with its
manager. -/
theorem FetchStep.of_asks {r r' : AuthRealm} {st st' : FetchStage} (h : FetchStep r r' id st st')
    (ha : st.Asks call c) : st'.Asks call c ∨ st' = .ended .dropped ∨
      r.isClosed id ∧ st' = .ended (.returned (.error .tokenCancelled)) := by
  cases h with
  | rest => exact .inl ha
  | dropped => exact .inr (.inl rfl)
  | closed hs => cases ha <;> simp [FetchStage.isAtDoor] at hs
  | absent hb => cases ha <;> cases hb
  | called hb => cases ha <;> cases hb
  | reached =>
    cases ha
    exact .inl .fetching
  | cancelled _ hc => exact .inr (.inr ⟨hc, rfl⟩)
  | overtaken => cases ha
  | returned => cases ha

/-- A fetch that has its answer returns it, unless it is given up, cancelled or overtaken. -/
theorem FetchStep.of_answered {r r' : AuthRealm} {st : FetchStage}
    (h : FetchStep r r' id (.answered call c reply) st) :
    st = .answered call c reply ∨ st = .ended .dropped ∨
      (r.isClosed id ∧ st = .ended (.returned (.error .tokenCancelled))) ∨ r.counter id ≠ c ∨
      st = .ended (.returned (AuthRealm.outcome reply)) := by
  cases h with
  | rest => exact .inl rfl
  | dropped => exact .inr (.inl rfl)
  | closed hs => simp [FetchStage.isAtDoor] at hs
  | absent hb =>
    cases hb with
    | again hne => exact .inr (.inr (.inr (.inl hne)))
  | called hb =>
    cases hb with
    | again hne => exact .inr (.inr (.inr (.inl hne)))
  | overtaken _ hne => exact .inr (.inr (.inr (.inl hne)))
  | cancelled _ hc => exact .inr (.inr (.inl ⟨hc, rfl⟩))
  | returned => exact .inr (.inr (.inr (.inr rfl)))

/-! ## How far the manager is -/

/-- **How far the manager is since its token was refused** at event `a`. -/
inductive Phase (es : List TrafficEvent) (id : AuthId) (a n : ℕ) : Prop where
  /-- No call of the backend has begun, but for those whose headers were refused. -/
  | before (hcalls : callsAt es id n = callsAt es id a)
      (hover : ∀ x ∈ (trafficAt es n).errands, x.transport.manager = id → x.isOver)
  /-- A call of the backend waits for a fetch that has not begun, and that will find the provider, or the
  manager closed. -/
  | begun {p : ℕ} {f : FetchId} (hcalls : callsAt es id n = callsAt es id a)
      (hw : (trafficAt es n).Waits id p f) (hst : fetchAt es f n = some .arriving)
      (ha : (trafficAt es n).realm.isAttached id ∨ (trafficAt es n).realm.isClosed id)
  /-- A call of the backend waits for the first call of the provider. -/
  | waiting {m p call : ℕ} {f : FetchId} {st : FetchStage} (hm : FirstCall es id a m f call) (hmn : m < n)
      (hw : (trafficAt es n).Waits id p f) (hst : fetchAt es f n = some st)
      (hasks : st.Asks call (counterAt es id m))
  /-- The provider has answered, and the answer has not been looked at. -/
  | held {m j p call : ℕ} {f : FetchId} {reply : TokenReply} (hr : Replied es id a m j f call reply)
      (hjn : j < n) (hw : (trafficAt es n).Waits id p f)
      (hst : fetchAt es f n = some (.answered call (counterAt es id m) reply))
  /-- The fetch has returned what the provider has answered. -/
  | settled {m j i call : ℕ} {f : FetchId} {reply : TokenReply} (hr : Replied es id a m j f call reply)
      (hji : j ≤ i) (hin : i < n)
      (hret : fetchAt es f (i + 1) = some (.ended (.returned (AuthRealm.outcome reply))))
      (hnow : fetchAt es f n = some (.ended (.returned (AuthRealm.outcome reply))) ∨
        fetchAt es f n = some (.ended .dropped))
  /-- A change has overtaken the answer. -/
  | overtaken {m j i call : ℕ} {f : FetchId} {reply : TokenReply} (hr : Replied es id a m j f call reply)
      (hjn : j < n) (hmi : m < i) (hin : i ≤ n) (hne : counterAt es id i ≠ counterAt es id m)
  /-- The call of the backend waits for a fetch that was given up, and will not go on. -/
  | stuck {p : ℕ} {f : FetchId} (hw : (trafficAt es n).Waits id p f)
      (hst : fetchAt es f n = some (.ended .dropped))
  /-- The manager was closed, and brings no token any more. -/
  | shut (hc : (trafficAt es n).realm.isClosed id)
      (hover : ∀ x ∈ (trafficAt es n).errands, x.transport.manager = id →
        x.isOver ∨ ∃ f, x.stage = .fetching f ∧ (trafficAt es n).realm.Tokenless f)

namespace Phase

/-- The calls of the backend that are over stay so, unless one begins. -/
theorem over_step (hn : n < es.length) (hbegins : ∀ t action operation vars,
      es[n] = .start t action operation vars → t.manager = id → ∃ e, t.headers = .error e)
    (hover : ∀ x ∈ (trafficAt es n).errands, x.transport.manager = id → x.isOver) :
    ∀ x ∈ (trafficAt es (n + 1)).errands, x.transport.manager = id → x.isOver := by
  intro y hy hid
  rw [trafficAt_succ hn] at hy
  obtain ⟨p, hp⟩ := List.mem_iff_getElem?.1 hy
  cases ho : y.isOver with
  | true => rfl
  | false =>
    rcases (errandStep hp).unfinished ho with ⟨x, hx, ht, hxo⟩ | ⟨-, -, hheard, action, operation, vars, hev⟩
    · have hxover := hover x (List.mem_of_getElem? hx) (by rw [ht]; exact hid)
      rw [hxo] at hxover
      exact hxover
    · obtain ⟨e, he⟩ := hbegins _ _ _ _ hev hid
      rw [hev] at hheard
      simp [Traffic.heard, he, Except.toOption] at hheard

/-- A call of the backend that begins waits for a fetch, which will find the provider. -/
theorem of_begins {t : RestTransport} {action : Action} {operation : String} {vars : Struct}
    {headers : List (String × String)} (hs : OneByOne es id) (hn : n < es.length)
    (hcalls : callsAt es id (n + 1) = callsAt es id a) (hev : es[n] = .start t action operation vars)
    (hid : t.manager = id) (hh : t.headers = .ok headers) : Phase es id a (n + 1) := by
  have ho := hs n hn
  rw [hev] at ho
  obtain ⟨-, ha, -⟩ := ho hid
  have hstep : trafficAt es (n + 1) = (trafficAt es n).start t action operation vars := by
    rw [trafficAt_succ hn, hev]
    rfl
  refine .begun (p := (trafficAt es n).errands.length) (f := (trafficAt es n).realm.fetches.length) hcalls ?_ ?_ ?_
  · refine ⟨⟨t, action, operation, vars, .fetching (trafficAt es n).realm.fetches.length⟩, ?_, hid, rfl⟩
    rw [hstep, Traffic.start, hh]
    exact List.getElem?_concat_length
  · refine fetchAt_eq_some (x := { manager := t.manager }) ?_
    rw [hstep, Traffic.start, hh]
    exact List.getElem?_concat_length
  · rw [hstep, Traffic.start, hh]
    exact .inl ha

/-- Until a call of the backend begins the provider is not called. -/
theorem before_step (hs : OneByOne es id) (han : a < n) (hn : n < es.length)
    (hcalls : callsAt es id n = callsAt es id a)
    (hover : ∀ x ∈ (trafficAt es n).errands, x.transport.manager = id → x.isOver) :
    Phase es id a (n + 1) := by
  have hkept : callsAt es id (n + 1) = callsAt es id n → Phase es id a (n + 1) := by
    intro hsame
    by_cases hbegins : ∀ t action operation vars, es[n] = .start t action operation vars → t.manager = id →
        ∃ e, t.headers = .error e
    · exact .before (hsame.trans hcalls) (over_step hn hbegins hover)
    obtain ⟨t, action, operation, vars, hev, hid, hh⟩ : ∃ t action operation vars,
        es[n] = .start t action operation vars ∧ t.manager = id ∧ ∀ e, t.headers ≠ .error e := by
      simpa only [not_forall, exists_prop, not_exists] using hbegins
    cases hheaders : t.headers with
    | error e => exact absurd hheaders (hh e)
    | ok headers => exact of_begins hs hn (hsame.trans hcalls) hev hid hheaders
  cases flag_event es id n with
  | forced _ hsame _ => exact hkept hsame
  | kept _ hsame _ => exact hkept hsame
  | @taken f y _ _ _ hmore _ hy hid hasks =>
    obtain ⟨p, hw⟩ := (tidy hs (n + 1)).served f y hy hid hasks.isOpen
    have hstage := fetchAt_eq_some hy
    refine .waiting ⟨han, ⟨by rw [hcalls], ?_⟩, rfl, _, hstage, hasks⟩ (Nat.lt_succ_self n) hw hstage hasks
    rw [hmore, List.length_append, List.length_singleton, hcalls]

/-- The manager's only call of the backend waits for a fetch that has been cancelled. -/
theorem of_cancelled {p : ℕ} (hs : OneByOne es id) (hc : (trafficAt es n).realm.isClosed id)
    (hw : (trafficAt es n).Waits id p f) {e : Error}
    (hst : fetchAt es f n = some (.ended (.returned (.error e)))) : Phase es id a n := by
  refine .shut hc fun y hy hid => ?_
  obtain ⟨q, hq⟩ := List.mem_iff_getElem?.1 hy
  cases ho : y.isOver with
  | true => exact .inl rfl
  | false =>
    -- it is the call that waits
    obtain rfl := (tidy hs n).eq_of_waits hw hq hid ho
    obtain ⟨x, hx, -, hxst⟩ := hw
    obtain rfl : x = y := Option.some.inj (hx.symm.trans hq)
    refine .inr ⟨f, hxst, fun z token hz hzst => ?_⟩
    have hstage := (fetchAt_eq_some hz).symm.trans hst
    rw [hzst] at hstage
    simp at hstage

/-- The provider has answered, and the fetch goes on. -/
theorem of_answered {p : ℕ} {st : FetchStage} (hs : OneByOne es id)
    (hr : Replied es id a m j f call reply) (hjn : j ≤ n)
    (hw : (trafficAt es (n + 1)).Waits id p f) (hst : fetchAt es f (n + 1) = some st)
    (hstep : FetchStep (trafficAt es n).realm (trafficAt es (n + 1)).realm id
      (.answered call (counterAt es id m) reply) st) : Phase es id a (n + 1) := by
  have hmn : m < n := Nat.lt_of_lt_of_le hr.after hjn
  rcases hstep.of_answered with rfl | rfl | ⟨hc, rfl⟩ | hne | rfl
  · exact .held hr (Nat.lt_succ_of_le hjn) hw hst
  · exact .stuck hw hst
  · exact of_cancelled hs (isClosed_trafficAt (Nat.le_succ n) hc) hw hst
  · exact .overtaken hr (Nat.lt_succ_of_le hjn) hmn (Nat.le_succ n) hne
  · exact .settled hr hjn (Nat.lt_succ_self n) hst (.inl hst)

/-- Who waits for a fetch that has not returned waits after the event. -/
theorem waits_succ {p : ℕ} (hs : OneByOne es id) (hn : n < es.length) (hw : (trafficAt es n).Waits id p f)
    (hf : ∀ token, fetchAt es f n ≠ some (.ended (.returned token))) : (trafficAt es (n + 1)).Waits id p f := by
  rw [trafficAt_succ hn]
  exact hw.step (hs n hn) hf

/-- The fetch that a call waits for, before and after an event. -/
theorem fetch_succ {p : ℕ} {st : FetchStage} (hs : OneByOne es id) (hn : n < es.length)
    (hw : (trafficAt es n).Waits id p f) (hst : fetchAt es f n = some st) :
    ∃ st', fetchAt es f (n + 1) = some st' ∧
      ((∃ call c reply, st = .fetching call c ∧
          (es[n]? = some (.auth (.answer f reply)) ∨ es[n]? = some (.auth (.answerNow f reply))) ∧
          FetchStep (trafficAt es n).realm (trafficAt es (n + 1)).realm id (.answered call c reply) st') ∨
        FetchStep (trafficAt es n).realm (trafficAt es (n + 1)).realm id st st') := by
  obtain ⟨x, hx, hid⟩ := (tidy hs n).owned p f hw
  obtain rfl : x.stage = st := Option.some.inj ((fetchAt_eq_some hx).symm.trans hst)
  obtain ⟨y, hy, -, hstep⟩ := fetchAt_step hn hx
  rw [hid] at hstep
  exact ⟨y.stage, fetchAt_eq_some hy, hstep⟩

/-- What has its provider has it until it is closed. -/
theorem attached_succ (hn : n < es.length)
    (ha : (trafficAt es n).realm.isAttached id ∨ (trafficAt es n).realm.isClosed id) :
    (trafficAt es (n + 1)).realm.isAttached id ∨ (trafficAt es (n + 1)).realm.isClosed id := by
  rcases ha with ha | hc
  case inr => exact .inr (isClosed_trafficAt (Nat.le_succ n) hc)
  rw [trafficAt_succ hn, Traffic.realm_step]
  cases (trafficAt es n).heard es[n] with
  | none => exact .inl ha
  | some e => exact (realmOK_trafficAt es n).attached_step e ha

/-- **A fetch that has not begun** makes out the first call since the token was refused, unless it comes to
nothing. -/
theorem begun_step {p : ℕ} (hs : OneByOne es id) (han : a < n) (hn : n < es.length)
    (hcalls : callsAt es id n = callsAt es id a) (hw : (trafficAt es n).Waits id p f)
    (hst : fetchAt es f n = some .arriving)
    (ha : (trafficAt es n).realm.isAttached id ∨ (trafficAt es n).realm.isClosed id) :
    Phase es id a (n + 1) := by
  have hw' := waits_succ hs hn hw (by simp [hst])
  obtain ⟨st, hst', ⟨_, _, _, heq, -⟩ | hstep⟩ := fetch_succ hs hn hw hst
  · simp at heq
  generalize hbefore : FetchStage.arriving = st₀ at hstep
  cases hstep with
  | rest =>
    subst hbefore
    -- no other fetch makes out a call: it would be waited for, too
    have hkept : callsAt es id (n + 1) = callsAt es id n := by
      cases flag_event es id n with
      | forced _ hsame _ => exact hsame
      | kept _ hsame _ => exact hsame
      | @taken g y _ _ _ _ _ hy hid hasks =>
        obtain ⟨q, hq⟩ := (tidy hs (n + 1)).served g y hy hid hasks.isOpen
        obtain rfl : f = g := (tidy hs (n + 1)).fetch_unique hw' hq
        have harriving : y.stage = .arriving := Option.some.inj ((fetchAt_eq_some hy).symm.trans hst')
        rw [harriving] at hasks
        cases hasks
    exact .begun (hkept.trans hcalls) hw' hst' (attached_succ hn ha)
  | dropped => exact .stuck hw' hst'
  | closed _ hc => exact of_cancelled hs (isClosed_trafficAt (Nat.le_succ n) hc) hw' hst'
  | absent _ hopen hnone =>
    rw [hopen, hnone] at ha
    simp at ha
  | called _ _ _ _ _ hasks =>
    obtain ⟨y, hy, hyid⟩ := (tidy hs (n + 1)).owned p f hw'
    have hstage : y.stage = st := Option.some.inj ((fetchAt_eq_some hy).symm.trans hst')
    have hmore := callsAt_of_asks hn hy hyid (by rwa [hstage])
    refine .waiting ⟨han, ⟨by rw [hcalls], ?_⟩, rfl, st, hst', hasks⟩ (Nat.lt_succ_self n) hw' hst' hasks
    rw [hmore, List.length_append, List.length_singleton, hcalls]
  | cancelled hs =>
    subst hbefore
    simp [FetchStage.isOutstanding] at hs
  | _ => simp at hbefore

/-- A closed manager brings no token. -/
theorem shut_step (hs : OneByOne es id) (hn : n < es.length) (hc : (trafficAt es n).realm.isClosed id)
    (hover : ∀ x ∈ (trafficAt es n).errands, x.transport.manager = id →
      x.isOver ∨ ∃ f, x.stage = .fetching f ∧ (trafficAt es n).realm.Tokenless f) :
    Phase es id a (n + 1) := by
  refine .shut (isClosed_trafficAt (Nat.le_succ n) hc) fun y hy hid => ?_
  obtain ⟨p, hp⟩ := List.mem_iff_getElem?.1 hy
  rw [trafficAt_succ hn] at hp
  cases errandStep hp with
  | same hx =>
    refine (hover y (List.mem_of_getElem? hx) hid).imp_right fun ⟨f, hst, htokenless⟩ => ⟨f, hst, ?_⟩
    obtain ⟨x, hx', hxid⟩ := (tidy hs n).owned p f ⟨y, hx, hid, hst⟩
    have hserves : (trafficAt es n).realm.Serves id f :=
      ⟨(List.getElem?_eq_some_iff.1 hx').1, fun z hz => by
        rw [← hxid]
        exact congrArg Fetch.manager (Option.some.inj (hz.symm.trans hx'))⟩
    rw [trafficAt_succ hn, Traffic.realm_step]
    cases (trafficAt es n).heard es[n] with
    | none => exact htokenless
    | some e => exact htokenless.step hserves hc e
  | @went x f token hx hst hf =>
    -- its fetch can only have failed
    rcases hover x (List.mem_of_getElem? hx) hid with ho | ⟨g, hg, htokenless⟩
    · simp [Errand.isOver, hst] at ho
    obtain rfl : f = g := ErrandStage.fetching.inj (hst.symm.trans hg)
    obtain ⟨z, hz, hzst⟩ := Option.map_eq_some_iff.1 hf
    cases token with
    | error e => exact .inl rfl
    | ok token => exact absurd hzst (htokenless z token hz)
  | answered hx _ => exact .inl rfl
  | abandoned hx _ => exact .inl rfl
  | begun hp hev hst =>
    -- no call begins while the manager is closed
    have ho := hs n hn
    rw [hev] at ho
    obtain ⟨hopen, -⟩ := ho hid
    rw [hc] at hopen
    simp at hopen

/-- **An event leads from phase to phase.** -/
theorem step (hs : OneByOne es id) (han : a < n) (hn : n < es.length) (h : Phase es id a n) :
    Phase es id a (n + 1) := by
  cases h with
  | before hcalls hover => exact before_step hs han hn hcalls hover
  | begun hcalls hw hst ha => exact begun_step hs han hn hcalls hw hst ha
  | @waiting m p call f st hm hmn hw hst hasks =>
    have hw' := waits_succ hs hn hw fun token => by
      rw [hst]
      exact fun h => hasks.ne_ended _ (Option.some.inj h)
    obtain ⟨st', hst', ⟨call', c, reply, rfl, hev, hstep⟩ | hstep⟩ := fetch_succ hs hn hw hst
    · cases hasks
      exact of_answered hs ⟨hm, hmn, hev, _, hst⟩ (Nat.le_refl n) hw' hst' hstep
    · rcases hstep.of_asks hasks with hasks' | rfl | ⟨hc, rfl⟩
      · exact .waiting hm (Nat.lt_succ_of_lt hmn) hw' hst' hasks'
      · exact .stuck hw' hst'
      · exact of_cancelled hs (isClosed_trafficAt (Nat.le_succ n) hc) hw' hst'
  | held hr hjn hw hst =>
    have hw' := waits_succ hs hn hw (by simp [hst])
    obtain ⟨st, hst', ⟨_, _, _, heq, -⟩ | hstep⟩ := fetch_succ hs hn hw hst
    · simp at heq
    · exact of_answered hs hr (Nat.le_of_lt hjn) hw' hst' hstep
  | @settled m j i call f reply hr hji hin hret hnow =>
    refine .settled hr hji (Nat.lt_succ_of_lt hin) hret ?_
    have hended : ∃ x, (trafficAt es n).realm.fetches[f]? = some x ∧
        (x.stage = .ended (.returned (AuthRealm.outcome reply)) ∨ x.stage = .ended .dropped) := by
      rcases hnow with hnow | hnow
      · obtain ⟨x, hx, hst⟩ := Option.map_eq_some_iff.1 hnow
        exact ⟨x, hx, .inl hst⟩
      · obtain ⟨x, hx, hst⟩ := Option.map_eq_some_iff.1 hnow
        exact ⟨x, hx, .inr hst⟩
    obtain ⟨x, hx, hxst⟩ := hended
    obtain ⟨y, hy, -, ⟨_, _, _, heq, -⟩ | hstep⟩ := fetchAt_step hn hx
    · rcases hxst with h | h <;> simp [h] at heq
    · rw [fetchAt_eq_some hy, Option.some.injEq, Option.some.injEq]
      rcases hxst with h | h
      · rw [h] at hstep
        exact hstep.of_ended
      · rw [h] at hstep
        exact .inr (hstep.of_ended.elim (fun h => h) fun h => h)
  | overtaken hr hjn hmi hin hne =>
    exact .overtaken hr (Nat.lt_succ_of_lt hjn) hmi (Nat.le_succ_of_le hin) hne
  | stuck hw hst =>
    obtain ⟨st, hst', ⟨_, _, _, heq, -⟩ | hstep⟩ := fetch_succ hs hn hw hst
    · simp at heq
    · refine .stuck (waits_succ hs hn hw (by simp [hst])) ?_
      rw [hst', hstep.of_ended.elim (fun h => h) fun h => h]
  | shut hc hover => exact shut_step hs hn hc hover

end Phase

/-! ## Before the next request -/

/-- A manager that the backend is called through is there. -/
theorem manager_lt {x : Errand} (hs : OneByOne es id) (hx : x ∈ (trafficAt es n).errands)
    (hid : x.transport.manager = id) : id < (trafficAt es n).realm.managers.length := by
  induction n generalizing x with
  | zero => simp [trafficAt] at hx
  | succ n ih =>
    rcases Nat.lt_or_ge n es.length with hn | hn
    case inr =>
      rw [trafficAt_of_le hn] at hx ⊢
      exact ih hx hid
    have hmore : (trafficAt es n).realm.managers.length ≤ (trafficAt es (n + 1)).realm.managers.length := by
      rw [trafficAt_succ hn, Traffic.realm_step]
      cases (trafficAt es n).heard es[n] with
      | none => exact Nat.le_refl _
      | some e => exact (step_mono _ e).1
    refine Nat.lt_of_lt_of_le ?_ hmore
    rw [trafficAt_succ hn] at hx
    obtain ⟨p, hp⟩ := List.mem_iff_getElem?.1 hx
    cases errandStep hp with
    | same hx => exact ih (List.mem_of_getElem? hx) hid
    | went hx₀ => exact ih (List.mem_of_getElem? hx₀) hid
    | answered hx₀ => exact ih (List.mem_of_getElem? hx₀) hid
    | abandoned hx₀ => exact ih (List.mem_of_getElem? hx₀) hid
    | begun hp hev =>
      -- the provider of the manager is there
      have ho := hs n hn
      rw [hev] at ho
      obtain ⟨-, ha, -⟩ := ho hid
      unfold AuthRealm.isAttached at ha
      cases hm : (trafficAt es n).realm.managers[id]? with
      | none => rw [hm] at ha; simp at ha
      | some m => exact (List.getElem?_eq_some_iff.1 hm).1

theorem RefusedAt.lt (h : RefusedAt es id a) : a < es.length := by
  obtain ⟨place, body, hev, -⟩ := h
  exact (List.getElem?_eq_some_iff.1 hev).1

theorem RefusedAt.forced (hs : OneByOne es id) (h : RefusedAt es id a) : ForcedAt es id a := by
  obtain ⟨place, body, hev, x, token, request, hx, hid, hst⟩ := h
  exact ⟨manager_lt hs (List.mem_of_getElem? hx) hid,
    .inr ⟨place, body, hev, x, token, request, hx, hid, hst⟩⟩

/-- A request that is answered is over. -/
theorem over_answered {s : Traffic} {p : ℕ} {x y : Errand} {request : HttpRequest} {answer : HttpAnswer}
    (hx : s.errands[p]? = some x) (hst : x.stage = .sent token request)
    (hy : (s.step (.answer p answer)).errands[p]? = some y) : y.isOver := by
  have herrands : (s.step (.answer p answer)).errands =
      s.errands.modify p fun x' => { x' with
        stage := .ended (.returned (Rest.interpret x.action request.url answer)) } := by
    simp only [Traffic.step, Traffic.answer, hx, hst]
    split <;> rfl
  rw [herrands, List.getElem?_modify, hx] at hy
  simp only [Option.map_eq_map, Option.map_some, if_true, Option.some.injEq] at hy
  rw [← hy]
  rfl

/-- Right after a token was refused all calls of the backend are over. -/
theorem RefusedAt.phase (hs : OneByOne es id) (h : RefusedAt es id a) : Phase es id a (a + 1) := by
  have hcalls : callsAt es id (a + 1) = callsAt es id a := by
    cases flag_event es id a with
    | forced _ hcalls _ => exact hcalls
    | taken hnot => exact absurd (h.forced hs) hnot
    | kept hnot => exact absurd (h.forced hs) hnot
  refine .before hcalls fun y hy hid => ?_
  have hlt := h.lt
  obtain ⟨place, body, hev, x, token, request, hx, hxid, hst⟩ := h
  have hev' : es[a] = .answer place (.answered 401 body) := by
    rw [List.getElem?_eq_getElem hlt] at hev
    exact Option.some.inj hev
  rw [trafficAt_succ hlt, hev'] at hy
  obtain ⟨q, hq⟩ := List.mem_iff_getElem?.1 hy
  cases ho : y.isOver with
  | true => rfl
  | false =>
    rcases (errandStep hq).unfinished ho with ⟨z, hz, hzt, hzo⟩ | ⟨-, -, -, _, _, _, heq⟩
    · -- it could only be the call that was answered
      have hxo : x.isOver = false := by simp [Errand.isOver, hst]
      obtain rfl := (tidy hs a).one place q x z hx hz hxid (by rw [hzt]; exact hid) hxo hzo
      exact ho.symm.trans (over_answered hx hst hq)
    · simp at heq

theorem phase (hs : OneByOne es id) (ha : RefusedAt es id a) (hab : a < b) (hb : b ≤ es.length) :
    Phase es id a b := by
  induction hab with
  | refl => exact ha.phase hs
  | @step b hab ih => exact (ih (Nat.le_of_succ_le hb)).step hs hab hb

/-- **The first call of the provider since a token was refused asks for a new one.** -/
theorem FirstCall.forced {m : ℕ} (h : FirstCall es id a m f call) (ha : ForcedAt es id a) :
    (callsAt es id (m + 1))[(callsAt es id a).length]? = some true := by
  rw [h.made.flag, Option.some.injEq, owesAt_iff]
  refine ⟨a, h.after, ha, fun j i hc him => ?_⟩
  by_contra hia
  have hmono : (callsAt es id a).length ≤ (callsAt es id i).length := callsAt_length_mono (Nat.not_lt.1 hia)
  have hlt := (hc.lt_iff h.made).2 him
  rw [hc.1] at hmono
  exact absurd hlt (Nat.not_lt.2 hmono)

/-- **The provider was asked for a new token, and has answered.** -/
structure Refreshed (es : List TrafficEvent) (id : AuthId) (a b : ℕ) (f : FetchId)
    (token : Option String) (m j : ℕ) (g : FetchId) (call : ℕ) (reply : TokenReply) : Prop where
  /-- The first call of the provider since the token was refused has been answered, … -/
  replied : Replied es id a m j g call reply
  before : j < b
  /-- … and it asked for a new token. -/
  forced : (callsAt es id (m + 1))[(callsAt es id a).length]? = some true
  /-- Its fetch has returned what the provider answered, be it a failure, and what is sent for this fetch
  is sent with that; or a change has overtaken the answer. -/
  settled : (∃ i, j ≤ i ∧ i < b ∧ fetchAt es g (i + 1) = some (.ended (.returned (AuthRealm.outcome reply))) ∧
      (f = g → AuthRealm.outcome reply = .ok token)) ∨
    ∃ i, m < i ∧ i ≤ b ∧ counterAt es id i ≠ counterAt es id m
  /-- That call uses up the refresh, however it came out: the call after it asks for a new token exactly if one
  is asked for again. -/
  usedUp : ∀ i, CallAt es id ((callsAt es id a).length + 1) i →
    ((callsAt es id (i + 1))[(callsAt es id a).length + 1]? = some true ↔ ∃ k, m < k ∧ k < i ∧ ForcedAt es id k)

/-- **A call uses up what is owed:** the next one is forced exactly if a new token is asked for between them. -/
theorem CallAt.next_forced {k i : ℕ} (h : CallAt es id k m) (hi : CallAt es id (k + 1) i) :
    (callsAt es id (i + 1))[k + 1]? = some true ↔ ∃ l, m < l ∧ l < i ∧ ForcedAt es id l := by
  rw [hi.flag, Option.some.injEq, owesAt_iff]
  constructor
  · rintro ⟨l, hli, hforced, hsince⟩
    exact ⟨l, hsince k m h ((h.lt_iff hi).1 (Nat.lt_succ_self k)), hli, hforced⟩
  · rintro ⟨l, hml, hli, hforced⟩
    refine ⟨l, hli, hforced, fun j i' hj hi' => ?_⟩
    -- a call before the next one is this one or comes before it
    have hjk : j < k + 1 := (hj.lt_iff hi).2 hi'
    rcases Nat.lt_succ_iff_lt_or_eq.1 hjk with hjk | rfl
    · exact Nat.lt_trans ((hj.lt_iff h).1 hjk) hml
    · exact (hj.once h).symm ▸ hml

theorem SendsAt.lt (h : SendsAt es id f b token) : b < es.length := by
  by_contra hb
  obtain ⟨p, ⟨x, hx, -, hst⟩, hsent⟩ := h
  rw [trafficAt_of_le (Nat.not_lt.1 hb), hx] at hsent
  simp [Errand.token?, hst] at hsent

/-- What a request is sent with is what the fetch of its call has brought. -/
theorem SendsAt.brought (h : SendsAt es id f b token) : ∃ p, (trafficAt es b).Waits id p f ∧
    fetchAt es f b = some (.ended (.returned (.ok token))) := by
  have hb := h.lt
  obtain ⟨p, ⟨x, hx, hid, hst⟩, hsent⟩ := h
  refine ⟨p, ⟨x, hx, hid, hst⟩, ?_⟩
  obtain ⟨y, hy, htoken⟩ := Option.bind_eq_some_iff.1 hsent
  rw [trafficAt_succ hb] at hy
  cases errandStep hy with
  | same hx' =>
    obtain rfl : x = y := Option.some.inj (hx.symm.trans hx')
    simp [Errand.token?, hst] at htoken
  | @went x' g outcome hx' hst' hf =>
    obtain rfl : x = x' := Option.some.inj (hx.symm.trans hx')
    obtain rfl : f = g := ErrandStage.fetching.inj (hst.symm.trans hst')
    unfold Errand.token? at htoken
    rcases x.onToken_cases outcome with ⟨result, h⟩ | ⟨token', request, rfl, h⟩
    · simp [h] at htoken
    · simp only [h, Option.some.injEq] at htoken
      rw [← htoken]
      exact hf
  | answered _ _ => simp [Errand.token?] at htoken
  | abandoned _ _ => simp [Errand.token?] at htoken
  | begun hp _ _ =>
    rw [hp] at hx
    simp at hx

/-- **After a refused token the provider is asked for a new one, and has answered, before the next
request is sent.** -/
theorem refreshed_before_send (hs : OneByOne es id) (ha : RefusedAt es id a) (hb : SendsAt es id f b token)
    (hab : a < b) : ∃ m j g call reply, Refreshed es id a b f token m j g call reply := by
  obtain ⟨p, hw, hst⟩ := hb.brought
  have hunfinished : ∃ x, (trafficAt es b).errands[p]? = some x ∧ x.transport.manager = id ∧
      x.isOver = false ∧ x.stage = .fetching f := by
    obtain ⟨x, hx, hid, hxst⟩ := hw
    exact ⟨x, hx, hid, by simp [Errand.isOver, hxst], hxst⟩
  obtain ⟨x, hx, hid, hxo, hxst⟩ := hunfinished
  -- a call that waits is the call that sends
  have hsame : ∀ {q g st}, (trafficAt es b).Waits id q g → fetchAt es g b = some st →
      st = .ended (.returned (.ok token)) := by
    intro q g st hw' hst'
    obtain rfl := (tidy hs b).eq_of_waits hw' hx hid hxo
    obtain ⟨y, hy, -, hyst⟩ := hw'
    obtain rfl : x = y := Option.some.inj (hx.symm.trans hy)
    obtain rfl : f = g := ErrandStage.fetching.inj (hxst.symm.trans hyst)
    exact Option.some.inj (hst'.symm.trans hst)
  have hforced := ha.forced hs
  cases phase hs ha hab (Nat.le_of_lt hb.lt) with
  | before _ hover =>
    have hover' := hover x (List.mem_of_getElem? hx) hid
    rw [hxo] at hover'
    simp at hover'
  | begun _ hw' hst' => simpa using hsame hw' hst'
  | waiting _ _ hw' hst' hasks => exact absurd (hsame hw' hst') (hasks.ne_ended _)
  | held _ _ hw' hst' => simpa using hsame hw' hst'
  | stuck hw' hst' => simpa using hsame hw' hst'
  | @settled m j i call g reply hr hji hin hret hnow =>
    refine ⟨m, j, g, call, reply, hr, Nat.lt_of_le_of_lt hji hin, hr.first.forced hforced,
      .inl ⟨i, hji, hin, hret, ?_⟩, fun i => hr.first.made.next_forced⟩
    rintro rfl
    rw [hst] at hnow
    have heq : Except.ok token = AuthRealm.outcome reply := by simpa using hnow
    exact heq.symm
  | @overtaken m j i call g reply hr hjn hmi hin hne =>
    exact ⟨m, j, g, call, reply, hr, hjn, hr.first.forced hforced, .inr ⟨i, hmi, hin, hne⟩,
      fun i => hr.first.made.next_forced⟩
  | shut _ hover =>
    rcases hover x (List.mem_of_getElem? hx) hid with ho | ⟨g, hg, htokenless⟩
    · rw [hxo] at ho
      simp at ho
    obtain rfl : f = g := ErrandStage.fetching.inj (hxst.symm.trans hg)
    obtain ⟨z, hz, hzst⟩ := Option.map_eq_some_iff.1 hst
    exact absurd hzst (htokenless z token hz)

/-! ## What uses up the refresh -/

/-- The fetch has brought a token, or none. -/
def FetchStage.brings : FetchStage → Bool
  | .ended (.returned (.ok _)) => true
  | _ => false

/-- A call that asks for a new token is made out for the manager after event `a`, and before event `b` its fetch
has brought what the provider answered, overtaken by no change. -/
def AcceptedBetween (es : List TrafficEvent) (id : AuthId) (a b : ℕ) : Prop :=
  ∃ m < b, a < m ∧ ∃ c ∈ (trafficAt es (m + 1)).realm.called,
    c.2.1 = (trafficAt es m).realm.calls.length + 1 ∧ c.2.2 = true ∧ (trafficAt es (m + 1)).realm.isOf id c.1 ∧
      ∃ i < b, m < i ∧ (fetchAt es c.1 (i + 1)).any FetchStage.brings ∧ counterAt es id i = counterAt es id m

instance (es : List TrafficEvent) (id : AuthId) (a b : ℕ) : Decidable (AcceptedBetween es id a b) :=
  inferInstanceAs (Decidable (∃ m < b, _))

/-- Calls the backend of a cinema with the tokens of the first manager. -/
def cinemaTransport : RestTransport where
  options := { projectId := "p", connector := { location := "l", service := "s", connector := "c" } }
  settings := { host := "h", port := none, sslEnabled := false }
  manager := 0

/-- The backend refuses the token of a call, and is called anew. -/
def refusedRun : List TrafficEvent :=
  [.auth (.create false), .auth .provide, .start cinemaTransport .query "films" [], .auth .poll,
    .auth (.answerNow 0 (.ok (some "ticket"))), .goOn 0, .answer 0 (.answered 401 []),
    .start cinemaTransport .query "films" [], .auth .poll]

/-- The call that asks for a new token fails, and the next request is sent with the old one. -/
def failedRun : List TrafficEvent :=
  refusedRun ++ [.auth (.answerNow 1 (.error ⟨.failed, "unreachable"⟩)), .goOn 1,
    .start cinemaTransport .query "films" [], .auth .poll, .auth (.answerNow 2 (.ok (some "ticket"))), .goOn 2]

/-- The call that asks for a new token is overtaken by a change, and the next request is sent with the
old one. -/
def overtakenRun : List TrafficEvent :=
  refusedRun ++ [.auth .notify, .auth (.answerNow 1 (.ok (some "new ticket"))),
    .auth (.answerNow 1 (.ok (some "ticket"))), .goOn 1]

theorem failedRun_sends : OneByOne failedRun 0 ∧ (trafficAt failedRun 6).Sent 0 0 ∧
    (trafficAt failedRun 14).Waits 0 2 2 ∧
    ((trafficAt failedRun 15).errands[2]?).bind Errand.token? = some (some "ticket") ∧
    ¬ AcceptedBetween failedRun 0 6 14 := by
  decide +kernel

theorem overtakenRun_sends : OneByOne overtakenRun 0 ∧ (trafficAt overtakenRun 6).Sent 0 0 ∧
    (trafficAt overtakenRun 12).Waits 0 1 1 ∧
    ((trafficAt overtakenRun 13).errands[1]?).bind Errand.token? = some (some "ticket") ∧
    ¬ AcceptedBetween overtakenRun 0 6 12 := by
  decide +kernel

/-- A token is refused, and the call that asks for a new one fails: it is answered before the next request
is sent all the same. -/
theorem refreshed_before_send_failed : OneByOne failedRun 0 ∧ RefusedAt failedRun 0 6 ∧
    SendsAt failedRun 0 2 14 (some "ticket") ∧ 6 < 14 ∧
    ∃ m j g call reply, Refreshed failedRun 0 6 14 2 (some "ticket") m j g call reply := by
  obtain ⟨hone, hsent, hwaits, htoken, -⟩ := failedRun_sends
  have ha : RefusedAt failedRun 0 6 := ⟨0, [], rfl, hsent⟩
  have hb : SendsAt failedRun 0 2 14 (some "ticket") := ⟨2, hwaits, htoken⟩
  exact ⟨hone, ha, hb, by decide, refreshed_before_send hone ha hb (by decide)⟩

/-- **A call that fails uses up the refresh, and so does one that is overtaken by a change.** -/
theorem refresh_used_up :
    (OneByOne failedRun 0 ∧ RefusedAt failedRun 0 6 ∧ SendsAt failedRun 0 2 14 (some "ticket") ∧
      ¬ AcceptedBetween failedRun 0 6 14) ∧
    OneByOne overtakenRun 0 ∧ RefusedAt overtakenRun 0 6 ∧ SendsAt overtakenRun 0 1 12 (some "ticket") ∧
      ¬ AcceptedBetween overtakenRun 0 6 12 := by
  obtain ⟨hone, hsent, hwaits, htoken, hnot⟩ := failedRun_sends
  obtain ⟨hone', hsent', hwaits', htoken', hnot'⟩ := overtakenRun_sends
  exact ⟨⟨hone, ⟨0, [], rfl, hsent⟩, ⟨2, hwaits, htoken⟩, hnot⟩,
    hone', ⟨0, [], rfl, hsent'⟩, ⟨1, hwaits', htoken'⟩, hnot'⟩

end QueryClient
