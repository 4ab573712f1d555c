import QueryClient.Proofs.Auth.Closing
import QueryClient.Proofs.Rest.Traffic

/-!
# Calls one after another

Calls of the backend that use a manager may come one after another: each begins when the one before it
has ended, and nobody else fetches tokens from the manager. A fetch of the manager that has not ended is
then one that the only unfinished call waits for.

* `OneByOne`: the calls that use a manager come one after another.
* `ErrandStep`, `errandStep`: what an event does to a call of the backend.
* `Traffic.Waits.step`: who waits for a fetch waits until it has returned.
* `Traffic.Tidy`, `tidy`: **whose the fetches are that have not ended.**
-/

namespace QueryClient

/-! ## Calls that come one after another -/

/-- The manager that a token is asked of. -/
def AuthEvent.fetched? : AuthEvent → Option AuthId
  | .fetch manager | .fetchNow manager => some manager
  | _ => none

/-- The event keeps the calls that use a manager in order. One begins when the others have ended, with the
manager open and its provider there. They are waited for, and no other fetches tokens from the manager. -/
def Traffic.KeepsTurns (s : Traffic) (id : AuthId) : TrafficEvent → Prop
  | .auth e => e.fetched? ≠ some id
  | .start transport _ _ _ => transport.manager = id → s.realm.isClosed id = false ∧
      s.realm.isAttached id = true ∧ ∀ x ∈ s.errands, x.transport.manager = id → x.isOver = true
  | .goOn _ | .answer .. => True
  | .abandon place => ∀ x ∈ s.errands[place]?, x.transport.manager ≠ id

instance (s : Traffic) (id : AuthId) : DecidablePred (s.KeepsTurns id)
  | .auth e => inferInstanceAs (Decidable (e.fetched? ≠ some id))
  | .start transport _ _ _ => inferInstanceAs (Decidable (transport.manager = id →
      s.realm.isClosed id = false ∧ s.realm.isAttached id = true ∧
        ∀ x ∈ s.errands, x.transport.manager = id → x.isOver = true))
  | .goOn _ | .answer .. => isTrue trivial
  | .abandon place => inferInstanceAs (Decidable (∀ x ∈ s.errands[place]?, x.transport.manager ≠ id))

/-- **The calls that use a manager come one after another.** -/
def OneByOne (es : List TrafficEvent) (id : AuthId) : Prop :=
  ∀ n (hn : n < es.length), (trafficAt es n).KeepsTurns id es[n]

instance (es : List TrafficEvent) (id : AuthId) : Decidable (OneByOne es id) :=
  inferInstanceAs (Decidable (∀ n (hn : n < es.length), (trafficAt es n).KeepsTurns id es[n]))

variable {s : Traffic} {r : AuthRealm} {id : AuthId} {ev : TrafficEvent} {p q : ℕ} {x y : Errand} {f : FetchId}

/-! ## What an event does to a call -/

/-- **What an event does to a call of the backend.** -/
inductive ErrandStep (s : Traffic) (ev : TrafficEvent) (p : ℕ) : Errand → Prop where
  | same {x : Errand} (hx : s.errands[p]? = some x) : ErrandStep s ev p x
  | went {x : Errand} {f : FetchId} {token : TokenOutcome} (hx : s.errands[p]? = some x)
      (hst : x.stage = .fetching f) (hf : s.realm.stage? f = some (.ended (.returned token)))
      (hev : ev = .goOn p) : ErrandStep s ev p { x with stage := x.onToken token }
  | answered {x : Errand} {token : Option String} {request : HttpRequest} {answer : HttpAnswer}
      (hx : s.errands[p]? = some x) (hst : x.stage = .sent token request) (hev : ev = .answer p answer) :
      ErrandStep s ev p { x with stage := .ended (.returned (Rest.interpret x.action request.url answer)) }
  | abandoned {x : Errand} (hx : s.errands[p]? = some x) (hev : ev = .abandon p) (ho : x.isOver = false) :
      ErrandStep s ev p { x with stage := .ended .dropped }
  /-- The call begins; its token is fetched, or its headers are refused. -/
  | begun {t : RestTransport} {action : Action} {operation : String} {vars : Struct} {stage : ErrandStage}
      (hp : p = s.errands.length) (hev : ev = .start t action operation vars)
      (hst : (stage = .fetching s.realm.fetches.length ∧ s.heard ev = some (.fetch t.manager)) ∨
        ∃ e, stage = .ended (.returned (.error e))) :
      ErrandStep s ev p ⟨t, action, operation, vars, stage⟩

/-- A call comes to another stage, the others stay. -/
theorem errandStep_setStage {stage : ErrandStage} (hx : s.errands[q]? = some x)
    (hy : (s.setStage q stage).errands[p]? = some y) :
    s.errands[p]? = some y ∨ p = q ∧ y = { x with stage } := by
  have hy' : (s.errands.modify q fun x => { x with stage })[p]? = some y := hy
  rw [List.getElem?_modify] at hy'
  obtain ⟨z, hz, hzy⟩ := Option.map_eq_some_iff.1 hy'
  split at hzy
  · rename_i hqp
    subst hqp
    obtain rfl : x = z := Option.some.inj (hx.symm.trans hz)
    exact .inr ⟨rfl, hzy.symm⟩
  · obtain rfl : z = y := hzy
    exact .inl hz

/-- A call comes, the others stay. -/
theorem errandStep_append (hy : (s.errands ++ [x])[p]? = some y) :
    s.errands[p]? = some y ∨ p = s.errands.length ∧ y = x := by
  rcases Nat.lt_or_ge p s.errands.length with hlt | hge
  · rw [List.getElem?_append_left hlt] at hy
    exact .inl hy
  · have hlen := (List.getElem?_eq_some_iff.1 hy).1
    rw [List.length_append, List.length_singleton] at hlen
    obtain rfl : p = s.errands.length := by omega
    rw [List.getElem?_concat_length] at hy
    exact .inr ⟨rfl, (Option.some.inj hy).symm⟩

theorem errandStep_start (t : RestTransport) (action : Action) (operation : String) (vars : Struct)
    (hy : (s.step (.start t action operation vars)).errands[p]? = some y) :
    ErrandStep s (.start t action operation vars) p y := by
  simp only [Traffic.step, Traffic.start] at hy
  cases hh : t.headers with
  | error e =>
    rw [hh] at hy
    rcases errandStep_append hy with hx | ⟨hp, rfl⟩
    · exact .same hx
    · exact .begun hp rfl (.inr ⟨e, rfl⟩)
  | ok headers =>
    rw [hh] at hy
    rcases errandStep_append hy with hx | ⟨hp, rfl⟩
    · exact .same hx
    · exact .begun hp rfl (.inl ⟨rfl, by simp [Traffic.heard, hh, Except.toOption]⟩)

theorem errandStep (hy : (s.step ev).errands[p]? = some y) : ErrandStep s ev p y := by
  cases ev with
  | auth ev => exact .same hy
  | start t action operation vars => exact errandStep_start t action operation vars hy
  | goOn place =>
    simp only [Traffic.step, Traffic.goOn] at hy
    split at hy
    · exact .same hy
    rename_i x hx
    split at hy
    · rename_i f hst
      split at hy
      · rename_i token hf
        rcases errandStep_setStage hx hy with hy | ⟨rfl, rfl⟩
        · exact .same hy
        · exact .went hx hst hf rfl
      · exact .same hy
    · exact .same hy
  | answer place answer =>
    simp only [Traffic.step, Traffic.answer] at hy
    split at hy
    · exact .same hy
    rename_i x hx
    split at hy
    · rename_i token request hst
      have hy' : (s.setStage place (.ended (.returned (Rest.interpret x.action request.url answer)))).errands[p]? =
          some y := by
        split at hy
        · exact hy
        · exact hy
      rcases errandStep_setStage hx hy' with hy | ⟨rfl, rfl⟩
      · exact .same hy
      · exact .answered hx hst rfl
    · exact .same hy
  | abandon place =>
    simp only [Traffic.step, Traffic.abandon] at hy
    split at hy
    · exact .same hy
    rename_i x hx
    have hdrop : x.isOver = false → (s.setStage place (.ended .dropped)).errands[p]? = some y →
        ErrandStep s (.abandon place) p y := by
      intro ho hy
      rcases errandStep_setStage hx hy with hy | ⟨rfl, rfl⟩
      · exact .same hy
      · exact .abandoned hx rfl ho
    split at hy
    · rename_i f hst
      split at hy
      · exact .same hy
      · exact hdrop (by simp [Errand.isOver, hst]) hy
    · rename_i token request hst
      exact hdrop (by simp [Errand.isOver, hst]) hy
    · exact .same hy

/-- No call is forgotten. -/
theorem errands_length (s : Traffic) (ev : TrafficEvent) : s.errands.length ≤ (s.step ev).errands.length := by
  have hset : ∀ place stage, s.errands.length ≤ (s.setStage place stage).errands.length :=
    fun place stage => Nat.le_of_eq (List.length_modify ..).symm
  cases ev with
  | auth ev => exact Nat.le_refl _
  | start t action operation vars =>
    simp only [Traffic.step, Traffic.start]
    cases t.headers <;> simp
  | goOn place =>
    simp only [Traffic.step, Traffic.goOn]
    repeat' split
    all_goals first | exact hset _ _ | exact Nat.le_refl _
  | answer place answer =>
    simp only [Traffic.step, Traffic.answer]
    repeat' split
    all_goals first | exact hset _ _ | exact Nat.le_refl _
  | abandon place =>
    simp only [Traffic.step, Traffic.abandon]
    repeat' split
    all_goals first | exact hset _ _ | exact Nat.le_refl _

/-- A call that is unfinished was so before, or begins. -/
theorem ErrandStep.unfinished (h : ErrandStep s ev p y) (ho : y.isOver = false) :
    (∃ x, s.errands[p]? = some x ∧ x.transport = y.transport ∧ x.isOver = false) ∨
      p = s.errands.length ∧ y.stage = .fetching s.realm.fetches.length ∧
        s.heard ev = some (.fetch y.transport.manager) ∧
        ∃ action operation vars, ev = .start y.transport action operation vars := by
  cases h with
  | same hx => exact .inl ⟨_, hx, rfl, ho⟩
  | went hx hst hf => exact .inl ⟨_, hx, rfl, by simp [Errand.isOver, hst]⟩
  | answered hx hst => simp [Errand.isOver] at ho
  | abandoned hx hev => simp [Errand.isOver] at ho
  | begun hp hev hst =>
    rcases hst with ⟨rfl, hheard⟩ | ⟨e, rfl⟩
    · exact .inr ⟨hp, rfl, hheard, _, _, _, hev⟩
    · simp [Errand.isOver] at ho

/-! ## Who waits for a fetch -/

namespace Traffic

/-- The call at a place, which uses the manager, waits for a fetch. -/
def Waits (s : Traffic) (id : AuthId) (p : ℕ) (f : FetchId) : Prop :=
  ∃ x, s.errands[p]? = some x ∧ x.transport.manager = id ∧ x.stage = .fetching f

instance (s : Traffic) (id : AuthId) (p : ℕ) (f : FetchId) : Decidable (s.Waits id p f) :=
  decidable_of_iff ((s.errands[p]?).any fun x => x.transport.manager == id && x.fetch? == some f) <| by
    cases hx : s.errands[p]? with
    | none => simp [Waits, hx]
    | some x => cases hst : x.stage <;> simp [Waits, hx, Errand.fetch?, hst]

/-- **Who waits for a fetch waits until it has returned.** -/
theorem Waits.step (h : s.Waits id p f) (ho : s.KeepsTurns id ev)
    (hf : ∀ token, s.realm.stage? f ≠ some (.ended (.returned token))) : (s.step ev).Waits id p f := by
  obtain ⟨x, hx, hid, hst⟩ := h
  have hlt := Nat.lt_of_lt_of_le (List.getElem?_eq_some_iff.1 hx).1 (errands_length s ev)
  obtain ⟨y, hy⟩ : ∃ y, (s.step ev).errands[p]? = some y := ⟨_, List.getElem?_eq_getElem hlt⟩
  cases errandStep hy with
  | same hx' =>
    obtain rfl : x = y := Option.some.inj (hx.symm.trans hx')
    exact ⟨x, hy, hid, hst⟩
  | @went x' g token hx' hst' hg =>
    obtain rfl : x = x' := Option.some.inj (hx.symm.trans hx')
    obtain rfl : f = g := ErrandStage.fetching.inj (hst.symm.trans hst')
    exact absurd hg (hf token)
  | @answered x' _ _ _ hx' hst' =>
    obtain rfl : x = x' := Option.some.inj (hx.symm.trans hx')
    rw [hst] at hst'
    simp at hst'
  | @abandoned x' hx' hev =>
    obtain rfl : x = x' := Option.some.inj (hx.symm.trans hx')
    subst hev
    exact absurd hid (ho x hx)
  | begun hp _ _ =>
    rw [hp] at hx
    simp at hx

end Traffic

/-! ## Fetches that come -/

/-- A fetch comes with an event that asks for it. -/
theorem fetch_of_new {ev : AuthEvent} {y : Fetch} (hnew : r.fetches[f]? = none)
    (hy : (r.step ev).fetches[f]? = some y) :
    (ev = .fetch y.manager ∨ ev = .fetchNow y.manager) ∧ f = r.fetches.length := by
  have hge := List.getElem?_eq_none_iff.1 hnew
  have hlt := (List.getElem?_eq_some_iff.1 hy).1
  -- most events leave the number of fetches as it is
  have hcount : (r.step ev).fetches.length ≠ r.fetches.length := by omega
  by_cases hev : ev.IsOutside
  · exact absurd (congrArg List.length (step_keeps r hev).fetches) hcount
  cases ev with
  | fetch manager =>
    have hlen : (r.step (.fetch manager)).fetches.length = r.fetches.length + 1 := List.length_append ..
    obtain rfl : f = r.fetches.length := Nat.le_antisymm (Nat.le_of_lt_succ (Nat.lt_of_lt_of_eq hlt hlen)) hge
    have hy' : (r.fetches ++ [({ manager } : Fetch)])[r.fetches.length]? = some y := hy
    rw [List.getElem?_concat_length] at hy'
    rw [← Option.some.inj hy']
    exact ⟨.inl rfl, rfl⟩
  | fetchNow manager =>
    have hlen : (r.step (.fetchNow manager)).fetches.length = r.fetches.length + 1 :=
      (Goes.runFetch { r with fetches := r.fetches ++ [{ manager }] } r.fetches.length).count.trans
        (List.length_append ..)
    obtain rfl : f = r.fetches.length := Nat.le_antisymm (Nat.le_of_lt_succ (Nat.lt_of_lt_of_eq hlt hlen)) hge
    rw [(AuthRealm.Serves.fetchNow r manager).manager y hy]
    exact ⟨.inr rfl, rfl⟩
  | answer g reply =>
    have hwake : Keeps [] (r.setReply g reply) (r.step (.answer g reply)) := Keeps.wakeFetch _ g
    exact absurd ((congrArg List.length hwake.fetches).trans (length_setReply r g reply)) hcount
  | answerNow g reply =>
    exact absurd ((Goes.runFetch (r.setReply g reply) g).count.trans (length_setReply r g reply)) hcount
  | poll =>
    have hpoll : r.poll.fetches.length = r.fetches.length := by
      unfold AuthRealm.poll
      split
      · rfl
      · rename_i g rest _
        exact (Goes.runFetch { r with queue := rest } g).count
    exact absurd hpoll hcount
  | go g =>
    have hgo : ((r.moveFetch g).wakeFetch g).fetches.length = r.fetches.length :=
      (congrArg List.length (wakeFetch_same (r.moveFetch g) g).2.2.2).trans (Goes.moveFetch r g).count
    exact absurd hgo hcount
  | abort g =>
    have habort : (r.abort g).fetches.length = r.fetches.length := by
      unfold AuthRealm.abort
      split
      · rfl
      · rfl
      split
      · rfl
      · exact List.length_modify ..
    exact absurd habort hcount
  | _ => exact absurd trivial hev

/-- A fetch that has not ended was there and had not ended before, or comes. -/
theorem open_step {ev : AuthEvent} {y : Fetch} (hy : (r.step ev).fetches[f]? = some y)
    (ho : AuthRealm.isOpen y) :
    (∃ x, r.fetches[f]? = some x ∧ x.manager = y.manager ∧ AuthRealm.isOpen x) ∨
      (ev = .fetch y.manager ∨ ev = .fetchNow y.manager) ∧ f = r.fetches.length := by
  have hended : ∀ {st : FetchStage}, FetchStep r (r.step ev) y.manager st y.stage →
      ∀ ending, st ≠ .ended ending := by
    rintro st hs ending rfl
    have hopen : ∀ ending, y.stage ≠ .ended ending := by
      intro ending h
      simp [AuthRealm.isOpen, h] at ho
    generalize y.stage = st' at hs hopen
    cases hs with
    | rest => exact hopen _ rfl
    | called hb => cases hb
    | _ => exact hopen _ rfl
  obtain ⟨st, hb, hs⟩ := step_moves r ev f y hy
  have hst := hended hs
  cases hb with
  | there hx hid =>
    refine .inl ⟨_, hx, hid, ?_⟩
    unfold AuthRealm.isOpen
    split
    · rename_i ending h
      exact absurd h (hst ending)
    · rfl
  | fresh hnew => exact .inr (fetch_of_new hnew hy)
  | replied hx hid hxst _ => exact .inl ⟨_, hx, hid, by simp [AuthRealm.isOpen, hxst]⟩

/-- A fetch stays a fetch of its manager. -/
theorem manager_mono (r : AuthRealm) (ev : AuthEvent) {x : Fetch} (hx : r.fetches[f]? = some x) :
    ∃ y, (r.step ev).fetches[f]? = some y ∧ y.manager = x.manager := by
  have hlt := (List.getElem?_eq_some_iff.1 hx).1
  obtain ⟨y, hy⟩ : ∃ y, (r.step ev).fetches[f]? = some y :=
    ⟨_, List.getElem?_eq_getElem (Nat.lt_of_lt_of_le hlt (step_length r ev))⟩
  have hserves : r.Serves x.manager f :=
    ⟨hlt, fun z hz => congrArg Fetch.manager (Option.some.inj (hz.symm.trans hx))⟩
  exact ⟨y, hy, (hserves.step ev).manager y hy⟩

/-! ## Whose the fetches are -/

/-- One call at most that uses the manager is unfinished, and the fetches of the manager that have not
ended are those that calls wait for. -/
structure Traffic.Tidy (s : Traffic) (id : AuthId) : Prop where
  one : ∀ (p q : ℕ) (x y : Errand), s.errands[p]? = some x → s.errands[q]? = some y → x.transport.manager = id →
    y.transport.manager = id → x.isOver = false → y.isOver = false → p = q
  served : ∀ (f : FetchId) (y : Fetch), s.realm.fetches[f]? = some y → y.manager = id →
    AuthRealm.isOpen y → ∃ p, s.Waits id p f
  owned : ∀ p f, s.Waits id p f → ∃ y, s.realm.fetches[f]? = some y ∧ y.manager = id

/-- Who waits is unfinished. -/
theorem Traffic.Tidy.eq_of_waits (h : s.Tidy id) (hw : s.Waits id p f) (hy : s.errands[q]? = some y)
    (hid : y.transport.manager = id) (ho : y.isOver = false) : p = q := by
  obtain ⟨x, hx, hxid, hst⟩ := hw
  exact h.one p q x y hx hy hxid hid (by simp [Errand.isOver, hst]) ho

/-- One fetch at most is waited for. -/
theorem Traffic.Tidy.fetch_unique {g : FetchId} (h : s.Tidy id) (hf : s.Waits id p f) (hg : s.Waits id q g) :
    f = g := by
  obtain ⟨y, hy, hid, hst⟩ := hg
  obtain rfl := h.eq_of_waits hf hy hid (by simp [Errand.isOver, hst])
  obtain ⟨x, hx, -, hxst⟩ := hf
  obtain rfl : x = y := Option.some.inj (hx.symm.trans hy)
  exact ErrandStage.fetching.inj (hxst.symm.trans hst)

/-- A fetch stays a fetch of its manager, whatever happens. -/
theorem Traffic.manager_step (s : Traffic) (ev : TrafficEvent) {x : Fetch} (hx : s.realm.fetches[f]? = some x) :
    ∃ y, (s.step ev).realm.fetches[f]? = some y ∧ y.manager = x.manager := by
  rw [s.realm_step]
  cases s.heard ev with
  | none => exact ⟨x, hx, rfl⟩
  | some e => exact manager_mono s.realm e hx

namespace Traffic.Tidy

/-- A call that begins is the only one that is unfinished. -/
theorem only (ho : s.KeepsTurns id ev) (hx : (s.step ev).errands[p]? = some x) (hxo : x.isOver = false)
    (hxid : x.transport.manager = id) (hp : p = s.errands.length)
    (hy : (s.step ev).errands[q]? = some y) (hyo : y.isOver = false) (hyid : y.transport.manager = id) :
    p = q := by
  rcases (errandStep hx).unfinished hxo with ⟨z, hz, -⟩ | ⟨-, -, -, action, operation, vars, rfl⟩
  · rw [hp] at hz
    simp at hz
  -- all calls that were there have ended
  rcases (errandStep hy).unfinished hyo with ⟨z, hz, hzt, hzo⟩ | ⟨hq, -⟩
  · have hover := (ho hxid).2.2 z (List.mem_of_getElem? hz) (by rw [hzt]; exact hyid)
    rw [hzo] at hover
    simp at hover
  · exact hp.trans hq.symm

theorem one_step (h : s.Tidy id) (ho : s.KeepsTurns id ev) (hx : (s.step ev).errands[p]? = some x)
    (hy : (s.step ev).errands[q]? = some y) (hxid : x.transport.manager = id)
    (hyid : y.transport.manager = id) (hxo : x.isOver = false) (hyo : y.isOver = false) : p = q := by
  rcases (errandStep hx).unfinished hxo with ⟨x₀, hx₀, hxt, hxo₀⟩ | ⟨hp, -⟩
  · rcases (errandStep hy).unfinished hyo with ⟨y₀, hy₀, hyt, hyo₀⟩ | ⟨hq, -⟩
    · exact h.one p q x₀ y₀ hx₀ hy₀ (by rw [hxt]; exact hxid) (by rw [hyt]; exact hyid) hxo₀ hyo₀
    · exact (only ho hy hyo hyid hq hx hxo hxid).symm
  · exact only ho hx hxo hxid hp hy hyo hyid

theorem served_step {y : Fetch} (h : s.Tidy id) (ho : s.KeepsTurns id ev)
    (hy : (s.step ev).realm.fetches[f]? = some y) (hid : y.manager = id) (hopen : AuthRealm.isOpen y) :
    ∃ p, (s.step ev).Waits id p f := by
  -- a fetch that was open before has its call still
  have hold : ∀ x, s.realm.fetches[f]? = some x → x.manager = id → AuthRealm.isOpen x →
      ∃ p, (s.step ev).Waits id p f := by
    intro x hx hxid hxo
    obtain ⟨p, hw⟩ := h.served f x hx hxid hxo
    refine ⟨p, hw.step ho fun token hf => ?_⟩
    unfold AuthRealm.stage? at hf
    rw [hx] at hf
    simp [AuthRealm.isOpen, Option.some.inj hf] at hxo
  rw [s.realm_step] at hy
  cases hheard : s.heard ev with
  | none =>
    rw [hheard] at hy
    exact hold y hy hid hopen
  | some e =>
    rw [hheard] at hy
    rcases open_step hy hopen with ⟨x, hx, hxid, hxo⟩ | ⟨he, hf⟩
    · exact hold x hx (hxid.trans hid) hxo
    rw [hid] at he
    cases Traffic.heard_cases hheard with
    | auth =>
      rcases he with rfl | rfl
      · exact absurd rfl ho
      · exact absurd rfl ho
    | @start t action operation vars headers hh =>
      have hman : t.manager = id := by simpa using he
      refine ⟨s.errands.length, ⟨t, action, operation, vars, .fetching f⟩, ?_, hman, rfl⟩
      simp only [Traffic.step, Traffic.start, hh, hf]
      exact List.getElem?_concat_length
    | answer => simp at he
    | abandon => simp at he

theorem owned_step (h : s.Tidy id) (hw : (s.step ev).Waits id p f) :
    ∃ y, (s.step ev).realm.fetches[f]? = some y ∧ y.manager = id := by
  obtain ⟨y, hy, hid, hst⟩ := hw
  cases errandStep hy with
  | same hx =>
    obtain ⟨z, hz, hzid⟩ := h.owned p f ⟨y, hx, hid, hst⟩
    obtain ⟨z', hz', hzz⟩ := s.manager_step ev hz
    exact ⟨z', hz', hzz.trans hzid⟩
  | @went x _ token hx _ _ =>
    have hsent : x.onToken token = .fetching f := hst
    rcases x.onToken_cases token with ⟨result, h⟩ | ⟨_, request, -, h⟩
    · rw [h] at hsent
      simp at hsent
    · rw [h] at hsent
      simp at hsent
  | answered hx _ => simp at hst
  | abandoned hx _ => simp at hst
  | begun hp hev hbegun =>
    rcases hbegun with ⟨rfl, hheard⟩ | ⟨e, rfl⟩
    · -- the fetch comes with the call
      obtain rfl : s.realm.fetches.length = f := ErrandStage.fetching.inj hst
      rw [s.realm_step, hheard]
      have hserves := AuthRealm.Serves.fetch s.realm id
      rw [← hid] at hserves ⊢
      exact ⟨_, List.getElem?_eq_getElem hserves.lt, hserves.manager _ (List.getElem?_eq_getElem hserves.lt)⟩
    · simp at hst

theorem step (h : s.Tidy id) (ho : s.KeepsTurns id ev) : (s.step ev).Tidy id :=
  ⟨fun _ _ _ _ => h.one_step ho, fun _ _ => h.served_step ho, fun _ _ => h.owned_step⟩

end Traffic.Tidy

variable {es : List TrafficEvent}

/-- **Calls that come one after another are tidy.** -/
theorem tidy (hs : OneByOne es id) (n : ℕ) : (trafficAt es n).Tidy id := by
  induction n with
  | zero =>
    refine ⟨fun p q x y hx => ?_, fun f y hy => ?_, fun p f hw => ?_⟩
    · simp [trafficAt] at hx
    · simp [trafficAt] at hy
    · simp [trafficAt, Traffic.Waits] at hw
  | succ n ih =>
    rcases Nat.lt_or_ge n es.length with hn | hn
    · rw [trafficAt_succ hn]
      exact ih.step (hs n hn)
    · rw [trafficAt_of_le hn]
      exact ih

end QueryClient
