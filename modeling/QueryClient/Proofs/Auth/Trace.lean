import QueryClient.Proofs.Auth.Listening

/-!
# Runs of a realm as traces

`realmAt es n` is the realm after the first `n` events. Counters and closings only move one way, a
manager that has found the provider keeps it until it is closed, and a fetch that can go on is queued.

* `moveFetch_cancelled`, `moveFetch_called`, `moveFetch_reached`, `moveFetch_overtaken`,
  `moveFetch_current`: **what the next step of a fetch does,** by its stage.
* `runFetch_settles`: a fetch that has gone on has to wait.
* `RealmOK`: a realm is well formed; `RealmOK.step`, `realmAt_ok`.
* `RealmOK.attached_step`: **who has found the provider keeps it** until it is closed.
* `counter_le`, `closed_of_le`, `attached_of_le`: along a trace.
-/

namespace QueryClient

variable {r r' : AuthRealm} {id : AuthId} {f g : FetchId} {ev : AuthEvent} {x y : Fetch}

namespace FetchStage

/-- The fetch has begun, and has not ended. -/
def hasBegun : FetchStage → Bool
  | .arriving | .ended _ => false
  | _ => true

theorem hasBegun_of_isOutstanding {st : FetchStage} (h : st.isOutstanding) : st.hasBegun := by
  cases st with
  | arriving => simp [isOutstanding] at h
  | overtaken => rfl
  | ended _ => simp [isOutstanding] at h
  | _ => rfl

/-- How many steps a fetch can take at most, with nothing between them. -/
def stepsLeft : FetchStage → ℕ
  | .answered .. => 3
  | .arriving | .overtaken => 2
  | .calling .. | .fetching .. | .ended _ => 1

theorem stepsLeft_pos (st : FetchStage) : 1 ≤ st.stepsLeft ∧ st.stepsLeft ≤ 3 := by
  cases st <;> simp [stepsLeft]

end FetchStage

/-! ## What a fetch that can go on does -/

theorem stage?_eq_some (hx : r.fetches[f]? = some x) : r.stage? f = some x.stage := by
  unfold AuthRealm.stage?
  rw [hx]
  rfl

theorem stage?_finish (hx : r.fetches[f]? = some x) (ending : Ending TokenOutcome) :
    (r.finish f ending).stage? f = some (.ended ending) := by
  show ((r.fetches.modify f _)[f]?).map _ = _
  simp [hx]

theorem exists_manager (hm : id < r.managers.length) : ∃ m, r.managers[id]? = some m ∧
    r.isClosed id = m.closed ∧ r.isAttached id = m.attached ∧ r.counter id = m.counter := by
  have hget := List.getElem?_eq_getElem hm
  exact ⟨_, hget, by simp [AuthRealm.isClosed, hget], by simp [AuthRealm.isAttached, hget],
    by simp [AuthRealm.counter, hget]⟩

theorem stage?_makeCall (hx : r.fetches[f]? = some x) (hm : id < r.managers.length)
    (hc : r.isClosed id = false) : ∃ forced, (r.makeCall f id).stage? f =
      some (if r.isAttached id then .calling (r.calls.length + 1) (r.counter id) forced
        else .ended (.returned (.ok none))) := by
  obtain ⟨m, hget, hclosed, hatt, hcount⟩ := exists_manager hm
  rw [hclosed] at hc
  refine ⟨m.forceRefresh, ?_⟩
  unfold AuthRealm.makeCall
  rw [hget, hatt, hcount]
  simp only [hc]
  cases m.attached with
  | false => exact stage?_finish hx _
  | true =>
    show ((r.fetches.modify f _)[f]?).map _ = _
    simp [hx]

/-- **A fetch whose manager has been closed is cancelled,** once it has made out a call. -/
theorem moveFetch_cancelled (hx : r.fetches[f]? = some x) (hst : x.stage.isOutstanding)
    (hc : r.isClosed x.manager) :
    (r.moveFetch f).stage? f = some (.ended (.returned (.error .tokenCancelled))) := by
  obtain ⟨m, hm, hmc⟩ : ∃ m, r.managers[x.manager]? = some m ∧ m.closed := (Option.any_eq_true _ _).1 hc
  have hfinish := stage?_finish hx (.returned (.error .tokenCancelled))
  unfold AuthRealm.moveFetch
  rw [hx]
  cases hs : x.stage with
  | calling call c forced => simpa [hs, hc] using hfinish
  | fetching call c => simpa [hs, hc] using hfinish
  | answered call c reply => simpa [hs, AuthRealm.lookAtReply, hm, hmc] using hfinish
  | _ => simp [hs, FetchStage.isOutstanding] at hst

theorem moveFetch_of_isAtDoor (hx : r.fetches[f]? = some x) (hst : x.stage.isAtDoor) :
    r.moveFetch f = r.makeCall f x.manager := by
  unfold AuthRealm.moveFetch
  rw [hx]
  cases hs : x.stage with
  | arriving => simp [hs]
  | overtaken => simp [hs]
  | _ => simp [hs, FetchStage.isAtDoor] at hst

/-- A fetch that is at the door of an open manager makes out a call, or goes without a token. -/
theorem moveFetch_called (hx : r.fetches[f]? = some x) (hst : x.stage.isAtDoor)
    (hm : x.manager < r.managers.length) (hc : r.isClosed x.manager = false) : ∃ forced,
      (r.moveFetch f).stage? f =
        some (if r.isAttached x.manager then .calling (r.calls.length + 1) (r.counter x.manager) forced
          else .ended (.returned (.ok none))) := by
  rw [moveFetch_of_isAtDoor hx hst]
  exact stage?_makeCall hx hm hc

/-- A fetch that is at the door of a closed manager fails. -/
theorem moveFetch_closed (hx : r.fetches[f]? = some x) (hst : x.stage.isAtDoor)
    (hc : r.isClosed x.manager) :
    (r.moveFetch f).stage? f = some (.ended (.returned (.error .authClosed))) := by
  obtain ⟨m, hm, hmc⟩ : ∃ m, r.managers[x.manager]? = some m ∧ m.closed := (Option.any_eq_true _ _).1 hc
  rw [← stage?_finish hx, moveFetch_of_isAtDoor hx hst]
  unfold AuthRealm.makeCall
  rw [hm]
  simp [hmc]

/-- A call that was made out reaches the provider. -/
theorem moveFetch_reached {call c : ℕ} {forced : Bool} (hx : r.fetches[f]? = some x)
    (hst : x.stage = .calling call c forced) (hc : r.isClosed x.manager = false) :
    (r.moveFetch f).stage? f = some (.fetching call c) := by
  unfold AuthRealm.moveFetch
  rw [hx]
  simp only [hst, hc]
  show ((r.fetches.modify f _)[f]?).map _ = _
  simp [hx]

/-- **A fetch whose answer was overtaken by a change begins anew.** -/
theorem moveFetch_overtaken {call c : ℕ} {reply : TokenReply} (hx : r.fetches[f]? = some x)
    (hst : x.stage = .answered call c reply) (hm : x.manager < r.managers.length)
    (hc : r.isClosed x.manager = false) (hne : r.counter x.manager ≠ c) :
    (r.moveFetch f).stage? f = some .overtaken := by
  obtain ⟨m, hget, hclosed, -, hcount⟩ := exists_manager hm
  rw [hclosed] at hc
  rw [hcount] at hne
  unfold AuthRealm.moveFetch AuthRealm.lookAtReply
  rw [hx]
  simp only [hst, hget]
  rw [if_neg (by simp [hc]), if_pos hne]
  show ((r.fetches.modify f _)[f]?).map _ = _
  simp [hx]

/-- A fetch whose answer is current returns it. -/
theorem moveFetch_current {call c : ℕ} {reply : TokenReply} (hx : r.fetches[f]? = some x)
    (hst : x.stage = .answered call c reply) (hm : x.manager < r.managers.length)
    (hc : r.isClosed x.manager = false) (heq : r.counter x.manager = c) :
    (r.moveFetch f).stage? f = some (.ended (.returned (AuthRealm.outcome reply))) := by
  obtain ⟨m, hget, hclosed, -, hcount⟩ := exists_manager hm
  rw [hclosed] at hc
  rw [hcount] at heq
  have hfinish : ∀ n : Option String,
      (AuthRealm.finish (n.elim r fun text => r.note (.warned text)) f
        (.returned (AuthRealm.outcome reply))).stage? f =
          some (.ended (.returned (AuthRealm.outcome reply))) := by
    intro n
    have hfetches : (n.elim r fun text => r.note (.warned text)).fetches[f]? = some x := by
      cases n <;> exact hx
    exact stage?_finish hfetches _
  unfold AuthRealm.moveFetch AuthRealm.lookAtReply
  rw [hx]
  simp only [hst, hget]
  rw [if_neg (by simp [hc]), if_neg (by simp [heq])]
  exact hfinish _

/-- A fetch that cannot go on does not. -/
theorem moveFetch_of_not_ready (hx : r.fetches[f]? = some x) (hr : r.isReady x = false) :
    r.moveFetch f = r := by
  unfold AuthRealm.isReady at hr
  unfold AuthRealm.moveFetch
  rw [hx]
  cases hs : x.stage with
  | fetching call c =>
    rw [hs] at hr
    simp [hs, hr]
  | ended ending => simp [hs]
  | _ => simp [hs] at hr

/-- A step of a fetch that can go on leads to where it has to wait, or leaves fewer steps. -/
theorem moveFetch_advances (hx : r.fetches[f]? = some x) (hm : x.manager < r.managers.length)
    (hr : r.isReady x) : ∃ y, (r.moveFetch f).fetches[f]? = some y ∧ y.manager = x.manager ∧
      ((r.moveFetch f).isReady y = false ∨ y.stage.stepsLeft < x.stage.stepsLeft) := by
  have hg := GoesBy.moveFetch r f
  have hlt := Nat.lt_of_lt_of_eq (List.getElem?_eq_some_iff.1 hx).1 hg.count.symm
  obtain ⟨y, hy⟩ : ∃ y, (r.moveFetch f).fetches[f]? = some y := ⟨_, List.getElem?_eq_getElem hlt⟩
  obtain ⟨x', hx', hid, -⟩ := hg.own y hy
  obtain rfl : x = x' := Option.some.inj (hx.symm.trans hx')
  refine ⟨y, hy, hid, ?_⟩
  have hended : ∀ {ending}, (r.moveFetch f).stage? f = some (.ended ending) → (r.moveFetch f).isReady y = false := by
    intro ending h
    have hst := Option.some.inj ((stage?_eq_some hy).symm.trans h)
    unfold AuthRealm.isReady
    rw [hst]
  have hless : ∀ {st}, (r.moveFetch f).stage? f = some st → st.stepsLeft < x.stage.stepsLeft →
      y.stage.stepsLeft < x.stage.stepsLeft := by
    intro st h hst
    rwa [Option.some.inj ((stage?_eq_some hy).symm.trans h)]
  -- who makes out a call has the step left that takes it to the provider
  have hdoor : x.stage.isAtDoor → x.stage.stepsLeft = 2 →
      (r.moveFetch f).isReady y = false ∨ y.stage.stepsLeft < x.stage.stepsLeft := by
    intro hs htwo
    cases hc : r.isClosed x.manager with
    | true => exact .inl (hended (moveFetch_closed hx hs hc))
    | false =>
      obtain ⟨forced, hcall⟩ := moveFetch_called hx hs hm hc
      cases ha : r.isAttached x.manager with
      | false =>
        rw [ha] at hcall
        exact .inl (hended hcall)
      | true =>
        rw [ha] at hcall
        exact .inr (hless hcall (by rw [htwo]; simp [FetchStage.stepsLeft]))
  cases hs : x.stage with
  | arriving => exact hs ▸ hdoor (by rw [hs]; rfl) (by rw [hs]; rfl)
  | overtaken => exact hs ▸ hdoor (by rw [hs]; rfl) (by rw [hs]; rfl)
  | calling call c forced =>
    cases hc : r.isClosed x.manager with
    | true => exact .inl (hended (moveFetch_cancelled hx (by rw [hs]; rfl) hc))
    | false =>
      have hst := Option.some.inj ((stage?_eq_some hy).symm.trans (moveFetch_reached hx hs hc))
      refine .inl ?_
      unfold AuthRealm.isReady
      rw [hst, hid]
      exact (hg.managers.closed _).trans hc
  | fetching call c =>
    have hc : r.isClosed x.manager := by
      unfold AuthRealm.isReady at hr
      rwa [hs] at hr
    exact .inl (hended (moveFetch_cancelled hx (by rw [hs]; rfl) hc))
  | answered call c reply =>
    cases hc : r.isClosed x.manager with
    | true => exact .inl (hended (moveFetch_cancelled hx (by rw [hs]; rfl) hc))
    | false =>
      by_cases heq : r.counter x.manager = c
      · exact .inl (hended (moveFetch_current hx hs hm hc heq))
      · exact .inr (hs ▸ hless (moveFetch_overtaken hx hs hm hc heq) (by rw [hs]; simp [FetchStage.stepsLeft]))
  | ended ending =>
    unfold AuthRealm.isReady at hr
    simp [hs] at hr

/-- **A fetch that has gone on has to wait then,** or has ended. -/
theorem runFetch_settles (hx : r.fetches[f]? = some x) (hm : x.manager < r.managers.length)
    (hy : (r.runFetch f).fetches[f]? = some y) : (r.runFetch f).isReady y = false := by
  -- from any step on: it waits, or has fewer steps left
  have hmove : ∀ {s : AuthRealm} {u : Fetch} (k : ℕ), s.fetches[f]? = some u →
      u.manager < s.managers.length → (s.isReady u = false ∨ u.stage.stepsLeft ≤ k + 1) →
      ∃ v, (s.moveFetch f).fetches[f]? = some v ∧ v.manager < (s.moveFetch f).managers.length ∧
        ((s.moveFetch f).isReady v = false ∨ v.stage.stepsLeft ≤ k) := by
    intro s u k hu hlt hk
    by_cases hr : s.isReady u = true
    · obtain ⟨v, hv, hid, hv'⟩ := moveFetch_advances hu hlt hr
      refine ⟨v, hv, ?_, hv'.imp_right fun hless => ?_⟩
      · rw [hid, (GoesBy.moveFetch s f).managers.length]
        exact hlt
      · have hle := hk.resolve_left (by simp [hr])
        omega
    · have hr : s.isReady u = false := Bool.eq_false_iff.2 hr
      rw [moveFetch_of_not_ready hu hr]
      exact ⟨u, hu, hlt, .inl hr⟩
  obtain ⟨u, hu, hlt, hk⟩ := hmove 2 hx hm (.inr x.stage.stepsLeft_pos.2)
  obtain ⟨v, hv, hlt, hk⟩ := hmove 1 hu hlt hk
  obtain ⟨w, hw, -, hk⟩ := hmove 0 hv hlt hk
  obtain rfl : y = w := Option.some.inj (hy.symm.trans hw)
  exact hk.resolve_right (Nat.not_le.2 y.stage.stepsLeft_pos.1)

/-- A fetch of a manager that is not there does not begin. -/
theorem runFetch_unmanaged (hx : r.fetches[f]? = some x) (hb : x.stage.hasBegun = false)
    (hm : r.managers.length ≤ x.manager) : r.runFetch f = r := by
  have hmove : r.moveFetch f = r := by
    have hnone := List.getElem?_eq_none hm
    unfold AuthRealm.moveFetch
    rw [hx]
    cases hs : x.stage with
    | arriving => simp [hs, AuthRealm.makeCall, hnone]
    | ended ending => simp [hs]
    | _ => simp [hs, FetchStage.hasBegun] at hb
  unfold AuthRealm.runFetch
  simp only [hmove]

/-! ## A realm is well formed -/

/-- A realm is well formed. -/
structure RealmOK (r : AuthRealm) : Prop where
  attached : ∀ id, r.isAttached id → r.available
  listens : ∀ id, Listens True r id
  managed : ∀ (f : FetchId) (x : Fetch), r.fetches[f]? = some x → x.stage.hasBegun →
    x.manager < r.managers.length
  queued : ∀ (f : FetchId) (x : Fetch), r.fetches[f]? = some x → x.stage.hasBegun → r.isReady x → f ∈ r.queue

theorem mem_queue_wakeFetch (h : (r.fetches[f]?).any r.isReady) : f ∈ (r.wakeFetch f).queue := by
  unfold AuthRealm.wakeFetch
  by_cases hf : f ∈ r.queue
  · simp [hf]
  · simp [h, hf]

@[simp]
theorem isReady_wakeFetch (r : AuthRealm) (g : FetchId) : (r.wakeFetch g).isReady = r.isReady := by
  unfold AuthRealm.wakeFetch
  split <;> rfl

/-- Waking settles nothing: who can go on afterwards could before. -/
@[simp]
theorem isReady_wake (r : AuthRealm) : r.wake.isReady = r.isReady := by
  have hfold : ∀ (fs : List FetchId) (r : AuthRealm), (fs.foldl AuthRealm.wakeFetch r).isReady = r.isReady := by
    intro fs
    induction fs with
    | nil => exact fun _ => rfl
    | cons g fs ih => exact fun r => (ih _).trans (isReady_wakeFetch r g)
  exact hfold _ r

/-- Every fetch that can go on is queued. -/
theorem mem_queue_of_ready (hx : r.fetches[f]? = some x) (hr : r.isReady x) : f ∈ r.wake.queue := by
  have hfold : ∀ (fs : List FetchId) (r : AuthRealm), f ∈ fs → (r.fetches[f]?).any r.isReady →
      f ∈ (fs.foldl AuthRealm.wakeFetch r).queue := by
    intro fs
    induction fs with
    | nil => simp
    | cons g fs ih =>
      intro r hf hr
      have hkeep : Keeps [] r (r.wakeFetch g) := Keeps.wakeFetch r g
      rcases List.mem_cons.1 hf with rfl | hf
      · exact (Keeps.foldl fs (fun r g _ => Keeps.wakeFetch r g) _ : Keeps [] _ _).queue.mem
          (mem_queue_wakeFetch hr)
      · refine ih _ hf ?_
        rw [hkeep.fetches, isReady_wakeFetch]
        exact hr
  exact hfold _ r (List.mem_range.2 (List.getElem?_eq_some_iff.1 hx).1) (by simpa [hx] using hr)

/-- A fetch that has begun had begun before, or makes out a call. -/
theorem FetchStep.hasBegun {st st' : FetchStage} (h : FetchStep r r' id st st')
    (hb : st'.hasBegun) : st.hasBegun ∨ id < r.managers.length := by
  cases h with
  | rest => exact .inl hb
  | called _ hm => exact .inr hm
  | reached => exact .inl rfl
  | overtaken => exact .inl rfl
  | _ => simp [FetchStage.hasBegun] at hb

namespace RealmOK

theorem managed_step (h : RealmOK r) (ev : AuthEvent) (hy : (r.step ev).fetches[f]? = some y)
    (hst : y.stage.hasBegun) : y.manager < (r.step ev).managers.length := by
  refine Nat.lt_of_lt_of_le ?_ (step_mono r ev).1
  obtain ⟨st, hb, hs⟩ := step_moves r ev f y hy
  rcases hs.hasBegun hst with hst | hlt
  · cases hb with
    | there hx hid => rw [← hid]; exact h.managed f _ hx hst
    | fresh _ => simp [FetchStage.hasBegun] at hst
    | replied hx hid hxs _ => rw [← hid]; exact h.managed f _ hx (by rw [hxs]; rfl)
  · exact hlt

/-- Nothing is closed, and the fetches stay as they are. -/
theorem queued_of_same (h : RealmOK r) (hf : r'.fetches = r.fetches) (hq : r.queue <+: r'.queue)
    (hc : ∀ id, r'.isClosed id → r.isClosed id) (hx : r'.fetches[f]? = some x)
    (hst : x.stage.hasBegun) (hr : r'.isReady x) : f ∈ r'.queue := by
  rw [hf] at hx
  refine hq.mem (h.queued f x hx hst ?_)
  unfold AuthRealm.isReady at hr ⊢
  cases hs : x.stage with
  | fetching call c => rw [hs] at hr; exact hc _ hr
  | ended ending => rw [hs] at hr; exact hr
  | _ => rfl

theorem closed_modify (r : AuthRealm) (i : AuthId) {F : TokenManager → TokenManager}
    (hF : ∀ m, (F m).closed = m.closed) (hc : (r.modifyManager i F).isClosed id) : r.isClosed id := by
  unfold AuthRealm.isClosed at hc ⊢
  rw [r.getElem?_modifyManager] at hc
  split at hc
  · cases hm : r.managers[id]? with
    | none => rw [hm] at hc; exact hc
    | some m => rw [hm] at hc; exact (hF m).symm.trans hc
  · exact hc

theorem closed_add (r : AuthRealm) (hc : ({ r with managers := r.managers ++ [{}] } : AuthRealm).isClosed id) :
    r.isClosed id := by
  unfold AuthRealm.isClosed at hc ⊢
  rcases Nat.lt_or_ge id r.managers.length with hlt | hge
  · rw [List.getElem?_append_left hlt] at hc
    exact hc
  · rw [List.getElem?_append_right hge] at hc
    cases hm : [({} : TokenManager)][id - r.managers.length]? with
    | none => rw [hm] at hc; simp at hc
    | some m =>
      rw [hm, List.mem_singleton.1 (List.mem_of_getElem? hm)] at hc
      simp at hc

/-- What wakes all fetches queues those that can go on. -/
theorem queued_of_wake (hx : r.wake.fetches[f]? = some x) (hr : r.wake.isReady x) : f ∈ r.wake.queue := by
  have hkeep : Keeps [] r r.wake := Keeps.wake r
  rw [hkeep.fetches] at hx
  rw [isReady_wake] at hr
  exact mem_queue_of_ready hx hr

/-- **A fetch that can go on stays queued,** whatever happens to the managers. -/
theorem queued_outside (h : RealmOK r) (hev : ev.IsOutside)
    (hx : (r.step ev).fetches[f]? = some x) (hst : x.stage.hasBegun)
    (hr : (r.step ev).isReady x) : f ∈ (r.step ev).queue := by
  have hkeep := step_keeps r hev
  have hwake : ∀ s : AuthRealm, r.step ev = s.wake → f ∈ (r.step ev).queue := by
    intro s heq
    rw [heq] at hx hr ⊢
    exact queued_of_wake hx hr
  have hsame : (∀ id, (r.step ev).isClosed id → r.isClosed id) → f ∈ (r.step ev).queue :=
    fun hc => h.queued_of_same hkeep.fetches hkeep.queue hc hx hst hr
  cases ev with
  | create unavailable =>
    by_cases hu : unavailable
    · exact hsame fun id hc => closed_add r (by simpa [AuthRealm.step, AuthRealm.create, hu] using hc)
    by_cases ha : r.available
    · exact hwake _ (by simp only [AuthRealm.step, AuthRealm.create, hu, ha]; rfl)
    · exact hsame fun id hc => closed_add r (by
        simpa [AuthRealm.step, AuthRealm.create, hu, ha, AuthRealm.isClosed] using hc)
  | provide =>
    by_cases ha : r.available
    · have hnote : r.step .provide = r.note (.warned Deferred.ignoredText) := by
        simp [AuthRealm.step, AuthRealm.provide, ha]
      exact hsame fun id hc => by rw [hnote] at hc; exact hc
    · exact hwake _ (by simp only [AuthRealm.step, AuthRealm.provide, ha]; rfl)
  | notify => exact hwake _ rfl
  | listen id listener =>
    by_cases hc : r.isClosed id
    · exact hsame fun i hi => by simpa [AuthRealm.step, AuthRealm.listen, hc] using hi
    · exact hwake _ (by simp only [AuthRealm.step, AuthRealm.listen, hc]; rfl)
  | close id => exact hwake _ rfl
  | setUser uid => exact hsame fun i hi => hi
  | setProvider a b c => exact hsame fun i hi => hi
  | turnListener id closes =>
    refine hsame fun i hi => ?_
    have hi : (r.turnListener id closes).isClosed i := hi
    unfold AuthRealm.turnListener at hi
    split at hi
    · exact hi
    · exact closed_modify r id
        (F := fun m => { m with listener := m.listener.map fun l => { l with closes } }) (fun m => rfl) hi
  | forceRefresh id =>
    exact hsame fun i hi =>
      closed_modify r id (F := fun m => { m with forceRefresh := true }) (fun m => rfl) hi
  | hold id =>
    exact hsame fun i hi =>
      closed_modify r id (F := fun m => { m with holders := m.holders + 1 }) (fun m => rfl) hi
  | letGo id =>
    exact hsame fun i hi =>
      closed_modify r id (F := fun m => { m with holders := m.holders - 1 }) (fun m => rfl) hi
  | _ => exact hev.elim

/-- Who does not go on stays as ready as it was. -/
theorem isReady_of_closed (h : ∀ id, r'.isClosed id = r.isClosed id) (x : Fetch) : r'.isReady x = r.isReady x := by
  unfold AuthRealm.isReady
  rw [h]

/-- A fetch that goes on is settled then; the others keep their places. -/
theorem queued_goes {s : AuthRealm} (hgo : r' = s.runFetch g)
    (hothers : ∀ f x, f ≠ g → s.fetches[f]? = some x → x.stage.hasBegun → s.isReady x →
      f ∈ s.queue)
    (hm : ∀ x, s.fetches[g]? = some x → x.stage.hasBegun → x.manager < s.managers.length)
    (hy : r'.fetches[f]? = some y) (hst : y.stage.hasBegun) (hr : r'.isReady y) :
    f ∈ r'.queue := by
  subst hgo
  have hg := Goes.runFetch s g
  by_cases hfg : f = g
  · subst hfg
    obtain ⟨x, hx, -⟩ := hg.own y hy
    rcases Nat.lt_or_ge x.manager s.managers.length with hlt | hge
    · rw [runFetch_settles hx hlt hy] at hr
      simp at hr
    · -- it has no manager, so it has not begun and does not begin
      have hb : x.stage.hasBegun = false := Bool.eq_false_iff.2 fun hb => absurd (hm x hx hb) (Nat.not_lt.2 hge)
      rw [runFetch_unmanaged hx hb hge, hx] at hy
      obtain rfl := Option.some.inj hy
      simp [hb] at hst
  · rw [hg.others f hfg] at hy
    rw [hg.queue]
    exact hothers f y hfg hy hst (isReady_of_closed hg.managers.closed y ▸ hr)

/-- A fetch that takes a step is queued for the next; the others keep their places. -/
theorem queued_go (h : RealmOK r) (hy : (r.step (.go g)).fetches[f]? = some y) (hst : y.stage.hasBegun)
    (hr : (r.step (.go g)).isReady y) : f ∈ (r.step (.go g)).queue := by
  have hg := Goes.moveFetch r g
  obtain ⟨-, hman, -, hf⟩ := wakeFetch_same (r.moveFetch g) g
  have hkeep : Keeps [] (r.moveFetch g) (r.step (.go g)) := Keeps.wakeFetch _ g
  have hclosed : ∀ id, (r.step (.go g)).isClosed id = (r.moveFetch g).isClosed id := fun id => by
    unfold AuthRealm.isClosed
    exact congrArg (fun ms : List TokenManager => (ms[id]?).any (·.closed)) hman
  have hy : (r.moveFetch g).fetches[f]? = some y := by
    rwa [show (r.step (.go g)).fetches = (r.moveFetch g).fetches from hf] at hy
  rw [isReady_of_closed hclosed] at hr
  by_cases hfg : f = g
  · subst hfg
    exact mem_queue_wakeFetch (by simpa [hy] using hr)
  · refine hkeep.queue.mem ?_
    rw [hg.queue]
    rw [hg.others f hfg] at hy
    exact h.queued f y hy hst (isReady_of_closed hg.managers.closed y ▸ hr)

/-- A fetch that is answered changes only in its stage. -/
theorem setReply_fetch {reply : TokenReply} (hx : (r.setReply g reply).fetches[f]? = some x) :
    ∃ x₀, r.fetches[f]? = some x₀ ∧ x₀.manager = x.manager ∧ (f ≠ g → x₀ = x) ∧
      (x.stage.hasBegun → x₀.stage.hasBegun) := by
  unfold AuthRealm.setReply at hx
  split at hx
  · rename_i call c hst
    have hx' : (r.fetches.modify g fun y => { y with stage := .answered call c reply })[f]? = some x := hx
    rw [List.getElem?_modify] at hx'
    obtain ⟨x₀, hx₀, heq⟩ := Option.map_eq_some_iff.1 hx'
    refine ⟨x₀, hx₀, ?_⟩
    by_cases hgf : g = f
    · rw [if_pos hgf] at heq
      subst hgf
      have hx₀st : x₀.stage = .fetching call c := by
        unfold AuthRealm.stage? at hst
        rw [hx₀] at hst
        exact Option.some.inj hst
      exact ⟨by rw [← heq], fun hne => absurd rfl hne, fun _ => by rw [hx₀st]; rfl⟩
    · rw [if_neg hgf] at heq
      obtain rfl : x₀ = x := heq
      exact ⟨rfl, fun _ => rfl, fun h => h⟩
  · exact ⟨x, hx, rfl, fun _ => rfl, fun h => h⟩

theorem isReady_of_managers (h : r'.managers = r.managers) (x : Fetch) : r'.isReady x = r.isReady x :=
  isReady_of_closed (fun id => by unfold AuthRealm.isClosed; rw [h]) x

theorem queued_answer (h : RealmOK r) {reply : TokenReply}
    (hy : (r.answer g reply).fetches[f]? = some y) (hst : y.stage.hasBegun)
    (hr : (r.answer g reply).isReady y) : f ∈ (r.answer g reply).queue := by
  have hkeep : Keeps [] (r.setReply g reply) (r.answer g reply) := Keeps.wakeFetch _ g
  obtain ⟨-, hman, -, hqueue⟩ := setReply_same r g reply
  have hready : (r.setReply g reply).isReady y := by
    unfold AuthRealm.answer at hr
    rwa [isReady_wakeFetch] at hr
  rw [hkeep.fetches] at hy
  by_cases hfg : f = g
  · subst hfg
    exact mem_queue_wakeFetch (by simpa [hy] using hready)
  · obtain ⟨x₀, hx₀, -, heq, -⟩ := setReply_fetch hy
    rw [heq hfg] at hx₀
    rw [isReady_of_managers hman] at hready
    refine hkeep.queue.mem ?_
    rw [hqueue]
    exact h.queued f y hx₀ hst hready

/-- What is abandoned has ended, and the others keep their places. -/
theorem queued_abort (h : RealmOK r) (hy : (r.abort g).fetches[f]? = some y)
    (hst : y.stage.hasBegun) (hr : (r.abort g).isReady y) : f ∈ (r.abort g).queue := by
  have habort : (r.abort g).queue = r.queue ∧ (r.abort g).managers = r.managers ∧
      (r.fetches[f]? = some y) := by
    revert hy
    unfold AuthRealm.abort
    split
    · exact fun hy => ⟨rfl, rfl, hy⟩
    · exact fun hy => ⟨rfl, rfl, hy⟩
    split
    · exact fun hy => ⟨rfl, rfl, hy⟩
    · intro hy
      have hy' : (r.fetches.modify g fun x => { x with stage := .ended .dropped })[f]? = some y := hy
      rw [List.getElem?_modify] at hy'
      obtain ⟨x, hx, hxy⟩ := Option.map_eq_some_iff.1 hy'
      split at hxy
      · rw [← hxy] at hst
        simp [FetchStage.hasBegun] at hst
      · exact ⟨rfl, rfl, hx.trans (congrArg some hxy)⟩
  obtain ⟨hqueue, hman, hx⟩ := habort
  rw [isReady_of_managers hman] at hr
  rw [hqueue]
  exact h.queued f y hx hst hr

/-- A fetch that comes has not begun. -/
theorem begun_before {manager : AuthId} (hx : (r.fetches ++ [({ manager } : Fetch)])[f]? = some x)
    (hst : x.stage.hasBegun) : r.fetches[f]? = some x := by
  rcases Nat.lt_or_ge f r.fetches.length with hlt | hge
  · rw [List.getElem?_append_left hlt] at hx
    exact hx
  · rw [List.getElem?_append_right hge] at hx
    rw [List.mem_singleton.1 (List.mem_of_getElem? hx)] at hst
    simp [FetchStage.hasBegun] at hst

/-- **A fetch that can go on stays queued** when it or another goes on. -/
theorem queued_inside (h : RealmOK r) (hev : ¬ ev.IsOutside)
    (hy : (r.step ev).fetches[f]? = some y) (hst : y.stage.hasBegun)
    (hr : (r.step ev).isReady y) : f ∈ (r.step ev).queue := by
  cases ev with
  | fetch manager =>
    exact List.mem_append_left _ (h.queued f y (begun_before hy hst) hst hr)
  | fetchNow manager =>
    refine queued_goes (s := { r with fetches := r.fetches ++ [{ manager }] })
      (g := r.fetches.length) rfl ?_ ?_ hy hst hr
    · exact fun f x _ hx hxst hxr => h.queued f x (begun_before hx hxst) hxst hxr
    · exact fun x hx hxst => h.managed _ x (begun_before hx hxst) hxst
  | answer g reply => exact h.queued_answer hy hst hr
  | answerNow g reply =>
    obtain ⟨-, hman, -, hqueue⟩ := setReply_same r g reply
    refine queued_goes (s := r.setReply g reply) (g := g) rfl ?_ ?_ hy hst hr
    · intro f x hfg hx hxst hxr
      obtain ⟨x₀, hx₀, -, heq, -⟩ := setReply_fetch hx
      rw [heq hfg] at hx₀
      rw [isReady_of_managers hman] at hxr
      rw [hqueue]
      exact h.queued f x hx₀ hxst hxr
    · intro x hx hxst
      obtain ⟨x₀, hx₀, hid, -, hout⟩ := setReply_fetch hx
      rw [hman, ← hid]
      exact h.managed g x₀ hx₀ (hout hxst)
  | poll =>
    cases hq : r.queue with
    | nil =>
      have hsame : r.step .poll = r := by
        show r.poll = r
        unfold AuthRealm.poll
        rw [hq]
      rw [hsame] at hy hr ⊢
      exact h.queued f y hy hst hr
    | cons g rest =>
      have hpoll : r.step .poll = { r with queue := rest }.runFetch g := by
        show r.poll = _
        unfold AuthRealm.poll
        rw [hq]
      refine queued_goes (s := { r with queue := rest }) hpoll ?_ (h.managed g) hy hst hr
      intro f x hfg hx hxst hxr
      have hmem := h.queued f x hx hxst hxr
      rw [hq] at hmem
      exact (List.mem_cons.1 hmem).resolve_left hfg
  | go g => exact h.queued_go hy hst hr
  | abort g => exact h.queued_abort hy hst hr
  | _ => exact absurd trivial hev

/-- Who has found the provider finds it there. -/
theorem attached_available (h : RealmOK r) (ev : AuthEvent) (ha : (r.step ev).isAttached id) :
    (r.step ev).available := by
  by_cases hev : ev.IsOutside
  · have hkeep := step_keeps r hev
    by_cases hid : id ∈ ev.finding r
    · cases ev with
      | create unavailable =>
        by_cases hav : r.available
        · exact hkeep.available hav
        · -- without the provider a new manager does not find it
          have hadd : Keeps [] r { r with managers := r.managers ++ [{}] } := Keeps.add r
          have ha' : ({ r with managers := r.managers ++ [{}] } : AuthRealm).isAttached id := by
            cases unavailable <;> simpa [AuthRealm.step, AuthRealm.create, hav, AuthRealm.isAttached] using ha
          exact hkeep.available (h.attached id ((hadd.attached id (by simp)).1 ha'))
      | provide =>
        by_cases hav : r.available
        · exact hkeep.available hav
        · have hfold : Keeps r.waiting { r with available := true, waiting := [] } r.provide := by
            unfold AuthRealm.provide
            rw [if_neg hav]
            refine (Keeps.foldl r.waiting (fun r i hi => ?_) _).trans (Keeps.wake _)
            exact (Keeps.arrived r i).mono fun j hj => by rw [List.mem_singleton.1 hj]; exact hi
          exact hfold.available rfl
      | _ => simp [AuthEvent.finding] at hid
    · exact hkeep.available (h.attached id ((hkeep.attached id hid).1 ha))
  · obtain ⟨hsame, -⟩ := step_goes r hev
    rw [hsame.available]
    exact h.attached id ((hsame.attached id).symm.trans ha)

/-- **A realm stays well formed.** -/
theorem step (h : RealmOK r) (ev : AuthEvent) : RealmOK (r.step ev) := by
  refine ⟨fun id => h.attached_available ev, fun id => (h.listens id).step ev, fun f x hx => h.managed_step ev hx, fun f x hx hst hr => ?_⟩
  by_cases hev : ev.IsOutside
  · exact h.queued_outside hev hx hst hr
  · exact h.queued_inside hev hx hst hr

/-- **Who has found the provider keeps it** until it is closed. -/
theorem attached_step (h : RealmOK r) (ev : AuthEvent) (ha : r.isAttached id) :
    (r.step ev).isAttached id ∨ (r.step ev).isClosed id := by
  by_cases hev : ev.IsOutside
  · have hkeep := step_keeps r hev
    by_cases hid : id ∈ ev.finding r
    · cases ev with
      | create unavailable =>
        -- the new manager is another
        have hlt : id < r.managers.length := by
          unfold AuthRealm.isAttached at ha
          cases hm : r.managers[id]? with
          | none => rw [hm] at ha; simp at ha
          | some m => exact (List.getElem?_eq_some_iff.1 hm).1
        rw [List.mem_singleton.1 hid] at hlt
        exact absurd hlt (Nat.lt_irrefl _)
      | provide =>
        have hnote : r.step .provide = r.note (.warned Deferred.ignoredText) := by
          simp [AuthRealm.step, AuthRealm.provide, h.attached id ha]
        rw [hnote]
        exact .inl ha
      | _ => simp [AuthEvent.finding] at hid
    · exact (hkeep.attached id hid).2 ha
  · exact .inl (((step_goes r hev).1.attached id).trans ha)

end RealmOK

/-! ## Traces -/

/-- The realm after the first `n` events. -/
def realmAt (es : List AuthEvent) (n : ℕ) : AuthRealm := ({} : AuthRealm).run (es.take n)

variable {es : List AuthEvent} {i j k n : ℕ}

theorem realmAt_succ (hn : n < es.length) :
    realmAt es (n + 1) = (realmAt es n).step es[n] := by
  simp only [realmAt, AuthRealm.run]
  rw [List.take_add_one, List.getElem?_eq_getElem hn, Option.toList_some, List.foldl_append]
  rfl

/-- After the last event nothing happens. -/
theorem realmAt_of_le (hn : es.length ≤ n) : realmAt es (n + 1) = realmAt es n := by
  simp only [realmAt]
  rw [List.take_of_length_le hn, List.take_of_length_le (Nat.le_succ_of_le hn)]

/-- What every event keeps holds along a trace. -/
theorem realmAt_induction {P : AuthRealm → Prop} (hstep : ∀ r ev, P r → P (r.step ev))
    (hij : i ≤ j) (h : P (realmAt es i)) : P (realmAt es j) := by
  induction j with
  | zero =>
    obtain rfl : i = 0 := by omega
    exact h
  | succ j ih =>
    rcases Nat.eq_or_lt_of_le hij with rfl | hlt
    · exact h
    rcases Nat.lt_or_ge j es.length with hj | hj
    · rw [realmAt_succ hj]
      exact hstep _ _ (ih (by omega))
    · rw [realmAt_of_le hj]
      exact ih (by omega)

theorem RealmOK.init : RealmOK {} := by
  refine ⟨fun id h => ?_, fun id => ⟨fun h => ?_, fun _ h => ?_⟩, ?_, ?_⟩
  · simp [AuthRealm.isAttached] at h
  · simp [AuthRealm.isAttached] at h
  · simp [AuthRealm.isAttached] at h
  · simp
  · simp

theorem realmAt_ok (es : List AuthEvent) (n : ℕ) : RealmOK (realmAt es n) :=
  realmAt_induction (fun _ ev h => h.step ev) (Nat.zero_le n) .init

theorem counter_le (hij : i ≤ j) : (realmAt es i).counter id ≤ (realmAt es j).counter id :=
  realmAt_induction (P := fun r => (realmAt es i).counter id ≤ r.counter id)
    (fun r ev h => Nat.le_trans h ((step_mono r ev).2.1 id)) hij (Nat.le_refl _)

theorem closed_of_le (hij : i ≤ j) (h : (realmAt es i).isClosed id) : (realmAt es j).isClosed id :=
  realmAt_induction (P := fun r => r.isClosed id) (fun r ev h => (step_mono r ev).2.2 id h) hij h

theorem length_le (hij : i ≤ j) : (realmAt es i).managers.length ≤ (realmAt es j).managers.length :=
  realmAt_induction (P := fun r => (realmAt es i).managers.length ≤ r.managers.length)
    (fun r ev h => Nat.le_trans h (step_mono r ev).1) hij (Nat.le_refl _)

theorem attached_of_le (hij : i ≤ j) (ha : (realmAt es i).isAttached id)
    (hc : (realmAt es j).isClosed id = false) : (realmAt es j).isAttached id := by
  have h : RealmOK (realmAt es j) ∧ ((realmAt es j).isAttached id ∨ (realmAt es j).isClosed id) :=
    realmAt_induction (P := fun r => RealmOK r ∧ (r.isAttached id ∨ r.isClosed id))
      (fun r ev h => ⟨h.1.step ev, h.2.elim (h.1.attached_step ev)
        fun hc => .inr ((step_mono r ev).2.2 id hc)⟩) hij ⟨realmAt_ok es i, .inl ha⟩
  exact h.2.resolve_right (by simp [hc])

end QueryClient
