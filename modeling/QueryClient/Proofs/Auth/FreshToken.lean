import QueryClient.Proofs.Auth.ForceFlag

/-!
# No stale token

A fetch returns what the provider answered to a call during which no change was reported; what was
overtaken by a change is thrown away and the provider is called again. A call counts from the moment at
which it is made out, which is when the counter is read: the provider gets it then or later.

A fetch that finds its manager closed fails, and one whose manager is closed while it waits is cancelled. A
fetch that has been overtaken looks at its manager anew, as if it had just come; if its manager is closed
between the two steps, it fails as if it had been closed all the time.

* `EntersAt`, `CallsAt`, `ReachesAt`, `AnsweredAt`, `ReturnsAt`: what happens to a fetch along a trace;
  `enters_once`.
* `ReportedAt`: the provider reports a change.
* `Known`, `known`: where a fetch is, and how it came there.
* `fromProvider`: what is returned for an answer is fresh.
* `FreshToken`, `fresh_token`: **no stale token,** for every run.
* `closed_while_overtaken`: a fetch that came to an open manager and fails as if it had been closed.
-/

namespace QueryClient

/-- How far a fetch is after the first `n` events. -/
def stageAt (es : List AuthEvent) (f : FetchId) (n : ℕ) : Option FetchStage :=
  (realmAt es n).stage? f

/-- The fetch has not come, or has not begun. -/
def UnbegunAt (es : List AuthEvent) (f : FetchId) (n : ℕ) : Prop :=
  stageAt es f n = none ∨ stageAt es f n = some .arriving

/-- The fetch begins at an event. -/
def EntersAt (es : List AuthEvent) (f : FetchId) (id : AuthId) (i : ℕ) : Prop :=
  UnbegunAt es f i ∧ ∃ y, (realmAt es (i + 1)).fetches[f]? = some y ∧ y.manager = id ∧ y.stage ≠ .arriving

/-- A call of the provider is made out for the fetch at an event; the calls are numbered in order. -/
def CallsAt (es : List AuthEvent) (f : FetchId) (k call : ℕ) : Prop :=
  (realmAt es k).calls.length + 1 = call ∧ (realmAt es (k + 1)).calls.length = call ∧
    ∃ st c, stageAt es f (k + 1) = some st ∧ st.Asks call c

/-- The provider gets a call of the fetch at an event. -/
def ReachesAt (es : List AuthEvent) (f : FetchId) (b call : ℕ) : Prop :=
  (∃ c, stageAt es f (b + 1) = some (.fetching call c)) ∧ ∀ c, stageAt es f b ≠ some (.fetching call c)

/-- The provider answers a call at an event, for which the fetch waits. -/
def AnsweredAt (es : List AuthEvent) (f : FetchId) (a call : ℕ) (reply : TokenReply) : Prop :=
  (es[a]? = some (.answer f reply) ∨ es[a]? = some (.answerNow f reply)) ∧
    ∃ c, stageAt es f a = some (.fetching call c)

/-- The fetch returns at an event. -/
def ReturnsAt (es : List AuthEvent) (f : FetchId) (id : AuthId) (j : ℕ) (out : TokenOutcome) : Prop :=
  (∀ ending, stageAt es f j ≠ some (.ended ending)) ∧
    (realmAt es (j + 1)).fetches[f]? = some ⟨id, .ended (.returned out)⟩

/-- The provider reports a change. -/
def ReportedAt (es : List AuthEvent) (n : ℕ) : Prop := es[n]? = some .notify

/-- **What was returned is the provider's answer to a call** of which neither the making nor the
return, nor anything between, saw a change. -/
def FromProvider (es : List AuthEvent) (f : FetchId) (id : AuthId) (i j : ℕ) (out : TokenOutcome) :
    Prop :=
  ∃ k b a call reply, i ≤ k ∧ k ≤ b ∧ b < a ∧ a ≤ j ∧ CallsAt es f k call ∧ ReachesAt es f b call ∧
    AnsweredAt es f a call reply ∧ out = AuthRealm.outcome reply ∧
    ∀ n, k ≤ n → n ≤ j → (realmAt es n).counter id = (realmAt es k).counter id ∧ ¬ ReportedAt es n

variable {es : List AuthEvent} {f : FetchId} {id : AuthId} {i j k a b m n call c : ℕ} {ev : AuthEvent}
variable {st st' : FetchStage} {x y : Fetch} {out : TokenOutcome} {reply : TokenReply}

/-! ## How a fetch came where it is -/

/-- The call of the provider that a fetch has made out, and whose answer it has not looked at. -/
def FetchStage.call? : FetchStage → Option ℕ
  | .calling call .. | .fetching call _ | .answered call .. => some call
  | .arriving | .overtaken | .ended _ => none

/-- The fetch began at `i`, while its manager was open, and made out its last call of the provider at `k`. -/
structure BegunAt (es : List AuthEvent) (f : FetchId) (id : AuthId) (n i k call : ℕ) : Prop where
  enters : EntersAt es f id i
  le : i ≤ k
  lt : k < n
  entered : (realmAt es i).isClosed id = false
  calls : CallsAt es f k call
  length : id < (realmAt es k).managers.length
  attached : (realmAt es k).isAttached id

/-- It has not looked at an answer to that call since. -/
structure Outstanding (es : List AuthEvent) (f : FetchId) (id : AuthId) (n i k call c : ℕ) : Prop extends
    BegunAt es f id n i k call where
  counter : (realmAt es k).counter id = c
  since : ∀ m, k < m → m ≤ n → ∃ y, (realmAt es m).fetches[f]? = some y ∧ y.manager = id ∧
    y.stage.isOutstanding

/-- **Where a fetch is and how it came there.** -/
inductive Known (es : List AuthEvent) (f : FetchId) (id : AuthId) (n : ℕ) : FetchStage → Prop where
  | arriving (h : UnbegunAt es f n) : Known es f id n .arriving
  | calling {i k call c : ℕ} {forced : Bool} (h : Outstanding es f id n i k call c) :
      Known es f id n (.calling call c forced)
  | fetching {i k b call c : ℕ} (h : Outstanding es f id n i k call c) (hkb : k ≤ b) (hbn : b < n)
      (hb : ReachesAt es f b call) : Known es f id n (.fetching call c)
  | answered {i k b a call c : ℕ} {reply : TokenReply} (h : Outstanding es f id n i k call c)
      (hkb : k ≤ b) (hb : ReachesAt es f b call) (hba : b < a) (han : a ≤ n)
      (ha : AnsweredAt es f a call reply) : Known es f id n (.answered call c reply)
  | overtaken {i k call : ℕ} (h : BegunAt es f id n i k call) : Known es f id n .overtaken
  | ended {ending : Ending TokenOutcome} (h : stageAt es f n = some (.ended ending)) :
      Known es f id n (.ended ending)

theorem stageAt_eq_some (hy : (realmAt es n).fetches[f]? = some y) : stageAt es f n = some y.stage :=
  stage?_eq_some hy

/-- No call is taken back. -/
theorem calls_le (hnm : n ≤ m) : (realmAt es n).calls.length ≤ (realmAt es m).calls.length := by
  refine realmAt_induction (P := fun r => (realmAt es n).calls.length ≤ r.calls.length)
    (fun r ev h => Nat.le_trans h ?_) hnm (Nat.le_refl _)
  cases flagAct r ev with
  | keeps _ hl => exact Nat.le_of_eq (congrArg List.length hl.calls.symm)
  | forces => exact Nat.le_refl _
  | takes _ _ ht => rw [ht.calls, List.length_append]; exact Nat.le_add_right ..

theorem BegunAt.call_le (h : BegunAt es f id n i k call) : call ≤ (realmAt es n).calls.length := by
  rw [← h.calls.2.1]
  exact calls_le h.lt

/-- A fetch is about a call that was made out. -/
theorem Known.call_le (h : Known es f id n st) (hc : st.call? = some call) :
    call ≤ (realmAt es n).calls.length := by
  cases h with
  | calling ho => exact Option.some.inj hc ▸ ho.call_le
  | fetching ho => exact Option.some.inj hc ▸ ho.call_le
  | answered ho => exact Option.some.inj hc ▸ ho.call_le
  | _ => simp [FetchStage.call?] at hc

theorem Outstanding.succ (h : Outstanding es f id n i k call c)
    (hy : (realmAt es (n + 1)).fetches[f]? = some y) (hid : y.manager = id)
    (hst : y.stage.isOutstanding) : Outstanding es f id (n + 1) i k call c := by
  refine { h with lt := Nat.lt_succ_of_lt h.lt, since := fun m hkm hmn => ?_ }
  rcases Nat.eq_or_lt_of_le hmn with rfl | hlt
  · exact ⟨y, hy, hid, hst⟩
  · exact h.since m hkm (Nat.le_of_lt_succ hlt)

/-- Who made out a call has the provider still, while its manager is open. -/
theorem BegunAt.attached_now (h : BegunAt es f id n i k call) (hc : (realmAt es n).isClosed id = false) :
    (realmAt es n).isAttached id :=
  attached_of_le (Nat.le_of_lt h.lt) h.attached hc

theorem BegunAt.succ (h : BegunAt es f id n i k call) : BegunAt es f id (n + 1) i k call :=
  { h with lt := Nat.lt_succ_of_lt h.lt }

/-- How a fetch came where it is after the next event. After the last one it stays where it is. -/
theorem exists_step (hy : (realmAt es (n + 1)).fetches[f]? = some y) : ∃ ev st,
    (∀ reply, (ev = .answer f reply ∨ ev = .answerNow f reply) → es[n]? = some ev) ∧
      Before (realmAt es n) ev f y.manager st ∧
        FetchStep (realmAt es n) (realmAt es (n + 1)) y.manager st y.stage := by
  rcases Nat.lt_or_ge n es.length with hn | hn
  · have hmoves := step_moves (realmAt es n) es[n] f
    rw [← realmAt_succ hn] at hmoves
    obtain ⟨st, hb, hs⟩ := hmoves y hy
    exact ⟨es[n], st, fun _ _ => List.getElem?_eq_getElem hn, hb, hs⟩
  · rw [realmAt_of_le hn] at hy
    exact ⟨.poll, y.stage, by simp, .there hy rfl, .rest⟩

theorem known_of_before (h : ∀ x, (realmAt es n).fetches[f]? = some x → Known es f x.manager n x.stage)
    (hev : ∀ reply, (ev = .answer f reply ∨ ev = .answerNow f reply) → es[n]? = some ev) (hb : Before (realmAt es n) ev f id st) :
    Known es f id n st := by
  cases hb with
  | there hx hid => rw [← hid]; exact h _ hx
  | fresh hx =>
    refine .arriving (.inl ?_)
    unfold stageAt AuthRealm.stage?
    rw [hx]
    rfl
  | @replied x call c reply hx hid hst hreply =>
    have hknown := h x hx
    rw [hst, hid] at hknown
    cases hknown with
    | fetching ho hkb hbn hr =>
      refine .answered ho hkb hr hbn (Nat.le_refl _) ⟨?_, c, by rw [stageAt_eq_some hx, hst]⟩
      rw [hev reply hreply]
      exact hreply.imp (congrArg some) (congrArg some)

/-- A fetch makes out a call, having entered now or when it made out one before. -/
theorem known_called {i : ℕ} (hall : ∀ x, (realmAt es n).fetches[f]? = some x → Known es f x.manager n x.stage)
    (hi : EntersAt es f id i) (hin : i ≤ n) (hopen : (realmAt es i).isClosed id = false)
    (hm : id < (realmAt es n).managers.length) (hatt : (realmAt es n).isAttached id)
    (hcalls : (realmAt es (n + 1)).calls.length = (realmAt es n).calls.length + 1)
    (hasks : st'.Asks ((realmAt es n).calls.length + 1) ((realmAt es n).counter id))
    (hy : (realmAt es (n + 1)).fetches[f]? = some y) (hid : y.manager = id) (hst : y.stage = st') :
    Known es f id (n + 1) st' := by
  have hstage : stageAt es f (n + 1) = some st' := by rw [stageAt_eq_some hy, hst]
  have ho : Outstanding es f id (n + 1) i n ((realmAt es n).calls.length + 1) ((realmAt es n).counter id) := by
    refine ⟨⟨hi, hin, Nat.lt_succ_self n, hopen, ⟨rfl, hcalls, _, _, hstage, hasks⟩, hm, hatt⟩, rfl,
      fun m hnm hmn => ?_⟩
    obtain rfl : m = n + 1 := by omega
    exact ⟨y, hy, hid, by rw [hst]; exact hasks.isOutstanding⟩
  cases hasks with
  | calling => exact .calling ho
  | fetching =>
    -- the provider gets the call at once; no fetch was about it before
    refine .fetching ho (Nat.le_refl n) (Nat.lt_succ_self n) ⟨⟨_, hstage⟩, fun c' hwas => ?_⟩
    obtain ⟨x, hx, hxst⟩ := Option.map_eq_some_iff.1 hwas
    have hle := (hall x hx).call_le (by rw [hxst]; rfl)
    exact absurd hle (Nat.not_succ_le_self _)

/-- **One event more.** -/
theorem known_succ (hall : ∀ x, (realmAt es n).fetches[f]? = some x → Known es f x.manager n x.stage)
    (hb : Before (realmAt es n) ev f id st) (h : Known es f id n st)
    (hs : FetchStep (realmAt es n) (realmAt es (n + 1)) id st st')
    (hy : (realmAt es (n + 1)).fetches[f]? = some y) (hid : y.manager = id) (hst : y.stage = st') :
    Known es f id (n + 1) st' := by
  have hstage : stageAt es f (n + 1) = some st' := by rw [stageAt_eq_some hy, hst]
  cases hs with
  | rest =>
    cases h with
    | arriving _ => exact .arriving (.inr hstage)
    | calling ho => exact .calling (ho.succ hy hid (by rw [hst]; rfl))
    | fetching ho hkb hbn hr => exact .fetching (ho.succ hy hid (by rw [hst]; rfl)) hkb (Nat.lt_succ_of_lt hbn) hr
    | answered ho hkb hr hba han ha =>
      exact .answered (ho.succ hy hid (by rw [hst]; rfl)) hkb hr hba (Nat.le_succ_of_le han) ha
    | overtaken hbegun => exact .overtaken hbegun.succ
    | ended _ => exact .ended hstage
  | called hbegins hm hc hatt hcalls hasks =>
    have hnew : ∀ i, EntersAt es f id i → i ≤ n → (realmAt es i).isClosed id = false →
        Known es f id (n + 1) st' :=
      fun i hi hin hopen => known_called hall hi hin hopen hm hatt hcalls hasks hy hid hst
    cases hbegins with
    | first =>
      cases h with
      | arriving h =>
        exact hnew n ⟨h, y, hy, hid, by rw [hst]; cases hasks <;> simp⟩ (Nat.le_refl n) hc
    | anew =>
      cases h with
      | overtaken hbegun => exact hnew _ hbegun.enters (Nat.le_trans hbegun.le (Nat.le_of_lt hbegun.lt)) hbegun.entered
    | again _ =>
      cases h with
      | answered ho => exact hnew _ ho.enters (Nat.le_trans ho.le (Nat.le_of_lt ho.lt)) ho.entered
  | @reached call c forced hc =>
    cases h with
    | calling ho =>
      refine .fetching (ho.succ hy hid (by rw [hst]; rfl)) (Nat.le_of_lt ho.lt) (Nat.lt_succ_self n)
        ⟨⟨c, hstage⟩, fun c' hwas => ?_⟩
      generalize hcalling : FetchStage.calling call c forced = st at hb
      cases hb with
      | there hx _ =>
        rw [stageAt_eq_some hx, ← hcalling] at hwas
        simp at hwas
      | fresh _ => simp at hcalling
      | replied _ _ _ _ => simp at hcalling
  | overtaken _ _ =>
    cases h with
    | answered ho => exact .overtaken ho.toBegunAt.succ
  | _ => exact .ended hstage

/-- **It is known of every fetch how it came where it is.** -/
theorem known (es : List AuthEvent) (f : FetchId) (n : ℕ) :
    ∀ x, (realmAt es n).fetches[f]? = some x → Known es f x.manager n x.stage := by
  induction n with
  | zero => intro x hx; simp [realmAt, AuthRealm.run] at hx
  | succ n ih =>
    intro y hy
    obtain ⟨ev, st, hev, hb, hs⟩ := exists_step hy
    exact known_succ ih hb (known_of_before ih hev hb) hs hy rfl rfl

/-! ## A fetch begins once -/

/-- A fetch is not forgotten, and one that has begun does not become unbegun. -/
theorem unbegun_of_succ (h : UnbegunAt es f (n + 1)) : UnbegunAt es f n := by
  rcases Nat.lt_or_ge n es.length with hn | hn
  case inr =>
    unfold UnbegunAt stageAt at h ⊢
    rw [← realmAt_of_le hn]
    exact h
  cases hx : (realmAt es n).fetches[f]? with
  | none => exact .inl (by simp [stageAt, AuthRealm.stage?, hx])
  | some x =>
    have hlen := step_length (realmAt es n) es[n]
    rw [← realmAt_succ hn] at hlen
    have hf := Nat.lt_of_lt_of_le (List.getElem?_eq_some_iff.1 hx).1 hlen
    obtain ⟨y, hy⟩ : ∃ y, (realmAt es (n + 1)).fetches[f]? = some y :=
      ⟨_, List.getElem?_eq_getElem hf⟩
    have hst : y.stage = .arriving := by
      unfold UnbegunAt at h
      rw [stageAt_eq_some hy] at h
      simpa using h
    have hmoves := step_moves (realmAt es n) es[n] f
    rw [← realmAt_succ hn] at hmoves
    obtain ⟨st, hb, hs⟩ := hmoves y hy
    -- only a fetch that has not begun can be arriving afterwards
    have harriving : st = .arriving := by
      rw [hst] at hs
      cases hs with
      | rest => rfl
      | called _ _ _ _ _ hasks => cases hasks
    cases hb with
    | there h _ => exact .inr ((stageAt_eq_some h).trans (congrArg some harriving))
    | fresh h => rw [hx] at h; simp at h
    | replied _ _ _ _ => simp at harriving

theorem unbegun_of_le (hij : i ≤ j) (h : UnbegunAt es f j) : UnbegunAt es f i := by
  induction j with
  | zero =>
    obtain rfl : i = 0 := by omega
    exact h
  | succ j ih =>
    rcases Nat.eq_or_lt_of_le hij with rfl | hlt
    · exact h
    · exact ih (by omega) (unbegun_of_succ h)

theorem enters_once {id' : AuthId} (h : EntersAt es f id i) (h' : EntersAt es f id' j) : i = j := by
  have hlt : ∀ {id : AuthId} {i j : ℕ}, EntersAt es f id i → UnbegunAt es f j → j ≤ i := by
    rintro id i j ⟨-, y, hy, -, hst⟩ hj
    by_contra hij
    have hu : UnbegunAt es f (i + 1) := unbegun_of_le (by omega) hj
    unfold UnbegunAt at hu
    rw [stageAt_eq_some hy] at hu
    rcases hu with hu | hu
    · simp at hu
    · exact hst (Option.some.inj hu)
  exact Nat.le_antisymm (hlt h' h.1) (hlt h h'.1)

/-! ## No stale token -/

theorem outcome_ne (reply : TokenReply) : AuthRealm.outcome reply ≠ .error .authClosed ∧
    AuthRealm.outcome reply ≠ .error .tokenCancelled := by
  unfold AuthRealm.outcome
  split
  · simp
  · split <;> simp

theorem counter_eq_of_le (hkn : k ≤ n) (hnj : n ≤ j)
    (h : (realmAt es j).counter id = (realmAt es k).counter id) :
    (realmAt es n).counter id = (realmAt es k).counter id := by
  have h₁ : (realmAt es k).counter id ≤ (realmAt es n).counter id := counter_le hkn
  have h₂ : (realmAt es n).counter id ≤ (realmAt es j).counter id := counter_le hnj
  exact Nat.le_antisymm (by rw [h] at h₂; exact h₂) h₁

theorem open_of_le (hij : i ≤ j) (hc : (realmAt es j).isClosed id = false) :
    (realmAt es i).isClosed id = false := by
  cases h : (realmAt es i).isClosed id with
  | false => rfl
  | true => exact (closed_of_le hij h).symm.trans hc

/-- While a fetch is outstanding its manager is held. -/
theorem isHeld_of_outstanding (hy : (realmAt es n).fetches[f]? = some y) (hid : y.manager = id)
    (hst : y.stage.isOutstanding) : (realmAt es n).isHeld id := by
  unfold AuthRealm.isHeld
  rw [Bool.or_eq_true]
  refine .inr (List.any_eq_true.2 ⟨y, List.mem_of_getElem? hy, ?_⟩)
  cases hs : y.stage with
  | ended ending => rw [hs] at hst; simp [FetchStage.isOutstanding] at hst
  | _ => simp [AuthRealm.isOpen, hid, hs]

/-- **A report that comes while a fetch is outstanding moves the counter.** -/
theorem counter_reported (h : ReportedAt es n) (hm : id < (realmAt es n).managers.length)
    (ha : (realmAt es n).isAttached id) (hh : (realmAt es n).isHeld id) :
    (realmAt es n).counter id < (realmAt es (n + 1)).counter id := by
  obtain ⟨hn, hev⟩ := List.getElem?_eq_some_iff.1 h
  have hlistens := (realmAt_ok es n).listens id
  rw [realmAt_succ hn, hev]
  exact counter_notify (hlistens.listens trivial ha) hm (hlistens.opened ha) hh

/-- A report concerns neither the calls nor the fetches. -/
theorem reported_same (h : ReportedAt es n) : (realmAt es (n + 1)).calls = (realmAt es n).calls ∧
    (realmAt es (n + 1)).fetches = (realmAt es n).fetches := by
  obtain ⟨hn, hev⟩ := List.getElem?_eq_some_iff.1 h
  have hkeep : Keeps [] (realmAt es n) (realmAt es n).notify := Keeps.notify _
  rw [realmAt_succ hn, hev]
  exact ⟨hkeep.calls, hkeep.fetches⟩

theorem ReturnsAt.lt (h : ReturnsAt es f id j out) : j < es.length := by
  rcases Nat.lt_or_ge j es.length with hj | hj
  · exact hj
  · have hstage := stageAt_eq_some h.2
    unfold stageAt at hstage
    rw [realmAt_of_le hj] at hstage
    exact absurd hstage (h.1 _)

/-- **Of a fetch that returns it is known** how it came to the stage from which it returned. -/
theorem ReturnsAt.known (h : ReturnsAt es f id j out) : ∃ ev st, Before (realmAt es j) ev f id st ∧
    Known es f id j st ∧ (∀ ending, st ≠ .ended ending) ∧
      FetchStep (realmAt es j) (realmAt es (j + 1)) id st (.ended (.returned out)) := by
  obtain ⟨ev, st, hev, hb, hs⟩ := exists_step h.2
  have hknown := known_of_before (QueryClient.known es f j) hev hb
  refine ⟨ev, st, hb, hknown, fun ending hst => ?_, hs⟩
  subst hst
  cases hknown with
  | ended hended => exact h.1 _ hended

/-- A fetch is overtaken before an event if it goes on from there. -/
theorem Before.overtaken_iff (hb : Before (realmAt es n) ev f id st) :
    stageAt es f n = some .overtaken ↔ st = .overtaken := by
  cases hb with
  | there hx _ => rw [stageAt_eq_some hx, Option.some.injEq]
  | fresh hx => simp [stageAt, AuthRealm.stage?, hx]
  | replied hx _ hst _ => simp [stageAt_eq_some hx, hst]

/-- **What is returned for an answer is fresh:** no change was reported since the provider was
called. -/
theorem fromProvider (ho : Outstanding es f id j i k call ((realmAt es j).counter id)) (hkb : k ≤ b)
    (hr : ReachesAt es f b call) (hba : b < a) (haj : a ≤ j) (ha : AnsweredAt es f a call reply)
    (hc : (realmAt es j).isClosed id = false) (hret : ReturnsAt es f id j (AuthRealm.outcome reply)) :
    FromProvider es f id i j (AuthRealm.outcome reply) := by
  refine ⟨k, b, a, call, reply, ho.le, hkb, hba, haj, ho.calls, hr, ha, rfl, fun n hkn hnj => ?_⟩
  -- the counter did not move between the call and the return, but a report would have moved it
  have hcount := counter_eq_of_le hkn hnj ho.counter.symm
  refine ⟨hcount, fun hrep => ?_⟩
  rcases Nat.eq_or_lt_of_le hkn with rfl | hkn
  · -- the call was made out at this event
    have hlen := congrArg List.length (reported_same hrep).1
    have hcalls := ho.calls
    unfold CallsAt at hcalls
    omega
  rcases Nat.eq_or_lt_of_le hnj with rfl | hnj
  · -- the fetch returned at this event
    have hy := hret.2
    rw [(reported_same hrep).2] at hy
    exact hret.1 _ (stageAt_eq_some hy)
  · obtain ⟨y, hy, hid, hst⟩ := ho.since n hkn (Nat.le_of_lt hnj)
    -- the manager listens, and is held by the fetch
    have hatt := attached_of_le (Nat.le_of_lt hkn) ho.attached (open_of_le (Nat.le_of_lt hnj) hc)
    have hlt := Nat.lt_of_lt_of_le ho.length (length_le (Nat.le_of_lt hkn))
    have hmove := counter_reported hrep hlt hatt (isHeld_of_outstanding hy hid hst)
    have hnext := counter_eq_of_le (Nat.le_succ_of_le (Nat.le_of_lt hkn)) hnj ho.counter.symm
    rw [hcount, hnext] at hmove
    exact absurd hmove (Nat.lt_irrefl _)

/-- **What a fetch returns.** It fails if its manager was closed when it began, or when it was about to
begin anew; it is cancelled if its manager was closed at any other time since it began. Else it returns what
the provider answered, to a call during which no change was reported; or no token, if the provider was not
there when it began. -/
structure Returned (es : List AuthEvent) (f : FetchId) (id : AuthId) (i j : ℕ) (out : TokenOutcome) :
    Prop where
  le : i ≤ j
  enters : EntersAt es f id i
  closed : out = .error .authClosed ↔
    (realmAt es i).isClosed id ∨ (realmAt es j).isClosed id ∧ stageAt es f j = some .overtaken
  cancelled : out = .error .tokenCancelled ↔
    (realmAt es i).isClosed id = false ∧ (realmAt es j).isClosed id ∧ stageAt es f j ≠ some .overtaken
  fresh : (realmAt es j).isClosed id = false →
    (i = j ∧ (realmAt es i).isAttached id = false ∧ out = .ok none) ∨ FromProvider es f id i j out

theorem ReturnsAt.returned (h : ReturnsAt es f id j out) : ∃ i, Returned es f id i j out := by
  have hnow : UnbegunAt es f j → EntersAt es f id j := fun hu => ⟨hu, _, h.2, rfl, by simp⟩
  obtain ⟨ev, st, hb, hknown, hopen, hs⟩ := h.known
  have hover := hb.overtaken_iff
  have hle : ∀ {i k call}, BegunAt es f id j i k call → i ≤ j := fun hbegun =>
    Nat.le_trans hbegun.le (Nat.le_of_lt hbegun.lt)
  have hcancelled : ∀ {i k call c}, Outstanding es f id j i k call c → (realmAt es j).isClosed id →
      stageAt es f j ≠ some .overtaken → Returned es f id i j (.error .tokenCancelled) :=
    fun ho hc hne => ⟨hle ho.toBegunAt, ho.enters, by simp [ho.entered, hne], by simp [ho.entered, hc, hne],
      by simp [hc]⟩
  -- one case for each way to return
  cases hs with
  | rest => exact absurd rfl (hopen _)
  | closed hs hc =>
    cases hknown with
    | arriving hu =>
      exact ⟨j, Nat.le_refl j, hnow hu, by simp [hc], by simp [hc], by simp [hc]⟩
    | overtaken hbegun =>
      have hst := hover.2 rfl
      exact ⟨_, hle hbegun, hbegun.enters, by simp [hc, hst], by simp [hst], by simp [hc]⟩
    | _ => simp [FetchStage.isAtDoor] at hs
  | absent hbegins hc ha =>
    cases hbegins with
    | first =>
      cases hknown with
      | arriving hu =>
        exact ⟨j, Nat.le_refl j, hnow hu, by simp [hc], by simp [hc], fun _ => .inl ⟨rfl, ha, rfl⟩⟩
    | anew =>
      cases hknown with
      | overtaken hbegun => simp [hbegun.attached_now hc] at ha
    | again _ =>
      cases hknown with
      | answered ho => simp [ho.attached_now hc] at ha
  | called _ _ _ _ _ hasks => cases hasks
  | cancelled hout hc =>
    have hne : stageAt es f j ≠ some .overtaken := fun h => by
      rw [hover.1 h] at hout
      simp [FetchStage.isOutstanding] at hout
    cases hknown with
    | calling ho => exact ⟨_, hcancelled ho hc hne⟩
    | fetching ho => exact ⟨_, hcancelled ho hc hne⟩
    | answered ho => exact ⟨_, hcancelled ho hc hne⟩
    | _ => simp [FetchStage.isOutstanding] at hout
  | @returned call reply hc =>
    cases hknown with
    | @answered i k b a _ _ _ ho hkb hr hba haj ha =>
      obtain ⟨hne, hne'⟩ := outcome_ne reply
      refine ⟨i, hle ho.toBegunAt, ho.enters, ?_, ?_, fun _ => .inr ?_⟩
      · simp [hne, ho.entered, hc]
      · simp [hne', hc]
      · exact fromProvider ho hkb hr hba haj ha hc h

/-- **No stale token.** -/
structure FreshToken (es : List AuthEvent) (f : FetchId) : Prop where
  /-- A fetch begins once. -/
  once : ∀ id id' i j, EntersAt es f id i → EntersAt es f id' j → i = j
  /-- One that finds its manager closed fails at once. -/
  refused : ∀ id i, EntersAt es f id i → (realmAt es i).isClosed id →
    stageAt es f (i + 1) = some (.ended (.returned (.error .authClosed))) ∨
      stageAt es f (i + 1) = some (.ended .dropped)
  returned : ∀ id j out, ReturnsAt es f id j out → ∃ i, Returned es f id i j out
  /-- One whose manager is closed while a call of it is outstanding goes on, and is cancelled then. -/
  cancelled : ∀ n x, (realmAt es n).fetches[f]? = some x → x.stage.isOutstanding →
    (realmAt es n).isClosed x.manager → f ∈ (realmAt es n).queue ∧
      ((realmAt es n).moveFetch f).stage? f = some (.ended (.returned (.error .tokenCancelled)))
  /-- One whose answer was overtaken by a change throws it away. -/
  repeated : ∀ n x call c reply, (realmAt es n).fetches[f]? = some x →
    x.stage = .answered call c reply → (realmAt es n).isClosed x.manager = false →
    (realmAt es n).counter x.manager ≠ c → f ∈ (realmAt es n).queue ∧
      ((realmAt es n).moveFetch f).stage? f = some .overtaken
  /-- Then it makes out another call. -/
  again : ∀ n x, (realmAt es n).fetches[f]? = some x → x.stage = .overtaken →
    (realmAt es n).isClosed x.manager = false → f ∈ (realmAt es n).queue ∧ ∃ forced,
      ((realmAt es n).moveFetch f).stage? f =
        some (.calling ((realmAt es n).calls.length + 1) ((realmAt es n).counter x.manager) forced)
  /-- The provider gets what was made out. -/
  reaches : ∀ n x call c forced, (realmAt es n).fetches[f]? = some x → x.stage = .calling call c forced →
    (realmAt es n).isClosed x.manager = false → f ∈ (realmAt es n).queue ∧
      ((realmAt es n).moveFetch f).stage? f = some (.fetching call c)
  /-- One whose manager is closed before it makes out another call fails. -/
  late : ∀ n x, (realmAt es n).fetches[f]? = some x → x.stage = .overtaken →
    (realmAt es n).isClosed x.manager → f ∈ (realmAt es n).queue ∧
      ((realmAt es n).moveFetch f).stage? f = some (.ended (.returned (.error .authClosed)))
  /-- Any other answer is returned. -/
  settled : ∀ n x call c reply, (realmAt es n).fetches[f]? = some x →
    x.stage = .answered call c reply → (realmAt es n).isClosed x.manager = false →
    (realmAt es n).counter x.manager = c → f ∈ (realmAt es n).queue ∧
      ((realmAt es n).moveFetch f).stage? f = some (.ended (.returned (AuthRealm.outcome reply)))

/-- **A fetch that begins was arriving,** and is so no more. -/
theorem EntersAt.begins (h : EntersAt es f id i) : ∃ y, (realmAt es (i + 1)).fetches[f]? = some y ∧
    FetchStep (realmAt es i) (realmAt es (i + 1)) id .arriving y.stage ∧ y.stage ≠ .arriving := by
  obtain ⟨hu, y, hy, rfl, hst⟩ := h
  refine ⟨y, hy, ?_, hst⟩
  obtain ⟨ev, st, -, hb, hs⟩ := exists_step hy
  have harriving : st = .arriving := by
    unfold UnbegunAt at hu
    cases hb with
    | there hx _ => simpa [stageAt_eq_some hx] using hu
    | fresh _ => rfl
    | replied hx _ hxst _ => simp [stageAt_eq_some hx, hxst] at hu
  rwa [harriving] at hs

theorem EntersAt.refused (h : EntersAt es f id i) (hc : (realmAt es i).isClosed id) :
    stageAt es f (i + 1) = some (.ended (.returned (.error .authClosed))) ∨
      stageAt es f (i + 1) = some (.ended .dropped) := by
  obtain ⟨y, hy, hs, hst⟩ := h.begins
  rw [stageAt_eq_some hy]
  generalize y.stage = st at hs hst
  cases hs with
  | rest => exact absurd rfl hst
  | dropped => exact .inr rfl
  | closed _ => exact .inl rfl
  | absent _ hopen _ => rw [hc] at hopen; simp at hopen
  | called _ _ hopen _ _ => rw [hc] at hopen; simp at hopen
  | cancelled hout _ => simp [FetchStage.isOutstanding] at hout

/-- The provider is there still when a fetch begins anew. -/
theorem attached_of_overtaken (hx : (realmAt es n).fetches[f]? = some x) (hst : x.stage = .overtaken)
    (hc : (realmAt es n).isClosed x.manager = false) : (realmAt es n).isAttached x.manager := by
  have hknown := known es f n x hx
  rw [hst] at hknown
  cases hknown with
  | overtaken hbegun => exact attached_of_le (Nat.le_of_lt hbegun.lt) hbegun.attached hc

/-- Who has begun and need not wait is queued, unless it has ended. -/
theorem queued_of_hasBegun (hx : (realmAt es n).fetches[f]? = some x) (hbegun : x.stage.hasBegun)
    (hwaits : ∀ call c, x.stage = .fetching call c → (realmAt es n).isClosed x.manager) :
    f ∈ (realmAt es n).queue := by
  refine (realmAt_ok es n).queued f x hx hbegun ?_
  unfold AuthRealm.isReady
  cases hs : x.stage with
  | fetching call c => exact hwaits call c hs
  | ended ending => rw [hs] at hbegun; simp [FetchStage.hasBegun] at hbegun
  | _ => rfl

/-- **An answer that no change has overtaken is returned.** -/
theorem moves_settled (hx : (realmAt es n).fetches[f]? = some x) (hst : x.stage = .answered call c reply)
    (hc : (realmAt es n).isClosed x.manager = false) (heq : (realmAt es n).counter x.manager = c) :
    f ∈ (realmAt es n).queue ∧
      ((realmAt es n).moveFetch f).stage? f = some (.ended (.returned (AuthRealm.outcome reply))) := by
  have hbegun : x.stage.hasBegun := by rw [hst]; rfl
  exact ⟨queued_of_hasBegun hx hbegun (by simp [hst]),
    moveFetch_current hx hst ((realmAt_ok es n).managed f x hx hbegun) hc heq⟩

/-- **In every run no fetch returns a stale token.** -/
theorem fresh_token (es : List AuthEvent) (f : FetchId) : FreshToken es f := by
  have hm : ∀ {n x}, (realmAt es n).fetches[f]? = some x → x.stage.hasBegun →
      x.manager < (realmAt es n).managers.length := fun hx => (realmAt_ok es _).managed f _ hx
  refine ⟨fun id id' i j => enters_once, fun id i => EntersAt.refused, fun id j out => ReturnsAt.returned,
    ?_, ?_, ?_, ?_, ?_, fun n x call c reply => moves_settled⟩
  · intro n x hx hst hc
    exact ⟨queued_of_hasBegun hx (FetchStage.hasBegun_of_isOutstanding hst) fun _ _ _ => hc,
      moveFetch_cancelled hx hst hc⟩
  · intro n x call c reply hx hst hc hne
    have hbegun : x.stage.hasBegun := by rw [hst]; rfl
    exact ⟨queued_of_hasBegun hx hbegun (by simp [hst]), moveFetch_overtaken hx hst (hm hx hbegun) hc hne⟩
  · intro n x hx hst hc
    have hbegun : x.stage.hasBegun := by rw [hst]; rfl
    obtain ⟨forced, hcall⟩ := moveFetch_called hx (by rw [hst]; rfl) (hm hx hbegun) hc
    rw [if_pos (attached_of_overtaken hx hst hc)] at hcall
    exact ⟨queued_of_hasBegun hx hbegun (by simp [hst]), forced, hcall⟩
  · intro n x call c forced hx hst hc
    exact ⟨queued_of_hasBegun hx (by rw [hst]; rfl) (by simp [hst]), moveFetch_reached hx hst hc⟩
  · intro n x hx hst hc
    exact ⟨queued_of_hasBegun hx (by rw [hst]; rfl) (by simp [hst]), moveFetch_closed hx (by rw [hst]; rfl) hc⟩

/-- The first answer is overtaken by a change, and thrown away. -/
example : stageAt [.create false, .provide, .fetchNow 0, .notify, .answerNow 0 (.ok (some "ada")),
    .answerNow 0 (.ok (some "bob"))] 0 6 = some (.ended (.returned (.ok (some "bob")))) := by
  rfl

/-- The steps of a fetch whose manager is closed just after the first answer has been thrown away. -/
def closedBetween : List AuthEvent :=
  [.create false, .provide, .fetch 0, .go 0, .go 0, .notify, .answer 0 (.ok (some "ada")), .go 0, .close 0, .go 0]

/-- **A fetch that came to an open manager fails as if that had been closed,** though it was closed while the
fetch was outstanding. -/
theorem closed_while_overtaken : EntersAt closedBetween 0 0 3 ∧
    (realmAt closedBetween 3).isClosed 0 = false ∧ (realmAt closedBetween 9).isClosed 0 ∧
    ReturnsAt closedBetween 0 0 9 (.error .authClosed) := by
  have hover : stageAt closedBetween 0 9 = some .overtaken := rfl
  exact ⟨⟨.inr rfl, ⟨0, .calling 1 1 false⟩, rfl, rfl, by simp⟩, rfl, rfl, by simp [hover], rfl⟩

end QueryClient
