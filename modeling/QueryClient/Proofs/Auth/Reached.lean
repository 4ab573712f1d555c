import QueryClient.Proofs.Auth.ForceFlag

/-!
# Calls on their way to the provider

A call is made out in one step of a fetch and reaches the provider in the next, unless its manager has been
closed meanwhile. So the provider gets the calls that were made out, each once and with the flag it took.
Calls of different fetches may pass each other on the way.

* `AuthRealm.OnItsWay`: a call was made out, and the provider does not have it yet.
* `reached_step`: **what an event takes to the provider,** and that it is for open managers.
* `CarriesOn`, `Dispatch`, `Dispatch.step`: the calls made out, those on their way and those that arrived.
* `Dispatch.inOrder_step`: **where nothing comes between, the provider gets the calls in order.**
-/

namespace QueryClient

namespace AuthRealm

/-- A call was made out, and the provider does not have it yet. -/
def OnItsWay (r : AuthRealm) (c : FetchId × ℕ × Bool) : Prop :=
  ∃ counter, r.stage? c.1 = some (.calling c.2.1 counter c.2.2)

/-- The manager of a fetch has been closed. -/
def isShutFor (r : AuthRealm) (f : FetchId) : Bool := (r.fetches[f]?).any fun x => r.isClosed x.manager

/-- **The calls that the provider has got for a manager,** in order. -/
def reachedFor (r : AuthRealm) (id : AuthId) : List Bool :=
  (r.reached.filter fun c => r.isOf id c.1).map (·.2.2)

end AuthRealm

variable {r r' r'' : AuthRealm} {id : AuthId} {f g : FetchId} {x y : Fetch} {ev : AuthEvent}
  {c : FetchId × ℕ × Bool} {way : AuthRealm → AuthRealm → AuthId → FetchStage → FetchStage → Prop}

/-! ## What reaches the provider -/

theorem isShutFor_congr (hf : r'.fetches[f]? = r.fetches[f]?) (hc : ∀ id, r'.isClosed id = r.isClosed id) :
    r'.isShutFor f = r.isShutFor f := by
  unfold AuthRealm.isShutFor
  rw [hf]
  exact congrArg (Option.any · r.fetches[f]?) (funext fun x => hc x.manager)

/-- A fetch that goes on closes nothing. -/
theorem isShutFor_goes (h : GoesBy way r r' f) (g : FetchId) : r'.isShutFor g = r.isShutFor g := by
  by_cases hg : g = f
  · subst hg
    unfold AuthRealm.isShutFor
    cases hy : r'.fetches[g]? with
    | none =>
      have hx : r.fetches[g]? = none :=
        List.getElem?_eq_none (Nat.le_trans (Nat.le_of_eq h.count.symm) (List.getElem?_eq_none_iff.1 hy))
      rw [hx]
      rfl
    | some y =>
      obtain ⟨x, hx, hid, -⟩ := h.own y hy
      rw [hx]
      show r'.isClosed y.manager = r.isClosed x.manager
      rw [hid, h.managers.closed]
  · exact isShutFor_congr (h.others g hg) h.managers.closed

/-- Calls reach the provider, for fetches whose managers are open. -/
def Reaches (r r' : AuthRealm) : Prop :=
  ∃ more, r'.reached = r.reached ++ more ∧ ∀ c ∈ more, c.1 < r'.fetches.length ∧ r'.isShutFor c.1 = false

namespace Reaches

theorem of_eq (h : r'.reached = r.reached) : Reaches r r' := ⟨[], by rw [h, List.append_nil], by simp⟩

/-- Nothing reached the provider before. -/
theorem of_first (h₁ : r'.reached = r.reached) (h : Reaches r' r'') : Reaches r r'' := by
  obtain ⟨more, hreached, hopen⟩ := h
  exact ⟨more, by rw [hreached, h₁], hopen⟩

/-- Nothing reaches the provider afterwards. -/
theorem of_last (h : Reaches r r') (h' : r''.reached = r'.reached) (hf : r''.fetches = r'.fetches)
    (hc : ∀ id, r''.isClosed id = r'.isClosed id) : Reaches r r'' := by
  obtain ⟨more, hreached, hopen⟩ := h
  refine ⟨more, h'.trans hreached, fun c hmem => ?_⟩
  rw [hf, isShutFor_congr (by rw [hf]) hc]
  exact hopen c hmem

theorem andThen (h : Reaches r r') (hg : Goes r' r'' f) (h' : Reaches r' r'') : Reaches r r'' := by
  obtain ⟨more, hreached, hopen⟩ := h
  obtain ⟨more', hreached', hopen'⟩ := h'
  refine ⟨more ++ more', by rw [hreached', hreached, List.append_assoc], fun c hc => ?_⟩
  rcases List.mem_append.1 hc with hc | hc
  · rw [isShutFor_goes hg, hg.count]
    exact hopen c hc
  · exact hopen' c hc

theorem moveFetch (r : AuthRealm) (f : FetchId) : Reaches r (r.moveFetch f) := by
  have hg := Goes.moveFetch r f
  cases moveFetch_calls r f with
  | keeps h _ => exact of_eq h.reached
  | makes _ _ h => exact of_eq h.reached
  | reaches hx _ hc _ hr _ =>
    refine ⟨_, hr, fun c hmem => ?_⟩
    rw [List.mem_singleton.1 hmem, isShutFor_goes hg, hg.count, AuthRealm.isShutFor, hx]
    exact ⟨(List.getElem?_eq_some_iff.1 hx).1, hc⟩

theorem runFetch (r : AuthRealm) (f : FetchId) : Reaches r (r.runFetch f) :=
  ((moveFetch r f).andThen (.moveFetch _ f) (moveFetch _ f)).andThen (.moveFetch _ f) (moveFetch _ f)

end Reaches

/-- What happens outside of fetches is nothing to the provider's calls. -/
theorem outside_calls (r : AuthRealm) (hev : ev.IsOutside) : (r.step ev).calls = r.calls ∧
    (r.step ev).called = r.called ∧ (r.step ev).reached = r.reached := by
  cases hforced : ev.forced? with
  | none =>
    have h := KeepsCalls.outside r hev hforced
    exact ⟨h.calls, h.called, h.reached⟩
  | some id =>
    cases ev with
    | forceRefresh _ => exact ⟨rfl, rfl, rfl⟩
    | _ => simp [AuthEvent.forced?] at hforced

/-- **What an event takes to the provider,** if it takes anything, is for open managers. -/
theorem reached_step (r : AuthRealm) (ev : AuthEvent) : Reaches r (r.step ev) := by
  by_cases hev : ev.IsOutside
  · exact .of_eq (outside_calls r hev).2.2
  cases ev with
  | fetch manager => exact .of_eq rfl
  | fetchNow manager =>
    have hnone : ({ r with fetches := r.fetches ++ [{ manager }] } : AuthRealm).reached = r.reached := rfl
    exact .of_first hnone (.runFetch _ _)
  | answer g reply => exact .of_eq ((KeepsCalls.setReply r g reply).trans (.wakeFetch _ g)).reached
  | answerNow g reply => exact .of_first (KeepsCalls.setReply r g reply).reached (.runFetch _ g)
  | poll =>
    show Reaches r r.poll
    unfold AuthRealm.poll
    split
    · exact .of_eq rfl
    · rename_i g rest _
      have hnone : ({ r with queue := rest } : AuthRealm).reached = r.reached := rfl
      exact .of_first hnone (.runFetch _ _)
  | go g =>
    obtain ⟨-, hman, -, hf⟩ := wakeFetch_same (r.moveFetch g) g
    exact (Reaches.moveFetch r g).of_last (KeepsCalls.wakeFetch _ g).reached hf fun id => by
      unfold AuthRealm.isClosed
      exact congrArg (fun ms : List TokenManager => (ms[id]?).any _) hman
  | abort g => exact .of_eq (KeepsCalls.abort r g).reached
  | _ => exact absurd trivial hev

/-! ## Calls made out, on their way, and there -/

/-- **The calls that were made out, those on their way and those that the provider has got.** -/
structure Dispatch (r : AuthRealm) : Prop where
  /-- Calls are numbered as they are made out. -/
  numbered : r.called.map (·.2.1) = List.range' 1 r.called.length
  length : r.calls.length = r.called.length
  /-- What the provider has got was made out, and it has got it once. -/
  made : ∀ c ∈ r.reached, c ∈ r.called
  once : r.reached.Nodup
  /-- What is on its way was made out, and the provider does not have it. -/
  way : ∀ c, r.OnItsWay c → c ∈ r.called ∧ c ∉ r.reached
  /-- Who waits for the provider has got its call there. -/
  waits : ∀ f call n, r.stage? f = some (.fetching call n) → ∃ b, (f, call, b) ∈ r.reached
  /-- What was made out is there or on its way, or its manager has been closed. -/
  arrives : ∀ c ∈ r.called, c ∈ r.reached ∨ r.OnItsWay c ∨ r.isShutFor c.1

/-- No call is made out and none reaches the provider; what is on its way stays so, or is cancelled with its
manager. -/
structure CarriesOn (r r' : AuthRealm) : Prop where
  calls : r'.calls = r.calls
  called : r'.called = r.called
  reached : r'.reached = r.reached
  way : ∀ c, r'.OnItsWay c → r.OnItsWay c
  stays : ∀ c, r.OnItsWay c → r'.OnItsWay c ∨ r'.isShutFor c.1
  waits : ∀ f call n, r'.stage? f = some (.fetching call n) → r.stage? f = some (.fetching call n)
  shut : ∀ f, r.isShutFor f → r'.isShutFor f

namespace CarriesOn

/-- The fetches stay as they are, but for their stages while no call of theirs is on its way. -/
theorem of_stage (h : KeepsCalls r r') (hc : ∀ id, r.isClosed id → r'.isClosed id)
    (hf : ∀ (f : FetchId) (x : Fetch), r.fetches[f]? = some x → ∃ y, r'.fetches[f]? = some y ∧ y.manager = x.manager)
    (hst : ∀ f call n b, r'.stage? f = some (.calling call n b) ↔ r.stage? f = some (.calling call n b))
    (hwaits : ∀ f call n, r'.stage? f = some (.fetching call n) → r.stage? f = some (.fetching call n)) :
    CarriesOn r r' := by
  refine ⟨h.calls, h.called, h.reached, fun c => .imp fun n => (hst _ _ _ _).1,
    fun c hway => .inl (hway.imp fun n => (hst _ _ _ _).2), hwaits, fun f hshut => ?_⟩
  obtain ⟨x, hx, hclosed⟩ := (Option.any_eq_true _ _).1 hshut
  obtain ⟨y, hy, hid⟩ := hf f x hx
  rw [AuthRealm.isShutFor, hy]
  exact (congrArg r'.isClosed hid).trans (hc _ hclosed)

/-- The fetches stay as they are. -/
theorem of_fetches (h : KeepsCalls r r') (hf : r'.fetches = r.fetches)
    (hc : ∀ id, r.isClosed id → r'.isClosed id) : CarriesOn r r' := by
  have hst : ∀ f, r'.stage? f = r.stage? f := fun f => by
    unfold AuthRealm.stage?
    rw [hf]
  exact of_stage h hc (fun f x hx => ⟨x, by rw [hf]; exact hx, rfl⟩) (fun f call n b => by rw [hst])
    fun f call n hw => by rwa [← hst]

theorem wakeFetch (r : AuthRealm) (f : FetchId) : CarriesOn r (r.wakeFetch f) := by
  have hkeep : Keeps [] r (r.wakeFetch f) := Keeps.wakeFetch r f
  exact of_fetches (.wakeFetch r f) hkeep.fetches hkeep.closed

/-- A fetch comes. -/
theorem add (r : AuthRealm) (manager : AuthId) : CarriesOn r { r with fetches := r.fetches ++ [{ manager }] } := by
  have hold : ∀ {f x}, r.fetches[f]? = some x → (r.fetches ++ [({ manager } : Fetch)])[f]? = some x :=
    fun hx => (List.getElem?_append_left (List.getElem?_eq_some_iff.1 hx).1).trans hx
  have hst : ∀ (f : FetchId) (st : FetchStage), st ≠ .arriving →
      (((r.fetches ++ [({ manager } : Fetch)])[f]?).map Fetch.stage = some st ↔
        (r.fetches[f]?).map Fetch.stage = some st) := by
    intro f st hne
    rcases Nat.lt_or_ge f r.fetches.length with hlt | hge
    · rw [List.getElem?_append_left hlt]
    · rw [List.getElem?_append_right hge, List.getElem?_eq_none hge]
      cases f - r.fetches.length <;> simp [hne.symm]
  exact of_stage (.of_same rfl rfl rfl) (fun _ h => h) (fun f x hx => ⟨x, hold hx, rfl⟩)
    (fun f call n b => hst f _ (by simp)) fun f call n => (hst f _ (by simp)).1

/-- A fetch whose call is not on its way comes to a stage where none is. -/
theorem setStage (hx : r.fetches[f]? = some x) {st : FetchStage} (h : KeepsCalls r r')
    (hf : r'.fetches = (r.setStage f st).fetches) (hm : r'.managers = r.managers)
    (hold : ∀ call n b, x.stage ≠ .calling call n b) (hnew : ∀ call n b, st ≠ .calling call n b)
    (hwaits : ∀ call n, st ≠ .fetching call n) : CarriesOn r r' := by
  have hget : ∀ g : FetchId, r'.fetches[g]? = (r.fetches[g]?).map fun y =>
      if f = g then { y with stage := st } else y := by
    intro g
    rw [hf]
    exact List.getElem?_modify ..
  refine of_stage h (fun id hc => ?_) (fun g y hy => ?_) (fun g call n b => ?_) fun g call n hst => ?_
  · unfold AuthRealm.isClosed at hc ⊢
    rwa [hm]
  · rw [hget, hy]
    refine ⟨_, rfl, ?_⟩
    split <;> rfl
  · unfold AuthRealm.stage?
    rw [hget]
    by_cases hg : f = g
    · subst hg
      simp [hx, hold, hnew]
    · cases r.fetches[g]? <;> simp [hg]
  · unfold AuthRealm.stage? at hst ⊢
    rw [hget] at hst
    by_cases hg : f = g
    · subst hg
      simp [hx, hwaits] at hst
    · cases hy : r.fetches[g]? with
      | none => simp [hy] at hst
      | some y => simpa [hy, hg] using hst

theorem setReply (r : AuthRealm) (f : FetchId) (reply : TokenReply) : CarriesOn r (r.setReply f reply) := by
  have hkeeps := KeepsCalls.setReply r f reply
  unfold AuthRealm.setReply at hkeeps ⊢
  split
  · rename_i call counter hst
    obtain ⟨x, hx, hxst⟩ := Option.map_eq_some_iff.1 hst
    simp only [hst] at hkeeps
    exact setStage hx hkeeps rfl rfl (by simp [hxst]) (by simp) (by simp)
  · exact of_fetches (.refl r) rfl fun _ h => h

/-- What is on its way is not given up. -/
theorem abort (r : AuthRealm) (f : FetchId) : CarriesOn r (r.abort f) := by
  have hsame : CarriesOn r r := of_fetches (.refl r) rfl fun _ h => h
  unfold AuthRealm.abort
  split
  · exact hsame
  · exact hsame
  rename_i st _ hst
  split
  · exact hsame
  rename_i hunder
  obtain ⟨x, hx, hxst⟩ := Option.map_eq_some_iff.1 hst
  refine setStage hx (.finish r f _) rfl rfl (fun call n b h => hunder ?_) (by simp) (by simp)
  rw [← hxst, h]
  rfl

end CarriesOn

namespace Dispatch

theorem carriesOn (h : Dispatch r) (hs : CarriesOn r r') : Dispatch r' := by
  refine ⟨by rw [hs.called]; exact h.numbered, by rw [hs.calls, hs.called]; exact h.length,
    fun c hc => ?_, by rw [hs.reached]; exact h.once, fun c hc => ?_, fun f call n hst => ?_, fun c hc => ?_⟩
  · rw [hs.reached] at hc
    rw [hs.called]
    exact h.made c hc
  · rw [hs.called, hs.reached]
    exact h.way c (hs.way c hc)
  · rw [hs.reached]
    exact h.waits f call n (hs.waits f call n hst)
  · rw [hs.called] at hc
    rw [hs.reached]
    rcases h.arrives c hc with hc | hc | hc
    · exact .inl hc
    · exact .inr (hs.stays c hc)
    · exact .inr (.inr (hs.shut _ hc))

/-- The next call is none of those before. -/
theorem fresh (h : Dispatch r) (f : FetchId) (b : Bool) : (f, r.calls.length + 1, b) ∉ r.called := by
  intro hmem
  have hnum : r.calls.length + 1 ∈ r.called.map (·.2.1) := List.mem_map.2 ⟨_, hmem, rfl⟩
  rw [h.numbered, h.length] at hnum
  have hlt := (List.mem_range'_1.1 hnum).2
  omega

/-- A step of a fetch with which no call is made out and none reaches the provider. -/
theorem carriesOn_moveFetch (hk : KeepsCalls r (r.moveFetch f)) (hway : ∀ x call c forced,
      r.fetches[f]? = some x → x.stage = .calling call c forced → r.isClosed x.manager) :
    CarriesOn r (r.moveFetch f) := by
  have hg := GoesBy.moveFetch r f
  have hshut : ∀ g, (r.moveFetch f).isShutFor g = r.isShutFor g := isShutFor_goes (.moveFetch r f)
  refine ⟨hk.calls, hk.called, hk.reached, fun ⟨g, call, b⟩ ⟨n, hst⟩ => ?_, fun ⟨g, call, b⟩ ⟨n, hst⟩ => ?_,
    fun g call n hst => ?_, fun g hs => by rw [hshut]; exact hs⟩
  · by_cases hne : g = f
    · subst hne
      obtain ⟨y, hy, hyst⟩ := Option.map_eq_some_iff.1 hst
      obtain ⟨x, hx, -, hmove⟩ := hg.own y hy
      rw [hyst] at hmove
      refine ⟨n, (stage?_eq_some hx).trans (congrArg some ?_)⟩
      generalize x.stage = st at hmove
      generalize hst' : FetchStage.calling call n b = st' at hmove
      -- who comes to make out a call makes it out
      cases hmove with
      | rest _ => rfl
      | called _ _ _ _ hlen =>
        rw [hk.calls] at hlen
        exact absurd hlen (Nat.ne_of_lt (Nat.lt_succ_self _))
      | _ => simp at hst'
    · refine ⟨n, ?_⟩
      unfold AuthRealm.stage? at hst ⊢
      rwa [hg.others g hne] at hst
  · by_cases hne : g = f
    · subst hne
      obtain ⟨x, hx, hxst⟩ := Option.map_eq_some_iff.1 hst
      refine .inr ?_
      rw [hshut, AuthRealm.isShutFor, hx]
      exact hway x call n b hx hxst
    · refine .inl ⟨n, ?_⟩
      unfold AuthRealm.stage? at hst ⊢
      rwa [hg.others g hne]
  · by_cases hne : g = f
    · subst hne
      obtain ⟨y, hy, hyst⟩ := Option.map_eq_some_iff.1 hst
      obtain ⟨x, hx, -, hmove⟩ := hg.own y hy
      rw [hyst] at hmove
      refine (stage?_eq_some hx).trans (congrArg some ?_)
      generalize hxst : x.stage = st at hmove
      generalize hst' : FetchStage.fetching call n = st' at hmove
      cases hmove with
      | rest _ => rfl
      | reached hopen =>
        rw [hway x _ _ _ hx hxst] at hopen
        simp at hopen
      | _ => simp at hst'
    · unfold AuthRealm.stage? at hst ⊢
      rwa [hg.others g hne] at hst

/-- A fetch asks for a token with a call that was made out for it. -/
theorem mem_called (h : Dispatch r) {st : FetchStage} {call n : ℕ} (hst : r.stage? f = some st)
    (ha : st.Asks call n) : ∃ b, (f, call, b) ∈ r.called := by
  cases ha with
  | calling => exact ⟨_, (h.way (f, call, _) ⟨n, hst⟩).1⟩
  | fetching => exact (h.waits f call n hst).imp fun b => h.made _

/-- A fetch that asks with the next call after an event has made it out at the event. -/
theorem takes_of_asks (h : Dispatch r) {st : FetchStage} {n : ℕ} (hst : (r.step ev).stage? f = some st)
    (ha : st.Asks (r.calls.length + 1) n) (hstep : Dispatch (r.step ev)) :
    ∃ y, (r.step ev).fetches[f]? = some y ∧ Takes r (r.step ev) f y.manager := by
  obtain ⟨b, hmem⟩ := hstep.mem_called hst ha
  cases flagAct r ev with
  | keeps _ hk =>
    rw [hk.called] at hmem
    exact absurd hmem (h.fresh f b)
  | forces => exact absurd hmem (h.fresh f b)
  | @takes _ g y _ hy ht =>
    rw [ht.called] at hmem
    have hnew := (List.mem_append.1 hmem).resolve_left (h.fresh f b)
    obtain rfl : f = g := congrArg Prod.fst (List.mem_singleton.1 hnew)
    exact ⟨y, hy, ht⟩

/-- The others stay where they are. -/
theorem onItsWay_others (hg : GoesBy way r r' f) {c : FetchId × ℕ × Bool} (hne : c.1 ≠ f) :
    r'.OnItsWay c ↔ r.OnItsWay c := by
  unfold AuthRealm.OnItsWay AuthRealm.stage?
  rw [hg.others c.1 hne]

/-- A call is made out, and is on its way. -/
theorem makes (h : Dispatch r) {x : Fetch} (hg : GoesBy FetchMove r r' f) (hx : r.fetches[f]? = some x)
    (hs : x.stage.isAtDoor) (hm : MakesCall r r' f x.manager) : Dispatch r' := by
  have hlen : r'.calls.length = r'.called.length := by
    rw [hm.calls, hm.called, List.length_append, List.length_append, h.length]
    rfl
  have hdoor : ∀ {c}, r.OnItsWay c → c.1 ≠ f := by
    rintro ⟨g, call, b⟩ ⟨n, hst⟩ rfl
    rw [stage?_eq_some hx, Option.some.injEq] at hst
    simp [hst, FetchStage.isAtDoor] at hs
  have hown : ∀ {c}, c.1 = f → r'.OnItsWay c → c = (f, r.calls.length + 1, r.owes x.manager) := by
    rintro ⟨g, call, b⟩ rfl ⟨n, hst⟩
    rw [hm.stage] at hst
    obtain ⟨rfl, -, rfl⟩ : r.calls.length + 1 = call ∧ r.counter x.manager = n ∧ r.owes x.manager = b := by
      simpa using hst
    rfl
  refine ⟨?_, hlen, fun c hc => ?_, by rw [hm.reached]; exact h.once, fun c hc => ?_, fun g call n hst => ?_,
    fun c hc => ?_⟩
  · rw [hm.called, List.map_append, h.numbered, List.length_append, List.length_singleton,
      List.range'_concat, h.length]
    simp [Nat.add_comm]
  · rw [hm.reached] at hc
    rw [hm.called]
    exact List.mem_append_left _ (h.made c hc)
  · rw [hm.called, hm.reached]
    by_cases hne : c.1 = f
    · rw [hown hne hc]
      exact ⟨List.mem_append_right _ (List.mem_singleton_self _), fun hmem => h.fresh _ _ (h.made _ hmem)⟩
    · obtain ⟨hmem, hnot⟩ := h.way c ((onItsWay_others hg hne).1 hc)
      exact ⟨List.mem_append_left _ hmem, hnot⟩
  · rw [hm.reached]
    by_cases hne : g = f
    · rw [hne, hm.stage] at hst
      simp at hst
    · refine h.waits g call n ?_
      unfold AuthRealm.stage? at hst ⊢
      rwa [hg.others g hne] at hst
  · rw [hm.called] at hc
    rw [hm.reached, isShutFor_goes hg]
    rcases List.mem_append.1 hc with hc | hc
    · rcases h.arrives c hc with hc | hc | hc
      · exact .inl hc
      · exact .inr (.inl ((onItsWay_others hg (hdoor hc)).2 hc))
      · exact .inr (.inr hc)
    · rw [List.mem_singleton.1 hc]
      exact .inr (.inl ⟨_, hm.stage⟩)

/-- A call that was on its way reaches the provider. -/
theorem reaches (h : Dispatch r) {x : Fetch} {call n : ℕ} {b : Bool} (hg : GoesBy FetchMove r r' f)
    (hx : r.fetches[f]? = some x) (hs : x.stage = .calling call n b) (hk : KeepsFlags r r')
    (hr : r'.reached = r.reached ++ [(f, call, b)]) (hst : r'.stage? f = some (.fetching call n)) :
    Dispatch r' := by
  have hwas : r.OnItsWay (f, call, b) := ⟨n, by rw [stage?_eq_some hx, hs]⟩
  have hnow : ∀ {c}, r'.OnItsWay c → c.1 ≠ f := by
    rintro ⟨g, call', b'⟩ ⟨m, hst'⟩ rfl
    rw [hst] at hst'
    simp at hst'
  have hown : ∀ {c}, c.1 = f → r.OnItsWay c → c = (f, call, b) := by
    rintro ⟨g, call', b'⟩ rfl ⟨m, hst'⟩
    rw [stage?_eq_some hx, hs] at hst'
    obtain ⟨rfl, -, rfl⟩ : call = call' ∧ n = m ∧ b = b' := by simpa using hst'
    rfl
  refine ⟨by rw [hk.called]; exact h.numbered, by rw [hk.calls, hk.called]; exact h.length, fun c hc => ?_, ?_,
    fun c hc => ?_, fun g call' m hst' => ?_, fun c hc => ?_⟩
  · rw [hr] at hc
    rw [hk.called]
    rcases List.mem_append.1 hc with hc | hc
    · exact h.made c hc
    · rw [List.mem_singleton.1 hc]
      exact (h.way _ hwas).1
  · rw [hr]
    refine List.nodup_append.2 ⟨h.once, List.nodup_singleton _, fun c hc c' hc' heq => (h.way _ hwas).2 ?_⟩
    rw [← List.mem_singleton.1 hc', ← heq]
    exact hc
  · rw [hk.called, hr]
    obtain ⟨hmem, hnot⟩ := h.way c ((onItsWay_others hg (hnow hc)).1 hc)
    refine ⟨hmem, fun hin => ?_⟩
    rcases List.mem_append.1 hin with hin | hin
    · exact hnot hin
    · exact hnow hc (by rw [List.mem_singleton.1 hin])
  · rw [hr]
    by_cases hne : g = f
    · rw [hne, hst] at hst'
      obtain ⟨rfl, -⟩ : call = call' ∧ n = m := by simpa using hst'
      exact ⟨b, List.mem_append_right _ (by rw [hne]; exact List.mem_singleton_self _)⟩
    · unfold AuthRealm.stage? at hst'
      rw [hg.others g hne] at hst'
      exact (h.waits g call' m hst').imp fun b' => List.mem_append_left _
  · rw [hk.called] at hc
    rw [hr, isShutFor_goes hg]
    rcases h.arrives c hc with hc | hc | hc
    · exact .inl (List.mem_append_left _ hc)
    · by_cases hne : c.1 = f
      · rw [hown hne hc]
        exact .inl (List.mem_append_right _ (List.mem_singleton_self _))
      · exact .inr (.inl ((onItsWay_others hg hne).2 hc))
    · exact .inr (.inr hc)

/-- **A step of a fetch** makes out a call, takes one to the provider, or carries on. -/
theorem moveFetch (h : Dispatch r) (f : FetchId) : Dispatch (r.moveFetch f) := by
  have hg := GoesBy.moveFetch r f
  cases moveFetch_calls r f with
  | keeps hk hway => exact h.carriesOn (carriesOn_moveFetch hk hway)
  | makes hx hs hm => exact h.makes hg hx hs hm
  | reaches hx hs _ hk hr hst => exact h.reaches hg hx hs hk hr hst

theorem runFetch (h : Dispatch r) (f : FetchId) : Dispatch (r.runFetch f) :=
  ((h.moveFetch f).moveFetch f).moveFetch f

/-- **Every event keeps the account of calls.** -/
theorem step (h : Dispatch r) (ev : AuthEvent) : Dispatch (r.step ev) := by
  by_cases hev : ev.IsOutside
  · obtain ⟨hcalls, hcalled, hreached⟩ := outside_calls r hev
    have hkeep := step_keeps r hev
    have hstage : ∀ f, (r.step ev).stage? f = r.stage? f := fun f => by
      unfold AuthRealm.stage?
      rw [hkeep.fetches]
    refine h.carriesOn ⟨hcalls, hcalled, hreached, fun c hc => ?_, fun c hc => .inl ?_,
      fun f call n hst => by rwa [hstage] at hst, fun f hs => ?_⟩
    · unfold AuthRealm.OnItsWay at hc ⊢
      rwa [hstage] at hc
    · unfold AuthRealm.OnItsWay at hc ⊢
      rwa [hstage]
    · unfold AuthRealm.isShutFor at hs ⊢
      rw [hkeep.fetches]
      obtain ⟨x, hx, hc⟩ := (Option.any_eq_true _ _).1 hs
      exact (Option.any_eq_true _ _).2 ⟨x, hx, hkeep.closed _ hc⟩
  cases ev with
  | fetch manager =>
    have hadd := h.carriesOn (.add r manager)
    exact hadd.carriesOn (.of_fetches (.of_same rfl rfl rfl) rfl fun _ hc => hc)
  | fetchNow manager => exact (h.carriesOn (.add r manager)).runFetch _
  | answer g reply => exact (h.carriesOn (.setReply r g reply)).carriesOn (.wakeFetch _ g)
  | answerNow g reply => exact (h.carriesOn (.setReply r g reply)).runFetch g
  | poll =>
    show Dispatch r.poll
    unfold AuthRealm.poll
    split
    · exact h
    · rename_i g rest _
      have hrest : CarriesOn r { r with queue := rest } := .of_fetches (.of_same rfl rfl rfl) rfl fun _ hc => hc
      exact (h.carriesOn hrest).runFetch g
  | go g => exact (h.moveFetch g).carriesOn (.wakeFetch _ g)
  | abort g => exact h.carriesOn (.abort r g)
  | _ => exact absurd trivial hev

theorem init : Dispatch {} := by
  refine ⟨rfl, rfl, by simp [AuthRealm.reached], by simp [AuthRealm.reached], fun c ⟨n, hst⟩ => ?_,
    fun f call n hst => ?_, by simp [AuthRealm.called]⟩
  · simp [AuthRealm.stage?] at hst
  · simp [AuthRealm.stage?] at hst

/-- **No call reaches the provider for a manager** at an event after which it is closed. -/
theorem reachedFor_closed (h : Dispatch r) (hn : r.Noted) (hc : (r.step ev).isClosed id) :
    (r.step ev).reachedFor id = r.reachedFor id := by
  obtain ⟨more, hreached, hopen⟩ := reached_step r ev
  have hold : (r.reached.filter fun c => (r.step ev).isOf id c.1) = r.reached.filter fun c => r.isOf id c.1 :=
    List.filter_congr fun c hc => isOf_step r ev id (hn.known c (h.made c hc))
  have hnone : (more.filter fun c => (r.step ev).isOf id c.1) = [] := by
    refine List.filter_eq_nil_iff.2 fun c hmem hof => ?_
    obtain ⟨y, hy, hid⟩ := (Option.any_eq_true _ _).1 hof
    have hshut := (hopen c hmem).2
    rw [AuthRealm.isShutFor, hy] at hshut
    rw [beq_iff_eq] at hid
    rw [← hid] at hc
    exact Bool.false_ne_true (hshut.symm.trans hc)
  unfold AuthRealm.reachedFor
  rw [hreached, List.filter_append, hnone, List.append_nil, hold]

end Dispatch

end QueryClient
