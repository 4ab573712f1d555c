import QueryClient.Proofs.Auth.Closing
import QueryClient.Proofs.Auth.Trace

/-!
# The force flag

A manager may owe a new token: the next call of the provider that is made out for it asks for one, and
takes what is owed with it. Nothing else that happens in a realm touches what is owed.

* `AuthRealm.owes`: what is owed; `AuthRealm.callsFor`: the calls made out for a manager.
* `KeepsFlags`: neither the calls nor what is owed change. `KeepsCalls`: nor does a call reach the provider;
  with one lemma for each operation.
* `MovesCalls`, `moveFetch_calls`: **what a step of a fetch has to do with calls.**
* `runFetch_flags`: a fetch that goes on makes out no call, or one that takes what is owed.
* `FlagStep`, `flagStep`: **what an event does to the flag of a manager.**
-/

namespace QueryClient

/-- The call that is noted to be made out: for which fetch, with which number and flag. -/
def AuthNote.call? : AuthNote → Option (FetchId × ℕ × Bool)
  | .called fetch call forced => some (fetch, call, forced)
  | _ => none

/-- The call that is noted to reach the provider. -/
def AuthNote.reached? : AuthNote → Option (FetchId × ℕ × Bool)
  | .reached fetch call forced => some (fetch, call, forced)
  | _ => none

/-- The note is about a call of the provider. -/
def AuthNote.isCall : AuthNote → Bool
  | .called .. | .reached .. => true
  | _ => false

namespace AuthRealm

/-- The next call for the manager asks for a new token. -/
def owes (r : AuthRealm) (id : AuthId) : Bool := (r.managers[id]?).any (·.forceRefresh)

/-- The calls of the provider that were made out, in order: for which fetch, with which number, and whether
the provider is asked for a new token. -/
def called (r : AuthRealm) : List (FetchId × ℕ × Bool) := r.journal.filterMap AuthNote.call?

/-- The calls that the provider has got, in order. -/
def reached (r : AuthRealm) : List (FetchId × ℕ × Bool) := r.journal.filterMap AuthNote.reached?

/-- The fetch is one of the manager. -/
def isOf (r : AuthRealm) (id : AuthId) (f : FetchId) : Bool := (r.fetches[f]?).any (·.manager == id)

/-- **The calls of the provider for a manager,** in order; each asked for a new token or did not. -/
def callsFor (r : AuthRealm) (id : AuthId) : List Bool :=
  (r.called.filter fun c => r.isOf id c.1).map (·.2.2)

/-- The calls are noted, each for a fetch there is. -/
structure Noted (r : AuthRealm) : Prop where
  calls : r.calls = r.called.map (·.2.2)
  known : ∀ c ∈ r.called, c.1 < r.fetches.length

end AuthRealm

variable {r r' r'' : AuthRealm} {id i : AuthId} {f g : FetchId} {x y : Fetch}

/-! ## What leaves the flags alone -/

/-- Neither the calls of the provider nor what is owed change. -/
structure KeepsFlags (r r' : AuthRealm) : Prop where
  calls : r'.calls = r.calls
  called : r'.called = r.called
  owes : ∀ id, r'.owes id = r.owes id

theorem KeepsFlags.trans (h : KeepsFlags r r') (h' : KeepsFlags r' r'') : KeepsFlags r r'' :=
  ⟨h'.calls.trans h.calls, h'.called.trans h.called, fun id => (h'.owes id).trans (h.owes id)⟩

/-- Nor does a call reach the provider. -/
structure KeepsCalls (r r' : AuthRealm) : Prop extends KeepsFlags r r' where
  reached : r'.reached = r.reached

namespace KeepsCalls

theorem refl (r : AuthRealm) : KeepsCalls r r := ⟨⟨rfl, rfl, fun _ => rfl⟩, rfl⟩

theorem trans (h : KeepsCalls r r') (h' : KeepsCalls r' r'') : KeepsCalls r r'' :=
  ⟨h.toKeepsFlags.trans h'.toKeepsFlags, h'.reached.trans h.reached⟩

/-- Managers, calls and journal stay as they are. -/
theorem of_same (hc : r'.calls = r.calls) (hj : r'.journal = r.journal)
    (hm : r'.managers = r.managers) : KeepsCalls r r' := by
  refine ⟨⟨hc, ?_, fun id => ?_⟩, ?_⟩
  · unfold AuthRealm.called
    rw [hj]
  · unfold AuthRealm.owes
    rw [hm]
  · unfold AuthRealm.reached
    rw [hj]

theorem note (r : AuthRealm) {n : AuthNote} (hn : n.isCall = false) : KeepsCalls r (r.note n) := by
  have hnone : n.call? = none ∧ n.reached? = none := by
    cases n with
    | called _ _ _ => simp [AuthNote.isCall] at hn
    | reached _ _ _ => simp [AuthNote.isCall] at hn
    | _ => exact ⟨rfl, rfl⟩
  refine ⟨⟨rfl, ?_, fun _ => rfl⟩, ?_⟩
  · show (r.journal ++ [n]).filterMap AuthNote.call? = r.called
    rw [List.filterMap_append, List.filterMap_cons_none hnone.1]
    exact List.append_nil _
  · show (r.journal ++ [n]).filterMap AuthNote.reached? = r.reached
    rw [List.filterMap_append, List.filterMap_cons_none hnone.2]
    exact List.append_nil _

theorem modifyManager (r : AuthRealm) (i : AuthId) {F : TokenManager → TokenManager}
    (hF : ∀ m, (F m).forceRefresh = m.forceRefresh) : KeepsCalls r (r.modifyManager i F) := by
  refine ⟨⟨rfl, rfl, fun id => ?_⟩, rfl⟩
  unfold AuthRealm.owes
  rw [r.getElem?_modifyManager]
  split
  · cases r.managers[id]? with
    | none => rfl
    | some m => exact hF m
  · rfl

theorem foldl {op : AuthRealm → AuthId → AuthRealm} (hop : ∀ r id, KeepsCalls r (op r id))
    (ids : List AuthId) : ∀ r, KeepsCalls r (ids.foldl op r) := by
  induction ids with
  | nil => exact refl
  | cons id ids ih => exact fun r => (hop r id).trans (ih _)

theorem removeListener (r : AuthRealm) (id : AuthId) : KeepsCalls r (r.removeListener id) := by
  have hgone : KeepsCalls r { r with provider := { r.provider with
      listeners := r.provider.listeners.erase id } } := of_same rfl rfl rfl
  unfold AuthRealm.removeListener
  split
  · exact hgone.trans (note _ rfl)
  simp only
  split
  · exact note r rfl
  · exact (note r rfl).trans (note _ rfl)

theorem closeManager (r : AuthRealm) (id : AuthId) : KeepsCalls r (r.closeManager id) := by
  unfold AuthRealm.closeManager
  split
  · exact refl r
  split
  · exact refl r
  have hm : KeepsCalls r (r.modifyManager id fun m =>
      { m with closed := true, listener := none, attached := false, registered := false }) :=
    modifyManager r id fun _ => rfl
  have hnote : KeepsCalls r (AuthRealm.note _ (.closed id)) := hm.trans (note _ rfl)
  simp only
  split
  · exact hnote.trans (removeListener _ id)
  · exact hnote

theorem tell (r : AuthRealm) (id : AuthId) (listener : ChangeListener) (uid : Option String) :
    KeepsCalls r (r.tell id listener uid) := by
  have hnote : KeepsCalls r (r.note (.reported id listener.label uid)) := note r rfl
  unfold AuthRealm.tell
  simp only
  split
  · exact hnote.trans (closeManager _ id)
  · exact hnote

theorem tellListener (r : AuthRealm) (id : AuthId) (uid : Option String) :
    KeepsCalls r (r.tellListener id uid) := by
  unfold AuthRealm.tellListener
  split
  · exact refl r
  · exact tell r id _ uid

theorem changed (r : AuthRealm) (id : AuthId) : KeepsCalls r (r.changed id) := by
  unfold AuthRealm.changed
  split
  · exact refl r
  · exact (modifyManager r id (F := fun m => { m with counter := m.counter + 1 }) fun _ => rfl).trans
      (tellListener _ id _)

theorem register (r : AuthRealm) (id : AuthId) : KeepsCalls r (r.register id) := by
  have hclose : KeepsCalls r (r.provider.closedOnAdd.elim r r.closeManager) := by
    cases r.provider.closedOnAdd with
    | none => exact refl r
    | some i => exact closeManager r i
  unfold AuthRealm.register
  refine hclose.trans ?_
  generalize r.provider.closedOnAdd.elim r r.closeManager = r₁
  simp only
  split
  · rename_i e _
    have hwarn : ∀ (r : AuthRealm) (text : String),
        KeepsCalls r (if e.kind = .appDeleted then r else r.note (.warned text)) := by
      intro r text
      split
      · exact refl r
      · exact note r rfl
    exact ((note r₁ rfl).trans (hwarn _ _)).trans (modifyManager _ id fun _ => rfl)
  · have hadd : KeepsCalls r₁ { r₁ with provider := { r₁.provider with
        listeners := r₁.provider.listeners ++ [id] } } := of_same rfl rfl rfl
    refine (hadd.trans (note _ (n := .joined id none) rfl)).trans ?_
    split
    · exact removeListener _ id
    · exact modifyManager _ id fun _ => rfl

theorem arrived (r : AuthRealm) (id : AuthId) : KeepsCalls r (r.arrived id) := by
  unfold AuthRealm.arrived
  split
  · exact refl r
  · exact ((modifyManager r id (F := fun m => { m with attached := true, counter := m.counter + 1 })
      fun _ => rfl).trans (tellListener _ id _)).trans (register _ id)

theorem wakeFetch (r : AuthRealm) (f : FetchId) : KeepsCalls r (r.wakeFetch f) := by
  unfold AuthRealm.wakeFetch
  split
  · exact of_same rfl rfl rfl
  · exact refl r

theorem wake (r : AuthRealm) : KeepsCalls r r.wake := foldl wakeFetch _ r

/-- A new manager owes nothing. -/
theorem add (r : AuthRealm) : KeepsCalls r { r with managers := r.managers ++ [{}] } := by
  refine ⟨⟨rfl, rfl, fun id => ?_⟩, rfl⟩
  unfold AuthRealm.owes
  show ((r.managers ++ [({} : TokenManager)])[id]?).any (·.forceRefresh) = _
  rcases Nat.lt_or_ge id r.managers.length with hlt | hge
  · rw [List.getElem?_append_left hlt]
  · rw [List.getElem?_append_right hge, List.getElem?_eq_none hge]
    cases id - r.managers.length <;> rfl

theorem create (r : AuthRealm) (unavailable : Bool) : KeepsCalls r (r.create unavailable).1 := by
  unfold AuthRealm.create
  simp only
  split
  · exact add r
  split
  · exact ((add r).trans (arrived _ _)).trans (wake _)
  · exact (add r).trans (of_same rfl rfl rfl)

theorem provide (r : AuthRealm) : KeepsCalls r r.provide := by
  have hready : KeepsCalls r { r with available := true, waiting := [] } := of_same rfl rfl rfl
  unfold AuthRealm.provide
  split
  · exact note r rfl
  · exact (hready.trans (foldl arrived _ _)).trans (wake _)

theorem listen (r : AuthRealm) (id : AuthId) (listener : ChangeListener) :
    KeepsCalls r (r.listen id listener) := by
  unfold AuthRealm.listen
  split
  · exact refl r
  · exact ((modifyManager r id (F := fun m => { m with listener := some listener })
      fun _ => rfl).trans (tell _ id _ _)).trans (wake _)

theorem finish (r : AuthRealm) (f : FetchId) (ending : Ending TokenOutcome) :
    KeepsCalls r (r.finish f ending) :=
  (of_same rfl rfl rfl : KeepsCalls r (r.setStage f (.ended ending))).trans (note _ rfl)

theorem setReply (r : AuthRealm) (f : FetchId) (reply : TokenReply) : KeepsCalls r (r.setReply f reply) := by
  unfold AuthRealm.setReply
  split
  · exact of_same rfl rfl rfl
  · exact refl r

theorem abort (r : AuthRealm) (f : FetchId) : KeepsCalls r (r.abort f) := by
  unfold AuthRealm.abort
  split
  · exact refl r
  · exact refl r
  split
  · exact refl r
  · exact finish r f _

end KeepsCalls

/-! ## Fetches that go on -/

/-- A call of the provider is made out for a fetch: it takes with it what its manager owes. -/
structure Takes (r r' : AuthRealm) (f : FetchId) (id : AuthId) : Prop where
  closed : r.isClosed id = false
  attached : r.isAttached id
  calls : r'.calls = r.calls ++ [r.owes id]
  called : r'.called = r.called ++ [(f, r.calls.length + 1, r.owes id)]
  owes : ∀ i, r'.owes i = (!decide (i = id) && r.owes i)
  asks : ∃ st, r'.stage? f = some st ∧ st.Asks (r.calls.length + 1) (r.counter id)

/-- A fetch makes out a call, and the provider does not have it yet. -/
structure MakesCall (r r' : AuthRealm) (f : FetchId) (id : AuthId) : Prop extends Takes r r' f id where
  reached : r'.reached = r.reached
  stage : r'.stage? f = some (.calling (r.calls.length + 1) (r.counter id) (r.owes id))

/-- A fetch that makes out a call takes what is owed. -/
theorem makeCall_takes (hx : r.fetches[f]? = some x) (hm : id < r.managers.length)
    (hc : r.isClosed id = false) (ha : r.isAttached id) :
    MakesCall r (r.makeCall f id) f id := by
  obtain ⟨m, hget, hclosed, hatt, hcount⟩ := exists_manager hm
  have howes : m.forceRefresh = r.owes id := by simp [AuthRealm.owes, hget]
  have hmake : r.makeCall f id = (({ r with calls := r.calls ++ [m.forceRefresh] }.modifyManager id
      fun m => { m with forceRefresh := false }).setStage f
        (.calling (r.calls.length + 1) m.counter m.forceRefresh)).note
          (.called f (r.calls.length + 1) m.forceRefresh) := by
    unfold AuthRealm.makeCall
    rw [hget]
    simp only
    rw [if_neg (by simp [← hclosed, hc]), if_neg (by simp [← hatt, ha])]
  rw [hmake]
  have hstage : ((r.fetches.modify f fun y => { y with
      stage := .calling (r.calls.length + 1) m.counter m.forceRefresh })[f]?).map (·.stage) =
        some (.calling (r.calls.length + 1) (r.counter id) (r.owes id)) := by
    simp [hx, hcount, howes]
  refine ⟨⟨hc, ha, congrArg (r.calls ++ [·]) howes, ?_, fun i => ?_, _, hstage, .calling⟩, ?_, hstage⟩
  · show (r.journal ++ [AuthNote.called f _ _]).filterMap AuthNote.call? = _
    rw [List.filterMap_append, howes]
    rfl
  · show ((r.modifyManager id fun m => { m with forceRefresh := false }).managers[i]?).any _ = _
    rw [r.getElem?_modifyManager]
    by_cases hi : i = id
    · subst hi
      rw [if_pos rfl]
      cases r.managers[i]? <;> simp
    · rw [if_neg (Ne.symm hi)]
      simp [hi, AuthRealm.owes]
  · show (r.journal ++ [AuthNote.called f _ _]).filterMap AuthNote.reached? = _
    rw [List.filterMap_append]
    exact List.append_nil _

/-- A fetch that begins takes what is owed with the call it makes out; otherwise the flags stay. -/
theorem makeCall_flags (hx : r.fetches[f]? = some x) (id : AuthId) :
    KeepsCalls r (r.makeCall f id) ∨ MakesCall r (r.makeCall f id) f id := by
  rcases Nat.lt_or_ge id r.managers.length with hm | hm
  · obtain ⟨m, hget, hclosed, hatt, -⟩ := exists_manager hm
    cases hc : r.isClosed id with
    | true =>
      left
      unfold AuthRealm.makeCall
      rw [hget]
      simp only
      rw [if_pos (by rw [← hclosed, hc])]
      exact .finish r f _
    | false =>
      cases ha : r.isAttached id with
      | true => exact .inr (makeCall_takes hx hm hc ha)
      | false =>
        left
        unfold AuthRealm.makeCall
        rw [hget]
        simp only
        rw [if_neg (by simp [← hclosed, hc]), if_pos (by simp [← hatt, ha])]
        exact .finish r f _
  · unfold AuthRealm.makeCall
    rw [List.getElem?_eq_none hm]
    exact .inl (.refl r)

/-- What a fetch does with its answer leaves the flags alone. -/
theorem KeepsCalls.lookAtReply (r : AuthRealm) (f : FetchId) (id : AuthId) (counter : ℕ) (reply : TokenReply) :
    KeepsCalls r (r.lookAtReply f id counter reply) := by
  have hsaid : KeepsCalls r ((AuthRealm.complaint? reply).elim r fun text => r.note (.warned text)) := by
    cases AuthRealm.complaint? reply with
    | none => exact .refl r
    | some text => exact .note r rfl
  unfold AuthRealm.lookAtReply
  split
  · exact .refl r
  split
  · exact .finish r f _
  split
  · exact .of_same rfl rfl rfl
  · exact hsaid.trans (.finish _ f _)

/-- **What a step of a fetch has to do with calls:** nothing, or it makes one out, or takes one to the
provider. A call that was made out is not kept back while the manager is open. -/
inductive MovesCalls (r r' : AuthRealm) (f : FetchId) : Prop where
  | keeps (h : KeepsCalls r r') (hway : ∀ x call c forced, r.fetches[f]? = some x →
      x.stage = .calling call c forced → r.isClosed x.manager)
  | makes {x : Fetch} (hx : r.fetches[f]? = some x) (hs : x.stage.isAtDoor) (h : MakesCall r r' f x.manager)
  | reaches {x : Fetch} {call c : ℕ} {forced : Bool} (hx : r.fetches[f]? = some x)
      (hs : x.stage = .calling call c forced) (hc : r.isClosed x.manager = false) (h : KeepsFlags r r')
      (hr : r'.reached = r.reached ++ [(f, call, forced)]) (hst : r'.stage? f = some (.fetching call c))

theorem moveFetch_calls (r : AuthRealm) (f : FetchId) : MovesCalls r (r.moveFetch f) f := by
  have hkeeps : ∀ {r' : AuthRealm} {x : Fetch}, r.fetches[f]? = some x → KeepsCalls r r' →
      (∀ call c forced, x.stage ≠ .calling call c forced) → MovesCalls r r' f := by
    intro r' x hx h hne
    refine .keeps h fun y call c forced hy hst => absurd hst ?_
    rw [← Option.some.inj (hx.symm.trans hy)]
    exact hne call c forced
  have hdoor : ∀ {x : Fetch}, r.fetches[f]? = some x → x.stage.isAtDoor →
      MovesCalls r (r.makeCall f x.manager) f := by
    intro x hx hs
    refine (makeCall_flags hx x.manager).elim (fun h => hkeeps hx h fun call c forced hst => ?_) (.makes hx hs)
    simp [hst, FetchStage.isAtDoor] at hs
  unfold AuthRealm.moveFetch
  split
  · rename_i hnone
    exact .keeps (.refl r) fun x _ _ _ hx _ => by simp [hnone] at hx
  rename_i x hx
  split
  · rename_i hst
    exact hdoor hx (by rw [hst]; rfl)
  · rename_i hst
    exact hdoor hx (by rw [hst]; rfl)
  · rename_i call c forced hst
    split
    · rename_i hc
      exact .keeps (.finish r f _) fun y _ _ _ hy _ => by rwa [← Option.some.inj (hx.symm.trans hy)]
    · rename_i hc
      have hset : KeepsCalls r (r.setStage f (.fetching call c)) := .of_same rfl rfl rfl
      refine .reaches hx hst (by simpa using hc) ⟨hset.calls, ?_, hset.owes⟩ ?_ ?_
      · show (r.journal ++ [AuthNote.reached f call forced]).filterMap AuthNote.call? = _
        rw [List.filterMap_append]
        exact List.append_nil _
      · show (r.journal ++ [AuthNote.reached f call forced]).filterMap AuthNote.reached? = _
        rw [List.filterMap_append]
        rfl
      · show ((r.fetches.modify f _)[f]?).map (·.stage) = _
        simp [hx]
  · rename_i hst
    have hne : ∀ call c forced, x.stage ≠ .calling call c forced := by simp [hst]
    split
    · exact hkeeps hx (.finish r f _) hne
    · exact hkeeps hx (.refl r) hne
  · rename_i hst
    exact hkeeps hx (.lookAtReply r f _ _ _) (by simp [hst])
  · rename_i hst
    exact hkeeps hx (.refl r) (by simp [hst])

/-- **A step of a fetch makes out no call, or one that takes what is owed.** No call is made out by who asks
with one. -/
theorem moveFetch_flags (r : AuthRealm) (f : FetchId) : KeepsFlags r (r.moveFetch f) ∨
    ∃ x, r.fetches[f]? = some x ∧ x.stage.isAtDoor ∧ Takes r (r.moveFetch f) f x.manager := by
  cases moveFetch_calls r f with
  | keeps h _ => exact .inl h.toKeepsFlags
  | makes hx hs h => exact .inr ⟨_, hx, hs, h.toTakes⟩
  | reaches _ _ _ h => exact .inl h

namespace Takes

/-- Before the call nothing happened to the flags. -/
theorem of_keeps {r₁ : AuthRealm} (hl : KeepsFlags r r₁) (hm : SameManagers r r₁) (h : Takes r₁ r' f id) :
    Takes r r' f id := by
  refine ⟨(hm.closed id).symm.trans h.closed, (hm.attached id).symm.trans h.attached, ?_, ?_, fun i => ?_, ?_⟩
  · rw [h.calls, hl.calls, hl.owes]
  · rw [h.called, hl.called, hl.owes, hl.calls]
  · rw [h.owes, hl.owes]
  · rw [← hl.calls, ← hm.counter]
    exact h.asks

/-- After the call nothing happens to the flags. -/
theorem andThen (h : Takes r r' f id) (hl : KeepsFlags r' r'')
    (hasks : ∃ st, r''.stage? f = some st ∧ st.Asks (r.calls.length + 1) (r.counter id)) :
    Takes r r'' f id :=
  ⟨h.closed, h.attached, hl.calls.trans h.calls, hl.called.trans h.called,
    fun i => (hl.owes i).trans (h.owes i), hasks⟩

end Takes

/-- A fetch that asks for a token goes on doing so, as long as its manager is open. -/
theorem moveFetch_asks {call c : ℕ} {st : FetchStage} (hx : r.fetches[f]? = some x)
    (hst : x.stage = st) (hasks : st.Asks call c) (hc : r.isClosed x.manager = false) :
    (r.moveFetch f).stage? f = some (.fetching call c) := by
  cases hasks with
  | calling => exact moveFetch_reached hx hst hc
  | fetching =>
    rw [moveFetch_of_not_ready hx (by unfold AuthRealm.isReady; rw [hst]; exact hc), stage?_eq_some hx, hst]

/-- One step more takes nothing from what has been taken. -/
theorem Takes.moveFetch (hg : Goes r r' f) (hx : r.fetches[f]? = some x) (ht : Takes r r' f x.manager) :
    Takes r (r'.moveFetch f) f x.manager := by
  obtain ⟨st, hst, hasks⟩ := ht.asks
  obtain ⟨y, hy, hyst⟩ := Option.map_eq_some_iff.1 hst
  obtain ⟨x', hx', hid, -⟩ := hg.own y hy
  obtain rfl : x = x' := Option.some.inj (hx.symm.trans hx')
  -- who asks for a token makes out no call
  have hdoor : y.stage.isAtDoor = false := by rw [hyst]; cases hasks <;> rfl
  have hl : KeepsFlags r' (r'.moveFetch f) := by
    refine (moveFetch_flags r' f).resolve_right ?_
    rintro ⟨y', hy', hd, -⟩
    rw [Option.some.inj (hy'.symm.trans hy), hdoor] at hd
    exact Bool.false_ne_true hd
  have hopen : r'.isClosed y.manager = false := by rw [hid, hg.managers.closed, ht.closed]
  exact ht.andThen hl ⟨_, moveFetch_asks hy hyst hasks hopen, .fetching⟩

/-- **A fetch that goes on makes out no call, or one that takes what is owed.** -/
theorem runFetch_flags (r : AuthRealm) (f : FetchId) : KeepsFlags r (r.runFetch f) ∨
    ∃ x, r.fetches[f]? = some x ∧ Takes r (r.runFetch f) f x.manager := by
  have hmore : ∀ {r'}, Goes r r' f → (KeepsFlags r r' ∨ ∃ x, r.fetches[f]? = some x ∧ Takes r r' f x.manager) →
      KeepsFlags r (r'.moveFetch f) ∨ ∃ x, r.fetches[f]? = some x ∧ Takes r (r'.moveFetch f) f x.manager := by
    rintro r' hg (hl | ⟨x, hx, ht⟩)
    · rcases moveFetch_flags r' f with hl' | ⟨y, hy, -, ht⟩
      · exact .inl (hl.trans hl')
      · obtain ⟨x, hx, hid, -⟩ := hg.own y hy
        exact .inr ⟨x, hx, hid ▸ ht.of_keeps hl hg.managers⟩
    · exact .inr ⟨x, hx, ht.moveFetch hg hx⟩
  have hg := Goes.moveFetch r f
  exact hmore (hg.andThen (.moveFetch _ f)) <| hmore hg <|
    (moveFetch_flags r f).imp_right fun ⟨x, hx, _, ht⟩ => ⟨x, hx, ht⟩

/-! ## Whose calls they are -/

/-- A fetch does not change hands. -/
theorem manager_step (r : AuthRealm) (ev : AuthEvent) (hlt : f < r.fetches.length)
    (hy : (r.step ev).fetches[f]? = some y) : ∃ x, r.fetches[f]? = some x ∧ x.manager = y.manager := by
  obtain ⟨st, hb, -⟩ := step_moves r ev f y hy
  cases hb with
  | there hx hid => exact ⟨_, hx, hid⟩
  | fresh hnone => exact absurd hlt (Nat.not_lt.2 (List.getElem?_eq_none_iff.1 hnone))
  | replied hx hid _ _ => exact ⟨_, hx, hid⟩

theorem isOf_step (r : AuthRealm) (ev : AuthEvent) (id : AuthId) (hlt : f < r.fetches.length) :
    (r.step ev).isOf id f = r.isOf id f := by
  obtain ⟨y, hy⟩ : ∃ y, (r.step ev).fetches[f]? = some y :=
    ⟨_, List.getElem?_eq_getElem (Nat.lt_of_lt_of_le hlt (step_length r ev))⟩
  obtain ⟨x, hx, heq⟩ := manager_step r ev hlt hy
  simp [AuthRealm.isOf, hx, hy, heq]

/-- **The calls for a manager grow** by those that are for its fetches: fetches do not change hands, and
no call is for a fetch that is yet to come. -/
theorem callsFor_step (hn : r.Noted) (ev : AuthEvent) (id : AuthId) (more : List (FetchId × ℕ × Bool))
    (h : (r.step ev).called = r.called ++ more) : (r.step ev).callsFor id =
      r.callsFor id ++ (more.filter fun c => (r.step ev).isOf id c.1).map (·.2.2) := by
  have hold : (r.called.filter fun c => (r.step ev).isOf id c.1) = r.called.filter fun c => r.isOf id c.1 :=
    List.filter_congr fun c hc => isOf_step r ev id (hn.known c hc)
  unfold AuthRealm.callsFor
  rw [h, List.filter_append, List.map_append, hold]

/-! ## What an event does to the flag of a manager -/

/-- The manager that a new token is asked of. -/
def AuthEvent.forced? : AuthEvent → Option AuthId
  | .forceRefresh id => some id
  | _ => none

/-- A new token of the manager is asked for. -/
def AuthEvent.Forces (r : AuthRealm) (id : AuthId) (ev : AuthEvent) : Prop :=
  ev.forced? = some id ∧ id < r.managers.length

/-- **What an event does to the flag of a manager.** -/
inductive FlagStep (r r' : AuthRealm) (id : AuthId) (ev : AuthEvent) : Prop where
  | forced (hev : ev.Forces r id) (hcalls : r'.callsFor id = r.callsFor id) (howes : r'.owes id = true)
  | taken {g : FetchId} {y : Fetch} (hev : ¬ ev.Forces r id) (hc : r.isClosed id = false)
      (ha : r.isAttached id) (hcalls : r'.callsFor id = r.callsFor id ++ [r.owes id])
      (howes : r'.owes id = false) (hy : r'.fetches[g]? = some y) (hid : y.manager = id)
      (hasks : y.stage.Asks (r.calls.length + 1) (r.counter id))
  | kept (hev : ¬ ev.Forces r id) (hcalls : r'.callsFor id = r.callsFor id)
      (howes : r'.owes id = r.owes id)

/-- **An event leaves the flags alone, or is a refresh or a call.** -/
inductive FlagAct (r r' : AuthRealm) : AuthEvent → Prop where
  | keeps {ev : AuthEvent} (hev : ev.forced? = none) (h : KeepsFlags r r') : FlagAct r r' ev
  | forces {id : AuthId} : FlagAct r r' (.forceRefresh id)
  | takes {ev : AuthEvent} {g : FetchId} {y : Fetch} (hev : ev.forced? = none)
      (hy : r'.fetches[g]? = some y) (h : Takes r r' g y.manager) : FlagAct r r' ev

/-- A fetch goes on from a realm that has the same managers. -/
theorem FlagAct.of_goes {r₁ : AuthRealm} {ev : AuthEvent} (hev : ev.forced? = none) (hsame : KeepsFlags r r₁)
    (hm : SameManagers r r₁) (h : KeepsFlags r₁ r' ∨ ∃ x, r₁.fetches[f]? = some x ∧ Takes r₁ r' f x.manager)
    (hg : Goes r₁ r' f) : FlagAct r r' ev := by
  rcases h with hleaves | ⟨x, hx, htakes⟩
  · exact .keeps hev (hsame.trans hleaves)
  obtain ⟨st, hst, -⟩ := htakes.asks
  obtain ⟨y, hy, -⟩ := Option.map_eq_some_iff.1 hst
  obtain ⟨x', hx', hid, -⟩ := hg.own y hy
  obtain rfl : x = x' := Option.some.inj (hx.symm.trans hx')
  exact .takes hev hy (hid ▸ htakes.of_keeps hsame hm)

theorem FlagAct.of_runFetch {r₁ : AuthRealm} {ev : AuthEvent} (hev : ev.forced? = none) (hsame : KeepsCalls r r₁)
    (ha : r₁.available = r.available) (hm : r₁.managers = r.managers) (f : FetchId) :
    FlagAct r (r₁.runFetch f) ev :=
  .of_goes hev hsame.toKeepsFlags (.of_eq ha hm) (runFetch_flags r₁ f) (.runFetch r₁ f)

/-- What happens outside of fetches makes out no call, and takes none to the provider. -/
theorem KeepsCalls.outside (r : AuthRealm) {ev : AuthEvent} (hev : ev.IsOutside) (hnot : ev.forced? = none) :
    KeepsCalls r (r.step ev) := by
  cases ev with
  | create unavailable => exact .create r unavailable
  | provide => exact .provide r
  | notify => exact (KeepsCalls.foldl .changed _ r).trans (.wake _)
  | setUser uid => exact .of_same rfl rfl rfl
  | setProvider a b c => exact .of_same rfl rfl rfl
  | turnListener id closes =>
    show KeepsCalls r (r.turnListener id closes)
    unfold AuthRealm.turnListener
    split
    · exact .refl r
    · exact .modifyManager r id fun _ => rfl
  | forceRefresh id => simp [AuthEvent.forced?] at hnot
  | listen id listener => exact .listen r id listener
  | close id => exact (KeepsCalls.closeManager r id).trans (.wake _)
  | hold id => exact .modifyManager r id fun _ => rfl
  | letGo id => exact .modifyManager r id fun _ => rfl
  | _ => exact hev.elim

theorem flagAct (r : AuthRealm) (ev : AuthEvent) : FlagAct r (r.step ev) ev := by
  have hkeeps : ∀ {ev r'}, AuthEvent.forced? ev = none → KeepsCalls r r' → FlagAct r r' ev :=
    fun hev h => .keeps hev h.toKeepsFlags
  cases ev with
  | forceRefresh id => exact .forces
  | fetch manager => exact hkeeps rfl (.of_same rfl rfl rfl)
  | fetchNow manager =>
    have hadd : KeepsCalls r { r with fetches := r.fetches ++ [{ manager }] } := .of_same rfl rfl rfl
    exact .of_runFetch rfl hadd rfl rfl _
  | answer g reply => exact hkeeps rfl ((KeepsCalls.setReply r g reply).trans (.wakeFetch _ g))
  | answerNow g reply =>
    obtain ⟨ha, hm, -⟩ := setReply_same r g reply
    exact .of_runFetch rfl (.setReply r g reply) ha hm g
  | poll =>
    show FlagAct r r.poll .poll
    unfold AuthRealm.poll
    split
    · exact hkeeps rfl (.refl r)
    · rename_i g rest _
      have hrest : KeepsCalls r { r with queue := rest } := .of_same rfl rfl rfl
      exact .of_runFetch rfl hrest rfl rfl g
  | go g =>
    have hwake : KeepsCalls (r.moveFetch g) (r.step (.go g)) := .wakeFetch _ g
    rcases moveFetch_flags r g with hl | ⟨x, hx, -, ht⟩
    · exact .keeps rfl (hl.trans hwake.toKeepsFlags)
    · obtain ⟨st, hst, hasks⟩ := ht.asks
      have hst' : (r.step (.go g)).stage? g = some st := by
        rw [← hst]
        unfold AuthRealm.stage?
        exact congrArg (fun fs : List Fetch => (fs[g]?).map (·.stage)) (wakeFetch_same (r.moveFetch g) g).2.2.2
      obtain ⟨y, hy, -⟩ := Option.map_eq_some_iff.1 hst'
      obtain ⟨x', hx', hid⟩ := manager_step r (.go g) (List.getElem?_eq_some_iff.1 hx).1 hy
      obtain rfl : x = x' := Option.some.inj (hx.symm.trans hx')
      exact .takes rfl hy (hid ▸ ht.andThen hwake.toKeepsFlags ⟨st, hst', hasks⟩)
  | abort g => exact hkeeps rfl (.abort r g)
  | _ => exact hkeeps rfl (.outside r trivial rfl)

/-- Calls are noted as they are made. -/
theorem AuthRealm.Noted.step (h : r.Noted) (ev : AuthEvent) : (r.step ev).Noted := by
  have hlen := step_length r ev
  have hold : ∀ c ∈ r.called, c.1 < (r.step ev).fetches.length :=
    fun c hc => Nat.lt_of_lt_of_le (h.known c hc) hlen
  generalize hr' : r.step ev = r' at hold
  have hact := flagAct r ev
  rw [hr'] at hact
  cases hact with
  | keeps _ hl => exact ⟨by rw [hl.calls, hl.called, h.calls], by rw [hl.called]; exact hold⟩
  | @forces id =>
    subst hr'
    exact ⟨h.calls, hold⟩
  | @takes _ f y _ hy ht =>
    refine ⟨by rw [ht.calls, ht.called, h.calls, List.map_append]; rfl, fun c hc => ?_⟩
    rw [ht.called, List.mem_append] at hc
    rcases hc with hc | hc
    · exact hold c hc
    · rw [List.mem_singleton.1 hc]
      exact (List.getElem?_eq_some_iff.1 hy).1

theorem flagStep (h : r.Noted) (ev : AuthEvent) (id : AuthId) : FlagStep r (r.step ev) id ev := by
  have hsame : (r.step ev).called = r.called → (r.step ev).callsFor id = r.callsFor id := fun heq => by
    have h' := callsFor_step h ev id [] (by rw [heq, List.append_nil])
    rwa [List.filter_nil, List.map_nil, List.append_nil] at h'
  cases flagAct r ev with
  | keeps hev hl => exact .kept (by simp [AuthEvent.Forces, hev]) (hsame hl.called) (hl.owes id)
  | @forces i =>
    have howes : (r.step (.forceRefresh i)).owes id =
        if i = id then decide (id < r.managers.length) else r.owes id := by
      show ((r.modifyManager i fun m => { m with forceRefresh := true }).managers[id]?).any _ = _
      rw [r.getElem?_modifyManager]
      split
      · rcases Nat.lt_or_ge id r.managers.length with hlt | hge
        · simp [hlt]
        · simp [Nat.not_lt.2 hge]
      · rfl
    by_cases hf : AuthEvent.Forces r id (.forceRefresh i)
    · have ⟨hi, hlt⟩ := hf
      obtain rfl : i = id := Option.some.inj hi
      exact .forced hf (hsame rfl) (by rw [howes, if_pos rfl]; simpa using hlt)
    · refine .kept hf (hsame rfl) ?_
      rw [howes]
      split
      · rename_i hi
        subst hi
        have hge : r.managers.length ≤ i := Nat.not_lt.1 fun hlt => hf ⟨rfl, hlt⟩
        simp [AuthRealm.owes, Nat.not_lt.2 hge]
      · rfl
  | @takes _ g y hev hy ht =>
    have hof : (r.step ev).isOf id g = (y.manager == id) := by simp [AuthRealm.isOf, hy]
    have hnew := callsFor_step h ev id _ ht.called
    by_cases hid : y.manager = id
    · subst hid
      have hasks : y.stage.Asks (r.calls.length + 1) (r.counter y.manager) := by
        obtain ⟨st, hst, hasks⟩ := ht.asks
        rwa [Option.some.inj ((stage?_eq_some hy).symm.trans hst)]
      refine .taken (by simp [AuthEvent.Forces, hev]) ht.closed ht.attached ?_ (by rw [ht.owes]; simp) hy rfl hasks
      rw [hnew, List.filter_cons_of_pos (by rw [hof]; simp)]
      rfl
    · refine .kept (by simp [AuthEvent.Forces, hev]) ?_ (by rw [ht.owes]; simp [Ne.symm hid])
      rw [hnew, List.filter_cons_of_neg (by rw [hof]; simpa using hid)]
      simp

end QueryClient
