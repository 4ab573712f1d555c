import QueryClient.Proofs.Auth.ForceFlag

/-!
# What concerns one token manager

The story of a token manager is what its change listener and the provider's list of listeners see of it.
Most of what happens in a realm passes a given manager by: only the operations on the manager itself write
to its story, and each of them writes little.

* `AuthRealm.storyOf`, `AuthRealm.stateOf`, `AuthRealm.placesOf`: a manager as others see it.
* `Idle`: nothing happens to managers; `Idle.step`: **fetches concern no manager** beyond its force flag.
* `PassesBy`: nothing happens that concerns a manager, with one lemma for each operation on another.
* `closeManager_shuts`, `register_registers`: **what closing and registering do** to a manager.
-/

namespace QueryClient

/-- The manager that a note is about. -/
def AuthNote.manager? : AuthNote → Option AuthId
  | .reported manager .. | .joined manager _ | .left manager _ | .closed manager => some manager
  | .warned _ | .called .. | .reached .. | .ended .. => none

/-- What the provider said when the manager wanted to become a listener. -/
def AuthNote.joined? : AuthNote → Option (Option TokenError)
  | .joined _ refusal => some refusal
  | _ => none

/-- What the provider said when the manager wanted to leave its listeners. -/
def AuthNote.left? : AuthNote → Option (Option TokenError)
  | .left _ refusal => some refusal
  | _ => none

/-- A manager without its force flag and those who hold it. -/
def TokenManager.core (m : TokenManager) : TokenManager := { m with forceRefresh := false, holders := 0 }

namespace AuthRealm

/-- **What is seen of a manager,** in order: what its change listener is told, what the provider says when
it comes and goes, and its end. -/
def storyOf (r : AuthRealm) (id : AuthId) : List AuthNote :=
  r.journal.filter fun n => n.manager? = some id

/-- What the provider said, each time that the manager wanted to become one of its listeners. -/
def joinsOf (r : AuthRealm) (id : AuthId) : List (Option TokenError) :=
  (r.storyOf id).filterMap AuthNote.joined?

/-- What the provider said, each time that the manager wanted to leave its listeners. -/
def leavesOf (r : AuthRealm) (id : AuthId) : List (Option TokenError) :=
  (r.storyOf id).filterMap AuthNote.left?

/-- What becomes of a manager through the provider and through being closed. -/
def stateOf (r : AuthRealm) (id : AuthId) : Option TokenManager := (r.managers[id]?).map TokenManager.core

/-- The provider accepted the manager as a listener, and it has not been closed. -/
def isRegistered (r : AuthRealm) (id : AuthId) : Bool := (r.managers[id]?).any (·.registered)

/-- How many of the provider's listeners are the manager's. -/
def placesOf (r : AuthRealm) (id : AuthId) : ℕ := r.provider.listeners.count id

end AuthRealm

variable {r r' r'' : AuthRealm} {id i : AuthId} {f : FetchId} {n : AuthNote}

namespace AuthRealm

theorem isClosed_eq_any (r : AuthRealm) (id : AuthId) : r.isClosed id = (r.stateOf id).any (·.closed) := by
  unfold isClosed stateOf
  cases r.managers[id]? <;> rfl

theorem isAttached_eq_any (r : AuthRealm) (id : AuthId) :
    r.isAttached id = (r.stateOf id).any (·.attached) := by
  unfold isAttached stateOf
  cases r.managers[id]? <;> rfl

theorem isRegistered_eq_any (r : AuthRealm) (id : AuthId) :
    r.isRegistered id = (r.stateOf id).any (·.registered) := by
  unfold isRegistered stateOf
  cases r.managers[id]? <;> rfl

theorem uid_eq_ite (r : AuthRealm) (id : AuthId) :
    r.uid id = if r.isAttached id then r.provider.uid else none := rfl

theorem storyOf_note (r : AuthRealm) (n : AuthNote) (id : AuthId) :
    (r.note n).storyOf id = r.storyOf id ++ if n.manager? = some id then [n] else [] := by
  show (r.journal ++ [n]).filter _ = _
  rw [List.filter_append, List.filter_singleton]
  simp [storyOf]

theorem storyOf_own (r : AuthRealm) (hn : n.manager? = some id) :
    (r.note n).storyOf id = r.storyOf id ++ [n] := by
  rw [r.storyOf_note, if_pos hn]

/-- What is seen of a manager grows. -/
theorem joinsOf_append {more : List AuthNote} (h : r'.storyOf id = r.storyOf id ++ more) :
    r'.joinsOf id = r.joinsOf id ++ more.filterMap AuthNote.joined? := by
  unfold joinsOf
  rw [h, List.filterMap_append]

theorem leavesOf_append {more : List AuthNote} (h : r'.storyOf id = r.storyOf id ++ more) :
    r'.leavesOf id = r.leavesOf id ++ more.filterMap AuthNote.left? := by
  unfold leavesOf
  rw [h, List.filterMap_append]

theorem stateOf_modifyManager (r : AuthRealm) (i id : AuthId) (F : TokenManager → TokenManager) :
    (r.modifyManager i F).stateOf id =
      if i = id then (r.managers[id]?).map fun m => (F m).core else r.stateOf id := by
  unfold stateOf
  rw [r.getElem?_modifyManager]
  split
  · rw [Option.map_map]
    rfl
  · rfl

end AuthRealm

/-! ## What fetches do -/

/-- **Nothing happens that concerns managers,** but for their force flags. -/
structure Idle (r r' : AuthRealm) : Prop where
  provider : r'.provider = r.provider
  waiting : r'.waiting = r.waiting
  length : r'.managers.length = r.managers.length
  state : ∀ id, r'.stateOf id = r.stateOf id
  story : ∀ id, r'.storyOf id = r.storyOf id

namespace Idle

theorem refl (r : AuthRealm) : Idle r r := ⟨rfl, rfl, rfl, fun _ => rfl, fun _ => rfl⟩

theorem trans (h : Idle r r') (h' : Idle r' r'') : Idle r r'' :=
  ⟨h'.provider.trans h.provider, h'.waiting.trans h.waiting, h'.length.trans h.length,
    fun id => (h'.state id).trans (h.state id), fun id => (h'.story id).trans (h.story id)⟩

/-- Fetches, queue and calls change, and nothing else does. -/
theorem of_same (hp : r'.provider = r.provider) (hw : r'.waiting = r.waiting)
    (hm : r'.managers = r.managers) (hj : r'.journal = r.journal) : Idle r r' := by
  refine ⟨hp, hw, by rw [hm], fun id => ?_, fun id => ?_⟩
  · unfold AuthRealm.stateOf
    rw [hm]
  · unfold AuthRealm.storyOf
    rw [hj]

theorem note (r : AuthRealm) (hn : n.manager? = none) : Idle r (r.note n) :=
  ⟨rfl, rfl, rfl, fun _ => rfl, fun id => by rw [r.storyOf_note, hn]; exact List.append_nil _⟩

/-- The force flag and those who hold a manager are not part of its state. -/
theorem modifyManager (r : AuthRealm) (i : AuthId) {F : TokenManager → TokenManager}
    (hF : ∀ m, (F m).core = m.core) : Idle r (r.modifyManager i F) := by
  refine ⟨rfl, rfl, List.length_modify .., fun id => ?_, fun _ => rfl⟩
  rw [r.stateOf_modifyManager]
  split
  · simp only [hF]
    rfl
  · rfl

theorem wakeFetch (r : AuthRealm) (f : FetchId) : Idle r (r.wakeFetch f) := by
  unfold AuthRealm.wakeFetch
  split
  · exact of_same rfl rfl rfl rfl
  · exact refl r

theorem wake (r : AuthRealm) : Idle r r.wake := by
  have hfold : ∀ (fs : List FetchId) (r : AuthRealm), Idle r (fs.foldl AuthRealm.wakeFetch r) := by
    intro fs
    induction fs with
    | nil => exact refl
    | cons f fs ih => exact fun r => (wakeFetch r f).trans (ih _)
  exact hfold _ r

theorem setStage (r : AuthRealm) (f : FetchId) (stage : FetchStage) : Idle r (r.setStage f stage) :=
  of_same rfl rfl rfl rfl

theorem finish (r : AuthRealm) (f : FetchId) (ending : Ending TokenOutcome) : Idle r (r.finish f ending) :=
  (setStage r f _).trans (note _ rfl)

theorem makeCall (r : AuthRealm) (f : FetchId) (i : AuthId) : Idle r (r.makeCall f i) := by
  unfold AuthRealm.makeCall
  split
  · exact refl r
  rename_i m _
  split
  · exact finish r f _
  split
  · exact finish r f _
  have hcall : Idle r { r with calls := r.calls ++ [m.forceRefresh] } := of_same rfl rfl rfl rfl
  have htaken := hcall.trans (modifyManager _ i (F := fun m => { m with forceRefresh := false }) fun _ => rfl)
  exact (htaken.trans (setStage _ f _)).trans (note _ rfl)

theorem lookAtReply (r : AuthRealm) (f : FetchId) (i : AuthId) (counter : ℕ) (reply : TokenReply) :
    Idle r (r.lookAtReply f i counter reply) := by
  have hsaid : Idle r ((AuthRealm.complaint? reply).elim r fun text => r.note (.warned text)) := by
    cases AuthRealm.complaint? reply with
    | none => exact refl r
    | some text => exact note r rfl
  unfold AuthRealm.lookAtReply
  split
  · exact refl r
  split
  · exact finish r f _
  split
  · exact setStage r f _
  · exact hsaid.trans (finish _ f _)

theorem moveFetch (r : AuthRealm) (f : FetchId) : Idle r (r.moveFetch f) := by
  unfold AuthRealm.moveFetch
  split
  · exact refl r
  split
  · exact makeCall r f _
  · exact makeCall r f _
  · split
    · exact finish r f _
    · exact (setStage r f _).trans (note _ rfl)
  · split
    · exact finish r f _
    · exact refl r
  · exact lookAtReply r f _ _ _
  · exact refl r

theorem runFetch (r : AuthRealm) (f : FetchId) : Idle r (r.runFetch f) :=
  ((moveFetch r f).trans (moveFetch _ f)).trans (moveFetch _ f)

theorem setReply (r : AuthRealm) (f : FetchId) (reply : TokenReply) : Idle r (r.setReply f reply) := by
  unfold AuthRealm.setReply
  split
  · exact of_same rfl rfl rfl rfl
  · exact refl r

/-- **Fetches concern no manager** beyond its force flag. -/
theorem step (r : AuthRealm) {ev : AuthEvent} (hev : ¬ ev.IsOutside) : Idle r (r.step ev) := by
  cases ev with
  | fetch manager => exact of_same rfl rfl rfl rfl
  | fetchNow manager =>
    have hnew : Idle r { r with fetches := r.fetches ++ [{ manager }] } := of_same rfl rfl rfl rfl
    exact hnew.trans (runFetch _ _)
  | answer f reply => exact (setReply r f reply).trans (wakeFetch _ f)
  | answerNow f reply => exact (setReply r f reply).trans (runFetch _ f)
  | poll =>
    show Idle r r.poll
    unfold AuthRealm.poll
    split
    · exact refl r
    · rename_i f rest _
      have htaken : Idle r { r with queue := rest } := of_same rfl rfl rfl rfl
      exact htaken.trans (runFetch _ f)
  | go f => exact (moveFetch r f).trans (wakeFetch _ f)
  | abort f =>
    show Idle r (r.abort f)
    unfold AuthRealm.abort
    split
    · exact refl r
    · exact refl r
    split
    · exact refl r
    · exact finish r f _
  | _ => exact absurd trivial hev

end Idle

/-! ## What passes a manager by -/

/-- **Nothing happens that concerns the manager.** -/
structure PassesBy (id : AuthId) (r r' : AuthRealm) : Prop where
  state : r'.stateOf id = r.stateOf id
  places : r'.placesOf id = r.placesOf id
  story : r'.storyOf id = r.storyOf id
  user : r'.provider.uid = r.provider.uid

theorem Idle.passesBy (h : Idle r r') (id : AuthId) : PassesBy id r r' :=
  ⟨h.state id, by unfold AuthRealm.placesOf; rw [h.provider], h.story id, by rw [h.provider]⟩

namespace PassesBy

theorem refl (r : AuthRealm) : PassesBy id r r := (Idle.refl r).passesBy id

theorem trans (h : PassesBy id r r') (h' : PassesBy id r' r'') : PassesBy id r r'' :=
  ⟨h'.state.trans h.state, h'.places.trans h.places, h'.story.trans h.story, h'.user.trans h.user⟩

theorem isClosed (h : PassesBy id r r') : r'.isClosed id = r.isClosed id := by
  rw [r'.isClosed_eq_any, r.isClosed_eq_any, h.state]

theorem isAttached (h : PassesBy id r r') : r'.isAttached id = r.isAttached id := by
  rw [r'.isAttached_eq_any, r.isAttached_eq_any, h.state]

theorem isRegistered (h : PassesBy id r r') : r'.isRegistered id = r.isRegistered id := by
  rw [r'.isRegistered_eq_any, r.isRegistered_eq_any, h.state]

theorem uid (h : PassesBy id r r') : r'.uid id = r.uid id := by
  rw [r'.uid_eq_ite, r.uid_eq_ite, h.isAttached, h.user]

theorem note (r : AuthRealm) (hn : n.manager? ≠ some id) : PassesBy id r (r.note n) :=
  ⟨rfl, rfl, by rw [r.storyOf_note, if_neg hn, List.append_nil], rfl⟩

theorem modifyOther (r : AuthRealm) (hi : i ≠ id) (F : TokenManager → TokenManager) :
    PassesBy id r (r.modifyManager i F) :=
  ⟨by rw [r.stateOf_modifyManager, if_neg hi], rfl, rfl, rfl⟩

/-- A new manager is another. -/
theorem add (r : AuthRealm) (hi : id ≠ r.managers.length) :
    PassesBy id r { r with managers := r.managers ++ [{}] } := by
  refine ⟨?_, rfl, rfl, rfl⟩
  show ((r.managers ++ [({} : TokenManager)])[id]?).map TokenManager.core = _
  rcases Nat.lt_or_gt_of_ne hi with hlt | hgt
  · rw [List.getElem?_append_left hlt]
    rfl
  · unfold AuthRealm.stateOf
    rw [List.getElem?_eq_none (by rw [List.length_append]; exact hgt), List.getElem?_eq_none (Nat.le_of_lt hgt)]

theorem removeListener (r : AuthRealm) (hi : i ≠ id) : PassesBy id r (r.removeListener i) := by
  have hleft : ∀ (r : AuthRealm) e, PassesBy id r (r.note (.left i e)) :=
    fun r e => note r (by simpa [AuthNote.manager?] using hi)
  unfold AuthRealm.removeListener
  split
  · have hgone : PassesBy id r { r with provider := { r.provider with
        listeners := r.provider.listeners.erase i } } :=
      ⟨rfl, List.count_erase_of_ne (Ne.symm hi), rfl, rfl⟩
    exact hgone.trans (hleft _ _)
  · simp only
    split
    · exact hleft r _
    · exact (hleft r _).trans ((Idle.note _ rfl).passesBy id)

theorem closeManager (r : AuthRealm) (hi : i ≠ id) : PassesBy id r (r.closeManager i) := by
  unfold AuthRealm.closeManager
  split
  · exact refl r
  split
  · exact refl r
  have hshut : PassesBy id r (AuthRealm.note _ (.closed i)) :=
    (modifyOther r hi fun m =>
      { m with closed := true, listener := none, attached := false, registered := false }).trans
        (note _ (by simpa [AuthNote.manager?] using hi))
  simp only
  split
  · exact hshut.trans (removeListener _ hi)
  · exact hshut

theorem tell (r : AuthRealm) (hi : i ≠ id) (listener : ChangeListener) (uid : Option String) :
    PassesBy id r (r.tell i listener uid) := by
  have hnote : PassesBy id r (r.note (.reported i listener.label uid)) :=
    note r (by simpa [AuthNote.manager?] using hi)
  unfold AuthRealm.tell
  simp only
  split
  · exact hnote.trans (closeManager _ hi)
  · exact hnote

theorem tellListener (r : AuthRealm) (hi : i ≠ id) (uid : Option String) :
    PassesBy id r (r.tellListener i uid) := by
  unfold AuthRealm.tellListener
  split
  · exact refl r
  · exact tell r hi _ uid

theorem changed (r : AuthRealm) (hi : i ≠ id) : PassesBy id r (r.changed i) := by
  unfold AuthRealm.changed
  split
  · exact refl r
  · exact (modifyOther r hi _).trans (tellListener _ hi _)

theorem turnListener (r : AuthRealm) (hi : i ≠ id) (closes : Bool) :
    PassesBy id r (r.turnListener i closes) := by
  unfold AuthRealm.turnListener
  split
  · exact refl r
  · exact modifyOther r hi _

theorem listen (r : AuthRealm) (hi : i ≠ id) (listener : ChangeListener) :
    PassesBy id r (r.listen i listener) := by
  unfold AuthRealm.listen
  split
  · exact refl r
  · exact ((modifyOther r hi _).trans (tell _ hi _ _)).trans ((Idle.wake _).passesBy id)

/-- Another manager becomes a listener of the provider; whom the provider closes meanwhile is said
separately. -/
theorem register (r : AuthRealm) (hi : i ≠ id) :
    PassesBy id (r.provider.closedOnAdd.elim r r.closeManager) (r.register i) := by
  unfold AuthRealm.register
  generalize r.provider.closedOnAdd.elim r r.closeManager = r₁
  have hjoined : ∀ (r : AuthRealm) e, PassesBy id r (r.note (.joined i e)) :=
    fun r e => note r (by simpa [AuthNote.manager?] using hi)
  simp only
  split
  · rename_i e _
    have hwarned : PassesBy id r₁ (if e.kind = .appDeleted then r₁.note (.joined i (some e))
        else (r₁.note (.joined i (some e))).note
          (.warned ("addIdTokenListener() failed; auth treated as unavailable: " ++ e.message))) := by
      split
      · exact hjoined r₁ _
      · exact (hjoined r₁ _).trans ((Idle.note _ rfl).passesBy id)
    exact hwarned.trans (modifyOther _ hi _)
  · have hadded : PassesBy id r₁ { r₁ with provider := { r₁.provider with
        listeners := r₁.provider.listeners ++ [i] } } :=
      ⟨rfl, by simp [AuthRealm.placesOf, List.count_append, hi], rfl, rfl⟩
    have hlisted := hadded.trans (hjoined _ none)
    split
    · exact hlisted.trans (removeListener _ hi)
    · exact hlisted.trans (modifyOther _ hi _)

end PassesBy

/-! ## What is done to a manager -/

/-- A manager that has been closed. -/
def TokenManager.shut (m : TokenManager) : TokenManager :=
  { m with closed := true, listener := none, attached := false, registered := false }

/-- **What closing does to a manager:** it leaves the provider's listeners, if it is one of them. -/
inductive Shuts (r r' : AuthRealm) (id : AuthId) : Prop where
  /-- There is nothing to close. -/
  | again (hc : r.stateOf id = none ∨ r.isClosed id) (h : r' = r)
  | alone (hopen : r.isClosed id = false) (hlisted : (r.isAttached id && r.isRegistered id) = false)
      (hstate : ∃ m : TokenManager, r'.stateOf id = some m.shut) (hplaces : r'.placesOf id = r.placesOf id)
      (hstory : r'.storyOf id = r.storyOf id ++ [.closed id])
  | leaves (refusal : Option TokenError) (hopen : r.isClosed id = false)
      (hlisted : (r.isAttached id && r.isRegistered id) = true)
      (hstate : ∃ m : TokenManager, r'.stateOf id = some m.shut)
      (hplaces : r'.placesOf id = if refusal = none then r.placesOf id - 1 else r.placesOf id)
      (hstory : r'.storyOf id = r.storyOf id ++ [.closed id, .left id refusal])

/-- A manager that has been closed cannot ask the provider, and is no listener of it. -/
theorem AuthRealm.shut_of_state {m : TokenManager} (h : r.stateOf id = some m.shut) :
    r.isClosed id ∧ r.isAttached id = false ∧ r.isRegistered id = false := by
  rw [r.isClosed_eq_any, r.isAttached_eq_any, r.isRegistered_eq_any, h]
  exact ⟨rfl, rfl, rfl⟩

/-- **What becomes of a manager that wants to be a listener of the provider.** -/
inductive Registers (r r' : AuthRealm) (id : AuthId) : Prop where
  | refused (e : TokenError)
      (hstate : r'.stateOf id = (r.stateOf id).map fun m => { m with attached := false })
      (hplaces : r'.placesOf id = r.placesOf id)
      (hstory : r'.storyOf id = r.storyOf id ++ [.joined id (some e)])
  | accepted (hopen : r.isClosed id = false)
      (hstate : r'.stateOf id = (r.stateOf id).map fun m => { m with registered := true })
      (hplaces : r'.placesOf id = r.placesOf id + 1)
      (hstory : r'.storyOf id = r.storyOf id ++ [.joined id none])
  /-- It has been closed meanwhile. -/
  | undone (refusal : Option TokenError) (hc : r.isClosed id) (hstate : r'.stateOf id = r.stateOf id)
      (hplaces : r'.placesOf id = if refusal = none then r.placesOf id else r.placesOf id + 1)
      (hstory : r'.storyOf id = r.storyOf id ++ [.joined id none, .left id refusal])

/-- Who leaves the provider's listeners is none of them any more, unless the provider refuses. -/
theorem removeListener_removes (r : AuthRealm) (id : AuthId) :
    (r.removeListener id).stateOf id = r.stateOf id ∧
      (r.removeListener id).placesOf id =
        (if r.provider.removeError = none then r.placesOf id - 1 else r.placesOf id) ∧
      (r.removeListener id).storyOf id = r.storyOf id ++ [.left id r.provider.removeError] := by
  unfold AuthRealm.removeListener
  split
  · rename_i h
    exact ⟨rfl, by rw [h, if_pos rfl]; exact List.count_erase_self, by rw [h]; exact AuthRealm.storyOf_own _ rfl⟩
  · rename_i e h
    -- a refusal is at most warned of, which concerns no manager
    have hwarn : Idle (r.note (.left id (some e))) (if e.kind = .appDeleted then r.note (.left id (some e))
        else (r.note (.left id (some e))).note (.warned ("removeIdTokenListener() failed: " ++ e.message))) := by
      split
      · exact .refl _
      · exact .note _ rfl
    have hpass := hwarn.passesBy id
    exact ⟨hpass.state, hpass.places.trans (by rw [h]; exact (if_neg (by simp)).symm),
      hpass.story.trans (by rw [h]; exact r.storyOf_own rfl)⟩

theorem closeManager_shuts (r : AuthRealm) (id : AuthId) : Shuts r (r.closeManager id) id := by
  unfold AuthRealm.closeManager
  split
  · rename_i hm
    exact .again (.inl (by simp [AuthRealm.stateOf, hm])) rfl
  rename_i m hm
  have hget : r.stateOf id = some m.core := by simp [AuthRealm.stateOf, hm]
  split
  · rename_i hc
    exact .again (.inr (by rw [r.isClosed_eq_any, hget]; exact hc)) rfl
  rename_i hc
  have hopen : r.isClosed id = false := by
    rw [r.isClosed_eq_any, hget]
    exact Bool.eq_false_iff.2 hc
  have hties : (r.isAttached id && r.isRegistered id) = (m.attached && m.registered) := by
    rw [r.isAttached_eq_any, r.isRegistered_eq_any, hget]
    rfl
  simp only
  -- the manager is shut before the provider is asked to let it go
  generalize hr₁ : (r.modifyManager id fun m =>
    { m with closed := true, listener := none, attached := false, registered := false }).note (.closed id) = r₁
  have hstate : r₁.stateOf id = some m.core.shut := by
    rw [← hr₁]
    exact (r.stateOf_modifyManager id id _).trans (by rw [if_pos rfl, hm]; rfl)
  have hplaces : r₁.placesOf id = r.placesOf id := by rw [← hr₁]; rfl
  have hstory : r₁.storyOf id = r.storyOf id ++ [.closed id] := by
    rw [← hr₁]
    exact AuthRealm.storyOf_own _ rfl
  split
  · rename_i hlisted
    obtain ⟨hstate', hplaces', hstory'⟩ := removeListener_removes r₁ id
    exact .leaves r₁.provider.removeError hopen (hties.trans hlisted) ⟨m.core, hstate'.trans hstate⟩
      (by rw [hplaces', hplaces]) (by rw [hstory', hstory, List.append_assoc]; rfl)
  · rename_i hlisted
    exact .alone hopen (hties.trans (Bool.eq_false_iff.2 hlisted)) ⟨m.core, hstate⟩ hplaces hstory

theorem register_registers (r : AuthRealm) (id : AuthId) :
    Registers (r.provider.closedOnAdd.elim r r.closeManager) (r.register id) id := by
  unfold AuthRealm.register
  generalize r.provider.closedOnAdd.elim r r.closeManager = r₁
  have hmodify : ∀ (r : AuthRealm) (F : TokenManager → TokenManager), (∀ m, (F m).core = F m.core) →
      (r.modifyManager id F).stateOf id = (r.stateOf id).map F := by
    intro r F hF
    rw [r.stateOf_modifyManager, if_pos rfl]
    unfold AuthRealm.stateOf
    rw [Option.map_map]
    congr 1
    exact funext hF
  simp only
  split
  · rename_i e _
    have hwarn : Idle (r₁.note (.joined id (some e))) (if e.kind = .appDeleted then r₁.note (.joined id (some e))
        else (r₁.note (.joined id (some e))).note
          (.warned ("addIdTokenListener() failed; auth treated as unavailable: " ++ e.message))) := by
      split
      · exact .refl _
      · exact .note _ rfl
    have hpass := hwarn.passesBy id
    refine .refused e ?_ hpass.places ?_
    · exact (hmodify _ (fun m => { m with attached := false }) fun _ => rfl).trans (by rw [hpass.state]; rfl)
    · exact hpass.story.trans (r₁.storyOf_own rfl)
  · generalize hr₂ : ({ r₁ with provider := { r₁.provider with
        listeners := r₁.provider.listeners ++ [id] } } : AuthRealm).note (.joined id none) = r₂
    have hstate : r₂.stateOf id = r₁.stateOf id := by rw [← hr₂]; rfl
    have hplaces : r₂.placesOf id = r₁.placesOf id + 1 := by
      rw [← hr₂]
      show (r₁.provider.listeners ++ [id]).count id = _
      rw [List.count_append, List.count_singleton_self]
      rfl
    have hstory : r₂.storyOf id = r₁.storyOf id ++ [.joined id none] := by
      rw [← hr₂]
      exact AuthRealm.storyOf_own _ rfl
    split
    · -- the manager was closed by somebody whom the provider called in between
      rename_i hc
      obtain ⟨hstate', hplaces', hstory'⟩ := removeListener_removes r₂ id
      refine .undone r₂.provider.removeError ?_ (hstate'.trans hstate) ?_ ?_
      · rwa [r₂.isClosed_eq_any, hstate, ← r₁.isClosed_eq_any] at hc
      · rw [hplaces', hplaces, Nat.add_sub_cancel]
      · rw [hstory', hstory, List.append_assoc]
        rfl
    · rename_i hopen
      refine .accepted ?_ ?_ hplaces hstory
      · rw [r₂.isClosed_eq_any, hstate, ← r₁.isClosed_eq_any] at hopen
        simpa using hopen
      · rw [hmodify _ (fun m => { m with registered := true }) fun _ => rfl, hstate]

end QueryClient
