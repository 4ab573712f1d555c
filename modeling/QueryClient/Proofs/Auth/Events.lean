import Mathlib.Data.List.Nodup
import QueryClient.Auth.Realm

/-!
# What happens to token managers

The users of a realm and its provider act in any order, and fetches go on in any order. Either the
managers change and the fetches do not (`Keeps`), or a fetch goes on and what decides about it does
not change (`SameManagers`).

* `AuthRealm.step`, `AuthRealm.run`: one event, and a run.
* `Keeps`: counters do not go back, and a closed manager stays closed.
* `counter_notify`: a change that is reported to a manager moves its counter.
* `FetchStep`, `Goes.runFetch`: what a fetch can do when it goes on.
* `step_keeps`, `step_goes`, `step_moves`: **what an event can do.**
* `step_mono`, `step_length`: counters do not go back, and nothing is forgotten.
-/

namespace QueryClient

/-- What happens in a realm. -/
inductive AuthEvent where
  | create (unavailable : Bool)
  | provide
  | notify
  | setUser (uid : Option String)
  /-- The provider takes to other ways with listeners. -/
  | setProvider (addError removeError : Option TokenError) (closedOnAdd : Option AuthId)
  /-- The change listener of a manager takes to other ways: it closes the manager from now on when it is
  told, or no longer does. -/
  | turnListener (id : AuthId) (closes : Bool)
  | forceRefresh (id : AuthId)
  | listen (id : AuthId) (listener : ChangeListener)
  | close (id : AuthId)
  | hold (id : AuthId)
  | letGo (id : AuthId)
  | fetch (manager : AuthId)
  | fetchNow (manager : AuthId)
  | answer (fetch : FetchId) (reply : TokenReply)
  | answerNow (fetch : FetchId) (reply : TokenReply)
  | poll
  /-- A fetch takes one step, out of turn. Other events may come before the next. -/
  | go (fetch : FetchId)
  | abort (fetch : FetchId)

namespace AuthRealm

/-- The change listener of an open manager, if it has one, takes to other ways. -/
def turnListener (r : AuthRealm) (id : AuthId) (closes : Bool) : AuthRealm :=
  if r.isClosed id then r
  else r.modifyManager id fun m => { m with listener := m.listener.map fun l => { l with closes } }

/-- **What an event does to a realm.** -/
def step (r : AuthRealm) : AuthEvent → AuthRealm
  | .create unavailable => (r.create unavailable).1
  | .provide => r.provide
  | .notify => r.notify
  | .setUser uid => r.setUser uid
  | .setProvider addError removeError closedOnAdd =>
    { r with provider := { r.provider with addError, removeError, closedOnAdd } }
  | .turnListener id closes => r.turnListener id closes
  | .forceRefresh id => r.forceRefresh id
  | .listen id listener => r.listen id listener
  | .close id => r.close id
  | .hold id => r.hold id
  | .letGo id => r.letGo id
  | .fetch manager => (r.fetch manager).1
  | .fetchNow manager => (r.fetchNow manager).1
  | .answer fetch reply => r.answer fetch reply
  | .answerNow fetch reply => r.answerNow fetch reply
  | .poll => r.poll
  | .go fetch => (r.moveFetch fetch).wakeFetch fetch
  | .abort fetch => r.abort fetch

/-- A run. -/
def run (r : AuthRealm) (es : List AuthEvent) : AuthRealm := es.foldl step r

/-- The counter of a manager. -/
def counter (r : AuthRealm) (id : AuthId) : ℕ := ((r.managers[id]?).map (·.counter)).getD 0

/-- The manager can ask the provider. -/
def isAttached (r : AuthRealm) (id : AuthId) : Bool := (r.managers[id]?).any (·.attached)

end AuthRealm

variable {r r' r'' : AuthRealm} {id i : AuthId} {f g : FetchId}

/-! ## What becomes of managers -/

/-- The managers change, the fetches do not. Counters do not go back, and what is closed stays
closed. But for the managers that find the provider, none is attached that was not, and what was
attached stays so until it is closed. -/
structure Keeps (found : List AuthId) (r r' : AuthRealm) : Prop where
  fetches : r'.fetches = r.fetches
  calls : r'.calls = r.calls
  queue : r.queue <+: r'.queue
  available : r.available → r'.available
  length : r.managers.length ≤ r'.managers.length
  counter : ∀ id, r.counter id ≤ r'.counter id
  closed : ∀ id, r.isClosed id → r'.isClosed id
  attached : ∀ id, id ∉ found → (r'.isAttached id → r.isAttached id) ∧
    (r.isAttached id → r'.isAttached id ∨ r'.isClosed id)

variable {found : List AuthId}

theorem AuthRealm.getElem?_modifyManager (r : AuthRealm) (id i : AuthId)
    (f : TokenManager → TokenManager) : (r.modifyManager id f).managers[i]? =
      if id = i then (r.managers[i]?).map f else r.managers[i]? := by
  unfold modifyManager
  rw [List.getElem?_modify]
  split
  · rfl
  · simp

namespace Keeps

theorem refl (r : AuthRealm) : Keeps found r r :=
  ⟨rfl, rfl, List.prefix_rfl, fun h => h, Nat.le_refl _, fun _ => Nat.le_refl _, fun _ h => h,
    fun _ _ => ⟨fun h => h, .inl⟩⟩

theorem trans (h : Keeps found r r') (h' : Keeps found r' r'') : Keeps found r r'' := by
  refine ⟨h'.fetches.trans h.fetches, h'.calls.trans h.calls, h.queue.trans h'.queue,
    fun ha => h'.available (h.available ha), Nat.le_trans h.length h'.length,
    fun id => Nat.le_trans (h.counter id) (h'.counter id),
    fun id hc => h'.closed id (h.closed id hc), fun id hid => ⟨fun ha => ?_, fun ha => ?_⟩⟩
  · exact (h.attached id hid).1 ((h'.attached id hid).1 ha)
  · rcases (h.attached id hid).2 ha with ha | hc
    · exact (h'.attached id hid).2 ha
    · exact .inr (h'.closed id hc)

theorem mono {more : List AuthId} (h : Keeps found r r') (hsub : ∀ id ∈ found, id ∈ more) :
    Keeps more r r' :=
  ⟨h.fetches, h.calls, h.queue, h.available, h.length, h.counter, h.closed,
    fun id hid => h.attached id fun hmem => hid (hsub id hmem)⟩

/-- Fetches, calls, queue and managers stay as they are. -/
theorem of_same (hf : r'.fetches = r.fetches) (hc : r'.calls = r.calls)
    (hq : r'.queue = r.queue) (ha : r.available → r'.available)
    (hm : r'.managers = r.managers) : Keeps found r r' := by
  have hatt : ∀ id, r'.isAttached id = r.isAttached id := fun id => by
    unfold AuthRealm.isAttached
    rw [hm]
  refine ⟨hf, hc, ⟨[], by rw [hq, List.append_nil]⟩, ha, Nat.le_of_eq (congrArg List.length hm.symm),
    fun id => ?_, fun id h => ?_, fun id _ => by rw [hatt id]; exact ⟨fun h => h, .inl⟩⟩
  · unfold AuthRealm.counter
    exact Nat.le_of_eq (by rw [hm])
  · unfold AuthRealm.isClosed at h ⊢
    rw [hm]
    exact h

theorem note (r : AuthRealm) (n : AuthNote) : Keeps found r (r.note n) := of_same rfl rfl rfl (fun h => h) rfl

theorem modifyManager (r : AuthRealm) (id : AuthId) {f : TokenManager → TokenManager}
    (hcount : ∀ m, m.counter ≤ (f m).counter) (hclosed : ∀ m, m.closed → (f m).closed)
    (hatt : id ∈ found ∨ ∀ m, ((f m).attached → m.attached) ∧
      (m.attached → (f m).attached ∨ (f m).closed)) : Keeps found r (r.modifyManager id f) := by
  refine ⟨rfl, rfl, List.prefix_rfl, fun h => h, Nat.le_of_eq (List.length_modify ..).symm, fun i => ?_,
    fun i h => ?_, fun i hi => ?_⟩
  · unfold AuthRealm.counter
    rw [r.getElem?_modifyManager]
    split
    · cases r.managers[i]? with
      | none => exact Nat.le_refl _
      | some m => exact hcount m
    · exact Nat.le_refl _
  · unfold AuthRealm.isClosed at h ⊢
    rw [r.getElem?_modifyManager]
    split
    · cases hm : r.managers[i]? with
      | none => rw [hm] at h; exact h
      | some m =>
        rw [hm] at h
        exact hclosed m h
    · exact h
  · unfold AuthRealm.isAttached AuthRealm.isClosed
    rw [r.getElem?_modifyManager]
    split
    · rename_i hid
      subst hid
      cases r.managers[id]? with
      | none => exact ⟨fun h => h, .inl⟩
      | some m => exact (hatt.resolve_left hi) m
    · exact ⟨fun h => h, .inl⟩

/-- A manager changes in nothing that counts. -/
theorem modifyOther (r : AuthRealm) (id : AuthId) {f : TokenManager → TokenManager}
    (hcount : ∀ m, m.counter ≤ (f m).counter) (hclosed : ∀ m, (f m).closed = m.closed)
    (hatt : ∀ m, (f m).attached = m.attached) : Keeps found r (r.modifyManager id f) :=
  modifyManager r id hcount (fun m h => (hclosed m).trans h)
    (.inr fun m => by rw [hatt m]; exact ⟨fun h => h, .inl⟩)

theorem removeListener (r : AuthRealm) (id : AuthId) : Keeps found r (r.removeListener id) := by
  unfold AuthRealm.removeListener
  split
  · exact of_same rfl rfl rfl (fun h => h) rfl
  · simp only
    split
    · exact note r _
    · exact (note r _).trans (note _ _)

theorem closeManager (r : AuthRealm) (id : AuthId) : Keeps found r (r.closeManager id) := by
  unfold AuthRealm.closeManager
  split
  · exact refl r
  split
  · exact refl r
  have hm : Keeps found r (r.modifyManager id fun m =>
      { m with closed := true, listener := none, attached := false, registered := false }) :=
    modifyManager r id (fun m => Nat.le_refl _) (fun m _ => rfl) (.inr fun m => ⟨by simp, fun _ => .inr rfl⟩)
  simp only
  split
  · exact (hm.trans (note _ _)).trans (removeListener _ id)
  · exact hm.trans (note _ _)

theorem tell (r : AuthRealm) (id : AuthId) (listener : ChangeListener) (uid : Option String) :
    Keeps found r (r.tell id listener uid) := by
  unfold AuthRealm.tell
  simp only
  split
  · exact (note r _).trans (closeManager _ id)
  · exact note r _

theorem tellListener (r : AuthRealm) (id : AuthId) (uid : Option String) :
    Keeps found r (r.tellListener id uid) := by
  unfold AuthRealm.tellListener
  split
  · exact refl r
  · exact tell r id _ uid

theorem changed (r : AuthRealm) (id : AuthId) : Keeps found r (r.changed id) := by
  unfold AuthRealm.changed
  split
  · exact refl r
  · exact (modifyOther r id (f := fun m => { m with counter := m.counter + 1 })
      (fun m => Nat.le_succ _) (fun m => rfl) (fun m => rfl)).trans (tellListener _ id _)

theorem register (r : AuthRealm) (id : AuthId) : Keeps [id] r (r.register id) := by
  unfold AuthRealm.register
  have hclose : Keeps [id] r (r.provider.closedOnAdd.elim r r.closeManager) := by
    cases r.provider.closedOnAdd with
    | none => exact refl r
    | some i => exact closeManager r i
  refine hclose.trans ?_
  generalize r.provider.closedOnAdd.elim r r.closeManager = r₁
  simp only
  split
  · rename_i e _
    have hwarn : ∀ (r : AuthRealm) (n : AuthNote),
        Keeps [id] r (if e.kind = .appDeleted then r else r.note n) := by
      intro r n
      split
      · exact refl r
      · exact note r n
    refine (note r₁ (.joined id (some e))).trans ?_
    exact (hwarn _ _).trans
      (modifyManager _ id (fun m => Nat.le_refl _) (fun m h => h) (.inl (List.mem_singleton_self _)))
  · have hadd : Keeps [id] r₁ { r₁ with provider := { r₁.provider with
        listeners := r₁.provider.listeners ++ [id] } } := of_same rfl rfl rfl (fun h => h) rfl
    refine (hadd.trans (note _ (.joined id none))).trans ?_
    split
    · exact removeListener _ id
    · exact modifyOther _ id (fun m => Nat.le_refl _) (fun m => rfl) (fun m => rfl)

theorem arrived (r : AuthRealm) (id : AuthId) : Keeps [id] r (r.arrived id) := by
  unfold AuthRealm.arrived
  split
  · exact refl r
  · have hm : Keeps [id] r (r.modifyManager id fun m =>
        { m with attached := true, counter := m.counter + 1 }) :=
      modifyManager r id (fun m => Nat.le_succ _) (fun m h => h) (.inl (List.mem_singleton_self _))
    exact (hm.trans (tellListener _ id _)).trans (register _ id)

theorem foldl {op : AuthRealm → AuthId → AuthRealm} (ids : List AuthId)
    (hop : ∀ r, ∀ id ∈ ids, Keeps found r (op r id)) : ∀ r, Keeps found r (ids.foldl op r) := by
  induction ids with
  | nil => exact refl
  | cons id ids ih =>
    exact fun r => (hop r id List.mem_cons_self).trans
      (ih (fun r i hi => hop r i (List.mem_cons_of_mem _ hi)) _)

theorem wakeFetch (r : AuthRealm) (f : FetchId) : Keeps found r (r.wakeFetch f) := by
  unfold AuthRealm.wakeFetch
  split
  · exact ⟨rfl, rfl, List.prefix_append _ _, fun h => h, Nat.le_refl _, fun _ => Nat.le_refl _, fun _ h => h,
      fun _ _ => ⟨fun h => h, .inl⟩⟩
  · exact refl r

theorem wake (r : AuthRealm) : Keeps found r r.wake := foldl _ (fun r f _ => wakeFetch r f) r

/-- A new manager is open, and has not counted anything or found the provider. -/
theorem add (r : AuthRealm) : Keeps found r { r with managers := r.managers ++ [{}] } := by
  have hget : ∀ id : AuthId, (r.managers ++ [({} : TokenManager)])[id]? = r.managers[id]? ∨
      r.managers[id]? = none ∧ ∀ m, (r.managers ++ [({} : TokenManager)])[id]? = some m → m = {} := by
    intro id
    rcases Nat.lt_or_ge id r.managers.length with hlt | hge
    · exact .inl (List.getElem?_append_left hlt)
    · refine .inr ⟨List.getElem?_eq_none_iff.2 hge, fun m hm => ?_⟩
      rw [List.getElem?_append_right hge] at hm
      exact List.mem_singleton.1 (List.mem_of_getElem? hm)
  refine ⟨rfl, rfl, List.prefix_rfl, fun h => h, by simp, fun id => ?_, fun id h => ?_, fun id _ => ?_⟩
  · unfold AuthRealm.counter
    rcases hget id with hid | ⟨hid, -⟩
    · exact Nat.le_of_eq (by rw [hid])
    · rw [hid]
      exact Nat.zero_le _
  · unfold AuthRealm.isClosed at h ⊢
    rcases hget id with hid | ⟨hid, -⟩
    · rw [hid]
      exact h
    · rw [hid] at h
      simp at h
  · unfold AuthRealm.isAttached AuthRealm.isClosed
    rcases hget id with hid | ⟨hid, hnew⟩
    · rw [hid]
      exact ⟨fun h => h, .inl⟩
    · rw [hid]
      refine ⟨fun h => ?_, by simp⟩
      cases hm : (r.managers ++ [({} : TokenManager)])[id]? with
      | none => rw [hm] at h; exact h
      | some m =>
        rw [hm, hnew m hm] at h
        exact h

theorem create (r : AuthRealm) (unavailable : Bool) :
    Keeps [r.managers.length] r (r.create unavailable).1 := by
  unfold AuthRealm.create
  simp only
  split
  · exact add r
  split
  · exact ((add r).trans (arrived _ _)).trans (wake _)
  · exact (add r).trans (of_same rfl rfl rfl (fun h => h) rfl)

theorem provide (r : AuthRealm) : Keeps r.waiting r r.provide := by
  unfold AuthRealm.provide
  split
  · exact note r _
  · have hready : Keeps r.waiting r { r with available := true, waiting := [] } :=
      of_same rfl rfl rfl (fun _ => rfl) rfl
    refine (hready.trans (foldl r.waiting (fun r id hid => ?_) _)).trans (wake _)
    exact (arrived r id).mono fun i hi => by rw [List.mem_singleton.1 hi]; exact hid

theorem notify (r : AuthRealm) : Keeps found r r.notify :=
  (foldl _ (fun r id _ => changed r id) r).trans (wake _)

theorem listen (r : AuthRealm) (id : AuthId) (listener : ChangeListener) :
    Keeps found r (r.listen id listener) := by
  unfold AuthRealm.listen
  split
  · exact refl r
  · exact ((modifyOther r id (f := fun m => { m with listener := some listener })
      (fun m => Nat.le_refl _) (fun m => rfl) (fun m => rfl)).trans (tell _ id _ _)).trans (wake _)

theorem turnListener (r : AuthRealm) (id : AuthId) (closes : Bool) :
    Keeps found r (r.turnListener id closes) := by
  unfold AuthRealm.turnListener
  split
  · exact refl r
  · exact modifyOther r id (fun m => Nat.le_refl _) (fun m => rfl) (fun m => rfl)

theorem close (r : AuthRealm) (id : AuthId) : Keeps found r (r.close id) :=
  (closeManager r id).trans (wake _)

end Keeps

/-! ## Changes that are reported -/

theorem counter_changed (hm : id < r.managers.length) (hc : r.isClosed id = false)
    (hh : r.isHeld id) : r.counter id < (r.changed id).counter id := by
  have hmove : r.counter id < (r.modifyManager id fun m => { m with counter := m.counter + 1 }).counter id := by
    unfold AuthRealm.counter
    rw [r.getElem?_modifyManager, if_pos rfl, List.getElem?_eq_getElem hm]
    exact Nat.lt_succ_self _
  unfold AuthRealm.changed
  rw [if_neg (by simp [hc, hh])]
  exact Nat.lt_of_lt_of_le hmove ((Keeps.tellListener _ id _ : Keeps [] _ _).counter id)

theorem managers_removeListener (r : AuthRealm) (id : AuthId) :
    (r.removeListener id).managers = r.managers := by
  unfold AuthRealm.removeListener
  split
  · rfl
  · split <;> rfl

/-- What is reported to another manager does not concern this one. -/
theorem managers_changed (hne : i ≠ id) : (r.changed i).managers[id]? = r.managers[id]? := by
  have hclose : ∀ r : AuthRealm, (r.closeManager i).managers[id]? = r.managers[id]? := by
    intro r
    unfold AuthRealm.closeManager
    split
    · rfl
    split
    · rfl
    simp only
    split
    · rw [managers_removeListener]
      exact (r.getElem?_modifyManager i id _).trans (if_neg hne)
    · exact (r.getElem?_modifyManager i id _).trans (if_neg hne)
  have htell : ∀ (r : AuthRealm) (uid : Option String),
      (r.tellListener i uid).managers[id]? = r.managers[id]? := by
    intro r uid
    unfold AuthRealm.tellListener AuthRealm.tell
    split
    · rfl
    simp only
    split
    · exact hclose _
    · rfl
  unfold AuthRealm.changed
  split
  · rfl
  · simp only
    rw [htell, r.getElem?_modifyManager, if_neg hne]

/-- **A change that is reported to a manager moves its counter.** -/
theorem counter_notify (hl : id ∈ r.provider.listeners) (hm : id < r.managers.length)
    (hc : r.isClosed id = false) (hh : r.isHeld id) : r.counter id < r.notify.counter id := by
  have hfold : ∀ (ids : List AuthId) (r : AuthRealm), id ∈ ids → id < r.managers.length →
      r.isClosed id = false → r.isHeld id →
      r.counter id < (ids.foldl AuthRealm.changed r).counter id := by
    intro ids
    induction ids with
    | nil => simp
    | cons i ids ih =>
      intro r hi hm hc hh
      -- its own turn moves the counter, and the turns of others leave it open and held
      by_cases hii : i = id
      · subst hii
        exact Nat.lt_of_lt_of_le (counter_changed hm hc hh)
          ((Keeps.foldl ids (fun r j _ => Keeps.changed r j) _ : Keeps [] _ _).counter i)
      · have hsame := managers_changed (r := r) hii
        have hkeep : Keeps [] r (r.changed i) := Keeps.changed r i
        have hmem : id ∈ ids := by
          rcases List.mem_cons.1 hi with rfl | hi
          · exact absurd rfl hii
          · exact hi
        refine Nat.lt_of_le_of_lt (hkeep.counter id) (ih _ hmem (Nat.lt_of_lt_of_le hm hkeep.length) ?_ ?_)
        · unfold AuthRealm.isClosed at hc ⊢
          rw [hsame]
          exact hc
        · unfold AuthRealm.isHeld at hh ⊢
          rw [hsame, hkeep.fetches]
          exact hh
  exact Nat.lt_of_lt_of_le (hfold _ r hl hm hc hh) ((Keeps.wake _ : Keeps [] _ _).counter id)

/-! ## What a fetch can do -/

/-- What decides about fetches stays as it is. -/
structure SameManagers (r r' : AuthRealm) : Prop where
  available : r'.available = r.available
  length : r'.managers.length = r.managers.length
  counter : ∀ id, r'.counter id = r.counter id
  closed : ∀ id, r'.isClosed id = r.isClosed id
  attached : ∀ id, r'.isAttached id = r.isAttached id

theorem SameManagers.of_eq (ha : r'.available = r.available) (h : r'.managers = r.managers) :
    SameManagers r r' := by
  refine ⟨ha, by rw [h], fun id => ?_, fun id => ?_, fun id => ?_⟩
  · unfold AuthRealm.counter; rw [h]
  · unfold AuthRealm.isClosed; rw [h]
  · unfold AuthRealm.isAttached; rw [h]

theorem SameManagers.trans (h : SameManagers r r') (h' : SameManagers r' r'') :
    SameManagers r r'' :=
  ⟨h'.available.trans h.available, h'.length.trans h.length, fun id => (h'.counter id).trans (h.counter id),
    fun id => (h'.closed id).trans (h.closed id), fun id => (h'.attached id).trans (h.attached id)⟩

/-- The force flag does not decide. -/
theorem SameManagers.of_flag (ha : r'.available = r.available) (h : r'.managers = r.managers.modify i fun m =>
    { m with forceRefresh := false }) : SameManagers r r' := by
  have hget : ∀ id : AuthId, r'.managers[id]? = (r.managers[id]?).map fun m =>
      if i = id then { m with forceRefresh := false } else m := by
    intro id
    rw [h, List.getElem?_modify]
    rfl
  refine ⟨ha, by rw [h]; exact List.length_modify .., fun id => ?_, fun id => ?_, fun id => ?_⟩
  · unfold AuthRealm.counter
    rw [hget]
    cases r.managers[id]? with
    | none => rfl
    | some m => by_cases hi : i = id <;> simp [hi]
  · unfold AuthRealm.isClosed
    rw [hget]
    cases r.managers[id]? with
    | none => rfl
    | some m => by_cases hi : i = id <;> simp [hi]
  · unfold AuthRealm.isAttached
    rw [hget]
    cases r.managers[id]? with
    | none => rfl
    | some m => by_cases hi : i = id <;> simp [hi]

namespace FetchStage

/-- A call of the provider has been made out for the fetch, and it has not looked at the answer. -/
def isOutstanding : FetchStage → Bool
  | .calling .. | .fetching .. | .answered .. => true
  | _ => false

/-- The fetch is about to make out a call of the provider. -/
def isAtDoor : FetchStage → Bool
  | .arriving | .overtaken => true
  | _ => false

/-- The fetch has not ended, and no call of it is underway or unanswered. -/
def asksNothing : FetchStage → Bool
  | .arriving | .answered .. | .overtaken => true
  | _ => false

/-- The fetch asks for a token with a call, which has been made out or has reached the provider; the
counter is what it was when the call was made out. -/
inductive Asks (call c : ℕ) : FetchStage → Prop where
  | calling {forced : Bool} : Asks call c (.calling call c forced)
  | fetching : Asks call c (.fetching call c)

theorem Asks.isOutstanding {call c : ℕ} {st : FetchStage} (h : st.Asks call c) : st.isOutstanding := by
  cases h <;> rfl

theorem Asks.ne_ended {call c : ℕ} {st : FetchStage} (h : st.Asks call c) (ending : Ending TokenOutcome) :
    st ≠ .ended ending := by
  cases h <;> simp

theorem Asks.isOpen {call c : ℕ} {x : Fetch} (h : x.stage.Asks call c) : AuthRealm.isOpen x := by
  unfold AuthRealm.isOpen
  generalize x.stage = st at h ⊢
  cases h <;> rfl

theorem asksNothing_of_isAtDoor {st : FetchStage} (h : st.isAtDoor) : st.asksNothing := by
  cases st with
  | arriving => rfl
  | overtaken => rfl
  | _ => simp [isAtDoor] at h

end FetchStage

/-- The fetch begins, or begins anew: the answer it had was overtaken by a change. -/
inductive Begins (r : AuthRealm) (id : AuthId) : FetchStage → Prop where
  | first : Begins r id .arriving
  | anew : Begins r id .overtaken
  | again {call c : ℕ} {reply : TokenReply} (h : r.counter id ≠ c) :
      Begins r id (.answered call c reply)

theorem Begins.of_isAtDoor {st : FetchStage} (h : st.isAtDoor) : Begins r id st := by
  cases st with
  | arriving => exact .first
  | overtaken => exact .anew
  | _ => simp [FetchStage.isAtDoor] at h

/-- **One step of a fetch.** -/
inductive FetchMove (r r' : AuthRealm) (id : AuthId) : FetchStage → FetchStage → Prop where
  | rest {st : FetchStage} (hcalls : r'.calls = r.calls) : FetchMove r r' id st st
  | closed {st : FetchStage} (hs : st.isAtDoor) (hc : r.isClosed id) :
      FetchMove r r' id st (.ended (.returned (.error .authClosed)))
  | absent {st : FetchStage} (hs : st.isAtDoor) (hc : r.isClosed id = false)
      (ha : r.isAttached id = false) : FetchMove r r' id st (.ended (.returned (.ok none)))
  | called {st : FetchStage} {forced : Bool} (hs : st.isAtDoor) (hm : id < r.managers.length)
      (hc : r.isClosed id = false) (ha : r.isAttached id)
      (hcalls : r'.calls.length = r.calls.length + 1) :
      FetchMove r r' id st (.calling (r.calls.length + 1) (r.counter id) forced)
  | reached {call c : ℕ} {forced : Bool} (hc : r.isClosed id = false) (hcalls : r'.calls = r.calls) :
      FetchMove r r' id (.calling call c forced) (.fetching call c)
  | overtaken {call c : ℕ} {reply : TokenReply} (hc : r.isClosed id = false) (hne : r.counter id ≠ c) :
      FetchMove r r' id (.answered call c reply) .overtaken
  | cancelled {st : FetchStage} (hs : st.isOutstanding) (hc : r.isClosed id) :
      FetchMove r r' id st (.ended (.returned (.error .tokenCancelled)))
  | returned {call : ℕ} {reply : TokenReply} (hc : r.isClosed id = false) :
      FetchMove r r' id (.answered call (r.counter id) reply)
        (.ended (.returned (AuthRealm.outcome reply)))

/-- **What a fetch can do at an event:** nothing, one step, several without anything between them, or be
given up. -/
inductive FetchStep (r r' : AuthRealm) (id : AuthId) : FetchStage → FetchStage → Prop where
  | rest {st : FetchStage} : FetchStep r r' id st st
  | dropped {st : FetchStage} (hs : st.isUnderway = false) : FetchStep r r' id st (.ended .dropped)
  | closed {st : FetchStage} (hs : st.isAtDoor) (hc : r.isClosed id) :
      FetchStep r r' id st (.ended (.returned (.error .authClosed)))
  | absent {st : FetchStage} (hs : Begins r id st) (hc : r.isClosed id = false)
      (ha : r.isAttached id = false) : FetchStep r r' id st (.ended (.returned (.ok none)))
  | called {st st' : FetchStage} (hs : Begins r id st) (hm : id < r.managers.length)
      (hc : r.isClosed id = false) (ha : r.isAttached id)
      (hcalls : r'.calls.length = r.calls.length + 1)
      (hasks : st'.Asks (r.calls.length + 1) (r.counter id)) : FetchStep r r' id st st'
  | reached {call c : ℕ} {forced : Bool} (hc : r.isClosed id = false) :
      FetchStep r r' id (.calling call c forced) (.fetching call c)
  | overtaken {call c : ℕ} {reply : TokenReply} (hc : r.isClosed id = false) (hne : r.counter id ≠ c) :
      FetchStep r r' id (.answered call c reply) .overtaken
  | cancelled {st : FetchStage} (hs : st.isOutstanding) (hc : r.isClosed id) :
      FetchStep r r' id st (.ended (.returned (.error .tokenCancelled)))
  | returned {call : ℕ} {reply : TokenReply} (hc : r.isClosed id = false) :
      FetchStep r r' id (.answered call (r.counter id) reply)
        (.ended (.returned (AuthRealm.outcome reply)))

namespace FetchStep

variable {st st₁ st₂ : FetchStage}

/-- What has ended stays so. -/
theorem of_ended {ending : Ending TokenOutcome} (h : FetchStep r r' id (.ended ending) st) :
    st = .ended ending ∨ st = .ended .dropped := by
  cases h with
  | rest => exact .inl rfl
  | dropped => exact .inr rfl
  | closed hs => simp [FetchStage.isAtDoor] at hs
  | absent hb => cases hb
  | called hb => cases hb
  | cancelled ho => simp [FetchStage.isOutstanding] at ho

theorem of_calls (h : FetchStep r r' id st st₁) (hcalls : r''.calls = r'.calls) : FetchStep r r'' id st st₁ := by
  cases h with
  | rest => exact .rest
  | dropped hs => exact .dropped hs
  | closed hs hc => exact .closed hs hc
  | absent hs hc ha => exact .absent hs hc ha
  | called hs hm hc ha hlen hasks => exact .called hs hm hc ha (by rw [hcalls, hlen]) hasks
  | reached hc => exact .reached hc
  | overtaken hc hne => exact .overtaken hc hne
  | cancelled hs hc => exact .cancelled hs hc
  | returned hc => exact .returned hc

/-- **One step more,** with nothing between. -/
theorem andThen (hman : SameManagers r r') (hdoor : st₁.isAtDoor → r'.calls = r.calls)
    (h : FetchStep r r' id st st₁) (h' : FetchMove r' r'' id st₁ st₂) : FetchStep r r'' id st st₂ := by
  cases h' with
  | rest hcalls => exact h.of_calls hcalls
  | closed hs hc =>
    rw [hman.closed] at hc
    cases h with
    | rest => exact .closed hs hc
    | called _ _ _ _ _ hasks => cases hasks <;> simp [FetchStage.isAtDoor] at hs
    | overtaken hopen => simp [hc] at hopen
    | _ => simp [FetchStage.isAtDoor] at hs
  | absent hs hc ha =>
    rw [hman.closed] at hc
    rw [hman.attached] at ha
    cases h with
    | rest => exact .absent (.of_isAtDoor hs) hc ha
    | called _ _ _ _ _ hasks => cases hasks <;> simp [FetchStage.isAtDoor] at hs
    | overtaken _ hne => exact .absent (.again hne) hc ha
    | _ => simp [FetchStage.isAtDoor] at hs
  | @called _ forced hs hm hc ha hlen =>
    have hsame := hdoor hs
    rw [hman.length] at hm
    rw [hman.closed] at hc
    rw [hman.attached] at ha
    rw [hsame] at hlen ⊢
    rw [hman.counter]
    cases h with
    | rest => exact .called (.of_isAtDoor hs) hm hc ha hlen .calling
    | called _ _ _ _ _ hasks => cases hasks <;> simp [FetchStage.isAtDoor] at hs
    | overtaken _ hne => exact .called (.again hne) hm hc ha hlen .calling
    | _ => simp [FetchStage.isAtDoor] at hs
  | reached hc hcalls =>
    rw [hman.closed] at hc
    cases h with
    | rest => exact .reached hc
    | called hs hm hopen ha hlen hasks =>
      cases hasks with
      | calling => exact .called hs hm hopen ha (by rw [hcalls, hlen]) .fetching
  | overtaken hc hne =>
    rw [hman.closed] at hc
    rw [hman.counter] at hne
    cases h with
    | rest => exact .overtaken hc hne
    | called _ _ _ _ _ hasks => cases hasks
  | cancelled hs hc =>
    rw [hman.closed] at hc
    cases h with
    | rest => exact .cancelled hs hc
    | called _ _ hopen => simp [hc] at hopen
    | reached hopen => simp [hc] at hopen
    | _ => simp [FetchStage.isOutstanding] at hs
  | returned hc =>
    rw [hman.closed] at hc
    rw [hman.counter] at h
    cases h with
    | rest => exact .returned hc
    | called _ _ _ _ _ hasks => cases hasks

end FetchStep

theorem FetchMove.step {st st' : FetchStage} (h : FetchMove r r' id st st') : FetchStep r r' id st st' :=
  FetchStep.andThen (.of_eq rfl rfl) (fun _ => rfl) .rest h

/-- A fetch goes on in some way; the others, the queue and what decides stay as they are. -/
structure GoesBy (way : AuthRealm → AuthRealm → AuthId → FetchStage → FetchStage → Prop)
    (r r' : AuthRealm) (f : FetchId) : Prop where
  managers : SameManagers r r'
  queue : r'.queue = r.queue
  count : r'.fetches.length = r.fetches.length
  others : ∀ g, g ≠ f → r'.fetches[g]? = r.fetches[g]?
  own : ∀ y, r'.fetches[f]? = some y → ∃ x, r.fetches[f]? = some x ∧ y.manager = x.manager ∧
    way r r' x.manager x.stage y.stage
  /-- Who asks for nothing then has made out no call. -/
  calls : ∀ y, r'.fetches[f]? = some y → y.stage.asksNothing → r'.calls = r.calls

/-- A fetch takes some steps. -/
abbrev Goes := GoesBy FetchStep

namespace GoesBy

variable {way : AuthRealm → AuthRealm → AuthId → FetchStage → FetchStage → Prop}

theorem of_rest (hway : ∀ id st, way r r id st st) (f : FetchId) : GoesBy way r r f :=
  ⟨.of_eq rfl rfl, rfl, rfl, fun _ _ => rfl, fun y hy => ⟨y, hy, rfl, hway _ _⟩, fun _ _ _ => rfl⟩

/-- A fetch comes to a stage. -/
theorem of_stage {x : Fetch} {st : FetchStage} (hx : r.fetches[f]? = some x)
    (hf : r'.fetches = (r.setStage f st).fetches) (hm : SameManagers r r') (hq : r'.queue = r.queue)
    (hst : way r r' x.manager x.stage st) (hcalls : st.asksNothing → r'.calls = r.calls) :
    GoesBy way r r' f := by
  have hget : ∀ g : FetchId, r'.fetches[g]? = (r.fetches[g]?).map fun y =>
      if f = g then { y with stage := st } else y := by
    intro g
    rw [hf]
    exact List.getElem?_modify ..
  have hown : ∀ y, r'.fetches[f]? = some y → y = { x with stage := st } := by
    intro y hy
    rw [hget, hx] at hy
    simpa using hy.symm
  refine ⟨hm, hq, by rw [hf]; exact List.length_modify .., fun g hg => ?_, fun y hy => ?_, fun y hy ho => ?_⟩
  · rw [hget]
    cases r.fetches[g]? with
    | none => rfl
    | some y => simp [Ne.symm hg]
  · obtain rfl := hown y hy
    exact ⟨x, hx, rfl, hst⟩
  · obtain rfl := hown y hy
    exact hcalls ho

/-- A fetch ends. -/
theorem finish {x : Fetch} {ending : Ending TokenOutcome} (hx : r.fetches[f]? = some x)
    (hst : FetchMove r (r.finish f ending) x.manager x.stage (.ended ending)) :
    GoesBy FetchMove r (r.finish f ending) f :=
  of_stage hx rfl (.of_eq rfl rfl) rfl hst fun _ => rfl

/-- A fetch makes out a call, or ends without one. -/
theorem makeCall {x : Fetch} (hx : r.fetches[f]? = some x) (hs : x.stage.isAtDoor) :
    GoesBy FetchMove r (r.makeCall f x.manager) f := by
  unfold AuthRealm.makeCall
  split
  · exact of_rest (fun _ _ => .rest rfl) f
  rename_i m hm
  have hlt := (List.getElem?_eq_some_iff.1 hm).1
  have hclosed : r.isClosed x.manager = m.closed := by simp [AuthRealm.isClosed, hm]
  have hatt : r.isAttached x.manager = m.attached := by simp [AuthRealm.isAttached, hm]
  have hcount : r.counter x.manager = m.counter := by simp [AuthRealm.counter, hm]
  split
  · rename_i hmc
    exact finish hx (.closed hs (hclosed.trans hmc))
  rename_i hmc
  have hopen : r.isClosed x.manager = false := by rw [hclosed]; simpa using hmc
  split
  · rename_i ha
    exact finish hx (.absent hs hopen (by rw [hatt]; simpa using ha))
  · rename_i ha
    refine of_stage hx rfl (.of_flag rfl rfl) rfl ?_ fun ho => by simp [FetchStage.asksNothing] at ho
    rw [← hcount]
    exact .called hs hlt hopen (by rw [hatt]; simpa using ha) (List.length_append ..)

/-- A fetch looks at its answer. -/
theorem lookAtReply {x : Fetch} {call c : ℕ} {reply : TokenReply} (hx : r.fetches[f]? = some x)
    (hst : x.stage = .answered call c reply) : GoesBy FetchMove r (r.lookAtReply f x.manager c reply) f := by
  unfold AuthRealm.lookAtReply
  split
  · exact of_rest (fun _ _ => .rest rfl) f
  rename_i m hm
  have hclosed : r.isClosed x.manager = m.closed := by simp [AuthRealm.isClosed, hm]
  have hcount : r.counter x.manager = m.counter := by simp [AuthRealm.counter, hm]
  split
  · rename_i hmc
    exact finish hx (.cancelled (by rw [hst]; rfl) (hclosed.trans hmc))
  rename_i hmc
  have hopen : r.isClosed x.manager = false := by rw [hclosed]; simpa using hmc
  -- a change since the call throws the answer away
  split
  · rename_i hne
    refine of_stage hx rfl (.of_eq rfl rfl) rfl ?_ fun _ => rfl
    rw [hst]
    exact .overtaken hopen (by rw [hcount]; exact hne)
  rename_i heq
  have heq' : m.counter = c := by simpa using heq
  -- what is said of the answer is all that is between
  have hsaid : ∀ n : Option String, GoesBy FetchMove r
      (AuthRealm.finish (n.elim r fun text => r.note (.warned text)) f (.returned (AuthRealm.outcome reply))) f := by
    intro n
    have hst' : FetchMove r (AuthRealm.finish (n.elim r fun text => r.note (.warned text)) f
        (.returned (AuthRealm.outcome reply))) x.manager x.stage
        (.ended (.returned (AuthRealm.outcome reply))) := by
      rw [hst, ← heq', ← hcount]
      exact .returned hopen
    refine of_stage hx ?_ (.of_eq ?_ ?_) ?_ hst' fun _ => ?_
    all_goals cases n <;> rfl
  exact hsaid _

/-- **What a fetch does in one step.** -/
theorem moveFetch (r : AuthRealm) (f : FetchId) : GoesBy FetchMove r (r.moveFetch f) f := by
  have hrest : GoesBy FetchMove r r f := of_rest (fun _ _ => .rest rfl) f
  unfold AuthRealm.moveFetch
  split
  · exact hrest
  rename_i x hx
  split
  · rename_i hst
    exact makeCall hx (by rw [hst]; rfl)
  · rename_i hst
    exact makeCall hx (by rw [hst]; rfl)
  · rename_i call c forced hst
    split
    · rename_i hc
      exact finish hx (.cancelled (by rw [hst]; rfl) hc)
    · rename_i hc
      refine of_stage hx rfl (.of_eq rfl rfl) rfl ?_ fun ho => by simp [FetchStage.asksNothing] at ho
      rw [hst]
      exact .reached (by simpa using hc) rfl
  · rename_i hst
    -- it waits on, unless its manager has been closed
    split
    · rename_i hc
      exact finish hx (.cancelled (by rw [hst]; rfl) hc)
    · exact hrest
  · rename_i hst
    exact lookAtReply hx hst
  · exact hrest

end GoesBy

namespace Goes

/-- **One step more.** -/
theorem andThen (h : Goes r r' f) (h' : GoesBy FetchMove r' r'' f) : Goes r r'' f := by
  refine ⟨h.managers.trans h'.managers, h'.queue.trans h.queue, h'.count.trans h.count,
    fun g hg => (h'.others g hg).trans (h.others g hg), fun z hz => ?_, fun z hz ho => ?_⟩
  · obtain ⟨y, hy, hid', hmove⟩ := h'.own z hz
    obtain ⟨x, hx, hid, hstep⟩ := h.own y hy
    rw [hid] at hmove
    exact ⟨x, hx, hid'.trans hid, .andThen h.managers
      (fun hs => h.calls y hy (FetchStage.asksNothing_of_isAtDoor hs)) hstep hmove⟩
  · obtain ⟨y, hy, -, hmove⟩ := h'.own z hz
    refine (h'.calls z hz ho).trans (h.calls y hy ?_)
    generalize y.stage = st at hmove
    generalize z.stage = st' at hmove ho
    cases hmove with
    | rest => exact ho
    | overtaken => rfl
    | _ => simp [FetchStage.asksNothing] at ho

theorem moveFetch (r : AuthRealm) (f : FetchId) : Goes r (r.moveFetch f) f :=
  andThen (.of_rest (fun _ _ => .rest) f) (.moveFetch r f)

/-- **What a fetch does when it goes on.** -/
theorem runFetch (r : AuthRealm) (f : FetchId) : Goes r (r.runFetch f) f :=
  ((moveFetch r f).andThen (.moveFetch _ f)).andThen (.moveFetch _ f)

theorem same {r₁ : AuthRealm} (h : Goes r₁ r' f) (ha : r₁.available = r.available)
    (hm : r₁.managers = r.managers) : SameManagers r r' :=
  (SameManagers.of_eq ha hm).trans h.managers

end Goes

/-! ## What an event can do -/

/-- The stage from which a fetch goes on at an event. -/
inductive Before (r : AuthRealm) (ev : AuthEvent) (f : FetchId) (id : AuthId) : FetchStage → Prop where
  | there {x : Fetch} (h : r.fetches[f]? = some x) (hid : x.manager = id) : Before r ev f id x.stage
  /-- It comes with the event. -/
  | fresh (h : r.fetches[f]? = none) : Before r ev f id .arriving
  /-- It is answered by the event. -/
  | replied {x : Fetch} {call c : ℕ} {reply : TokenReply} (h : r.fetches[f]? = some x)
      (hid : x.manager = id) (hst : x.stage = .fetching call c)
      (hev : ev = .answer f reply ∨ ev = .answerNow f reply) :
      Before r ev f id (.answered call c reply)

/-- What an event makes of a fetch. -/
def FetchMoves (r : AuthRealm) (ev : AuthEvent) (f : FetchId) (r' : AuthRealm) : Prop :=
  ∀ y, r'.fetches[f]? = some y → ∃ st, Before r ev f y.manager st ∧
    FetchStep r r' y.manager st y.stage

/-- The managers and the calls are what counts. -/
theorem FetchStep.congr {r₁ : AuthRealm} {st st' : FetchStage} (h : FetchStep r₁ r' id st st')
    (hm : r₁.managers = r.managers) (hcalls : r₁.calls = r.calls)
    (hcalls' : r''.calls = r'.calls) : FetchStep r r'' id st st' := by
  have hclosed : r₁.isClosed id = r.isClosed id := by unfold AuthRealm.isClosed; rw [hm]
  have hatt : r₁.isAttached id = r.isAttached id := by unfold AuthRealm.isAttached; rw [hm]
  have hcount : r₁.counter id = r.counter id := by unfold AuthRealm.counter; rw [hm]
  have hbegins : Begins r₁ id st → Begins r id st := by
    rintro (_ | _ | hne)
    · exact .first
    · exact .anew
    · exact .again (by rw [← hcount]; exact hne)
  cases h with
  | rest => exact .rest
  | dropped hs => exact .dropped hs
  | closed hs hc => exact .closed hs (by rw [← hclosed]; exact hc)
  | absent hs hc ha => exact .absent (hbegins hs) (by rw [← hclosed]; exact hc) (by rw [← hatt]; exact ha)
  | called hs hlt hc ha hlen hasks =>
    rw [hcalls, hcount] at hasks
    exact .called (hbegins hs) (by rw [← hm]; exact hlt) (by rw [← hclosed]; exact hc)
      (by rw [← hatt]; exact ha) (by rw [hcalls', hlen, hcalls]) hasks
  | reached hc => exact .reached (by rw [← hclosed]; exact hc)
  | overtaken hc hne => exact .overtaken (by rw [← hclosed]; exact hc) (by rw [← hcount]; exact hne)
  | cancelled hs hc => exact .cancelled hs (by rw [← hclosed]; exact hc)
  | returned hc =>
    rw [hcount]
    exact .returned (by rw [← hclosed]; exact hc)

namespace FetchMoves

variable {ev : AuthEvent}

theorem of_fetches (h : r'.fetches = r.fetches) : FetchMoves r ev f r' := by
  intro y hy
  rw [h] at hy
  exact ⟨y.stage, .there hy rfl, .rest⟩

/-- A fetch goes on from a realm that differs in fetches and queue only. -/
theorem of_goes {r₁ : AuthRealm} (hg : Goes r₁ r' g) (hm : r₁.managers = r.managers)
    (hcalls : r₁.calls = r.calls)
    (hbefore : ∀ x, r₁.fetches[f]? = some x → Before r ev f x.manager x.stage) :
    FetchMoves r ev f r' := by
  intro y hy
  by_cases hfg : f = g
  · subst hfg
    obtain ⟨x, hx, hid, hst⟩ := hg.own y hy
    rw [hid]
    exact ⟨x.stage, hbefore x hx, hst.congr hm hcalls rfl⟩
  · rw [hg.others f hfg] at hy
    exact ⟨y.stage, hbefore y hy, .rest⟩

end FetchMoves

theorem before_append {manager : AuthId} {ev : AuthEvent} {x : Fetch}
    (hx : (r.fetches ++ [({ manager } : Fetch)])[f]? = some x) : Before r ev f x.manager x.stage := by
  rcases Nat.lt_or_ge f r.fetches.length with hlt | hge
  · rw [List.getElem?_append_left hlt] at hx
    exact .there hx rfl
  · rw [List.getElem?_append_right hge] at hx
    rw [List.mem_singleton.1 (List.mem_of_getElem? hx)]
    exact .fresh (List.getElem?_eq_none_iff.2 hge)

/-- An answer reaches the fetch that waits for it. -/
theorem before_setReply {reply : TokenReply} {ev : AuthEvent}
    (hev : ev = .answer g reply ∨ ev = .answerNow g reply) {x : Fetch}
    (hx : (r.setReply g reply).fetches[f]? = some x) : Before r ev f x.manager x.stage := by
  unfold AuthRealm.setReply at hx
  split at hx
  · rename_i call c hst
    have hx' : (r.fetches.modify g fun y => { y with stage := .answered call c reply })[f]? = some x := hx
    rw [List.getElem?_modify] at hx'
    obtain ⟨y, hy, hyx⟩ := Option.map_eq_some_iff.1 hx'
    split at hyx
    · rename_i hgf
      subst hgf
      have hyst : y.stage = .fetching call c := by
        unfold AuthRealm.stage? at hst
        rw [hy] at hst
        exact Option.some.inj hst
      rw [← hyx]
      exact .replied hy rfl hyst hev
    · obtain rfl : y = x := hyx
      exact .there hy rfl
  · exact .there hx rfl

theorem length_setReply (r : AuthRealm) (f : FetchId) (reply : TokenReply) :
    (r.setReply f reply).fetches.length = r.fetches.length := by
  unfold AuthRealm.setReply
  split
  · exact List.length_modify ..
  · rfl

theorem setReply_same (r : AuthRealm) (f : FetchId) (reply : TokenReply) :
    (r.setReply f reply).available = r.available ∧ (r.setReply f reply).managers = r.managers ∧
      (r.setReply f reply).calls = r.calls ∧ (r.setReply f reply).queue = r.queue := by
  unfold AuthRealm.setReply
  split
  · exact ⟨rfl, rfl, rfl, rfl⟩
  · exact ⟨rfl, rfl, rfl, rfl⟩

/-- Queueing a fetch changes nothing else. -/
theorem wakeFetch_same (r : AuthRealm) (f : FetchId) :
    (r.wakeFetch f).available = r.available ∧ (r.wakeFetch f).managers = r.managers ∧
      (r.wakeFetch f).calls = r.calls ∧ (r.wakeFetch f).fetches = r.fetches := by
  unfold AuthRealm.wakeFetch
  split
  · exact ⟨rfl, rfl, rfl, rfl⟩
  · exact ⟨rfl, rfl, rfl, rfl⟩

/-- Who is underway is not given up. -/
theorem AuthRealm.abort_underway {f : FetchId} (h : (r.stage? f).any FetchStage.isUnderway) : r.abort f = r := by
  unfold AuthRealm.abort
  split
  · rfl
  · rfl
  · rename_i stage _ hst
    rw [hst] at h
    exact if_pos h

/-- An event that fetches are not concerned with. -/
def AuthEvent.IsOutside : AuthEvent → Prop
  | .fetch _ | .fetchNow _ | .answer .. | .answerNow .. | .poll | .go _ | .abort _ => False
  | _ => True

/-- The managers that find the provider at an event. -/
def AuthEvent.finding (r : AuthRealm) : AuthEvent → List AuthId
  | .create _ => [r.managers.length]
  | .provide => r.waiting
  | _ => []

/-- **What an event from outside can do.** -/
theorem step_keeps (r : AuthRealm) {ev : AuthEvent} (hev : ev.IsOutside) :
    Keeps (ev.finding r) r (r.step ev) := by
  cases ev with
  | create unavailable => exact .create r unavailable
  | provide => exact .provide r
  | notify => exact .notify r
  | setUser uid => exact .of_same rfl rfl rfl (fun h => h) rfl
  | setProvider a b c => exact .of_same rfl rfl rfl (fun h => h) rfl
  | turnListener id closes => exact .turnListener r id closes
  | forceRefresh id => exact .modifyOther r id (fun m => Nat.le_refl _) (fun m => rfl) (fun m => rfl)
  | listen id listener => exact .listen r id listener
  | close id => exact .close r id
  | hold id => exact .modifyOther r id (fun m => Nat.le_refl _) (fun m => rfl) (fun m => rfl)
  | letGo id => exact .modifyOther r id (fun m => Nat.le_refl _) (fun m => rfl) (fun m => rfl)
  | _ => exact hev.elim

/-- **What an event that a fetch is concerned with can do.** -/
theorem step_goes (r : AuthRealm) {ev : AuthEvent} (hev : ¬ ev.IsOutside) :
    SameManagers r (r.step ev) ∧ ∀ f, FetchMoves r ev f (r.step ev) := by
  cases ev with
  | fetch manager => exact ⟨.of_eq rfl rfl, fun f y hy => ⟨_, before_append hy, .rest⟩⟩
  | fetchNow manager =>
    have hg := Goes.runFetch { r with fetches := r.fetches ++ [{ manager }] } r.fetches.length
    exact ⟨hg.same rfl rfl, fun f => .of_goes hg rfl rfl fun x hx => before_append hx⟩
  | answer g reply =>
    obtain ⟨ha, hm, hcalls, -⟩ := setReply_same r g reply
    obtain ⟨ha', hm', -, hf⟩ := wakeFetch_same (r.setReply g reply) g
    refine ⟨.of_eq (ha'.trans ha) (hm'.trans hm), fun f y hy => ?_⟩
    rw [show (r.step (.answer g reply)).fetches = (r.setReply g reply).fetches from hf] at hy
    exact ⟨y.stage, before_setReply (.inl rfl) hy, .rest⟩
  | answerNow g reply =>
    obtain ⟨ha, hm, hcalls, -⟩ := setReply_same r g reply
    have hg := Goes.runFetch (r.setReply g reply) g
    exact ⟨hg.same ha hm,
      fun f => .of_goes hg hm hcalls fun x hx => before_setReply (.inr rfl) hx⟩
  | poll =>
    show SameManagers r r.poll ∧ ∀ f, FetchMoves r .poll f r.poll
    unfold AuthRealm.poll
    split
    · exact ⟨.of_eq rfl rfl, fun f => .of_fetches rfl⟩
    · rename_i g rest _
      have hg := Goes.runFetch { r with queue := rest } g
      exact ⟨hg.same rfl rfl, fun f => .of_goes hg rfl rfl fun x hx => .there hx rfl⟩
  | go g =>
    have hg := Goes.moveFetch r g
    obtain ⟨ha, hm, hcalls, hf⟩ := wakeFetch_same (r.moveFetch g) g
    refine ⟨hg.managers.trans (.of_eq ha hm), fun f y hy => ?_⟩
    rw [show (r.step (.go g)).fetches = (r.moveFetch g).fetches from hf] at hy
    obtain ⟨st, hb, hs⟩ := FetchMoves.of_goes (r := r) hg rfl rfl (fun x hx => .there hx rfl) y hy
    exact ⟨st, hb, hs.of_calls hcalls⟩
  | abort g =>
    show SameManagers r (r.abort g) ∧ ∀ f, FetchMoves r (.abort g) f (r.abort g)
    have hsame : SameManagers r r ∧ ∀ f, FetchMoves r (.abort g) f r := ⟨.of_eq rfl rfl, fun f => .of_fetches rfl⟩
    unfold AuthRealm.abort
    split
    · exact hsame
    · exact hsame
    rename_i stage _ hstage
    split
    · exact hsame
    rename_i hunder
    refine ⟨.of_eq rfl rfl, fun f y hy => ?_⟩
    have hy' : (r.fetches.modify g fun x => { x with stage := .ended .dropped })[f]? = some y := hy
    rw [List.getElem?_modify] at hy'
    obtain ⟨x, hx, hxy⟩ := Option.map_eq_some_iff.1 hy'
    by_cases hfg : g = f
    · subst hfg
      rw [if_pos rfl] at hxy
      have hxst : x.stage = stage := by
        unfold AuthRealm.stage? at hstage
        rw [hx] at hstage
        exact Option.some.inj hstage
      rw [← hxy]
      exact ⟨x.stage, .there hx rfl, .dropped (by rw [hxst]; simpa using hunder)⟩
    · rw [if_neg hfg] at hxy
      rw [← hxy]
      exact ⟨x.stage, .there hx rfl, .rest⟩
  | _ => exact absurd trivial hev

/-- **Counters do not go back, and what is closed stays closed.** -/
theorem step_mono (r : AuthRealm) (ev : AuthEvent) :
    r.managers.length ≤ (r.step ev).managers.length ∧
      (∀ id, r.counter id ≤ (r.step ev).counter id) ∧
      ∀ id, r.isClosed id → (r.step ev).isClosed id := by
  by_cases hev : ev.IsOutside
  · have h := step_keeps r hev
    exact ⟨h.length, h.counter, h.closed⟩
  · obtain ⟨h, -⟩ := step_goes r hev
    exact ⟨Nat.le_of_eq h.length.symm, fun id => Nat.le_of_eq (h.counter id).symm,
      fun id hc => (h.closed id).trans hc⟩

/-- No fetch is forgotten. -/
theorem step_length (r : AuthRealm) (ev : AuthEvent) :
    r.fetches.length ≤ (r.step ev).fetches.length := by
  by_cases hev : ev.IsOutside
  · exact Nat.le_of_eq (congrArg List.length (step_keeps r hev).fetches.symm)
  cases ev with
  | fetch manager => simp [AuthRealm.step, AuthRealm.fetch]
  | fetchNow manager =>
    have hg := Goes.runFetch { r with fetches := r.fetches ++ [{ manager }] } r.fetches.length
    have hcount : (r.step (.fetchNow manager)).fetches.length = _ := hg.count
    simp [hcount]
  | answer g reply =>
    have hwake : Keeps [] (r.setReply g reply) (r.step (.answer g reply)) := Keeps.wakeFetch _ g
    exact Nat.le_of_eq ((congrArg List.length hwake.fetches).trans (length_setReply r g reply)).symm
  | answerNow g reply =>
    have hcount := (Goes.runFetch (r.setReply g reply) g).count
    exact Nat.le_of_eq (hcount.trans (length_setReply r g reply)).symm
  | poll =>
    show _ ≤ r.poll.fetches.length
    unfold AuthRealm.poll
    split
    · exact Nat.le_refl _
    · rename_i g rest _
      exact Nat.le_of_eq (Goes.runFetch { r with queue := rest } g).count.symm
  | go g =>
    show _ ≤ ((r.moveFetch g).wakeFetch g).fetches.length
    rw [(wakeFetch_same (r.moveFetch g) g).2.2.2]
    exact Nat.le_of_eq (Goes.moveFetch r g).count.symm
  | abort g =>
    show _ ≤ (r.abort g).fetches.length
    unfold AuthRealm.abort
    split
    · exact Nat.le_refl _
    · exact Nat.le_refl _
    split
    · exact Nat.le_refl _
    · exact Nat.le_of_eq (List.length_modify ..).symm
  | _ => exact absurd trivial hev

theorem step_moves (r : AuthRealm) (ev : AuthEvent) (f : FetchId) : FetchMoves r ev f (r.step ev) := by
  by_cases hev : ev.IsOutside
  · exact .of_fetches (step_keeps r hev).fetches
  · exact (step_goes r hev).2 f

end QueryClient
