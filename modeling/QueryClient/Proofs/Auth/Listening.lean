import QueryClient.Proofs.Auth.Events

/-!
# Managers listen to their provider

A manager that can ask the provider has not been closed and is among the provider's listeners, so that
no change escapes it.

* `Listens`: a manager listens to the provider if it can ask it.
* `Listens.step`: **whatever happens in the realm,** this stays so.
-/

namespace QueryClient

/-- A manager that can ask the provider is open and listens to it. Unless `strict`, it need not listen
yet. -/
structure Listens (strict : Prop) (r : AuthRealm) (id : AuthId) : Prop where
  opened : r.isAttached id → r.isClosed id = false
  listens : strict → r.isAttached id → id ∈ r.provider.listeners

variable {strict : Prop} {r r' : AuthRealm} {id i : AuthId} {f : FetchId} {ev : AuthEvent}

namespace Listens

/-- Nothing happens to the managers or to the listeners. -/
theorem of_eq (h : Listens strict r id) (hm : r'.managers = r.managers)
    (hp : r'.provider.listeners = r.provider.listeners) : Listens strict r' id := by
  have hatt : r'.isAttached id = r.isAttached id := by
    unfold AuthRealm.isAttached
    rw [hm]
  have hclosed : r'.isClosed id = r.isClosed id := by
    unfold AuthRealm.isClosed
    rw [hm]
  exact ⟨by rw [hatt, hclosed]; exact h.opened, by rw [hatt, hp]; exact h.listens⟩

theorem note (h : Listens strict r id) (n : AuthNote) : Listens strict (r.note n) id := h.of_eq rfl rfl

/-- A manager changes, and what is attached then was so before and has not been closed. -/
theorem modify (h : Listens strict r id) {F : TokenManager → TokenManager}
    (hF : ∀ m, (F m).attached → m.attached ∧ (F m).closed = m.closed) :
    Listens strict (r.modifyManager i F) id := by
  have hback : (r.modifyManager i F).isAttached id →
      r.isAttached id ∧ (r.modifyManager i F).isClosed id = r.isClosed id := by
    unfold AuthRealm.isAttached AuthRealm.isClosed
    rw [r.getElem?_modifyManager]
    by_cases hi : i = id
    · rw [if_pos hi]
      cases r.managers[id]? with
      | none => simp
      | some m => exact hF m
    · rw [if_neg hi]
      exact fun ha => ⟨ha, rfl⟩
  refine ⟨fun ha => ?_, fun hs ha => h.listens hs (hback ha).1⟩
  rw [(hback ha).2]
  exact h.opened (hback ha).1

/-- Who leaves the provider cannot ask it. -/
theorem removeListener (h : Listens strict r id) (hi : i = id → ¬ r.isAttached id) :
    Listens strict (r.removeListener i) id := by
  unfold AuthRealm.removeListener
  split
  · refine ⟨h.opened, fun hs ha => ?_⟩
    exact (List.mem_erase_of_ne fun hid => hi hid.symm ha).2 (h.listens hs ha)
  · simp only
    split
    · exact h.of_eq rfl rfl
    · exact h.of_eq rfl rfl

theorem closeManager (h : Listens strict r id) (i : AuthId) : Listens strict (r.closeManager i) id := by
  unfold AuthRealm.closeManager
  split
  · exact h
  split
  · exact h
  have hclosed : Listens strict (r.modifyManager i fun m =>
      { m with closed := true, listener := none, attached := false, registered := false }) id :=
    h.modify (by simp)
  have hnoted := hclosed.note (.closed i)
  simp only
  split
  · refine hnoted.removeListener fun hi => ?_
    show ¬ (((r.modifyManager i _).managers[id]?).any (·.attached))
    rw [r.getElem?_modifyManager, if_pos hi]
    cases r.managers[id]? <;> simp
  · exact hnoted

theorem tell (h : Listens strict r id) (i : AuthId) (listener : ChangeListener) (uid : Option String) :
    Listens strict (r.tell i listener uid) id := by
  have hnote := h.note (.reported i listener.label uid)
  unfold AuthRealm.tell
  simp only
  split
  · exact hnote.closeManager i
  · exact hnote

theorem tellListener (h : Listens strict r id) (i : AuthId) (uid : Option String) :
    Listens strict (r.tellListener i uid) id := by
  unfold AuthRealm.tellListener
  split
  · exact h
  · exact h.tell i _ uid

theorem changed (h : Listens strict r id) (i : AuthId) : Listens strict (r.changed i) id := by
  unfold AuthRealm.changed
  split
  · exact h
  · have hmoved : Listens strict (r.modifyManager i fun m => { m with counter := m.counter + 1 }) id :=
      h.modify fun m ha => ⟨ha, rfl⟩
    exact hmoved.tellListener i _

/-- **Who becomes a listener listens,** or does not ask the provider. -/
theorem register (h : Listens (i ≠ id) r id) : Listens True (r.register i) id := by
  unfold AuthRealm.register
  have hclose : Listens (i ≠ id) (r.provider.closedOnAdd.elim r r.closeManager) id := by
    cases r.provider.closedOnAdd with
    | none => exact h
    | some j => exact h.closeManager j
  generalize r.provider.closedOnAdd.elim r r.closeManager = r₁ at hclose
  simp only
  split
  · -- it is refused, and does without the provider
    rename_i e _
    have hnoted := hclose.note (.joined i (some e))
    generalize r₁.note (.joined i (some e)) = r₂ at hnoted
    have hwarn : ∀ n : AuthNote,
        Listens (i ≠ id) (if e.kind = .appDeleted then r₂ else r₂.note n) id := by
      intro n
      split
      · exact hnoted
      · exact hnoted.note n
    have hrefused : ∀ n : AuthNote, Listens (i ≠ id)
        ((if e.kind = .appDeleted then r₂ else r₂.note n).modifyManager i fun m =>
          { m with attached := false }) id := fun n => (hwarn n).modify (by simp)
    refine ⟨(hrefused _).opened, fun _ ha => (hrefused _).listens (fun hi => ?_) ha⟩
    unfold AuthRealm.isAttached at ha
    rw [AuthRealm.getElem?_modifyManager, if_pos hi, Option.any_eq_true] at ha
    obtain ⟨m, hm, hma⟩ := ha
    obtain ⟨m₀, -, rfl⟩ := Option.map_eq_some_iff.1 hm
    simp at hma
  · have hadd : Listens True { r₁ with provider := { r₁.provider with
        listeners := r₁.provider.listeners ++ [i] } } id := by
      refine ⟨hclose.opened, fun _ ha => ?_⟩
      by_cases hi : i = id
      · exact List.mem_append_right _ (List.mem_singleton.2 hi.symm)
      · exact List.mem_append_left _ (hclose.listens hi ha)
    have hnoted := hadd.note (.joined i none)
    split
    · -- it has been closed meanwhile
      rename_i hc
      refine hnoted.removeListener fun hi ha => ?_
      have hopen := hclose.opened ha
      rw [← hi] at hopen
      have hc : r₁.isClosed i = true := hc
      rw [hopen] at hc
      simp at hc
    · exact hnoted.modify fun m ha => ⟨ha, rfl⟩

/-- **Who finds the provider listens to it.** -/
theorem arrived (h : Listens True r id) (i : AuthId) : Listens True (r.arrived i) id := by
  unfold AuthRealm.arrived
  split
  · exact h
  rename_i hi
  have hfound : Listens (i ≠ id) (r.modifyManager i fun m =>
      { m with attached := true, counter := m.counter + 1 }) id := by
    by_cases hid : i = id
    · refine ⟨fun _ => ?_, fun hne => absurd hid hne⟩
      have hc : r.isClosed i = false := by
        cases hc : r.isClosed i with
        | false => rfl
        | true => simp [hc] at hi
      unfold AuthRealm.isClosed at hc ⊢
      rw [r.getElem?_modifyManager, if_pos hid]
      rw [hid] at hc
      cases hm : r.managers[id]? with
      | none => rfl
      | some m => rw [hm] at hc; exact hc
    · have hsame : (r.modifyManager i fun m =>
          { m with attached := true, counter := m.counter + 1 }).managers[id]? = r.managers[id]? := by
        rw [r.getElem?_modifyManager, if_neg hid]
      refine ⟨fun ha => ?_, fun _ ha => h.listens trivial ?_⟩
      · unfold AuthRealm.isAttached at ha
        unfold AuthRealm.isClosed
        rw [hsame] at ha ⊢
        exact h.opened ha
      · unfold AuthRealm.isAttached at ha ⊢
        rw [hsame] at ha
        exact ha
  exact (hfound.tellListener i _).register

theorem foldl {op : AuthRealm → AuthId → AuthRealm}
    (hop : ∀ r i, Listens strict r id → Listens strict (op r i) id) :
    ∀ (ids : List AuthId) (r : AuthRealm), Listens strict r id → Listens strict (ids.foldl op r) id := by
  intro ids
  induction ids with
  | nil => exact fun r h => h
  | cons i ids ih => exact fun r h => ih _ (hop r i h)

theorem wakeFetch (h : Listens strict r id) (f : FetchId) : Listens strict (r.wakeFetch f) id := by
  unfold AuthRealm.wakeFetch
  split
  · exact h.of_eq rfl rfl
  · exact h

theorem wake (h : Listens strict r id) : Listens strict r.wake id :=
  foldl (fun _ f h => h.wakeFetch f) _ r h

/-! ## What fetches do -/

theorem makeCall (h : Listens strict r id) (f : FetchId) (i : AuthId) :
    Listens strict (r.makeCall f i) id := by
  unfold AuthRealm.makeCall
  split
  · exact h
  split
  · exact h.of_eq rfl rfl
  split
  · exact h.of_eq rfl rfl
  · have hflag : Listens strict (r.modifyManager i fun m => { m with forceRefresh := false }) id :=
      h.modify fun m ha => ⟨ha, rfl⟩
    exact hflag.of_eq rfl rfl

theorem lookAtReply (h : Listens strict r id) (f : FetchId) (i : AuthId) (counter : ℕ) (reply : TokenReply) :
    Listens strict (r.lookAtReply f i counter reply) id := by
  have hsaid : ∀ n : Option String, Listens strict (n.elim r fun text => r.note (.warned text)) id := by
    intro n
    cases n with
    | none => exact h
    | some text => exact h.of_eq rfl rfl
  unfold AuthRealm.lookAtReply
  split
  · exact h
  split
  · exact h.of_eq rfl rfl
  split
  · exact h.of_eq rfl rfl
  · exact (hsaid _).of_eq rfl rfl

theorem moveFetch (h : Listens strict r id) (f : FetchId) : Listens strict (r.moveFetch f) id := by
  unfold AuthRealm.moveFetch
  split
  · exact h
  split
  · exact h.makeCall f _
  · exact h.makeCall f _
  · split
    · exact h.of_eq rfl rfl
    · exact h.of_eq rfl rfl
  · split
    · exact h.of_eq rfl rfl
    · exact h
  · exact h.lookAtReply f _ _ _
  · exact h

theorem runFetch (h : Listens strict r id) (f : FetchId) : Listens strict (r.runFetch f) id :=
  ((h.moveFetch f).moveFetch f).moveFetch f

theorem setReply (h : Listens strict r id) (f : FetchId) (reply : TokenReply) :
    Listens strict (r.setReply f reply) id := by
  unfold AuthRealm.setReply
  split
  · exact h.of_eq rfl rfl
  · exact h

/-! ## Whatever happens -/

/-- A new manager cannot ask the provider yet. -/
theorem add (h : Listens strict r id) :
    Listens strict { r with managers := r.managers ++ [{}] } id := by
  have hadd : Keeps [] r { r with managers := r.managers ++ [{}] } := .add r
  have hback := (hadd.attached id (by simp)).1
  refine ⟨fun ha => ?_, fun hs ha => h.listens hs (hback ha)⟩
  have hopen := h.opened (hback ha)
  have hlt : id < r.managers.length := by
    have ha := hback ha
    unfold AuthRealm.isAttached at ha
    by_contra hge
    rw [List.getElem?_eq_none_iff.2 (Nat.le_of_not_lt hge)] at ha
    simp at ha
  unfold AuthRealm.isClosed at hopen ⊢
  rw [List.getElem?_append_left hlt]
  exact hopen

/-- **Managers listen to their provider,** whatever happens. -/
theorem step (h : Listens True r id) (ev : AuthEvent) : Listens True (r.step ev) id := by
  cases ev with
  | create unavailable =>
    show Listens True (r.create unavailable).1 id
    unfold AuthRealm.create
    simp only
    split
    · exact h.add
    split
    · exact (h.add.arrived _).wake
    · exact h.add.of_eq rfl rfl
  | provide =>
    show Listens True r.provide id
    unfold AuthRealm.provide
    split
    · exact h.of_eq rfl rfl
    · have hready : Listens True { r with available := true, waiting := [] } id := h.of_eq rfl rfl
      exact (foldl (fun _ i h => h.arrived i) _ _ hready).wake
  | notify => exact (foldl (fun _ i h => h.changed i) _ _ h).wake
  | setUser uid => exact h.of_eq rfl rfl
  | setProvider a b c => exact h.of_eq rfl rfl
  | turnListener i closes =>
    show Listens True (r.turnListener i closes) id
    unfold AuthRealm.turnListener
    split
    · exact h
    · exact h.modify fun m ha => ⟨ha, rfl⟩
  | forceRefresh i => exact h.modify fun m ha => ⟨ha, rfl⟩
  | listen i listener =>
    show Listens True (r.listen i listener) id
    unfold AuthRealm.listen
    split
    · exact h
    · have hset : Listens True (r.modifyManager i fun m => { m with listener := some listener }) id :=
        h.modify fun m ha => ⟨ha, rfl⟩
      exact (hset.tell i listener _).wake
  | close i => exact (h.closeManager i).wake
  | hold i => exact h.modify fun m ha => ⟨ha, rfl⟩
  | letGo i => exact h.modify fun m ha => ⟨ha, rfl⟩
  | fetch manager => exact h.of_eq rfl rfl
  | fetchNow manager =>
    have hnew : Listens True { r with fetches := r.fetches ++ [{ manager }] } id := h.of_eq rfl rfl
    exact hnew.runFetch _
  | answer f reply => exact (h.setReply f reply).wakeFetch f
  | answerNow f reply => exact (h.setReply f reply).runFetch f
  | poll =>
    show Listens True r.poll id
    unfold AuthRealm.poll
    split
    · exact h
    · rename_i f rest _
      have htaken : Listens True { r with queue := rest } id := h.of_eq rfl rfl
      exact htaken.runFetch f
  | go f => exact (h.moveFetch f).wakeFetch f
  | abort f =>
    show Listens True (r.abort f) id
    unfold AuthRealm.abort
    split
    · exact h
    · exact h
    split
    · exact h
    · exact h.of_eq rfl rfl

end Listens

end QueryClient
