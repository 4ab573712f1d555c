import QueryClient.Proofs.Auth.Lasting

/-!
# What a change listener was told last

A change listener is told who is signed in when it is installed, when its manager finds the provider, and when
the provider reports a change. So it knows who is signed in as far as its manager does, with one exception: the
manager finds the provider, tells its listener, and then the provider refuses the manager as a listener. The
manager does without the provider from then on, and its change listener is not told.

* `AuthRealm.lastTold`: what the change listener of a manager was told last.
* `Informed`: it was told what the manager knows, or was overlooked; `Informed.tell`, `Informed.arrived`.
* `Informed.signed`: **who is signed in reaches the change listener** if the provider reports it.
* `last_told`, `told_before_refusal`: the law, and a run with the exception.
-/

namespace QueryClient

/-- What a change listener is told, under its label. -/
def AuthNote.told? : AuthNote → Option (String × Option String)
  | .reported _ label uid => some (label, uid)
  | _ => none

/-- A provider that reports what it does: whenever somebody else is signed in, its listeners are told. -/
def AuthEvent.reported : AuthEvent → List AuthEvent
  | .setUser uid => [.setUser uid, .notify]
  | ev => [ev]

namespace AuthRealm

/-- **What the change listeners of a manager are told,** in order. -/
def toldOf (r : AuthRealm) (id : AuthId) : List (String × Option String) := (r.storyOf id).filterMap AuthNote.told?

/-- What the change listener of a manager was told last. -/
def lastTold (r : AuthRealm) (id : AuthId) : Option (String × Option String) := (r.toldOf id).getLast?

/-- The change listener of a manager. -/
def listenerOf (r : AuthRealm) (id : AuthId) : Option ChangeListener := (r.managers[id]?).bind (·.listener)

/-- **The manager was refused by the provider,** and its change listener has been told nothing since. -/
def Overlooked (r : AuthRealm) (id : AuthId) : Prop :=
  ∃ pre e post, r.storyOf id = pre ++ .joined id (some e) :: post ∧ post.filterMap AuthNote.told? = []

/-- What a realm becomes when its provider reports what it does. -/
def runReported (es : List AuthEvent) : AuthRealm := ({} : AuthRealm).run (es.flatMap AuthEvent.reported)

end AuthRealm

variable {r r' : AuthRealm} {id : AuthId} {ev : AuthEvent} {l : ChangeListener} {more : List AuthNote}

namespace AuthRealm

theorem listenerOf_eq (r : AuthRealm) (id : AuthId) : r.listenerOf id = (r.stateOf id).bind (·.listener) := by
  unfold listenerOf stateOf
  cases r.managers[id]? <;> rfl

theorem toldOf_append (h : r'.storyOf id = r.storyOf id ++ more) :
    r'.toldOf id = r.toldOf id ++ more.filterMap AuthNote.told? := by
  unfold toldOf
  rw [h, List.filterMap_append]

/-- Where the listener is told nothing, it was told last what it was told before. -/
theorem lastTold_append (h : r'.storyOf id = r.storyOf id ++ more) (hmore : more.filterMap AuthNote.told? = []) :
    r'.lastTold id = r.lastTold id := by
  unfold lastTold
  rw [toldOf_append h, hmore, List.append_nil]

theorem Overlooked.append (ho : r.Overlooked id) (h : r'.storyOf id = r.storyOf id ++ more)
    (hmore : more.filterMap AuthNote.told? = []) : r'.Overlooked id := by
  obtain ⟨pre, e, post, hsplit, hpost⟩ := ho
  refine ⟨pre, e, post ++ more, by rw [h, hsplit, List.append_assoc]; rfl, ?_⟩
  rw [List.filterMap_append, hpost, hmore]
  rfl

end AuthRealm

/-- **The change listener of an open manager was told what the manager knows,** or was overlooked. -/
def Informed (r : AuthRealm) (id : AuthId) : Prop :=
  r.isClosed id = false → ∀ l, r.listenerOf id = some l → ∃ u, r.lastTold id = some (l.label, u) ∧
    (u = r.uid id ∨ r.isAttached id = false ∧ r.Overlooked id)

namespace Informed

theorem of_closed (hc : r.isClosed id) : Informed r id := fun hopen => by simp [hc] at hopen

theorem of_none (hl : r.listenerOf id = none) : Informed r id := fun _ l h => by simp [hl] at h

theorem passes (h : Informed r id) (hp : PassesBy id r r') : Informed r' id := by
  intro hopen l hl
  rw [hp.isClosed] at hopen
  rw [r'.listenerOf_eq, hp.state, ← r.listenerOf_eq] at hl
  obtain ⟨u, htold, hu⟩ := h hopen l hl
  have hstory : r'.storyOf id = r.storyOf id ++ [] := by rw [hp.story, List.append_nil]
  refine ⟨u, (AuthRealm.lastTold_append hstory rfl).trans htold, ?_⟩
  rw [hp.uid, hp.isAttached]
  exact hu.imp_right fun ⟨ha, ho⟩ => ⟨ha, ho.append hstory rfl⟩

theorem closes (h : Informed r id) : Informed (r.closeManager id) id := by
  cases closeManager_shuts r id with
  | again _ hsame => rwa [hsame]
  | alone _ _ hstate =>
    obtain ⟨m, hm⟩ := hstate
    exact of_closed (AuthRealm.shut_of_state hm).1
  | leaves _ _ _ hstate =>
    obtain ⟨m, hm⟩ := hstate
    exact of_closed (AuthRealm.shut_of_state hm).1

/-- **A change listener that is told what the manager knows** knows it. -/
theorem tell (r : AuthRealm) (hl : ∀ l', r.listenerOf id = some l' → l'.label = l.label) :
    Informed (r.tell id l (r.uid id)) id := by
  have htold : Informed (r.note (.reported id l.label (r.uid id))) id := by
    intro _ l' hl'
    refine ⟨r.uid id, ?_, .inl rfl⟩
    rw [hl l' hl']
    unfold AuthRealm.lastTold
    rw [AuthRealm.toldOf_append (r.storyOf_own rfl)]
    exact List.getLast?_concat
  unfold AuthRealm.tell
  simp only
  split
  · exact htold.closes
  · exact htold

theorem tellListener (r : AuthRealm) (id : AuthId) : Informed (r.tellListener id (r.uid id)) id := by
  unfold AuthRealm.tellListener
  split
  · rename_i hnone
    exact of_none hnone
  · rename_i l hl
    refine tell r fun l' hl' => ?_
    rw [Option.some.inj (hl'.symm.trans hl)]

/-- **A change that is reported reaches the change listener** of a manager that somebody holds. -/
theorem changed (r : AuthRealm) (hheld : r.isHeld id) : Informed (r.changed id) id := by
  unfold AuthRealm.changed
  split
  · rename_i hc
    exact of_closed (by simpa [hheld] using hc)
  · exact tellListener _ id

theorem listen (r : AuthRealm) (id : AuthId) (l : ChangeListener) : Informed (r.listen id l) id := by
  unfold AuthRealm.listen
  split
  · rename_i hc
    exact of_closed hc
  simp only
  generalize hr₁ : r.modifyManager id (fun m => { m with listener := some l }) = r₁
  have htold : Informed (r₁.tell id l (r₁.uid id)) id := by
    refine tell r₁ fun l' hl' => ?_
    rw [← hr₁] at hl'
    unfold AuthRealm.listenerOf at hl'
    rw [r.getElem?_modifyManager, if_pos rfl] at hl'
    cases hm : r.managers[id]? with
    | none => simp [hm] at hl'
    | some m =>
      rw [hm] at hl'
      rw [← Option.some.inj hl']
  exact htold.passes ((Idle.wake _).passesBy id)

theorem turns (h : Informed r id) (closes : Bool) : Informed (r.turnListener id closes) id := by
  unfold AuthRealm.turnListener
  split
  · exact h
  have hties : SameTies id r (r.modifyManager id fun m =>
      { m with listener := m.listener.map fun l => { l with closes } }) :=
    .modifyManager r id fun m => ⟨rfl, rfl, rfl⟩
  have huid : (r.modifyManager id fun m =>
      { m with listener := m.listener.map fun l => { l with closes } }).uid id = r.uid id := by
    rw [AuthRealm.uid_eq_ite, hties.attached]
    rfl
  intro hopen l hl
  obtain ⟨l₀, hl₀, hlabel⟩ : ∃ l₀, r.listenerOf id = some l₀ ∧ l.label = l₀.label := by
    unfold AuthRealm.listenerOf at hl ⊢
    rw [r.getElem?_modifyManager, if_pos rfl] at hl
    cases hm : r.managers[id]? with
    | none => simp [hm] at hl
    | some m =>
      rw [hm] at hl
      obtain ⟨l₀, hl₀, hl⟩ := Option.map_eq_some_iff.1 hl
      exact ⟨l₀, hl₀, by rw [← hl]⟩
  obtain ⟨u, htold, hu⟩ := h (hties.closed.symm.trans hopen) l₀ hl₀
  refine ⟨u, by rw [hlabel]; exact htold, ?_⟩
  rw [huid, hties.attached]
  exact hu

theorem lasting (id : AuthId) : Lasting id (Informed · id) := by
  refine ⟨passes, closes, fun {r} h => ?_, fun {r} l _ => listen r id l, fun closes h => h.turns closes⟩
  by_cases hheld : r.isHeld id
  · exact changed r hheld
  · unfold AuthRealm.changed
    rwa [if_pos (by simp [hheld])]

/-- **A manager that finds the provider tells its change listener;** if it is refused then, the change listener is
overlooked. -/
theorem arrived (h : Informed r id) (hlt : id < r.managers.length) : Informed (r.arrived id) id := by
  unfold AuthRealm.arrived
  split
  · exact h
  simp only
  generalize hr₁ : r.modifyManager id (fun m => { m with attached := true, counter := m.counter + 1 }) = r₁
  have huid : r₁.provider.uid = r₁.uid id := by
    rw [← hr₁, AuthRealm.uid_eq_ite]
    unfold AuthRealm.isAttached
    rw [r.getElem?_modifyManager, if_pos rfl, List.getElem?_eq_getElem hlt]
    rfl
  show Informed ((r₁.tellListener id r₁.provider.uid).register id) id
  rw [huid]
  -- the change listener is told before the manager registers, and may be closed in between
  have htold := tellListener r₁ id
  generalize r₁.tellListener id (r₁.uid id) = r₂ at htold
  have hclosed := (lasting id).closedOnAdd htold
  have huser : (r₂.register id).provider.uid = (r₂.provider.closedOnAdd.elim r₂ r₂.closeManager).provider.uid := by
    rw [(NobodyComes.register r₂ id).user, (NobodyComes.closedOnAdd r₂).user]
  have hreg := register_registers r₂ id
  generalize r₂.provider.closedOnAdd.elim r₂ r₂.closeManager = r₃ at hclosed huser hreg
  intro hopen l hl
  cases hreg with
  | refused e hstate _ hstory =>
    -- the manager gives the provider up, and nobody tells the change listener
    rw [AuthRealm.isClosed_eq_any, hstate, Option.any_map] at hopen
    rw [AuthRealm.listenerOf_eq, hstate, Option.bind_map] at hl
    obtain ⟨u, hlast, -⟩ := hclosed ((r₃.isClosed_eq_any id).trans hopen) l ((r₃.listenerOf_eq id).trans hl)
    refine ⟨u, (AuthRealm.lastTold_append hstory rfl).trans hlast, .inr ⟨?_, _, e, [], hstory, rfl⟩⟩
    rw [AuthRealm.isAttached_eq_any, hstate]
    cases r₃.stateOf id <;> rfl
  | accepted hopen₃ hstate _ hstory =>
    rw [AuthRealm.listenerOf_eq, hstate, Option.bind_map] at hl
    have ha : (r₂.register id).isAttached id = r₃.isAttached id := by
      rw [AuthRealm.isAttached_eq_any, hstate, Option.any_map]
      exact (r₃.isAttached_eq_any id).symm
    obtain ⟨u, hlast, hu⟩ := hclosed hopen₃ l ((r₃.listenerOf_eq id).trans hl)
    refine ⟨u, (AuthRealm.lastTold_append hstory rfl).trans hlast, ?_⟩
    rw [AuthRealm.uid_eq_ite, ha, huser, ← r₃.uid_eq_ite]
    exact hu.imp_right fun ⟨hna, ho⟩ => ⟨hna, ho.append hstory rfl⟩
  | undone _ hc hstate =>
    rw [AuthRealm.isClosed_eq_any, hstate, ← r₃.isClosed_eq_any, hc] at hopen
    simp at hopen

/-- A change of other managers passes this one by, and leaves it held. -/
theorem foldl_changed_other {ids : List AuthId} (hids : id ∉ ids) : ∀ r : AuthRealm,
    PassesBy id r (ids.foldl AuthRealm.changed r) ∧ (ids.foldl AuthRealm.changed r).isHeld id = r.isHeld id := by
  induction ids with
  | nil => exact fun r => ⟨.refl r, rfl⟩
  | cons i ids ih =>
    intro r
    have hi : i ≠ id := fun he => hids (by simp [he])
    obtain ⟨hpass, hheld⟩ := ih (fun hmem => hids (List.mem_cons_of_mem _ hmem)) (r.changed i)
    refine ⟨(PassesBy.changed r hi).trans hpass, hheld.trans ?_⟩
    unfold AuthRealm.isHeld
    rw [managers_changed hi, (Keeps.changed r i : Keeps [] _ _).fetches]

/-- **Who is signed in reaches the change listener** of a manager that somebody holds, if the provider reports
it. -/
theorem signed (h : Informed r id) (hl : r.isAttached id → id ∈ r.provider.listeners)
    (hheld : r.isAttached id → r.isHeld id) (uid : Option String) : Informed (r.setUser uid).notify id := by
  have hlast := lasting id
  refine Informed.passes ?_ ((Idle.wake _).passesBy id)
  show Informed (r.provider.listeners.foldl AuthRealm.changed (r.setUser uid)) id
  cases ha : r.isAttached id with
  | false =>
    -- it knows of nobody, before and after
    refine hlast.foldl_changed _ _ fun hopen l hl => ?_
    obtain ⟨u, htold, hu⟩ := h hopen l hl
    have hnone : ∀ r : AuthRealm, r.isAttached id = false → r.uid id = none := by
      intro r ha
      rw [r.uid_eq_ite, ha]
      rfl
    refine ⟨u, htold, hu.imp_left fun hu => ?_⟩
    rw [hu, hnone r ha]
    exact (hnone (r.setUser uid) ha).symm
  | true =>
    obtain ⟨pre, post, hsplit, hpre⟩ := List.eq_append_cons_of_mem (hl ha)
    rw [hsplit, List.foldl_append, List.foldl_cons]
    obtain ⟨-, hstill⟩ := foldl_changed_other hpre (r.setUser uid)
    exact hlast.foldl_changed post _ (changed _ (hstill.trans (hheld ha)))

/-- **Every event keeps the change listener informed,** if the provider reports what it does. -/
theorem step (h : Informed r id) (hw : Expectant r) (hl : Listens True r id)
    (hheld : r.isAttached id → r.isHeld id) (ev : AuthEvent) : Informed (r.run ev.reported) id := by
  by_cases huser : ∃ uid, ev = .setUser uid
  · obtain ⟨uid, rfl⟩ := huser
    exact h.signed (hl.listens trivial) hheld uid
  have hone : ev.reported = [ev] := by
    unfold AuthEvent.reported
    split
    · exact absurd ⟨_, rfl⟩ huser
    · rfl
  rw [hone]
  refine (lasting id).always hw h (fun r hid _ _ => of_none ?_) (fun r hlt _ h => h.arrived hlt)
    fun uid hu => absurd ⟨uid, hu⟩ huser
  simp [AuthRealm.listenerOf, hid]

end Informed

/-! ## The law -/

namespace AuthRealm

theorem runReported_concat (es : List AuthEvent) (ev : AuthEvent) :
    runReported (es ++ [ev]) = (runReported es).run ev.reported := by
  simp [runReported, run, List.flatMap_append]

/-- What every event keeps holds after a run with a provider that reports what it does. -/
theorem runReported_keeps {P : AuthRealm → Prop} (hinit : P {}) (hstep : ∀ r ev, P r → P (r.step ev))
    (es : List AuthEvent) : P (runReported es) :=
  List.foldlRecOn _ AuthRealm.step hinit fun r h ev _ => hstep r ev h

end AuthRealm

/-- **What a change listener was told last is what its manager knows.** Whatever happens in a realm whose
provider reports what it does: the change listener of an open manager that somebody has held all the time was
told last who is signed in as far as the manager knows. The only exception is a manager that was refused by the
provider, and whose change listener has been told nothing since: the manager knows of nobody then. -/
theorem last_told (es : List AuthEvent) (id : AuthId)
    (hheld : ∀ n ≤ es.length, id < (AuthRealm.runReported (es.take n)).managers.length →
      (AuthRealm.runReported (es.take n)).isHeld id)
    (hopen : (AuthRealm.runReported es).isClosed id = false) {l : ChangeListener}
    (hl : (AuthRealm.runReported es).listenerOf id = some l) :
    ∃ u, (AuthRealm.runReported es).lastTold id = some (l.label, u) ∧
      (u = (AuthRealm.runReported es).uid id ∨
        (AuthRealm.runReported es).uid id = none ∧ (AuthRealm.runReported es).Overlooked id) := by
  have hinformed : ∀ n ≤ es.length, Informed (AuthRealm.runReported (es.take n)) id := by
    intro n
    induction n with
    | zero => exact fun _ => Informed.of_none rfl
    | succ n ih =>
      intro hn
      have hlt : n < es.length := hn
      rw [List.take_add_one, List.getElem?_eq_getElem hlt, Option.toList_some, AuthRealm.runReported_concat]
      refine (ih (Nat.le_of_lt hlt)).step ?_ ?_ (fun ha => hheld n (Nat.le_of_lt hlt) ?_) es[n]
      · exact AuthRealm.runReported_keeps .init (fun r ev h => h.step ev) _
      · refine AuthRealm.runReported_keeps (P := (Listens True · id)) ⟨fun _ => rfl, fun _ ha => ?_⟩
          (fun r ev h => h.step ev) _
        simp [AuthRealm.isAttached] at ha
      · unfold AuthRealm.isAttached at ha
        by_contra hge
        rw [List.getElem?_eq_none (Nat.not_lt.1 hge)] at ha
        simp at ha
  have hall := hinformed es.length (Nat.le_refl _)
  rw [List.take_length] at hall
  obtain ⟨u, htold, hu⟩ := hall hopen l hl
  refine ⟨u, htold, hu.imp_right fun hover => ⟨?_, hover.2⟩⟩
  rw [AuthRealm.uid_eq_ite, hover.1]
  rfl

/-- Alice signs in, and the provider comes and takes the manager as a listener. -/
def signInRun : List AuthEvent :=
  [.create false, .listen 0 ⟨"bell", false⟩, .setUser (some "alice"), .provide]

theorem last_told_alice : ∃ u, (AuthRealm.runReported signInRun).lastTold 0 = some ("bell", u) ∧
    (u = (AuthRealm.runReported signInRun).uid 0 ∨ (AuthRealm.runReported signInRun).uid 0 = none ∧
      (AuthRealm.runReported signInRun).Overlooked 0) :=
  last_told signInRun 0 (by decide) rfl rfl

/-- Alice signs in, and the provider comes but takes no listeners. -/
def refusalRun : List AuthEvent :=
  [.create false, .listen 0 ⟨"bell", false⟩, .setUser (some "alice"),
    .setProvider (some (.failed "no listeners here")) none none, .provide]

/-- **Told before the refusal:** the change listener was told last that Alice is signed in, and its manager knows
of nobody. -/
theorem told_before_refusal :
    (∀ n ≤ refusalRun.length, 0 < (AuthRealm.runReported (refusalRun.take n)).managers.length →
      (AuthRealm.runReported (refusalRun.take n)).isHeld 0) ∧
    (AuthRealm.runReported refusalRun).isClosed 0 = false ∧
    (AuthRealm.runReported refusalRun).listenerOf 0 = some ⟨"bell", false⟩ ∧
    (AuthRealm.runReported refusalRun).lastTold 0 = some ("bell", some "alice") ∧
    (AuthRealm.runReported refusalRun).uid 0 = none :=
  ⟨by decide, rfl, rfl, rfl, rfl⟩

end QueryClient
