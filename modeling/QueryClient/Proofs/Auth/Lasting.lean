import QueryClient.Proofs.Auth.Story

/-!
# What lasts in a realm

A property of one token manager that the operations on this manager keep, and that does not change where
nothing concerns the manager, is kept by every event. Only the manager's first meeting with the provider is a
case of its own, and it comes once: who waits for the provider has no story with it.

* `NobodyComes`: nobody comes or begins to wait.
* `SameTies`: the ties of a manager with the provider are as before.
* `Lasting`: a property that the operations on a manager keep; `Lasting.step`.
* `Tied`: a property of these ties only; `Tied.lasting`, `Tied.arrived`.
* `AuthRealm.Unlisted`, `Expectant`: **who waits, or is yet to come, has no story with the provider.**
* `Lasting.always`: **every event keeps what lasts.**
-/

namespace QueryClient

variable {r r' r'' : AuthRealm} {id i : AuthId}

/-! ## Who waits for the provider -/

/-- Nobody comes or begins to wait, and the same user is signed in. -/
structure NobodyComes (r r' : AuthRealm) : Prop where
  waiting : r'.waiting = r.waiting
  length : r'.managers.length = r.managers.length
  user : r'.provider.uid = r.provider.uid

theorem Idle.nobodyComes (h : Idle r r') : NobodyComes r r' := ⟨h.waiting, h.length, by rw [h.provider]⟩

namespace NobodyComes

theorem refl (r : AuthRealm) : NobodyComes r r := (Idle.refl r).nobodyComes

theorem trans (h : NobodyComes r r') (h' : NobodyComes r' r'') : NobodyComes r r'' :=
  ⟨h'.waiting.trans h.waiting, h'.length.trans h.length, h'.user.trans h.user⟩

theorem note (r : AuthRealm) (n : AuthNote) : NobodyComes r (r.note n) := ⟨rfl, rfl, rfl⟩

theorem modifyManager (r : AuthRealm) (i : AuthId) (F : TokenManager → TokenManager) :
    NobodyComes r (r.modifyManager i F) := ⟨rfl, List.length_modify .., rfl⟩

theorem foldl {op : AuthRealm → AuthId → AuthRealm} (hop : ∀ r i, NobodyComes r (op r i)) (ids : List AuthId) :
    ∀ r, NobodyComes r (ids.foldl op r) := by
  induction ids with
  | nil => exact refl
  | cons i ids ih => exact fun r => (hop r i).trans (ih _)

theorem removeListener (r : AuthRealm) (i : AuthId) : NobodyComes r (r.removeListener i) := by
  unfold AuthRealm.removeListener
  split
  · exact ⟨rfl, rfl, rfl⟩
  · simp only
    split
    · exact note r _
    · exact (note r _).trans (note _ _)

theorem closeManager (r : AuthRealm) (i : AuthId) : NobodyComes r (r.closeManager i) := by
  unfold AuthRealm.closeManager
  split
  · exact refl r
  split
  · exact refl r
  have hshut : NobodyComes r (AuthRealm.note _ (.closed i)) := (modifyManager r i fun m =>
    { m with closed := true, listener := none, attached := false, registered := false }).trans (note _ _)
  simp only
  split
  · exact hshut.trans (removeListener _ i)
  · exact hshut

theorem tell (r : AuthRealm) (i : AuthId) (listener : ChangeListener) (uid : Option String) :
    NobodyComes r (r.tell i listener uid) := by
  unfold AuthRealm.tell
  simp only
  split
  · exact (note r _).trans (closeManager _ i)
  · exact note r _

theorem tellListener (r : AuthRealm) (i : AuthId) (uid : Option String) : NobodyComes r (r.tellListener i uid) := by
  unfold AuthRealm.tellListener
  split
  · exact refl r
  · exact tell r i _ uid

theorem changed (r : AuthRealm) (i : AuthId) : NobodyComes r (r.changed i) := by
  unfold AuthRealm.changed
  split
  · exact refl r
  · exact (modifyManager r i _).trans (tellListener _ i _)

theorem closedOnAdd (r : AuthRealm) : NobodyComes r (r.provider.closedOnAdd.elim r r.closeManager) := by
  cases r.provider.closedOnAdd with
  | none => exact refl r
  | some j => exact closeManager r j

theorem register (r : AuthRealm) (i : AuthId) : NobodyComes r (r.register i) := by
  unfold AuthRealm.register
  refine (closedOnAdd r).trans ?_
  generalize r.provider.closedOnAdd.elim r r.closeManager = r₁
  simp only
  split
  · rename_i e _
    have hwarn : ∀ (r : AuthRealm) (n : AuthNote), NobodyComes r (if e.kind = .appDeleted then r else r.note n) := by
      intro r n
      split
      · exact refl r
      · exact note r n
    refine (note r₁ (.joined i (some e))).trans ?_
    exact (hwarn _ _).trans (modifyManager _ i _)
  · have hadded : NobodyComes r₁ { r₁ with provider := { r₁.provider with
        listeners := r₁.provider.listeners ++ [i] } } := ⟨rfl, rfl, rfl⟩
    refine (hadded.trans (note _ (.joined i none))).trans ?_
    split
    · exact removeListener _ i
    · exact modifyManager _ i _

theorem arrived (r : AuthRealm) (i : AuthId) : NobodyComes r (r.arrived i) := by
  unfold AuthRealm.arrived
  split
  · exact refl r
  · exact ((modifyManager r i _).trans (tellListener _ i _)).trans (register _ i)

theorem turnListener (r : AuthRealm) (i : AuthId) (closes : Bool) : NobodyComes r (r.turnListener i closes) := by
  unfold AuthRealm.turnListener
  split
  · exact refl r
  · exact modifyManager r i _

theorem listen (r : AuthRealm) (i : AuthId) (listener : ChangeListener) : NobodyComes r (r.listen i listener) := by
  unfold AuthRealm.listen
  split
  · exact refl r
  · exact ((modifyManager r i _).trans (tell _ i _ _)).trans (Idle.wake _).nobodyComes

end NobodyComes

/-! ## What is kept whatever happens -/

/-- **The ties of a manager with the provider are as before,** and nothing was seen of it. -/
structure SameTies (id : AuthId) (r r' : AuthRealm) : Prop where
  closed : r'.isClosed id = r.isClosed id
  attached : r'.isAttached id = r.isAttached id
  registered : r'.isRegistered id = r.isRegistered id
  places : r'.placesOf id = r.placesOf id
  story : r'.storyOf id = r.storyOf id

theorem PassesBy.ties (h : PassesBy id r r') : SameTies id r r' :=
  ⟨h.isClosed, h.isAttached, h.isRegistered, h.places, h.story⟩

namespace SameTies

theorem joins (h : SameTies id r r') : r'.joinsOf id = r.joinsOf id := by
  unfold AuthRealm.joinsOf
  rw [h.story]

theorem leaves (h : SameTies id r r') : r'.leavesOf id = r.leavesOf id := by
  unfold AuthRealm.leavesOf
  rw [h.story]

theorem modifyManager (r : AuthRealm) (i : AuthId) {F : TokenManager → TokenManager}
    (hF : ∀ m, (F m).closed = m.closed ∧ (F m).attached = m.attached ∧ (F m).registered = m.registered) :
    SameTies id r (r.modifyManager i F) := by
  have hany : ∀ p : TokenManager → Bool, (∀ m, p (F m) = p m) →
      ((r.modifyManager i F).managers[id]?).any p = (r.managers[id]?).any p := by
    intro p hp
    rw [r.getElem?_modifyManager]
    split
    · cases r.managers[id]? with
      | none => rfl
      | some m => exact hp m
    · rfl
  exact ⟨hany _ fun m => (hF m).1, hany _ fun m => (hF m).2.1, hany _ fun m => (hF m).2.2, rfl, rfl⟩

end SameTies

/-- **What the operations on a manager keep,** and what passes it by keeps. -/
structure Lasting (id : AuthId) (P : AuthRealm → Prop) : Prop where
  passes : ∀ {r r'}, P r → PassesBy id r r' → P r'
  closes : ∀ {r}, P r → P (r.closeManager id)
  changes : ∀ {r}, P r → P (r.changed id)
  listens : ∀ {r} (listener : ChangeListener), P r → P (r.listen id listener)
  turns : ∀ {r} (closes : Bool), P r → P (r.turnListener id closes)

variable {P : AuthRealm → Prop}

namespace Lasting

theorem idle (h : Lasting id P) (hr : P r) (hi : Idle r r') : P r' := h.passes hr (hi.passesBy id)

theorem closeManager (h : Lasting id P) (hr : P r) (i : AuthId) : P (r.closeManager i) := by
  by_cases hi : i = id
  · subst hi
    exact h.closes hr
  · exact h.passes hr (.closeManager r hi)

theorem changed (h : Lasting id P) (hr : P r) (i : AuthId) : P (r.changed i) := by
  by_cases hi : i = id
  · subst hi
    exact h.changes hr
  · exact h.passes hr (.changed r hi)

/-- Whom the provider closes while a listener is added may be the manager itself. -/
theorem closedOnAdd (h : Lasting id P) (hr : P r) : P (r.provider.closedOnAdd.elim r r.closeManager) := by
  cases r.provider.closedOnAdd with
  | none => exact hr
  | some j => exact h.closeManager hr j

/-- Another manager finds the provider. -/
theorem arrived (h : Lasting id P) (hr : P r) (hi : i ≠ id) : P (r.arrived i) := by
  unfold AuthRealm.arrived
  split
  · exact hr
  · have hfound := h.passes hr (.modifyOther r hi fun m => { m with attached := true, counter := m.counter + 1 })
    have htold := h.passes hfound (.tellListener _ hi r.provider.uid)
    exact h.passes (h.closedOnAdd htold) (.register _ hi)

theorem foldl_arrived (h : Lasting id P) (ids : List AuthId) (hids : id ∉ ids) :
    ∀ r, P r → P (ids.foldl AuthRealm.arrived r) := by
  induction ids with
  | nil => exact fun _ hr => hr
  | cons i ids ih =>
    intro r hr
    have hi : i ≠ id := fun he => hids (by simp [he])
    exact ih (fun hmem => hids (List.mem_cons_of_mem _ hmem)) _ (h.arrived hr hi)

theorem foldl_changed (h : Lasting id P) (ids : List AuthId) :
    ∀ r, P r → P (ids.foldl AuthRealm.changed r) := by
  induction ids with
  | nil => exact fun _ hr => hr
  | cons i ids ih => exact fun r hr => ih _ (h.changed hr i)

/-- **What lasts is kept by every event** at which the manager does not find the provider. -/
theorem step (h : Lasting id P) (hr : P r) {ev : AuthEvent} (hid : id ∉ ev.finding r)
    (huser : ∀ uid, ev = .setUser uid → P (r.setUser uid)) : P (r.step ev) := by
  by_cases hev : ev.IsOutside
  case neg => exact h.idle hr (.step r hev)
  cases ev with
  | create unavailable =>
    have hne : id ≠ r.managers.length := fun he => hid (by simp [AuthEvent.finding, he])
    have hadd := h.passes hr (.add r hne)
    show P (r.create unavailable).1
    unfold AuthRealm.create
    simp only
    split
    · exact hadd
    split
    · exact h.idle (h.arrived hadd (Ne.symm hne)) (.wake _)
    · exact h.passes hadd ⟨rfl, rfl, rfl, rfl⟩
  | provide =>
    show P r.provide
    unfold AuthRealm.provide
    split
    · exact h.idle hr (.note r rfl)
    · have hready : P { r with available := true, waiting := [] } := h.passes hr ⟨rfl, rfl, rfl, rfl⟩
      exact h.idle (h.foldl_arrived r.waiting hid _ hready) (.wake _)
  | notify => exact h.idle (h.foldl_changed _ _ hr) (.wake _)
  | setUser uid => exact huser uid rfl
  | setProvider a b c => exact h.passes hr ⟨rfl, rfl, rfl, rfl⟩
  | turnListener i closes =>
    by_cases hi : i = id
    · subst hi
      exact h.turns closes hr
    · exact h.passes hr (.turnListener r hi closes)
  | forceRefresh i => exact h.idle hr (.modifyManager r i fun _ => rfl)
  | listen i listener =>
    by_cases hi : i = id
    · subst hi
      exact h.listens listener hr
    · exact h.passes hr (.listen r hi listener)
  | close i => exact h.idle (h.closeManager hr i) (.wake _)
  | hold i => exact h.idle hr (.modifyManager r i fun _ => rfl)
  | letGo i => exact h.idle hr (.modifyManager r i fun _ => rfl)
  | _ => exact hev.elim

end Lasting

/-- **What depends on the ties of a manager with the provider only,** and is kept when the manager is closed
or, while it is open, tells who is signed in. -/
structure Tied (id : AuthId) (P : AuthRealm → Prop) : Prop where
  same : ∀ {r r'}, P r → SameTies id r r' → P r'
  closes : ∀ {r}, P r → P (r.closeManager id)
  told : ∀ {r} label uid, r.isClosed id = false → P r → P (r.note (.reported id label uid))

namespace Tied

theorem tell (h : Tied id P) (hr : P r) (hc : r.isClosed id = false) (listener : ChangeListener)
    (uid : Option String) : P (r.tell id listener uid) := by
  unfold AuthRealm.tell
  simp only
  split
  · exact h.closes (h.told _ _ hc hr)
  · exact h.told _ _ hc hr

theorem tellListener (h : Tied id P) (hr : P r) (hc : r.isClosed id = false) (uid : Option String) :
    P (r.tellListener id uid) := by
  unfold AuthRealm.tellListener
  split
  · exact hr
  · exact h.tell hr hc _ uid

theorem lasting (h : Tied id P) : Lasting id P := by
  refine ⟨fun hr hp => h.same hr hp.ties, h.closes, fun {r} hr => ?_, fun {r} listener hr => ?_,
    fun {r} closes hr => ?_⟩
  · unfold AuthRealm.changed
    split
    · exact hr
    rename_i hc
    have hties : SameTies id r (r.modifyManager id fun m => { m with counter := m.counter + 1 }) :=
      .modifyManager r id fun m => ⟨rfl, rfl, rfl⟩
    have hopen : r.isClosed id = false := by
      simp only [Bool.or_eq_true, not_or] at hc
      exact Bool.eq_false_iff.2 hc.1
    exact h.tellListener (h.same hr hties) (hties.closed.trans hopen) _
  · unfold AuthRealm.listen
    split
    · exact hr
    rename_i hc
    have hties : SameTies id r (r.modifyManager id fun m => { m with listener := some listener }) :=
      .modifyManager r id fun m => ⟨rfl, rfl, rfl⟩
    simp only
    generalize r.modifyManager id (fun m => { m with listener := some listener }) = r₁ at hties
    have hopen : r₁.isClosed id = false := hties.closed.trans (Bool.eq_false_iff.2 hc)
    exact h.same (h.tell (h.same hr hties) hopen listener (r₁.uid id)) ((Idle.wake _).passesBy id).ties
  · unfold AuthRealm.turnListener
    split
    · exact hr
    · exact h.same hr (.modifyManager r id fun m => ⟨rfl, rfl, rfl⟩)

/-- **A manager that finds the provider** tells its change listener, and wants to become one of the
provider's listeners. -/
theorem arrived (h : Tied id P) (hfound : r.isClosed id = false →
    P (r.modifyManager id fun m => { m with attached := true, counter := m.counter + 1 })) :
    r.arrived id = r ∨ ∃ r₁, P r₁ ∧ Registers r₁ (r.arrived id) id := by
  unfold AuthRealm.arrived
  split
  · exact .inl rfl
  rename_i hc
  have hopen : r.isClosed id = false := by
    simp only [Bool.or_eq_true, not_or] at hc
    exact Bool.eq_false_iff.2 hc.1
  have hstill : (r.modifyManager id fun m =>
      { m with attached := true, counter := m.counter + 1 }).isClosed id = false := by
    unfold AuthRealm.isClosed at hopen ⊢
    rw [r.getElem?_modifyManager, if_pos rfl]
    cases hm : r.managers[id]? with
    | none => rfl
    | some m =>
      rw [hm] at hopen
      exact hopen
  have htold := h.tellListener (hfound hopen) hstill r.provider.uid
  exact .inr ⟨_, h.lasting.closedOnAdd htold, register_registers _ id⟩

end Tied

/-! ## Managers that wait -/

/-- The manager has not had to do with the provider's listeners. -/
structure AuthRealm.Unlisted (r : AuthRealm) (id : AuthId) : Prop where
  joins : r.joinsOf id = []
  leaves : r.leavesOf id = []
  places : r.placesOf id = 0
  registered : r.isRegistered id = false

/-- Nobody but the manager itself can list it. -/
theorem unlisted_tied (id : AuthId) : Tied id (·.Unlisted id) := by
  refine ⟨fun h hs => ?_, fun {r} h => ?_, fun {r} label uid _ h => ?_⟩
  · exact ⟨hs.joins.trans h.joins, hs.leaves.trans h.leaves, hs.places.trans h.places,
      hs.registered.trans h.registered⟩
  · cases closeManager_shuts r id with
    | again _ hsame => rwa [hsame]
    | alone _ _ hstate hplaces hstory =>
      obtain ⟨m, hm⟩ := hstate
      exact ⟨(AuthRealm.joinsOf_append hstory).trans (by rw [h.joins]; rfl),
        (AuthRealm.leavesOf_append hstory).trans (by rw [h.leaves]; rfl), hplaces.trans h.places,
        (AuthRealm.shut_of_state hm).2.2⟩
    | leaves _ _ hlisted =>
      rw [h.registered, Bool.and_false] at hlisted
      simp at hlisted
  · have hstory : (r.note (.reported id label uid)).storyOf id = _ := r.storyOf_own rfl
    exact ⟨(AuthRealm.joinsOf_append hstory).trans (by rw [h.joins]; rfl),
      (AuthRealm.leavesOf_append hstory).trans (by rw [h.leaves]; rfl), h.places, h.registered⟩

/-- Who waits for the provider waits once, and has not had to do with its listeners; nor has who is yet to
come. -/
structure Expectant (r : AuthRealm) : Prop where
  nodup : r.waiting.Nodup
  known : ∀ id ∈ r.waiting, id < r.managers.length
  unlisted : ∀ id, id ∈ r.waiting ∨ r.managers.length ≤ id → r.Unlisted id

/-- A new manager has not had to do with the provider's listeners. -/
theorem AuthRealm.Unlisted.add (h : r.Unlisted r.managers.length) :
    ({ r with managers := r.managers ++ [{}] } : AuthRealm).Unlisted r.managers.length := by
  refine ⟨h.joins, h.leaves, h.places, ?_⟩
  simp [AuthRealm.isRegistered]

namespace Expectant

theorem init : Expectant {} :=
  ⟨List.nodup_nil, fun _ h => absurd h (by simp), fun _ _ => ⟨rfl, rfl, rfl, rfl⟩⟩

/-- Where nobody comes or begins to wait. -/
theorem of_nobodyComes (h : Expectant r) (hs : NobodyComes r r') (hlast : ∀ id, r.Unlisted id → r'.Unlisted id) :
    Expectant r' := by
  refine ⟨by rw [hs.waiting]; exact h.nodup, fun id hid => ?_, fun id hid => hlast id (h.unlisted id ?_)⟩
  · rw [hs.length]
    exact h.known id (by rwa [hs.waiting] at hid)
  · rwa [hs.waiting, hs.length] at hid

/-- When a manager is added, who waits and who will come still have no story. -/
theorem unlisted_add (h : Expectant r) (hid : id ∈ r.waiting ∨ r.managers.length ≤ id) :
    ({ r with managers := r.managers ++ [{}] } : AuthRealm).Unlisted id := by
  by_cases hnew : id = r.managers.length
  · subst hnew
    exact (h.unlisted _ hid).add
  · exact (unlisted_tied id).lasting.passes (h.unlisted id hid) (.add r hnew)

theorem add (h : Expectant r) : Expectant { r with managers := r.managers ++ [{}] } := by
  refine ⟨h.nodup, fun id hid => ?_, fun id hid => h.unlisted_add (hid.imp_right fun hle => ?_)⟩
  · rw [List.length_append]
    exact Nat.lt_add_right 1 (h.known id hid)
  · rw [List.length_append] at hle
    exact Nat.le_of_succ_le hle

theorem create (h : Expectant r) (unavailable : Bool) : Expectant (r.create unavailable).1 := by
  have hadded := h.add
  have hlater : ∀ id, id ∈ r.waiting ∨ r.managers.length + 1 ≤ id → id ≠ r.managers.length := by
    rintro id (hid | hid)
    · exact Nat.ne_of_lt (h.known id hid)
    · exact Nat.ne_of_gt hid
  unfold AuthRealm.create
  simp only
  split
  · exact hadded
  split
  · -- it finds the provider at once, which concerns nobody else
    have hstays := (NobodyComes.arrived { r with managers := r.managers ++ [{}] } r.managers.length).trans (Idle.wake _).nobodyComes
    refine ⟨?_, ?_, ?_⟩
    · rw [hstays.waiting]
      exact hadded.nodup
    · rw [hstays.waiting, hstays.length]
      exact hadded.known
    · intro id hid
      rw [hstays.waiting, hstays.length, List.length_append] at hid
      have hlast := (unlisted_tied id).lasting
      exact hlast.idle (hlast.arrived (hadded.unlisted id (by rw [List.length_append]; exact hid))
        (Ne.symm (hlater id hid))) (.wake _)
  · refine ⟨?_, fun id hid => ?_, fun id hid => ?_⟩
    · refine List.nodup_append.2 ⟨h.nodup, List.nodup_singleton _, fun a ha b hb => ?_⟩
      rw [List.mem_singleton.1 hb]
      exact Nat.ne_of_lt (h.known a ha)
    · rw [List.length_append]
      rcases List.mem_append.1 hid with hid | hid
      · exact Nat.lt_add_right 1 (h.known id hid)
      · rw [List.mem_singleton.1 hid]
        exact Nat.lt_succ_self _
    · refine (unlisted_tied id).lasting.passes (h.unlisted_add ?_) ⟨rfl, rfl, rfl, rfl⟩
      rcases hid with hid | hid
      · rcases List.mem_append.1 hid with hid | hid
        · exact .inl hid
        · exact .inr (Nat.le_of_eq (List.mem_singleton.1 hid).symm)
      · rw [List.length_append] at hid
        exact .inr (Nat.le_of_succ_le hid)

theorem provide (h : Expectant r) : Expectant r.provide := by
  unfold AuthRealm.provide
  split
  · exact h.of_nobodyComes (.note r _) fun id hid => (unlisted_tied id).lasting.idle hid (.note r rfl)
  have hstays := (NobodyComes.foldl .arrived r.waiting { r with available := true, waiting := [] }).trans
    (Idle.wake _).nobodyComes
  refine ⟨?_, fun id hid => ?_, fun id hid => ?_⟩
  · rw [hstays.waiting]
    exact List.nodup_nil
  · rw [hstays.waiting] at hid
    simp at hid
  · rw [hstays.waiting, hstays.length] at hid
    have hge : r.managers.length ≤ id := hid.resolve_left (by simp)
    have hlast := (unlisted_tied id).lasting
    have hready : ({ r with available := true, waiting := [] } : AuthRealm).Unlisted id :=
      hlast.passes (h.unlisted id (.inr hge)) ⟨rfl, rfl, rfl, rfl⟩
    refine hlast.idle (hlast.foldl_arrived _ (fun hmem => ?_) _ hready) (.wake _)
    exact absurd (h.known id hmem) (Nat.not_lt.2 hge)

/-- **Who waits has no story with the provider,** whatever happens. -/
theorem step (h : Expectant r) (ev : AuthEvent) : Expectant (r.step ev) := by
  have hlast : ∀ ev : AuthEvent, ev.finding r = [] → ∀ id, r.Unlisted id → (r.step ev).Unlisted id :=
    fun ev hev id hid => (unlisted_tied id).lasting.step hid (by simp [hev]) fun uid hu => by
      subst hu
      exact ⟨hid.joins, hid.leaves, hid.places, hid.registered⟩
  by_cases hev : ev.IsOutside
  case neg =>
    exact h.of_nobodyComes (Idle.step r hev).nobodyComes fun id hid => (unlisted_tied id).lasting.idle hid (.step r hev)
  cases ev with
  | create unavailable => exact h.create unavailable
  | provide => exact h.provide
  | notify => exact h.of_nobodyComes ((NobodyComes.foldl .changed _ r).trans (Idle.wake _).nobodyComes) (hlast _ rfl)
  | setUser uid => exact ⟨h.nodup, h.known, fun id hid => hlast (.setUser uid) rfl id (h.unlisted id hid)⟩
  | setProvider a b c => exact h.of_nobodyComes ⟨rfl, rfl, rfl⟩ (hlast _ rfl)
  | turnListener i closes => exact h.of_nobodyComes (.turnListener r i closes) (hlast _ rfl)
  | forceRefresh i => exact h.of_nobodyComes (.modifyManager r i _) (hlast _ rfl)
  | listen i listener => exact h.of_nobodyComes (.listen r i listener) (hlast _ rfl)
  | close i => exact h.of_nobodyComes ((NobodyComes.closeManager r i).trans (Idle.wake _).nobodyComes) (hlast _ rfl)
  | hold i => exact h.of_nobodyComes (.modifyManager r i _) (hlast _ rfl)
  | letGo i => exact h.of_nobodyComes (.modifyManager r i _) (hlast _ rfl)
  | _ => exact hev.elim

end Expectant

/-- **What lasts is kept by every event,** if finding the provider keeps it. -/
theorem Lasting.always (h : Lasting id P) (hw : Expectant r) (hr : P r)
    (hcomes : ∀ r : AuthRealm, id = r.managers.length → r.Unlisted id → P r →
      P { r with managers := r.managers ++ [{}] })
    (hfinds : ∀ r : AuthRealm, id < r.managers.length → r.Unlisted id → P r → P (r.arrived id)) {ev : AuthEvent}
    (huser : ∀ uid, ev = .setUser uid → P (r.setUser uid)) : P (r.step ev) := by
  by_cases hid : id ∈ ev.finding r
  case neg => exact h.step hr hid huser
  have hlast := (unlisted_tied id).lasting
  cases ev with
  | create unavailable =>
    obtain rfl : id = r.managers.length := List.mem_singleton.1 hid
    have hbefore := hw.unlisted _ (.inr (Nat.le_refl _))
    have hadd := hcomes r rfl hbefore hr
    have hlt : r.managers.length < (r.managers ++ [({} : TokenManager)]).length := by simp
    show P (r.create unavailable).1
    unfold AuthRealm.create
    simp only
    split
    · exact hadd
    split
    · exact h.idle (hfinds _ hlt hbefore.add hadd) (.wake _)
    · exact h.passes hadd ⟨rfl, rfl, rfl, rfl⟩
  | provide =>
    show P r.provide
    unfold AuthRealm.provide
    split
    · exact h.idle hr (.note r rfl)
    have hmem : id ∈ r.waiting := hid
    have hready : P { r with available := true, waiting := [] } := h.passes hr ⟨rfl, rfl, rfl, rfl⟩
    have hunlisted : ({ r with available := true, waiting := [] } : AuthRealm).Unlisted id :=
      hlast.passes (hw.unlisted id (.inl hmem)) ⟨rfl, rfl, rfl, rfl⟩
    -- its turn comes once
    have hnodup := hw.nodup
    obtain ⟨pre, post, hsplit⟩ := List.append_of_mem hmem
    rw [hsplit] at hnodup ⊢
    obtain ⟨hpre, hpost⟩ : id ∉ pre ∧ id ∉ post := by
      have hmiddle := List.nodup_middle.1 hnodup
      simpa using (List.nodup_cons.1 hmiddle).1
    rw [List.foldl_append, List.foldl_cons]
    have hbefore := h.foldl_arrived pre hpre _ hready
    have hlt : id < (pre.foldl AuthRealm.arrived { r with available := true, waiting := [] }).managers.length := by
      rw [(NobodyComes.foldl .arrived pre _).length]
      exact hw.known id hmem
    have hturn := hfinds _ hlt (hlast.foldl_arrived pre hpre _ hunlisted) hbefore
    exact h.idle (h.foldl_arrived post hpost _ hturn) (.wake _)
  | _ => simp [AuthEvent.finding] at hid

end QueryClient
