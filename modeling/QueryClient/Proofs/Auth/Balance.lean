import QueryClient.Proofs.Auth.Lasting
import QueryClient.Proofs.Auth.Reached

/-!
# Listeners balance, and closed managers are silent

A token manager asks the provider at most once to become one of its listeners. It is one of them from then
on until it is closed, if it was accepted; else it never is. A manager that has been closed is not heard of
again, whatever happens in the realm.

* `Standing`: how a manager stands with the provider; `Standing.step`.
* `Hushed`: after its end nothing is seen of a manager but a registration that is undone; `Hushed.step`.
* `closed_passesBy`, `callsFor_closed`: **nothing concerns a closed manager,** and no call is made for it.
* `AuthRealm.Balance`, `AuthRealm.Silence`, `listener_balance`: the law.
-/

namespace QueryClient

variable {r r' : AuthRealm} {id : AuthId} {ev : AuthEvent}

/-! ## How a manager stands with the provider -/

/-- **How a manager stands with the provider** in a state between calls. -/
inductive Standing (r : AuthRealm) (id : AuthId) : Prop where
  | unlisted (h : r.Unlisted id) (ha : r.isAttached id = false)
  | refused (e : TokenError) (hjoins : r.joinsOf id = [some e]) (hleaves : r.leavesOf id = [])
      (hplaces : r.placesOf id = 0) (ha : r.isAttached id = false) (hreg : r.isRegistered id = false)
  | listed (hjoins : r.joinsOf id = [none]) (hleaves : r.leavesOf id = []) (hplaces : r.placesOf id = 1)
      (hopen : r.isClosed id = false) (ha : r.isAttached id) (hreg : r.isRegistered id)
  | gone (refusal : Option TokenError) (hc : r.isClosed id) (hjoins : r.joinsOf id = [none])
      (hleaves : r.leavesOf id = [refusal]) (hplaces : r.placesOf id = if refusal = none then 0 else 1)
      (ha : r.isAttached id = false)

/-- A manager that has found the provider, and has not been listed yet. -/
structure Found (r : AuthRealm) (id : AuthId) : Prop where
  unlisted : r.Unlisted id
  attached : r.isAttached id = !r.isClosed id

theorem found_tied (id : AuthId) : Tied id (Found · id) := by
  have hlast := unlisted_tied id
  refine ⟨fun h hs => ⟨hlast.same h.unlisted hs, ?_⟩, fun {r} h => ⟨hlast.closes h.unlisted, ?_⟩,
    fun label uid hc h => ⟨hlast.told label uid hc h.unlisted, h.attached⟩⟩
  · rw [hs.attached, hs.closed]
    exact h.attached
  · cases closeManager_shuts r id with
    | again _ hsame => rw [hsame]; exact h.attached
    | alone _ _ hstate =>
      obtain ⟨m, hm⟩ := hstate
      obtain ⟨hc, ha, -⟩ := AuthRealm.shut_of_state hm
      rw [hc, ha]
      rfl
    | leaves _ _ _ hstate =>
      obtain ⟨m, hm⟩ := hstate
      obtain ⟨hc, ha, -⟩ := AuthRealm.shut_of_state hm
      rw [hc, ha]
      rfl

/-- An open manager finds the provider. -/
theorem found_of_open (hlt : id < r.managers.length) (hu : r.Unlisted id) (hopen : r.isClosed id = false) :
    Found (r.modifyManager id fun m => { m with attached := true, counter := m.counter + 1 }) id := by
  have hget := (r.getElem?_modifyManager id id fun m =>
    { m with attached := true, counter := m.counter + 1 }).trans (if_pos rfl)
  rw [List.getElem?_eq_getElem hlt] at hget
  refine ⟨⟨hu.joins, hu.leaves, hu.places, ?_⟩, ?_⟩
  · have hreg := hu.registered
    unfold AuthRealm.isRegistered at hreg ⊢
    rw [List.getElem?_eq_getElem hlt] at hreg
    rw [hget]
    exact hreg
  · unfold AuthRealm.isClosed at hopen
    unfold AuthRealm.isAttached AuthRealm.isClosed
    rw [List.getElem?_eq_getElem hlt] at hopen
    rw [hget]
    exact (congrArg Bool.not hopen).symm

namespace Standing

theorem of_ties (h : Standing r id) (hs : SameTies id r r') : Standing r' id := by
  cases h with
  | unlisted h ha => exact .unlisted ((unlisted_tied id).same h hs) (hs.attached.trans ha)
  | refused e hj hl hp ha hreg =>
    exact .refused e (hs.joins.trans hj) (hs.leaves.trans hl) (hs.places.trans hp) (hs.attached.trans ha)
      (hs.registered.trans hreg)
  | listed hj hl hp hopen ha hreg =>
    exact .listed (hs.joins.trans hj) (hs.leaves.trans hl) (hs.places.trans hp) (hs.closed.trans hopen)
      (hs.attached.trans ha) (hs.registered.trans hreg)
  | gone refusal hc hj hl hp ha =>
    exact .gone refusal (hs.closed.trans hc) (hs.joins.trans hj) (hs.leaves.trans hl) (hs.places.trans hp)
      (hs.attached.trans ha)

/-- **A manager that is closed leaves the provider's listeners,** if it is one of them. -/
theorem closeManager (h : Standing r id) : Standing (r.closeManager id) id := by
  cases closeManager_shuts r id with
  | again _ hsame => rwa [hsame]
  | alone hopen hnot hstate hplaces hstory =>
    have hj := AuthRealm.joinsOf_append hstory
    have hl := AuthRealm.leavesOf_append hstory
    obtain ⟨m, hm⟩ := hstate
    obtain ⟨-, ha', hreg'⟩ := AuthRealm.shut_of_state hm
    cases h with
    | unlisted h _ => exact .unlisted ((unlisted_tied id).closes h) ha'
    | refused e hjoins hleaves hp _ _ =>
      exact .refused e (hj.trans (by rw [hjoins]; rfl)) (hl.trans (by rw [hleaves]; rfl)) (hplaces.trans hp)
        ha' hreg'
    | listed _ _ _ _ ha hreg => simp [ha, hreg] at hnot
    | gone _ hc => simp [hopen] at hc
  | leaves refusal hopen hlisted hstate hplaces hstory =>
    have hj := AuthRealm.joinsOf_append hstory
    have hl := AuthRealm.leavesOf_append hstory
    obtain ⟨m, hm⟩ := hstate
    obtain ⟨hc', ha', -⟩ := AuthRealm.shut_of_state hm
    cases h with
    | unlisted h _ => simp [h.registered] at hlisted
    | refused _ _ _ _ _ hreg => simp [hreg] at hlisted
    | listed hjoins hleaves hp _ _ _ =>
      refine .gone refusal hc' (hj.trans (by rw [hjoins]; rfl)) (hl.trans (by rw [hleaves]; rfl)) ?_ ha'
      rw [hplaces, hp]
    | gone _ hc => simp [hopen] at hc

theorem told (h : Standing r id) (hopen : r.isClosed id = false) (label : String) (uid : Option String) :
    Standing (r.note (.reported id label uid)) id := by
  have hstory : (r.note (.reported id label uid)).storyOf id = _ := r.storyOf_own rfl
  have hj := AuthRealm.joinsOf_append hstory
  have hl := AuthRealm.leavesOf_append hstory
  cases h with
  | unlisted h ha => exact .unlisted ((unlisted_tied id).told label uid hopen h) ha
  | refused e hjoins hleaves hp ha hreg =>
    exact .refused e (hj.trans (by rw [hjoins]; rfl)) (hl.trans (by rw [hleaves]; rfl)) hp ha hreg
  | listed hjoins hleaves hp hc ha hreg =>
    exact .listed (hj.trans (by rw [hjoins]; rfl)) (hl.trans (by rw [hleaves]; rfl)) hp hc ha hreg
  | gone _ hc => simp [hopen] at hc

theorem tied (id : AuthId) : Tied id (Standing · id) :=
  ⟨fun h hs => h.of_ties hs, fun h => h.closeManager, fun label uid hopen h => h.told hopen label uid⟩

/-- **When a manager has found the provider** it is listed, or refused, or gone when it has been closed
meanwhile. -/
theorem of_registers (h : Found r id) (hreg : Registers r r' id) : Standing r' id := by
  cases hreg with
  | refused e hstate hplaces hstory =>
    have hj := AuthRealm.joinsOf_append hstory
    have hl := AuthRealm.leavesOf_append hstory
    refine .refused e (hj.trans (by rw [h.unlisted.joins]; rfl)) (hl.trans (by rw [h.unlisted.leaves]; rfl))
      (hplaces.trans h.unlisted.places) ?_ ?_
    · rw [AuthRealm.isAttached_eq_any, hstate]
      cases r.stateOf id <;> rfl
    · rw [AuthRealm.isRegistered_eq_any, hstate, Option.any_map]
      exact (r.isRegistered_eq_any id).symm.trans h.unlisted.registered
  | accepted hopen hstate hplaces hstory =>
    have hj := AuthRealm.joinsOf_append hstory
    have hl := AuthRealm.leavesOf_append hstory
    have ha : r.isAttached id = true := by rw [h.attached, hopen]; rfl
    refine .listed (hj.trans (by rw [h.unlisted.joins]; rfl)) (hl.trans (by rw [h.unlisted.leaves]; rfl))
      (by rw [hplaces, h.unlisted.places]) ?_ ?_ ?_
    · rw [AuthRealm.isClosed_eq_any, hstate, Option.any_map]
      exact (r.isClosed_eq_any id).symm.trans hopen
    · rw [AuthRealm.isAttached_eq_any, hstate, Option.any_map]
      exact (r.isAttached_eq_any id).symm.trans ha
    · rw [r.isAttached_eq_any] at ha
      rw [AuthRealm.isRegistered_eq_any, hstate]
      cases hm : r.stateOf id with
      | none => simp [hm] at ha
      | some m => rfl
  | undone refusal hc hstate hplaces hstory =>
    have hj := AuthRealm.joinsOf_append hstory
    have hl := AuthRealm.leavesOf_append hstory
    refine .gone refusal ?_ (hj.trans (by rw [h.unlisted.joins]; rfl))
      (hl.trans (by rw [h.unlisted.leaves]; rfl)) ?_ ?_
    · rw [AuthRealm.isClosed_eq_any, hstate, ← r.isClosed_eq_any]
      exact hc
    · rw [hplaces, h.unlisted.places]
    · rw [AuthRealm.isAttached_eq_any, hstate, ← r.isAttached_eq_any, h.attached, hc]
      rfl

theorem arrived (h : Standing r id) (hlt : id < r.managers.length) (hu : r.Unlisted id) :
    Standing (r.arrived id) id := by
  rcases (found_tied id).arrived (found_of_open hlt hu) with hsame | ⟨r₁, h₁, hreg⟩
  · rwa [hsame]
  · exact of_registers h₁ hreg

/-- **How a manager stands** is told by these cases, whatever happens. -/
theorem step (h : Standing r id) (hw : Expectant r) (ev : AuthEvent) : Standing (r.step ev) id := by
  refine (tied id).lasting.always hw h (fun r hid hu _ => ?_) (fun r hlt hu h => h.arrived hlt hu)
    fun uid _ => h.of_ties ⟨rfl, rfl, rfl, rfl, rfl⟩
  subst hid
  exact .unlisted hu.add (by simp [AuthRealm.isAttached])

end Standing

/-! ## What is seen of a closed manager -/

/-- The note is about the provider's list of listeners. -/
def AuthNote.isListing : AuthNote → Bool
  | .joined .. | .left .. => true
  | _ => false

/-- **After its end nothing is seen of a manager,** but that a registration under way is undone. -/
inductive Hushed (r : AuthRealm) (id : AuthId) : Prop where
  | running (hopen : r.isClosed id = false) (hnot : .closed id ∉ r.storyOf id)
  | ended {pre post : List AuthNote} (hc : r.isClosed id) (hsplit : r.storyOf id = pre ++ .closed id :: post)
      (hpre : .closed id ∉ pre) (hpost : ∀ n ∈ post, n.isListing)

namespace Hushed

theorem of_eq (h : Hushed r id) (hc : r'.isClosed id = r.isClosed id) (hs : r'.storyOf id = r.storyOf id) :
    Hushed r' id := by
  cases h with
  | running hopen hnot => exact .running (hc.trans hopen) (by rwa [hs])
  | ended hclosed hsplit hpre hpost => exact .ended (hc.trans hclosed) (hs.trans hsplit) hpre hpost

/-- The provider's list may be heard of after the end. -/
theorem listing (h : Hushed r id) (hc : r'.isClosed id = r.isClosed id) {more : List AuthNote}
    (hs : r'.storyOf id = r.storyOf id ++ more) (hmore : ∀ n ∈ more, n.isListing) : Hushed r' id := by
  have hnot : .closed id ∉ more := fun hmem => by simpa [AuthNote.isListing] using hmore _ hmem
  cases h with
  | running hopen hnone =>
    refine .running (hc.trans hopen) ?_
    rw [hs, List.mem_append]
    exact not_or.2 ⟨hnone, hnot⟩
  | ended hclosed hsplit hpre hpost =>
    refine .ended (hc.trans hclosed) (hs.trans (by rw [hsplit, List.append_assoc]; rfl)) hpre fun n hn => ?_
    exact (List.mem_append.1 hn).elim (hpost n) (hmore n)

theorem closeManager (h : Hushed r id) : Hushed (r.closeManager id) id := by
  cases closeManager_shuts r id with
  | again _ hsame => rwa [hsame]
  | alone hopen _ hstate _ hstory =>
    obtain ⟨m, hm⟩ := hstate
    cases h with
    | running _ hnot => exact .ended (AuthRealm.shut_of_state hm).1 hstory hnot (by simp)
    | ended hc => simp [hopen] at hc
  | leaves refusal hopen _ hstate _ hstory =>
    obtain ⟨m, hm⟩ := hstate
    cases h with
    | running _ hnot =>
      exact .ended (AuthRealm.shut_of_state hm).1 hstory hnot (by simp [AuthNote.isListing])
    | ended hc => simp [hopen] at hc

theorem tied (id : AuthId) : Tied id (Hushed · id) := by
  refine ⟨fun h hs => h.of_eq hs.closed hs.story, fun h => h.closeManager, fun {r} label uid hopen h => ?_⟩
  cases h with
  | running _ hnot =>
    refine .running hopen ?_
    rw [r.storyOf_own rfl, List.mem_append]
    simpa using hnot
  | ended hc => simp [hopen] at hc

theorem arrived (h : Hushed r id) : Hushed (r.arrived id) id := by
  have hfound : Hushed (r.modifyManager id fun m => { m with attached := true, counter := m.counter + 1 }) id := by
    refine h.of_eq ?_ rfl
    unfold AuthRealm.isClosed
    rw [r.getElem?_modifyManager, if_pos rfl, Option.any_map]
  rcases (tied id).arrived fun _ => hfound with hsame | ⟨r₁, h₁, hreg⟩
  · rwa [hsame]
  cases hreg with
  | refused e hstate _ hstory =>
    refine h₁.listing ?_ hstory (by simp [AuthNote.isListing])
    rw [AuthRealm.isClosed_eq_any, hstate, Option.any_map]
    exact (r₁.isClosed_eq_any id).symm
  | accepted _ hstate _ hstory =>
    refine h₁.listing ?_ hstory (by simp [AuthNote.isListing])
    rw [AuthRealm.isClosed_eq_any, hstate, Option.any_map]
    exact (r₁.isClosed_eq_any id).symm
  | undone refusal _ hstate _ hstory =>
    refine h₁.listing ?_ hstory (by simp [AuthNote.isListing])
    rw [AuthRealm.isClosed_eq_any, hstate, ← r₁.isClosed_eq_any]

theorem step (h : Hushed r id) (hw : Expectant r) (ev : AuthEvent) : Hushed (r.step ev) id := by
  refine (tied id).lasting.always hw h (fun r hid _ h => h.of_eq ?_ rfl) (fun r _ _ h => h.arrived)
    fun uid _ => h.of_eq rfl rfl
  subst hid
  simp [AuthRealm.isClosed]

end Hushed

/-- **Nothing concerns a closed manager,** whatever happens. -/
theorem closed_passesBy (hw : Expectant r) (hc : r.isClosed id) (hev : ∀ uid, ev ≠ .setUser uid) :
    PassesBy id r (r.step ev) := by
  have hstill : ∀ {r'}, PassesBy id r r' → r'.isClosed id := fun hp => hp.isClosed.trans hc
  have hlast : Lasting id (PassesBy id r ·) := by
    refine ⟨.trans, fun {r'} h => ?_, fun {r'} h => ?_, fun {r'} listener h => ?_, fun {r'} closes h => ?_⟩
    · cases closeManager_shuts r' id with
      | again _ hsame => rwa [hsame]
      | alone hopen => simp [hstill h] at hopen
      | leaves _ hopen => simp [hstill h] at hopen
    · unfold AuthRealm.changed
      rwa [if_pos (by simp [hstill h])]
    · unfold AuthRealm.listen
      rwa [if_pos (hstill h)]
    · unfold AuthRealm.turnListener
      rwa [if_pos (hstill h)]
  refine hlast.always hw (.refl r) (fun r' hid _ h => ?_) (fun r' _ _ h => ?_) fun uid hu => absurd hu (hev uid)
  · have hclosed := hstill h
    rw [hid] at hclosed
    simp [AuthRealm.isClosed] at hclosed
  · unfold AuthRealm.arrived
    rwa [if_pos (by simp [hstill h])]

/-- **No call is made for a manager** at an event after which it is closed. -/
theorem callsFor_closed (h : r.Noted) (hc : (r.step ev).isClosed id) :
    (r.step ev).callsFor id = r.callsFor id := by
  by_cases hev : ev.IsOutside
  · -- what happens outside of fetches makes no calls at all
    have hcalled : (r.step ev).called = r.called := by
      have hcalls := (step_keeps r hev).calls
      generalize hr' : r.step ev = r' at hcalls
      have hact := flagAct r ev
      rw [hr'] at hact
      cases hact with
      | keeps _ hl => exact hl.called
      | forces => rw [← hr']; rfl
      | takes _ _ ht =>
        rw [ht.calls] at hcalls
        simp at hcalls
    have hsame := callsFor_step h ev id [] (by rw [hcalled, List.append_nil])
    rwa [List.filter_nil, List.map_nil, List.append_nil] at hsame
  · -- a fetch that goes on calls for open managers only
    rw [(step_goes r hev).1.closed] at hc
    cases flagStep h ev id with
    | forced _ hcalls _ => exact hcalls
    | taken _ hopen => simp [hc] at hopen
    | kept _ hcalls _ => exact hcalls

/-! ## The law -/

namespace AuthRealm

/-- **Listeners balance.** -/
structure Balance (r : AuthRealm) (id : AuthId) : Prop where
  /-- The manager wants to become a listener once at most. -/
  once : (r.joinsOf id).length ≤ 1
  /-- It listens, and can ask the provider, if it was accepted and has not been closed, -/
  listed : r.isClosed id = false → none ∈ r.joinsOf id → r.placesOf id = 1 ∧ r.isAttached id
  /-- and not if it was refused, -/
  refused : ∀ e, some e ∈ r.joinsOf id → r.placesOf id = 0 ∧ r.isAttached id = false
  /-- nor if it has not come to the provider, -/
  unlisted : r.joinsOf id = [] → r.placesOf id = 0 ∧ r.isAttached id = false
  /-- nor if it has been closed and the provider let it go. -/
  closed : r.isClosed id → (∀ e, some e ∉ r.leavesOf id) → r.placesOf id = 0

/-- **Closed managers are silent.** -/
structure Silence (r : AuthRealm) (id : AuthId) : Prop where
  ends : id < r.managers.length → (r.step (.close id)).isClosed id
  noted : r.isClosed id → .closed id ∈ r.storyOf id
  /-- Its change listener is told nothing after its end, and it does not end again. -/
  after : ∀ pre post, r.storyOf id = pre ++ .closed id :: post → ∀ n ∈ post, n.isListing
  /-- Once the call in which it was closed has returned, nothing at all is seen of it, and it does not change, -/
  still : r.isClosed id → ∀ ev, (r.step ev).isClosed id ∧ (r.step ev).stateOf id = r.stateOf id ∧
    (r.step ev).storyOf id = r.storyOf id ∧ (r.step ev).placesOf id = r.placesOf id
  /-- nor does its force flag, unless somebody sets it. -/
  flag : r.isClosed id → ∀ ev : AuthEvent, ev.forced? ≠ some id → (r.step ev).owes id = r.owes id
  /-- No call of the provider is made out for it, not even in the call in which it is closed, -/
  calls : ∀ ev, (r.step ev).isClosed id → (r.step ev).callsFor id = r.callsFor id
  /-- and none reaches the provider, though it was made out before. -/
  reached : ∀ ev, (r.step ev).isClosed id → (r.step ev).reachedFor id = r.reachedFor id
  uid : r.isClosed id → r.uid id = none
  /-- Closing it again does nothing; as ever, fetches that can go on are woken. -/
  again : r.isClosed id → { r.close id with queue := r.queue } = r

/-- The realm is in order. -/
structure ListenersInOrder (r : AuthRealm) : Prop where
  expectant : Expectant r
  noted : r.Noted
  dispatch : Dispatch r
  standing : ∀ id, Standing r id
  hushed : ∀ id, Hushed r id

theorem ListenersInOrder.init : ListenersInOrder {} := by
  exact ⟨.init, ⟨rfl, by simp [called]⟩, .init, fun id => .unlisted ⟨rfl, rfl, rfl, rfl⟩ rfl,
    fun id => .running rfl (by simp [storyOf])⟩

theorem ListenersInOrder.step (h : r.ListenersInOrder) (ev : AuthEvent) : (r.step ev).ListenersInOrder :=
  ⟨h.expectant.step ev, h.noted.step ev, h.dispatch.step ev, fun id => (h.standing id).step h.expectant ev,
    fun id => (h.hushed id).step h.expectant ev⟩

theorem listenersInOrder_run (es : List AuthEvent) : (({} : AuthRealm).run es).ListenersInOrder :=
  List.foldlRecOn es AuthRealm.step .init fun _ h ev _ => h.step ev

end AuthRealm

theorem Standing.balance (h : Standing r id) : r.Balance id := by
  cases h with
  | unlisted h ha =>
    refine ⟨by simp [h.joins], by simp [h.joins], by simp [h.joins], fun _ => ⟨h.places, ha⟩, fun _ _ => h.places⟩
  | refused e hj _ hp ha _ =>
    exact ⟨by simp [hj], by simp [hj], fun _ _ => ⟨hp, ha⟩, fun _ => ⟨hp, ha⟩, fun _ _ => hp⟩
  | listed hj _ hp hopen ha _ =>
    exact ⟨by simp [hj], fun _ _ => ⟨hp, ha⟩, by simp [hj], by simp [hj], fun hc => by simp [hopen] at hc⟩
  | gone refusal hc hj hl hp _ =>
    refine ⟨by simp [hj], fun hopen => by simp [hc] at hopen, by simp [hj], by simp [hj], fun _ hnot => ?_⟩
    cases refusal with
    | none => exact hp
    | some e => exact absurd (by simp [hl]) (hnot e)

/-- Waking fetches only queues them. -/
theorem AuthRealm.wake_eq (r : AuthRealm) : { r.wake with queue := r.queue } = r := by
  have hfold : ∀ (fs : List FetchId) (s : AuthRealm),
      { fs.foldl wakeFetch s with queue := r.queue } = { s with queue := r.queue } := by
    intro fs
    induction fs with
    | nil => exact fun _ => rfl
    | cons f fs ih =>
      intro s
      rw [List.foldl_cons, ih]
      unfold wakeFetch
      split <;> rfl
  exact hfold _ r

/-- **Listener balance, and silence after the end.** Whatever happens in a realm, in every state between calls
and for every manager the listeners balance; and a manager that has been closed is not heard of again, whatever
happens then. -/
theorem listener_balance (es : List AuthEvent) (id : AuthId) :
    (({} : AuthRealm).run es).Balance id ∧ (({} : AuthRealm).run es).Silence id := by
  have hr := AuthRealm.listenersInOrder_run es
  generalize ({} : AuthRealm).run es = r at hr
  refine ⟨(hr.standing id).balance, ?_⟩
  -- however a closed manager stands, it cannot ask the provider
  have hshut : r.isClosed id → r.isAttached id = false := by
    intro hc
    cases hr.standing id with
    | unlisted _ ha => exact ha
    | refused _ _ _ _ ha _ => exact ha
    | listed _ _ _ hopen => simp [hc] at hopen
    | gone _ _ _ _ _ ha => exact ha
  refine ⟨isClosed_close, fun hc => ?_, fun pre post hsplit => ?_, fun hc ev => ?_, fun hc ev hev => ?_,
    fun ev => callsFor_closed hr.noted, fun ev => hr.dispatch.reachedFor_closed hr.noted, fun hc => ?_,
    fun hc => ?_⟩
  · cases hr.hushed id with
    | running hopen => simp [hc] at hopen
    | ended _ hsplit => simp [hsplit]
  · cases hr.hushed id with
    | running _ hnot => simp [hsplit] at hnot
    | ended _ hsplit' hpre hpost =>
      -- a story with one end is split there in one way
      have hnot := fun hmem => hpost (.closed id) hmem
      simp only [AuthNote.isListing, Bool.false_eq_true] at hnot
      obtain ⟨-, -, rfl⟩ := (List.append_cons_inj_of_notMem hpre hnot).1 (hsplit'.symm.trans hsplit)
      exact hpost
  · by_cases huser : ∃ uid, ev = .setUser uid
    · obtain ⟨uid, rfl⟩ := huser
      exact ⟨hc, rfl, rfl, rfl⟩
    · have hp : PassesBy id r (r.step ev) := closed_passesBy hr.expectant hc fun uid hu => huser ⟨uid, hu⟩
      exact ⟨hp.isClosed.trans hc, hp.state, hp.story, hp.places⟩
  · cases flagStep hr.noted ev id with
    | forced hforces => exact absurd hforces.1 hev
    | taken _ hopen => simp [hc] at hopen
    | kept _ _ howes => exact howes
  · rw [r.uid_eq_ite, hshut hc]
    rfl
  · have hsame : r.closeManager id = r := by
      cases closeManager_shuts r id with
      | again _ hsame => exact hsame
      | alone hopen => simp [hc] at hopen
      | leaves _ hopen => simp [hc] at hopen
    unfold AuthRealm.close
    rw [hsame]
    exact r.wake_eq

end QueryClient
