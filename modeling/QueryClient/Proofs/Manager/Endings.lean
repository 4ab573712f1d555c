import QueryClient.Proofs.Manager.Orderly
import QueryClient.Proofs.Manager.Origins
import QueryClient.Proofs.Manager.Steady
import QueryClient.Proofs.Manager.Watch

/-!
# How subscriptions end

A subscription ends when its handle is given up, when its manager is cancelled, or when one of its
handlers panics; several of these may happen, in any order. It gives up its lease first, and then
tells its handlers, once, that it has ended.

* `QueryManager.said`: what the handlers of a subscription are told, in order.
* `Act.said`: nobody else tells them anything.
* `Opening`: a subscription, and the run before it; `Opening.Cause`: why it ends.
* `Opening.Hears`, `Opening.Parted`: it goes on, or has ended; `Opening.Hears.deliver`: a run of it.
* `Opening.Stands.next`: every event keeps this.
* `subscription_ending`: **a subscription ends once, for a cause, and in order.**
-/

namespace QueryClient

/-! ## What handlers are told -/

/-- What the handlers of a subscription are told. -/
inductive Said where
  | handed (d : Delivery)
  | completed

/-- What a note says that the handlers of a subscription were told. -/
def Note.said? (t : TaskId) : Note → Option Said
  | .handed u d => if u = t then some (.handed d) else none
  | .completed u => if u = t then some .completed else none
  | _ => none

/-- **What the handlers of a subscription were told,** in order. -/
def QueryManager.said (m : QueryManager) (t : TaskId) : List Said := m.journal.filterMap (Note.said? t)

/-- After this the handlers are to hear nothing more but that the subscription has ended. -/
def Reaction.stops (r : Reaction) : Bool := r.panics || r.unsubscribes

variable {m m' : QueryManager} {b b' : Bench} {t u : TaskId} {given : Input} {held : List Lease}
variable {s : Subscription} {ds : List Delivery} {l : Lending} {ev : ManagerEvent}

theorem said_note (m : QueryManager) (n : Note) (t : TaskId) :
    (m.note n).said t = m.said t ++ (n.said? t).toList := by
  unfold QueryManager.said QueryManager.note
  rw [List.filterMap_append]
  cases h : n.said? t <;> simp [h]

theorem said_congr (h : m'.journal = m.journal) (t : TaskId) : m'.said t = m.said t := by
  unfold QueryManager.said
  rw [h]

/-- What was handed over is part of what the handlers were told. -/
theorem handed_eq (m : QueryManager) (t : TaskId) : m.handed t = (m.said t).filterMap fun
    | .handed d => some d
    | .completed => none := by
  unfold QueryManager.handed QueryManager.said
  rw [List.filterMap_filterMap]
  refine congrArg (fun f => m.journal.filterMap f) (funext fun n => ?_)
  cases n with
  | handed u d => by_cases hu : u = t <;> simp [Note.said?, hu]
  | completed u => by_cases hu : u = t <;> simp [Note.said?, hu]
  | _ => rfl

theorem handed_of_said {last : List Said} (hlast : last = [] ∨ last = [.completed])
    (h : m.said t = ds.map .handed ++ last) : m.handed t = ds := by
  have hall : (ds.map Said.handed).filterMap (fun
      | .handed d => some d
      | .completed => none) = ds := by
    rw [List.filterMap_map]
    exact List.filterMap_some
  rw [handed_eq, h, List.filterMap_append, hall]
  rcases hlast with rfl | rfl <;> simp

/-- **Nobody else tells the handlers of a subscription anything.** -/
theorem Act.said (h : Act t given b b') (hu : u ≠ t ∨ b.manager.tasks[u]? = none) :
    b'.manager.said u = b.manager.said u := by
  have hnote : ∀ {m : QueryManager} {n : Note}, n.said? u = none → (m.note n).said u = m.said u := by
    intro m n hn
    rw [said_note, hn]
    exact List.append_nil _
  have hother : ∀ {m : QueryManager} {x : Task}, m.tasks[t]? = some x → (u ≠ t ∨ m.tasks[u]? = none) →
      t ≠ u := by
    rintro m x htask (hu | hu) rfl
    · exact hu rfl
    · rw [htask] at hu
      simp at hu
  cases h with
  | acquire spec _ => exact said_congr (LeaseStep.acquire _ spec).journal u
  | release x => exact said_congr (LeaseStep.releaseLease _ x).journal u
  | close id _ => exact said_congr (LeaseStep.closeInstance _ id).journal u
  | remark n hn =>
    refine hnote ?_
    cases n with
    | warned text => rfl
    | failed text => rfl
    | _ => exact hn.elim
  | call => exact hnote rfl
  | finish => exact hnote rfl
  | hand htask hs he hd => exact hnote (if_neg (hother htask hu))
  | complete htask hs hlease hreact he hux => exact hnote (if_neg (hother htask hu))
  | _ => rfl

theorem Acts.tasksKept (h : Acts t given b b') : TasksKept t b.manager b'.manager := by
  induction h with
  | refl => exact fun u x hx => ⟨x, hx, .refl x, fun _ => rfl⟩
  | tail _ hact ih =>
    intro u x hx
    obtain ⟨y, hy, hxy, hsame⟩ := ih u x hx
    obtain ⟨z, hz, hyz, hsame'⟩ := hact.tasksKept u y hy
    exact ⟨z, hz, hxy.trans hyz, fun hu => (hsame' hu).trans (hsame hu)⟩

/-- A task that is not there afterwards was not there before. -/
theorem TasksKept.none_before (h : TasksKept t m m') (hnone : m'.tasks[u]? = none) :
    m.tasks[u]? = none := by
  cases hx : m.tasks[u]? with
  | none => rfl
  | some x =>
    obtain ⟨y, hy, -⟩ := h u x hx
    rw [hnone] at hy
    simp at hy

theorem Acts.said (h : Acts t given b b') (hu : u ≠ t ∨ b'.manager.tasks[u]? = none) :
    b'.manager.said u = b.manager.said u := by
  induction h with
  | refl => rfl
  | tail _ hact ih =>
    have hbefore := hu.imp_right hact.tasksKept.none_before
    rw [hact.said hbefore, ih hbefore]

/-- Another task's acts leave a task as it is. -/
theorem Acts.getElem? {x : Task} (h : Acts t given b b') (hu : u ≠ t)
    (hx : b.manager.tasks[u]? = some x) : b'.manager.tasks[u]? = some x := by
  obtain ⟨y, hy, -, hsame⟩ := h.tasksKept u x hx
  rw [hy, hsame hu]

theorem said_queued (h : Queued m m') (t : TaskId) : m'.said t = m.said t :=
  said_congr (by rw [h.frame]) t

/-- Nobody is told anything before there is a subscription. -/
theorem said_eq_nil (es : List ManagerEvent) {t : TaskId}
    (ht : (({} : Lending).after es).manager.tasks[t]? = none) :
    (({} : Lending).after es).manager.said t = [] := by
  have hrun : ∀ (es : List ManagerEvent) {l : Lending}, l.Sound →
      (l.manager.tasks[t]? = none → l.manager.said t = []) → (l.after es).manager.tasks[t]? = none →
      (l.after es).manager.said t = [] := by
    intro es
    induction es with
    | nil => exact fun _ h => h
    | cons ev es ih =>
      intro l hl h
      refine ih (hl.next ev) fun hnone => ?_
      rcases l.next_manager ev with heq | heq
      · obtain ⟨hstart, hacts, hq, -, -⟩ := performed hl.ok hl.coherent ev
        rw [heq] at hnone ⊢
        rw [hq.frame] at hnone
        rw [said_queued hq, Acts.said hacts (.inr hnone)]
        have hbefore := hacts.tasksKept.none_before hnone
        rcases hstart with rfl | rfl
        · exact h hbefore
        · exact h hbefore
      · rw [heq] at hnone ⊢
        exact h hnone
  exact hrun es .init (fun _ => rfl) ht

/-! ## A subscription -/

/-- A subscription, and the run before it. -/
structure Opening where
  before : List ManagerEvent := []
  spec : QuerySpec
  executes : Bool
  react : Delivery → Reaction

namespace Opening

/-- There is the subscription now. -/
def lending (o : Opening) : Lending :=
  (({} : Lending).after o.before).next (.subscribe o.spec o.executes o.react)

def task (o : Opening) : TaskId :=
  ((({} : Lending).after o.before).manager.subscribe o.spec o.executes o.react).2

/-- The lease that the subscription takes. -/
def lease (o : Opening) : Lease := ((({} : Lending).after o.before).manager.acquire o.spec).2

variable {o : Opening} {asked : Prop}

/-- **The subscription goes on.** Its handle may have been given up, as was `asked` for, or by the
handler that was called last. -/
structure Hears (o : Opening) (asked : Prop) (m : QueryManager) (s : Subscription)
    (ds : List Delivery) : Prop where
  running : s.stage = .running
  key : s.lease.key = o.spec.key
  react : s.react = o.react
  said : m.said o.task = ds.map .handed
  calm : ∀ d ∈ ds, (o.react d).panics = false
  last : ds.Pairwise fun d _ => (o.react d).unsubscribes = false
  cancelled : s.cancelled ↔ asked ∨ ∃ d ∈ ds, (o.react d).unsubscribes

/-- **The subscription has ended,** and its handlers are told so as the last. -/
structure Parted (o : Opening) (asked : Prop) (m : QueryManager) (ds : List Delivery) : Prop where
  said : m.said o.task = ds.map .handed ++ [.completed]
  last : ds.Pairwise fun d _ => (o.react d).stops = false
  cause : asked ∨ m.cancelled ∨ ∃ d ∈ ds, (o.react d).stops
  task : ∃ s, m.tasks[o.task]? = some (.subscription s) ∧ s.stage = .completed

/-- **Its handlers are told that it has ended,** when its lease has been given up already. -/
structure Leaves (o : Opening) (asked : Prop) (held : List Lease) (m : QueryManager)
    (ds : List Delivery) (m' : QueryManager) : Prop where
  eq : m' = m.note (.completed o.task)
  parted : o.Parted asked m' ds
  books : Books m.registry (m.othersLeases o.task ++ held)

/-- Where the subscription is. -/
inductive Stands (o : Opening) (asked : Prop) (m : QueryManager) : Prop where
  | hears {s : Subscription} {ds : List Delivery} (htask : m.tasks[o.task]? = some (.subscription s))
      (h : o.Hears asked m s ds)
  | parted {ds : List Delivery} (h : o.Parted asked m ds)

theorem Hears.handed (h : o.Hears asked m s ds) : m.handed o.task = ds :=
  handed_of_said (.inl rfl) (h.said.trans (List.append_nil _).symm)

theorem Parted.handed (h : o.Parted asked m ds) : m.handed o.task = ds := handed_of_said (.inr rfl) h.said

/-! ## A run of the subscription -/

theorem Leaves.endSubscription (hord : Orderly m (s.lease :: (m.othersLeases o.task ++ held)))
    (ht : o.task < m.tasks.length) (hsaid : m.said o.task = ds.map .handed)
    (hlast : ds.Pairwise fun d _ => (o.react d).stops = false)
    (hcause : asked ∨ m.cancelled ∨ ∃ d ∈ ds, (o.react d).stops) :
    ∃ m₁, o.Leaves asked held m₁ ds (m.endSubscription o.task s) ∧
      m₁.othersLeases o.task = m.othersLeases o.task := by
  obtain ⟨hfault, hok⟩ := hord.leases.releaseLease
  have htasks := tasks_releaseLease m s.lease
  have hjournal := (LeaseStep.releaseLease m s.lease).journal
  have hcancelled := (Steady.releaseLease m s.lease).cancelled
  unfold QueryManager.endSubscription
  generalize m.releaseLease s.lease = r at hfault hok htasks hjournal hcancelled
  obtain ⟨m₁, fault⟩ := r
  obtain rfl : fault = none := hfault
  dsimp only at hok htasks hjournal hcancelled
  have hothers := (othersLeases_setTask m₁ o.task (.subscription { s with stage := .completed })).trans
    (othersLeases_congr htasks)
  refine ⟨m₁.setTask o.task (.subscription { s with stage := .completed }), ⟨rfl, ?_, ?_⟩, hothers⟩
  · refine ⟨?_, hlast, ?_, { s with stage := .completed },
      List.getElem?_set_self (by rw [htasks]; exact ht), rfl⟩
    · have hself : Note.said? o.task (.completed o.task) = some .completed := if_pos rfl
      have hsame : (m₁.setTask o.task (.subscription { s with stage := .completed })).said o.task =
          m.said o.task := said_congr hjournal _
      rw [said_note, hsame, hsaid, hself]
      rfl
    · exact hcause.imp_right (Or.imp_left hcancelled.trans)
  · rw [hothers]
    exact hok.books

namespace Hears

/-- Only the handler that was called last may have given up the handle. -/
theorem quiet (h : o.Hears asked m s ds) : ds.Pairwise fun d _ => (o.react d).stops = false := by
  refine h.last.imp_of_mem fun {d d'} hd _ hun => ?_
  unfold Reaction.stops
  rw [h.calm d hd, hun]
  rfl

/-- **A subscription that has to end ends.** -/
theorem ends (h : o.Hears asked m s ds) (hord : Orderly m (s.lease :: (m.othersLeases o.task ++ held)))
    (ht : o.task < m.tasks.length) (hstop : s.cancelled ∨ m.cancelled) :
    ∃ m₁, o.Leaves asked held m₁ ds (m.endSubscription o.task s) ∧
      m₁.othersLeases o.task = m.othersLeases o.task := by
  refine Leaves.endSubscription hord ht h.said h.quiet ?_
  rcases hstop with hc | hc
  · rcases h.cancelled.1 hc with hasked | ⟨d, hd, hun⟩
    · exact .inl hasked
    · exact .inr (.inr ⟨d, hd, by unfold Reaction.stops; rw [hun, Bool.or_true]⟩)
  · exact .inr (.inl hc)

/-- A subscription whose handle has not been given up, with what it handed over before. -/
theorem unasked (h : o.Hears asked m s ds) (hs : s.cancelled = false) :
    ¬ asked ∧ ∀ d ∈ ds, (o.react d).unsubscribes = false := by
  have hnot : ¬ (asked ∨ ∃ d ∈ ds, (o.react d).unsubscribes) := fun hc => by
    have hcancelled := h.cancelled.2 hc
    rw [hs] at hcancelled
    simp at hcancelled
  rw [not_or] at hnot
  exact ⟨hnot.1, fun d hd => by simpa using fun hun => hnot.2 ⟨d, hd, hun⟩⟩

/-- Whether the handle is given up when one result more has been handed over. -/
theorem cancelled_hand (h : o.Hears asked m s ds) (hs : s.cancelled = false) (d : Delivery) :
    (s.cancelled || (s.react d).unsubscribes) ↔ asked ∨ ∃ d' ∈ ds ++ [d], (o.react d').unsubscribes := by
  obtain ⟨hasked, hun⟩ := h.unasked hs
  rw [h.react, hs, Bool.false_or]
  constructor
  · exact fun hu => .inr ⟨d, List.mem_append_right _ List.mem_cons_self, hu⟩
  · rintro (ha | ⟨d', hd', hu⟩)
    · exact absurd ha hasked
    · rcases List.mem_append.1 hd' with hd' | hd'
      · rw [hun d' hd'] at hu
        simp at hu
      · rw [List.mem_singleton.1 hd'] at hu
        exact hu

/-- One result more is handed over, and the subscription goes on. -/
theorem hand (h : o.Hears asked m s ds) (hs : s.cancelled = false) {d : Delivery}
    (hd : (o.react d).panics = false) (updates : Updates) :
    o.Hears asked (m.note (.handed o.task d))
      { s with updates, cancelled := s.cancelled || (s.react d).unsubscribes } (ds ++ [d]) := by
  have hun := (h.unasked hs).2
  refine ⟨h.running, h.key, h.react, ?_, fun d' hd' => ?_, ?_, h.cancelled_hand hs d⟩
  · have hself : Note.said? o.task (.handed o.task d) = some (.handed d) := if_pos rfl
    rw [said_note, h.said, hself, List.map_append]
    rfl
  · rcases List.mem_append.1 hd' with hd' | hd'
    · exact h.calm d' hd'
    · rw [List.mem_singleton.1 hd']
      exact hd
  · refine List.pairwise_append.2 ⟨h.last, List.pairwise_singleton .., fun d hd _ _ => hun d hd⟩

/-- **A handler panics,** and the subscription ends: all handlers called before let it go on. -/
theorem panics (h : o.Hears asked m s ds) (hs : s.cancelled = false) {d : Delivery}
    (hd : (o.react d).panics = true) (hord : Orderly m (s.lease :: (m.othersLeases o.task ++ held)))
    (ht : o.task < m.tasks.length) (s' : Subscription) (hlease : s'.lease = s.lease) (text : String) :
    ∃ m₁, o.Leaves asked held m₁ (ds ++ [d])
        (((m.note (.handed o.task d)).note (.failed text)).endSubscription o.task s') ∧
      m₁.othersLeases o.task = m.othersLeases o.task := by
  have hun := (h.unasked hs).2
  have hself : Note.said? o.task (.handed o.task d) = some (.handed d) := if_pos rfl
  have hsaid : ((m.note (.handed o.task d)).note (.failed text)).said o.task = (ds ++ [d]).map .handed := by
    rw [said_note, said_note, h.said, hself, List.map_append]
    exact List.append_nil _
  have hlast : (ds ++ [d]).Pairwise fun d _ => (o.react d).stops = false := by
    refine List.pairwise_append.2 ⟨h.quiet, List.pairwise_singleton .., fun d hd _ _ => ?_⟩
    unfold Reaction.stops
    rw [h.calm d hd, hun d hd]
    rfl
  have hcause : (o.react d).stops := by
    unfold Reaction.stops
    rw [hd, Bool.true_or]
  rw [← hlease] at hord
  exact Leaves.endSubscription (m := (m.note (.handed o.task d)).note (.failed text))
    ⟨hord.leases.congr rfl rfl rfl, hord.mild⟩ ht hsaid hlast
    (.inr (.inr ⟨d, List.mem_append_right _ List.mem_cons_self, hcause⟩))

end Hears

/-- What comes of a run of the subscription: it goes on, or its handlers are told that it has
ended. -/
inductive Delivered (o : Opening) (asked : Prop) (held others : List Lease) (m : QueryManager) : Prop where
  | hears {s : Subscription} {ds : List Delivery} (htask : m.tasks[o.task]? = some (.subscription s))
      (h : o.Hears asked m s ds)
  | leaves {m₁ : QueryManager} {ds : List Delivery} (h : o.Leaves asked held m₁ ds m)
      (hothers : m₁.othersLeases o.task = others)

/-- **A run of the subscription.** -/
theorem Hears.deliver (fuel : ℕ) : ∀ {m : QueryManager} {s : Subscription} {ds : List Delivery},
    Orderly m (s.lease :: (m.othersLeases o.task ++ held)) → o.task < m.tasks.length →
    o.Hears asked m s ds →
    o.Delivered asked held (m.othersLeases o.task) (QueryManager.deliver fuel m o.task s) := by
  have hrest : ∀ {m : QueryManager} {s : Subscription} {ds : List Delivery} {updates : Updates},
      o.task < m.tasks.length → o.Hears asked m s ds →
      o.Delivered asked held (m.othersLeases o.task)
        (m.setTask o.task (.subscription { s with updates })) :=
    fun ht h => .hears (List.getElem?_set_self ht)
      ⟨h.running, h.key, h.react, h.said, h.calm, h.last, h.cancelled⟩
  induction fuel with
  | zero => exact fun _ ht h => hrest ht h
  | succ fuel ih =>
    intro m s ds hord ht h
    unfold QueryManager.deliver
    split
    · rename_i hstop
      obtain ⟨m₁, hleaves, hothers⟩ := h.ends hord ht (by simpa using hstop)
      exact .leaves hleaves hothers
    rename_i hgo
    have hs : s.cancelled = false := by
      rw [Bool.not_eq_true, Bool.or_eq_false_iff] at hgo
      exact hgo.1
    cases m.executor? s.lease.id with
    | none => exact hrest ht h
    | some e =>
      simp only
      cases s.updates.next e with
      | mk updates outcome =>
        cases outcome with
        | none => exact hrest ht h
        | some outcome =>
          simp only
          generalize (⟨outcome, updates.source outcome⟩ : Delivery) = d
          have hord' : Orderly (m.note (.handed o.task d)) (s.lease :: (m.othersLeases o.task ++ held)) :=
            ⟨hord.leases.congr rfl rfl rfl, hord.mild⟩
          split
          · rename_i hpanics
            rw [h.react] at hpanics
            obtain ⟨m₁, hleaves, hothers⟩ := h.panics hs hpanics hord ht { s with
              updates, cancelled := s.cancelled || (s.react d).unsubscribes } rfl _
            exact .leaves hleaves hothers
          · rename_i hcalm
            rw [h.react, Bool.not_eq_true] at hcalm
            exact ih (m := m.note (.handed o.task d)) hord' ht (h.hand hs hcalm updates)

/-! ## Every event -/

/-- **What an event does to the subscription.** -/
structure Proceeds (o : Opening) (asked asked' : Prop) (l l' : Lending) : Prop where
  stands : o.Stands asked' l'.manager
  /-- Nothing is handed over once the handle was given up or the manager was cancelled. -/
  silent : asked ∨ l.manager.cancelled → l'.manager.handed o.task = l.manager.handed o.task
  /-- When the handlers are told that the subscription has ended, its lease has been given up. -/
  released : .completed ∉ l.manager.said o.task → .completed ∈ l'.manager.said o.task →
    ∃ m₁ : QueryManager, l'.manager = (m₁.note (.completed o.task)).wake ∧
      (∀ key, m₁.registry.users key = (m₁.othersLeases o.task ++ l.held).countP fun x => x.key = key) ∧
      l.manager.registry.users o.spec.key = m₁.registry.users o.spec.key + 1

namespace Stands

theorem congr (h : o.Stands asked m) (hsaid : m'.said o.task = m.said o.task)
    (htask : ∀ s, m.tasks[o.task]? = some (.subscription s) → m'.tasks[o.task]? = some (.subscription s))
    (hcancel : m.cancelled → m'.cancelled) : o.Stands asked m' := by
  cases h with
  | hears hs h =>
    exact .hears (htask _ hs) ⟨h.running, h.key, h.react, hsaid.trans h.said, h.calm, h.last, h.cancelled⟩
  | parted h =>
    obtain ⟨s, hs, hst⟩ := h.task
    exact .parted ⟨hsaid.trans h.said, h.last, h.cause.imp_right (Or.imp_left hcancel), s, htask s hs, hst⟩

/-- There is the task of the subscription. -/
theorem task (h : o.Stands asked m) : ∃ s, m.tasks[o.task]? = some (.subscription s) := by
  cases h with
  | hears hs h => exact ⟨_, hs⟩
  | parted h => exact h.task.imp fun s hs => hs.1

end Stands

/-- The handlers are told nothing. -/
theorem Proceeds.of_said {asked' : Prop} {l' : Lending} (h : o.Stands asked' l'.manager)
    (hsaid : l'.manager.said o.task = l.manager.said o.task) : o.Proceeds asked asked' l l' := by
  refine ⟨h, fun _ => by rw [handed_eq, handed_eq, hsaid], fun hn hc => ?_⟩
  rw [hsaid] at hc
  exact absurd hc hn

theorem completed_notMem (ds : List Delivery) : Said.completed ∉ ds.map Said.handed := by
  simp

namespace Stands

theorem said (h : o.Stands asked m) :
    ∃ ds : List Delivery, m.said o.task = ds.map .handed ∨ m.said o.task = ds.map .handed ++ [.completed] := by
  cases h with
  | hears _ h => exact ⟨_, .inl h.said⟩
  | parted h => exact ⟨_, .inr h.said⟩

/-- A handler that panics or gives up the handle is the last one to be called. -/
theorem last (h : o.Stands asked m) : (m.handed o.task).Pairwise fun d _ => (o.react d).stops = false := by
  cases h with
  | hears _ h =>
    rw [h.handed]
    exact h.quiet
  | parted h =>
    rw [h.handed]
    exact h.last

/-- There is a cause for the end. -/
theorem cause (h : o.Stands asked m) (hc : .completed ∈ m.said o.task) :
    asked ∨ m.cancelled ∨ ∃ d ∈ m.handed o.task, (o.react d).stops := by
  cases h with
  | hears _ h =>
    rw [h.said] at hc
    exact absurd hc (completed_notMem _)
  | parted h =>
    rw [h.handed]
    exact h.cause

/-- **Where nothing can go on,** a subscription that has to end has ended. -/
theorem complete (h : o.Stands asked m) (hawake : Awake m) (hq : m.queue = [])
    (hend : asked ∨ m.cancelled ∨ ∃ d ∈ m.handed o.task, (o.react d).stops) :
    .completed ∈ m.said o.task := by
  cases h with
  | parted h =>
    rw [h.said]
    exact List.mem_append_right _ List.mem_cons_self
  | @hears s ds htask h =>
    -- it can go on, so that it would be queued
    have hstop : s.cancelled ∨ m.cancelled := by
      rw [h.handed] at hend
      rcases hend with hasked | hcancel | ⟨d, hd, hstops⟩
      · exact .inl (h.cancelled.2 (.inl hasked))
      · exact .inr hcancel
      · unfold Reaction.stops at hstops
        rw [h.calm d hd, Bool.false_or] at hstops
        exact .inl (h.cancelled.2 (.inr ⟨d, hd, hstops⟩))
    have hready : m.isReady (.subscription s) := by
      unfold QueryManager.isReady
      rcases hstop with hc | hc <;> simp [h.running, hc]
    have hmem := hawake _ _ htask hready
    rw [hq] at hmem
    simp at hmem

end Stands

/-- What the subscription holds, other tasks hold and users hold. -/
theorem Hears.orderly (hl : l.Proper) (htask : l.manager.tasks[o.task]? = some (.subscription s))
    (h : o.Hears asked l.manager s ds) :
    Orderly l.manager (s.lease :: (l.manager.othersLeases o.task ++ l.held)) := by
  have hlease : l.manager.leaseOf? o.task = some s.lease := by
    rw [leaseOf?_of_task htask]
    simp only [Task.lease?, Subscription.lease?, h.running]
  have hothers := othersLeases_perm l.manager o.task
  rw [hlease] at hothers
  exact hl.orderly.perm ((hothers.symm.trans List.perm_append_comm).append_right _)

/-- **The subscription is taken from the queue and runs.** -/
theorem Stands.runTask (hl : l.Proper) (h : o.Stands asked l.manager) {rest : List TaskId}
    (hq : l.manager.queue = o.task :: rest) : o.Proceeds asked asked l (l.next .poll) := by
  have hpoll : (l.next .poll).manager = (l.manager.taken.runTask o.task).wake := by
    show l.manager.poll = _
    rw [poll_eq hq]
  have hwake := Queued.wake (l.manager.taken.runTask o.task)
  rw [← hpoll] at hwake
  have hsaid := said_queued hwake o.task
  have hstands : o.Stands asked (l.manager.taken.runTask o.task) → o.Stands asked (l.next .poll).manager := by
    refine fun h => h.congr hsaid (fun s hs => ?_) fun hc => ?_
    · rw [hwake.frame]
      exact hs
    · rw [hwake.frame]
      exact hc
  cases h with
  | parted h =>
    obtain ⟨s, hs, hst⟩ := h.task
    have hrun : l.manager.taken.runTask o.task = l.manager.taken := by
      unfold QueryManager.runTask
      rw [show l.manager.taken.tasks[o.task]? = some (.subscription s) from hs]
      simp only [hst]
    rw [hrun] at hsaid hstands
    exact .of_said (hstands (.parted ⟨h.said, h.last, h.cause, s, hs, hst⟩)) hsaid
  | @hears s ds hs h =>
    have ht : o.task < l.manager.taken.tasks.length := lt_of_task hs
    have hord := h.orderly hl hs
    have hord' : Orderly l.manager.taken (s.lease :: (l.manager.taken.othersLeases o.task ++ l.held)) :=
      hord.congr rfl
    have hears' : o.Hears asked l.manager.taken s ds :=
      ⟨h.running, h.key, h.react, h.said, h.calm, h.last, h.cancelled⟩
    have hrun : l.manager.taken.runTask o.task =
        QueryManager.deliver (s.updates.pending.length + 2) l.manager.taken o.task s := by
      unfold QueryManager.runTask
      rw [show l.manager.taken.tasks[o.task]? = some (.subscription s) from hs]
      simp only [h.running]
    have hdelivered := hears'.deliver (s.updates.pending.length + 2) hord' ht
    rw [← hrun] at hdelivered
    refine ⟨?_, fun hstop => ?_, fun _ hc => ?_⟩
    · cases hdelivered with
      | hears htask h => exact hstands (.hears htask h)
      | leaves h => exact hstands (.parted h.parted)
    · -- the run starts with the end
      have hstopped : s.cancelled ∨ l.manager.taken.cancelled :=
        hstop.imp_left fun hasked => h.cancelled.2 (.inl hasked)
      obtain ⟨m₁, hleaves, -⟩ := hears'.ends hord' ht hstopped
      have hend : l.manager.taken.runTask o.task = l.manager.taken.endSubscription o.task s := by
        rw [hrun]
        unfold QueryManager.deliver
        rw [if_pos (by simpa using hstopped)]
      rw [handed_eq, hsaid, hend, ← handed_eq, hleaves.parted.handed, h.handed]
    · rw [hsaid] at hc
      cases hdelivered with
      | hears htask h =>
        rw [h.said] at hc
        exact absurd hc (completed_notMem _)
      | @leaves m₁ ds hleaves hothers =>
        refine ⟨m₁, by rw [hpoll, hleaves.eq], hleaves.books.users, ?_⟩
        have hothers' : m₁.othersLeases o.task = l.manager.othersLeases o.task := hothers
        rw [hord.leases.books.users, hleaves.books.users, hothers', Books.countP_cons, if_pos h.key.symm]

/-- **Another task does not touch the subscription.** -/
theorem Stands.others (h : o.Stands asked m) {m₀ m₁ : QueryManager} {x y : Option Lease}
    {fault : Option String} (hstart : m₀ = m ∨ m₀ = m.taken)
    (hacts : Acts u given ⟨m₀, x, none⟩ ⟨m₁, y, fault⟩) (hu : o.task ≠ u) (hq : Queued m₁ m')
    (hcancel : m'.cancelled = m.cancelled) : o.Stands asked m' ∧ m'.said o.task = m.said o.task := by
  have hbefore : m₀.said o.task = m.said o.task ∧ m₀.tasks = m.tasks := by
    rcases hstart with rfl | rfl <;> exact ⟨rfl, rfl⟩
  have hsaid : m'.said o.task = m.said o.task := by
    rw [said_queued hq, ← hbefore.1]
    exact Acts.said hacts (.inl hu)
  refine ⟨h.congr hsaid (fun s hs => ?_) hcancel.trans, hsaid⟩
  rw [hq.frame]
  refine Acts.getElem? hacts hu ?_
  rw [hbefore.2]
  exact hs

/-- The handle of the subscription is given up. -/
theorem Stands.unsubscribe (h : o.Stands asked m) :
    o.Stands True (m.unsubscribe o.task) ∧ (m.unsubscribe o.task).said o.task = m.said o.task := by
  obtain ⟨s, htask⟩ := h.task
  have heq : m.unsubscribe o.task =
      (m.setTask o.task (.subscription { s with cancelled := true })).wake := by
    unfold QueryManager.unsubscribe
    rw [htask]
  have hwake := Queued.wake (m.setTask o.task (.subscription { s with cancelled := true }))
  rw [← heq] at hwake
  have hsaid : (m.unsubscribe o.task).said o.task = m.said o.task := said_queued hwake o.task
  have hself : (m.unsubscribe o.task).tasks[o.task]? = some (.subscription { s with cancelled := true }) := by
    rw [hwake.frame]
    exact List.getElem?_set_self (lt_of_task htask)
  refine ⟨?_, hsaid⟩
  cases h with
  | hears hs h =>
    obtain rfl := Task.subscription.inj (Option.some.inj (htask.symm.trans hs))
    exact .hears hself ⟨h.running, h.key, h.react, hsaid.trans h.said, h.calm, h.last,
      fun _ => .inl trivial, fun _ => rfl⟩
  | parted h =>
    obtain ⟨s', hs, hst⟩ := h.task
    obtain rfl := Task.subscription.inj (Option.some.inj (htask.symm.trans hs))
    exact .parted ⟨hsaid.trans h.said, h.last, .inl trivial, _, hself, hst⟩

/-- **Nothing that comes from outside** touches the subscription. -/
theorem Stands.outside (h : o.Stands asked m) (hev : ev.IsOutside) :
    o.Stands asked (m.step ev) ∧ (m.step ev).said o.task = m.said o.task := by
  obtain ⟨hunseen, -⟩ := step_outside m hev
  have hsaid := said_congr hunseen.journal o.task
  exact ⟨h.congr hsaid (fun s hs => hunseen.getElem? hs) fun hc => (cancelled_step m ev).2 (.inl hc), hsaid⟩

/-- Another task runs. -/
theorem Stands.poll (hl : l.Proper) (h : o.Stands asked l.manager) {rest : List TaskId}
    (hq : l.manager.queue = u :: rest) (hu : o.task ≠ u) :
    o.Stands asked l.manager.poll ∧ l.manager.poll.said o.task = l.manager.said o.task := by
  have hworks : Works u {} ⟨l.manager.taken, l.manager.taken.leaseOf? u, none⟩ (l.manager.taken.runTask u) :=
    Works.runTask hl.ok.taken hl.coherent.taken (hl.ok.notMem_taken hq)
  obtain ⟨fault, hacts⟩ := hworks
  have hwake : Queued (l.manager.taken.runTask u) l.manager.poll := by
    rw [poll_eq hq]
    exact .wake _
  exact h.others (.inr rfl) hacts hu hwake (cancelled_poll _)

/-- A task is favoured. -/
theorem Stands.favour (h : o.Stands asked m) (u : TaskId) :
    o.Stands asked (m.favour u) ∧ (m.favour u).said o.task = m.said o.task := by
  have hunseen : Unseen m (m.favour u) := .queued (.favour m u)
  have hsaid := said_congr hunseen.journal o.task
  refine ⟨h.congr hsaid (fun s hs => hunseen.getElem? hs) fun hc => ?_, hsaid⟩
  rw [favour_frame]
  exact hc

/-- A caller loses interest; a subscription is none. -/
theorem Stands.abort (h : o.Stands asked m) (u : TaskId) :
    o.Stands asked (m.abort u) ∧ (m.abort u).said o.task = m.said o.task := by
  by_cases hu : o.task = u
  · subst hu
    obtain ⟨s, htask⟩ := h.task
    have hnone : m.abort o.task = m := by
      unfold QueryManager.abort
      rw [htask]
    rw [hnone]
    exact ⟨h, rfl⟩
  · obtain ⟨m₁, ⟨fault, hacts⟩, hq⟩ := abort_works m u
    exact h.others (.inl rfl) hacts hu hq (cancelled_abort _ u)

/-- **Every event** moves the subscription on, or leaves it alone. -/
theorem Stands.next (hl : l.Proper) (h : o.Stands asked l.manager) (ev : ManagerEvent) :
    o.Proceeds asked (asked ∨ ev = .unsubscribe o.task) l (l.next ev) := by
  have hsame : ∀ {l' : Lending}, ev ≠ .unsubscribe o.task →
      o.Stands asked l'.manager ∧ l'.manager.said o.task = l.manager.said o.task →
      o.Proceeds asked (asked ∨ ev = .unsubscribe o.task) l l' := by
    intro l' hne hmoves
    rw [or_iff_left hne]
    exact .of_said hmoves.1 hmoves.2
  rcases l.next_step ev with heq | ⟨⟨x, rfl⟩, heq⟩
  swap
  · exact hsame (by simp) (by rw [heq]; exact ⟨h, rfl⟩)
  by_cases hout : ev.IsOutside
  · have hne : ev ≠ .unsubscribe o.task := fun hev => by rw [hev] at hout; exact hout
    exact hsame hne (by rw [heq]; exact h.outside hout)
  cases ev with
  | poll =>
    cases hq : l.manager.queue with
    | nil =>
      have hnone : (l.next .poll).manager = l.manager := poll_nil hq
      exact hsame (by simp) (by rw [hnone]; exact ⟨h, rfl⟩)
    | cons u rest =>
      by_cases hu : o.task = u
      · subst hu
        rw [or_iff_left (by simp)]
        exact h.runTask hl hq
      · exact hsame (by simp) (h.poll hl hq hu)
  | favour u => exact hsame (by simp) (h.favour u)
  | abort u => exact hsame (by simp) (h.abort u)
  | unsubscribe u =>
    by_cases hu : o.task = u
    · subst hu
      obtain ⟨hstands, hsaid⟩ := h.unsubscribe
      rw [show (asked ∨ ManagerEvent.unsubscribe o.task = .unsubscribe o.task) = True by simp]
      exact .of_said hstands hsaid
    · have hne : ManagerEvent.unsubscribe u ≠ .unsubscribe o.task := fun hev =>
        hu (ManagerEvent.unsubscribe.inj hev).symm
      obtain ⟨m₁, ⟨fault, hacts⟩, hq⟩ := unsubscribe_works hl.coherent u
      exact hsame hne (h.others (.inl rfl) hacts hu hq (cancelled_unsubscribe _ u))
  | _ => exact absurd trivial hout

/-! ## Runs -/

theorem exists_subscription (o : Opening) : ∃ updates, o.lending.manager.tasks[o.task]? =
      some (.subscription { lease := o.lease, updates, react := o.react }) ∧
    (({} : Lending).after o.before).manager.tasks.length ≤ o.task := by
  have hsound : (({} : Lending).after o.before).Sound := .after .init o.before
  obtain ⟨-, e, he, -⟩ := hsound.coherent.registered.acquire o.spec
  obtain ⟨hle, -⟩ := subscribe_works hsound.coherent.registered o.spec o.executes o.react
  refine ⟨.open e, ?_, hle⟩
  unfold Opening.lending Opening.task Lending.next
  show (QueryManager.subscribe _ o.spec o.executes o.react).1.tasks[_]? = _
  unfold QueryManager.subscribe
  simp only [he]
  exact (getElem?_spawn _ _ _).trans (if_pos rfl)

/-- A new subscription goes on, and its handlers have been told nothing. -/
theorem hears_lending (o : Opening) : ∃ s, o.lending.manager.tasks[o.task]? = some (.subscription s) ∧
    o.Hears False o.lending.manager s [] := by
  have hout : (ManagerEvent.subscribe o.spec o.executes o.react).IsOutside := trivial
  obtain ⟨hunseen, -⟩ := step_outside (({} : Lending).after o.before).manager hout
  obtain ⟨updates, htask, hlen⟩ := o.exists_subscription
  have hnone := said_eq_nil o.before (List.getElem?_eq_none_iff.2 hlen)
  have hsaid : o.lending.manager.said o.task = ([] : List Delivery).map .handed :=
    (said_congr hunseen.journal o.task).trans hnone
  exact ⟨_, htask, rfl, rfl, rfl, hsaid, by simp, .nil, by simp⟩

theorem stands_lending (o : Opening) : o.Stands False o.lending.manager := by
  obtain ⟨s, htask, h⟩ := o.hears_lending
  exact .hears htask h

theorem Stands.after (es : List ManagerEvent) (hes : ∀ ev ∈ es, ev.closes = false) :
    ∀ {l : Lending} {asked : Prop}, l.Proper → o.Stands asked l.manager →
    o.Stands (asked ∨ .unsubscribe o.task ∈ es) (l.after es).manager ∧
      (asked ∨ l.manager.cancelled → (l.after es).manager.handed o.task = l.manager.handed o.task) := by
  induction es with
  | nil =>
    intro l asked _ h
    rw [or_iff_left List.not_mem_nil]
    exact ⟨h, fun _ => rfl⟩
  | cons ev es ih =>
    intro l asked hl h
    obtain ⟨hev, hes⟩ := List.forall_mem_cons.1 hes
    have hmoves := h.next hl ev
    obtain ⟨hstands, hsilent⟩ := ih hes (hl.next hev) hmoves.stands
    refine ⟨?_, fun hstop => ?_⟩
    · rw [List.mem_cons, ← or_assoc, eq_comm (a := ManagerEvent.unsubscribe o.task)]
      exact hstands
    · refine (hsilent ?_).trans (hmoves.silent hstop)
      exact hstop.imp .inl ((Lending.cancelled_after [ev] l).2 ∘ .inl)

theorem cancelled_iff (o : Opening) (es : List ManagerEvent) :
    (o.lending.after es).manager.cancelled ↔ .cancel ∈ o.before ++ es := by
  have hlending : o.lending.manager.cancelled ↔ .cancel ∈ o.before := by
    refine (Lending.cancelled_after [.subscribe o.spec o.executes o.react] _).trans ?_
    rw [Lending.cancelled_after]
    simp
  rw [Lending.cancelled_after, hlending, List.mem_append]

/-- **Why the subscription has to end.** -/
inductive MustEnd (o : Opening) (es : List ManagerEvent) : Prop where
  | unsubscribed (h : .unsubscribe o.task ∈ es)
  | cancelled (h : .cancel ∈ o.before ++ es)
  /-- A handler panicked, or gave up the handle. -/
  | stopped {d : Delivery} (h : d ∈ (o.lending.after es).manager.handed o.task) (hd : (o.react d).stops)

/-- **How the subscription ends,** in the run of the given events. -/
structure Concludes (o : Opening) (es : List ManagerEvent) : Prop where
  /-- The handlers are told at most once that it has ended, and as the last. -/
  once : ∃ ds : List Delivery, (o.lending.after es).manager.said o.task = ds.map .handed ∨
    (o.lending.after es).manager.said o.task = ds.map .handed ++ [.completed]
  cause : .completed ∈ (o.lending.after es).manager.said o.task → o.MustEnd es
  /-- Once nothing can go on, they have been told. -/
  complete : o.MustEnd es → (o.lending.after es).manager.queue = [] →
    .completed ∈ (o.lending.after es).manager.said o.task
  /-- Nothing is handed over once the handle was given up or the manager was cancelled. -/
  silent : ∀ earlier later, es = earlier ++ later →
    .unsubscribe o.task ∈ earlier ∨ .cancel ∈ o.before ++ earlier →
    (o.lending.after es).manager.handed o.task = (o.lending.after earlier).manager.handed o.task
  /-- A handler that panics or gives up the handle is the last one to be called. -/
  last : ((o.lending.after es).manager.handed o.task).Pairwise fun d _ => (o.react d).stops = false
  /-- When the handlers are told that it has ended, its lease has been given up. -/
  released : ∀ earlier ev later, es = earlier ++ ev :: later →
    .completed ∉ (o.lending.after earlier).manager.said o.task →
    .completed ∈ ((o.lending.after earlier).next ev).manager.said o.task →
    ∃ m : QueryManager, ((o.lending.after earlier).next ev).manager = (m.note (.completed o.task)).wake ∧
      (∀ key, m.registry.users key =
        (m.othersLeases o.task ++ (o.lending.after earlier).held).countP fun x => x.key = key) ∧
      (o.lending.after earlier).manager.registry.users o.spec.key = m.registry.users o.spec.key + 1

end Opening

/-- **Every subscription ends once,** for a cause, and when it has given up its lease. -/
theorem subscription_ending (o : Opening) (es : List ManagerEvent)
    (hopen : ∀ ev ∈ o.before ++ es, ev.closes = false) : o.Concludes es := by
  obtain ⟨hbefore, hes⟩ := List.forall_mem_append.1 hopen
  have hstart : o.lending.Proper := (Lending.Proper.init.after o.before hbefore).next rfl
  have hrun : ∀ earlier, (∀ ev ∈ earlier, ev.closes = false) →
      o.Stands (.unsubscribe o.task ∈ earlier) (o.lending.after earlier).manager := by
    intro earlier hearlier
    have h := (Opening.Stands.after earlier hearlier hstart o.stands_lending).1
    rwa [false_or] at h
  have hproper := hstart.after es hes
  have hstands := hrun es hes
  refine ⟨hstands.said, fun hc => ?_, fun hend hq => hstands.complete hproper.awake hq ?_, ?_,
    hstands.last, ?_⟩
  · rcases hstands.cause hc with hun | hcancel | ⟨d, hd, hstops⟩
    · exact .unsubscribed hun
    · exact .cancelled ((o.cancelled_iff es).1 hcancel)
    · exact .stopped hd hstops
  · cases hend with
    | unsubscribed hun => exact .inl hun
    | cancelled hcancel => exact .inr (.inl ((o.cancelled_iff es).2 hcancel))
    | stopped hd hstops => exact .inr (.inr ⟨_, hd, hstops⟩)
  · rintro earlier later rfl hstop
    have hsplit := List.forall_mem_append.1 hes
    have hsilent := (Opening.Stands.after later hsplit.2 (hstart.after earlier hsplit.1)
      (hrun earlier hsplit.1)).2
    rw [Lending.after_append]
    exact hsilent (hstop.imp_right (o.cancelled_iff earlier).2)
  · rintro earlier ev later rfl
    have hsplit := List.forall_mem_append.1 hes
    exact ((hrun earlier hsplit.1).next (hstart.after earlier hsplit.1) ev).released

/-- A subscription whose handler gives up the handle at the first result; later the handle is given up
again, and the manager is cancelled. -/
def premiere : Opening := ⟨[], ⟨"GetMovie", [("id", .int 1)]⟩, true, fun _ => { unsubscribes := true }⟩

def premiereRun : List ManagerEvent :=
  [.poll, .poll, .poll, .answer 2 (.returned (.ok {})), .poll, .poll, .cancel, .unsubscribe 1, .poll]

theorem subscription_ending_premiere :
    (∀ ev ∈ premiere.before ++ premiereRun, ev.closes = false) ∧
      ((premiere.lending.after premiereRun).manager.said premiere.task).length = 2 ∧
      premiere.Concludes premiereRun :=
  ⟨by decide, by decide +kernel, subscription_ending premiere premiereRun (by decide)⟩

end QueryClient
