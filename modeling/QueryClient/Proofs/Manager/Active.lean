import QueryClient.Proofs.Manager.Delivery
import QueryClient.Proofs.Manager.Endings
import QueryClient.Proofs.Manager.Turnout

/-!
# What a handle says of its subscription

A handle is active until it is given up or the manager is cancelled. Nothing else is looked at, so
that the handle of a subscription that ends because one of its handlers panics stays active.

* `Lending.Sound.touched`: only its own run and the giving up of its handle touch a subscription.
* `Opening.Ceased`, `Opening.Shows`: a subscription has ended, or goes on.
* `Opening.Hears.runs`, `Opening.Shows.next`: its own run, and every event.
* `QueryManager.Places`, `Lending.Sound.places_next`: **it has a place in what its executor stored,** in any
  order of the tasks.
* `Opening.delivers_remembered`: what it has handed over, as long as the order of the queue is kept.
* `Opening.watch_resumes`, `Opening.hands_next`: from any state in which it waits, it hands over the next result.
* `Opening.GoesOn`, `Opening.Over`: it will hand over the next result, or nothing more.
* `HandleSays`, `handle_says`: **a handle is active if and only if its subscription goes on,** but for
  a handler that panicked.
* `active_after_panic`: such a run.
-/

namespace QueryClient

variable {m m' : QueryManager} {t : TaskId} {s : Subscription} {ds : List Delivery} {l : Lending}
variable {ev : ManagerEvent} {es more : List ManagerEvent} {o : Opening} {asked : Prop}
variable {e : Executor} {old : List NumberedOutcome}

/-! ## Who touches a subscription -/

/-- **Only its own run and the giving up of its handle** touch a subscription. -/
theorem Lending.Sound.touched (hl : l.Sound) (htask : l.manager.tasks[t]? = some (.subscription s))
    (ev : ManagerEvent) : (ev = .poll ∧ ∃ rest, l.manager.queue = t :: rest) ∨ ev = .unsubscribe t ∨
      (l.next ev).manager.tasks[t]? = some (.subscription s) ∧
        (l.next ev).manager.said t = l.manager.said t := by
  have hacts : ∀ {u : TaskId} {given : Input} {m₀ m₁ m' : QueryManager} {x y : Option Lease}
      {fault : Option String}, m₀ = l.manager ∨ m₀ = l.manager.taken →
      Acts u given ⟨m₀, x, none⟩ ⟨m₁, y, fault⟩ → t ≠ u → Queued m₁ m' →
      m'.tasks[t]? = some (.subscription s) ∧ m'.said t = l.manager.said t := by
    intro u given m₀ m₁ m' x y fault hstart hacts hu hq
    rw [said_queued hq, Acts.said hacts (.inl hu), hq.frame]
    rcases hstart with rfl | rfl
    · exact ⟨Acts.getElem? hacts hu htask, rfl⟩
    · exact ⟨Acts.getElem? hacts hu htask, rfl⟩
  rcases l.next_step ev with heq | ⟨-, heq⟩
  swap
  · exact .inr (.inr (by rw [heq]; exact ⟨htask, rfl⟩))
  by_cases hout : ev.IsOutside
  · obtain ⟨hunseen, -⟩ := step_outside l.manager hout
    rw [heq]
    exact .inr (.inr ⟨hunseen.getElem? htask, said_congr hunseen.journal t⟩)
  rw [heq]
  cases ev with
  | poll =>
    cases hq : l.manager.queue with
    | nil =>
      have hnone : l.manager.step .poll = l.manager := poll_nil hq
      rw [hnone]
      exact .inr (.inr ⟨htask, rfl⟩)
    | cons u rest =>
      by_cases hu : t = u
      · exact .inl ⟨rfl, rest, by rw [hu]⟩
      · have hworks : Works u {} ⟨l.manager.taken, l.manager.taken.leaseOf? u, none⟩ (l.manager.taken.runTask u) :=
          Works.runTask hl.ok.taken hl.coherent.taken (hl.ok.notMem_taken hq)
        obtain ⟨fault, hrun⟩ := hworks
        have hwake : Queued (l.manager.taken.runTask u) (l.manager.step .poll) := by
          show Queued _ l.manager.poll
          rw [poll_eq hq]
          exact .wake _
        exact .inr (.inr (hacts (.inr rfl) hrun hu hwake))
  | favour u =>
    have hunseen : Unseen l.manager (l.manager.favour u) := .queued (.favour l.manager u)
    exact .inr (.inr ⟨hunseen.getElem? htask, said_congr hunseen.journal t⟩)
  | abort u =>
    by_cases hu : t = u
    · have hnone : l.manager.step (.abort u) = l.manager := by
        show l.manager.abort u = _
        unfold QueryManager.abort
        rw [← hu, htask]
      rw [hnone]
      exact .inr (.inr ⟨htask, rfl⟩)
    · obtain ⟨m₁, ⟨fault, hrun⟩, hq⟩ := abort_works l.manager u
      exact .inr (.inr (hacts (.inl rfl) hrun hu hq))
  | unsubscribe u =>
    by_cases hu : t = u
    · exact .inr (.inl (by rw [hu]))
    · obtain ⟨m₁, ⟨fault, hrun⟩, hq⟩ := unsubscribe_works hl.coherent u
      exact .inr (.inr (hacts (.inl rfl) hrun hu hq))
  | _ => exact absurd trivial hout

/-- A subscription that has ended has no lease. -/
theorem leaseOf?_of_ended (htask : m.tasks[t]? = some (.subscription s)) (hne : s.stage ≠ .running) :
    m.leaseOf? t = none := by
  rw [leaseOf?_of_task htask]
  simp only [Task.lease?, Subscription.lease?]

namespace Opening

/-! ## A subscription that has ended -/

/-- **The subscription has ended:** its handlers were told so, or giving up its lease failed. -/
structure Ceased (o : Opening) (asked : Prop) (m : QueryManager) (s : Subscription) : Prop where
  stage : s.stage ≠ .running
  told : .completed ∈ m.said o.task ∨ ∃ text, s.stage = .panicked text
  cancelled : s.cancelled ↔ asked ∨ ∃ d ∈ m.handed o.task, (o.react d).unsubscribes
  cause : s.cancelled ∨ m.cancelled ∨ ∃ d ∈ m.handed o.task, (o.react d).panics

/-- The subscription goes on, or has ended. -/
inductive Shows (o : Opening) (asked : Prop) (m : QueryManager) (s : Subscription) : Prop where
  | hears {ds : List Delivery} (h : o.Hears asked m s ds)
  | ceased (h : o.Ceased asked m s)

theorem Hears.congr (h : o.Hears asked m s ds) (hsaid : m'.said o.task = m.said o.task) :
    o.Hears asked m' s ds :=
  ⟨h.running, h.key, h.react, hsaid.trans h.said, h.calm, h.last, h.cancelled⟩

theorem Ceased.congr (h : o.Ceased asked m s) (hsaid : m'.said o.task = m.said o.task)
    (hcancel : m.cancelled → m'.cancelled) : o.Ceased asked m' s := by
  refine ⟨h.stage, ?_, ?_, ?_⟩
  · rw [hsaid]
    exact h.told
  · rw [handed_eq, hsaid, ← handed_eq]
    exact h.cancelled
  · rw [handed_eq, hsaid, ← handed_eq]
    exact h.cause.imp_right (Or.imp_left hcancel)

theorem Shows.congr (h : o.Shows asked m s) (hsaid : m'.said o.task = m.said o.task)
    (hcancel : m.cancelled → m'.cancelled) : o.Shows asked m' s := by
  cases h with
  | hears h => exact .hears (h.congr hsaid)
  | ceased h => exact .ceased (h.congr hsaid hcancel)

theorem Shows.cancelled (h : o.Shows asked m s) :
    s.cancelled ↔ asked ∨ ∃ d ∈ m.handed o.task, (o.react d).unsubscribes := by
  cases h with
  | hears h =>
    rw [h.handed]
    exact h.cancelled
  | ceased h => exact h.cancelled

/-- No handler of a subscription that goes on has panicked. -/
theorem Shows.calm (h : o.Shows asked m s) (hrun : s.stage = .running) :
    .completed ∉ m.said o.task ∧ ∀ d ∈ m.handed o.task, (o.react d).panics = false := by
  cases h with
  | hears h =>
    rw [h.handed, h.said]
    exact ⟨completed_notMem _, h.calm⟩
  | ceased h => exact absurd hrun h.stage

/-- **Without a cause to end,** the subscription goes on. -/
theorem Shows.running (h : o.Shows asked m s) (htask : m.tasks[o.task]? = some (.subscription s))
    (hactive : m.isActive o.task) (hcalm : ∀ d ∈ m.handed o.task, (o.react d).panics = false) :
    s.stage = .running := by
  unfold QueryManager.isActive at hactive
  rw [htask] at hactive
  cases h with
  | hears h => exact h.running
  | ceased h =>
    exfalso
    rcases h.cause with hc | hc | ⟨d, hd, hp⟩
    · simp [hc] at hactive
    · simp [hc] at hactive
    · rw [hcalm d hd] at hp
      simp at hp

/-! ## A run of the subscription -/

/-- A subscription that gives up its lease has ended. -/
theorem Ceased.endSubscription (ht : o.task < m.tasks.length)
    (hc : s.cancelled ↔ asked ∨ ∃ d ∈ m.handed o.task, (o.react d).unsubscribes)
    (hcause : s.cancelled ∨ m.cancelled ∨ ∃ d ∈ m.handed o.task, (o.react d).panics) :
    ∃ s', (m.endSubscription o.task s).tasks[o.task]? = some (.subscription s') ∧
      o.Ceased asked (m.endSubscription o.task s) s' := by
  have htasks := tasks_releaseLease m s.lease
  have hjournal := (LeaseStep.releaseLease m s.lease).journal
  have hcancel := (Steady.releaseLease m s.lease).cancelled
  unfold QueryManager.endSubscription
  split
  all_goals
    rename_i hm₁
    rw [hm₁] at htasks hjournal hcancel
    rw [handed_eq, ← said_congr hjournal, ← handed_eq] at hc hcause
    rw [← hcancel] at hcause
    refine ⟨_, List.getElem?_set_self (by rw [htasks]; exact ht), nofun, ?_, ?_, ?_⟩
  case h_1.refine_1 =>
    have hself : Note.said? o.task (.completed o.task) = some .completed := if_pos rfl
    rw [said_note, hself]
    exact .inl (List.mem_append_right _ List.mem_cons_self)
  case h_1.refine_2 =>
    rw [handed_note _ _ (by simp)]
    exact hc
  case h_1.refine_3 =>
    rw [handed_note _ _ (by simp)]
    exact hcause
  case h_2.refine_1 => exact .inr ⟨_, rfl⟩
  case h_2.refine_2 => exact hc
  case h_2.refine_3 => exact hcause

/-- **A run of the subscription** leaves it going on, or ends it. -/
theorem Hears.runs (fuel : ℕ) : ∀ {m : QueryManager} {s : Subscription} {ds : List Delivery},
    o.task < m.tasks.length → o.Hears asked m s ds →
    ∃ s', (QueryManager.deliver fuel m o.task s).tasks[o.task]? = some (.subscription s') ∧
      o.Shows asked (QueryManager.deliver fuel m o.task s) s' := by
  have hrest : ∀ {m : QueryManager} {s : Subscription} {ds : List Delivery} {updates : Updates},
      o.task < m.tasks.length → o.Hears asked m s ds →
      ∃ s', (m.setTask o.task (.subscription { s with updates })).tasks[o.task]? = some (.subscription s') ∧
        o.Shows asked (m.setTask o.task (.subscription { s with updates })) s' :=
    fun ht h => ⟨_, List.getElem?_set_self ht,
      .hears ⟨h.running, h.key, h.react, h.said, h.calm, h.last, h.cancelled⟩⟩
  have hend : ∀ {m : QueryManager} {s : Subscription}, o.task < m.tasks.length →
      (s.cancelled ↔ asked ∨ ∃ d ∈ m.handed o.task, (o.react d).unsubscribes) →
      (s.cancelled ∨ m.cancelled ∨ ∃ d ∈ m.handed o.task, (o.react d).panics) →
      ∃ s', (m.endSubscription o.task s).tasks[o.task]? = some (.subscription s') ∧
        o.Shows asked (m.endSubscription o.task s) s' := by
    intro m s ht hc hcause
    obtain ⟨s', htask, hceased⟩ := Ceased.endSubscription ht hc hcause
    exact ⟨s', htask, .ceased hceased⟩
  induction fuel with
  | zero => exact fun ht h => hrest ht h
  | succ fuel ih =>
    intro m s ds ht h
    unfold QueryManager.deliver
    split
    · rename_i hstop
      rw [Bool.or_eq_true] at hstop
      exact hend ht (Shows.cancelled (.hears h)) (hstop.imp_right .inl)
    rename_i hgo
    have hs : s.cancelled = false := by
      rw [Bool.not_eq_true, Bool.or_eq_false_iff] at hgo
      exact hgo.1
    cases m.executor? s.lease.id with
    | none => exact hrest ht h
    | some e =>
      simp only
      cases s.updates.next e with
      | mk updates outcome =>
        cases outcome with
        | none => exact hrest ht h
        | some outcome =>
          simp only
          generalize (⟨outcome, updates.source outcome⟩ : Delivery) = d
          split
          · rename_i hpanics
            rw [h.react] at hpanics
            refine hend (m := (m.note (.handed o.task d)).note _) ht ?_ (.inr (.inr ⟨d, ?_, hpanics⟩))
            · rw [handed_note _ _ (by simp), handed_handed, h.handed]
              exact h.cancelled_hand hs d
            · rw [handed_note _ _ (by simp), handed_handed]
              exact List.mem_append_right _ List.mem_cons_self
          · rename_i hcalm
            rw [h.react, Bool.not_eq_true] at hcalm
            exact ih (m := m.note (.handed o.task d)) ht (h.hand hs hcalm updates)

/-! ## Every event -/

/-- What becomes of the subscription: one that has ended hands over nothing more. -/
structure Becomes (o : Opening) (asked : Prop) (m : QueryManager) (s : Subscription) (m' : QueryManager)
    (s' : Subscription) : Prop where
  task : m'.tasks[o.task]? = some (.subscription s')
  shows : o.Shows asked m' s'
  ended : s.stage ≠ .running → s'.stage ≠ .running ∧ m'.handed o.task = m.handed o.task

/-- The subscription is taken from the queue and runs. -/
theorem Shows.runTask (htask : m.tasks[o.task]? = some (.subscription s)) (h : o.Shows asked m s) :
    ∃ s', o.Becomes asked m s (m.taken.runTask o.task) s' := by
  have htaken : m.taken.tasks[o.task]? = some (.subscription s) := htask
  cases h with
  | hears h =>
    have hears' : o.Hears asked m.taken s _ := h.congr rfl
    have hrun : m.taken.runTask o.task =
        QueryManager.deliver (s.updates.pending.length + 2) m.taken o.task s := by
      unfold QueryManager.runTask
      simp only [htaken, h.running]
    obtain ⟨s', hs', hshows⟩ := hears'.runs (s.updates.pending.length + 2) (lt_of_task htaken)
    rw [hrun]
    exact ⟨s', hs', hshows, fun hne => absurd h.running hne⟩
  | ceased h =>
    have hsame : m.taken.runTask o.task = m.taken := by
      unfold QueryManager.runTask
      rw [htaken]
      simp only
      split
      · exact absurd ‹_› h.stage
      · rfl
    rw [hsame]
    exact ⟨s, htask, .ceased (h.congr rfl id), fun hne => ⟨hne, rfl⟩⟩

/-- The handle of the subscription is given up. -/
theorem Shows.unsubscribe (htask : m.tasks[o.task]? = some (.subscription s)) (h : o.Shows asked m s) :
    ∃ s', o.Becomes True m s (m.unsubscribe o.task) s' := by
  have hwake : Queued (m.setTask o.task (.subscription { s with cancelled := true })) (m.unsubscribe o.task) := by
    unfold QueryManager.unsubscribe
    rw [htask]
    exact .wake _
  have hsaid : (m.unsubscribe o.task).said o.task = m.said o.task := said_queued hwake o.task
  have hhanded : (m.unsubscribe o.task).handed o.task = m.handed o.task := by
    rw [handed_eq, hsaid, ← handed_eq]
  refine ⟨{ s with cancelled := true }, ?_, ?_, fun hne => ⟨hne, hhanded⟩⟩
  · rw [hwake.frame]
    exact List.getElem?_set_self (lt_of_task htask)
  cases h with
  | hears h =>
    exact .hears ⟨h.running, h.key, h.react, hsaid.trans h.said, h.calm, h.last,
      fun _ => .inl trivial, fun _ => rfl⟩
  | ceased h =>
    refine .ceased ⟨h.stage, ?_, ⟨fun _ => .inl trivial, fun _ => rfl⟩, .inl rfl⟩
    rw [hsaid]
    exact h.told

/-- **Every event** moves the subscription on, or leaves it alone. -/
theorem Shows.next (hl : l.Sound) (htask : l.manager.tasks[o.task]? = some (.subscription s))
    (h : o.Shows asked l.manager s) (ev : ManagerEvent) :
    ∃ s', o.Becomes (asked ∨ ev = .unsubscribe o.task) l.manager s (l.next ev).manager s' := by
  have hcancel : l.manager.cancelled → (l.next ev).manager.cancelled := fun hc =>
    (Lending.cancelled_after [ev] l).2 (.inl hc)
  rcases hl.touched htask ev with ⟨rfl, rest, hq⟩ | rfl | ⟨htask', hsaid⟩
  · rw [or_iff_left (by simp)]
    obtain ⟨s', hs', hshows, hended⟩ := h.runTask htask
    have hwake : Queued (l.manager.taken.runTask o.task) (l.next .poll).manager := by
      show Queued _ l.manager.poll
      rw [poll_eq hq]
      exact .wake _
    have hsaid := said_queued hwake o.task
    refine ⟨s', by rw [hwake.frame]; exact hs', hshows.congr hsaid fun hc => ?_, fun hne => ?_⟩
    · rw [hwake.frame]
      exact hc
    rw [handed_eq, hsaid, ← handed_eq]
    exact hended hne
  · rw [show (asked ∨ ManagerEvent.unsubscribe o.task = .unsubscribe o.task) = True by simp]
    exact h.unsubscribe htask
  · have hhanded : (l.next ev).manager.handed o.task = l.manager.handed o.task := by
      rw [handed_eq, hsaid, ← handed_eq]
    by_cases hev : ev = .unsubscribe o.task
    · subst hev
      rw [show (asked ∨ ManagerEvent.unsubscribe o.task = .unsubscribe o.task) = True by simp]
      exact h.unsubscribe htask
    · rw [or_iff_left hev]
      exact ⟨s, htask', h.congr hsaid hcancel, fun hne => ⟨hne, hhanded⟩⟩

/-! ## Runs -/

theorem Shows.after (es : List ManagerEvent) : ∀ {l : Lending} {s : Subscription} {asked : Prop}, l.Sound →
    l.manager.tasks[o.task]? = some (.subscription s) → o.Shows asked l.manager s →
    ∃ s', o.Becomes (asked ∨ .unsubscribe o.task ∈ es) l.manager s (l.after es).manager s' := by
  induction es with
  | nil =>
    intro l s asked _ htask h
    rw [or_iff_left List.not_mem_nil]
    exact ⟨s, htask, h, fun hne => ⟨hne, rfl⟩⟩
  | cons ev es ih =>
    intro l s asked hl htask h
    obtain ⟨s₁, htask₁, hshows₁, hended₁⟩ := h.next hl htask ev
    obtain ⟨s', htask', hshows', hended'⟩ := ih (hl.next ev) htask₁ hshows₁
    rw [or_assoc, eq_comm (a := ev), ← List.mem_cons] at hshows'
    refine ⟨s', htask', hshows', fun hne => ?_⟩
    obtain ⟨hne₁, hhanded₁⟩ := hended₁ hne
    obtain ⟨hne', hhanded'⟩ := hended' hne₁
    exact ⟨hne', hhanded'.trans hhanded₁⟩

theorem awake (o : Opening) (es : List ManagerEvent) : Awake (o.lending.after es).manager := by
  have hrun : ∀ (es : List ManagerEvent) {l : Lending}, l.Sound → Awake l.manager →
      Awake (l.after es).manager := by
    intro es
    induction es with
    | nil => exact fun _ h => h
    | cons ev es ih =>
      intro l hl h
      refine ih (hl.next ev) ?_
      rcases l.next_manager ev with heq | heq
      · rw [heq]
        exact h.step hl.coherent ev
      · rw [heq]
        exact h
  have hall := hrun (o.before ++ .subscribe o.spec o.executes o.react :: es) .init (.init {})
  rwa [Lending.after_append] at hall

theorem sound_lending (o : Opening) : o.lending.Sound :=
  (Lending.Sound.init.after o.before).next (.subscribe o.spec o.executes o.react)

/-- The subscription goes on in a run from its beginning, or has ended. -/
theorem exists_shows (o : Opening) (es : List ManagerEvent) :
    ∃ s, (o.lending.after es).manager.tasks[o.task]? = some (.subscription s) ∧
      o.Shows (.unsubscribe o.task ∈ es) (o.lending.after es).manager s := by
  obtain ⟨s₀, htask₀, h⟩ := o.hears_lending
  obtain ⟨s, htask, hshows, -⟩ := Shows.after es o.sound_lending htask₀ (.hears h)
  rw [false_or] at hshows
  exact ⟨s, htask, hshows⟩

end Opening

/-! ## Where the subscription is -/

/-- **A subscription that goes on has a place** in the results of its executor, whatever of them it has handed
over. -/
def QueryManager.Places (m : QueryManager) (t : TaskId) (old : List NumberedOutcome) : Prop :=
  ∀ s, m.tasks[t]? = some (.subscription s) → s.stage = .running →
    ∃ e unread read, m.executor? s.lease.id = some e ∧ Reading e s.updates unread read old

theorem stage_endSubscription {s' : Subscription} (ht : t < m.tasks.length)
    (htask : (m.endSubscription t s).tasks[t]? = some (.subscription s')) : s'.stage ≠ .running := by
  have htasks := tasks_releaseLease m s.lease
  unfold QueryManager.endSubscription at htask
  split at htask
  all_goals
    rename_i hm₁
    rw [hm₁] at htasks
    have hset := (List.getElem?_set_self (by rw [htasks]; exact ht)).symm.trans htask
    obtain rfl := Task.subscription.inj (Option.some.inj hset)
    exact nofun

/-- **A run of the subscription** gives it another place, or ends it. -/
theorem places_deliver {sup : Supply} (hexec : ExecutorOK sup e) (fuel : ℕ) : ∀ {m : QueryManager}
    {s : Subscription} {unread read : List NumberedOutcome}, m.executor? s.lease.id = some e →
    t < m.tasks.length → Reading e s.updates unread read old →
    (QueryManager.deliver fuel m t s).Places t old := by
  have hrest : ∀ {m : QueryManager} {s : Subscription} {updates : Updates} {unread read : List NumberedOutcome},
      m.executor? s.lease.id = some e → t < m.tasks.length → Reading e updates unread read old →
      (m.setTask t (.subscription { s with updates })).Places t old := by
    intro m s updates unread read he ht hr s' hs' _
    have hset := (List.getElem?_set_self ht).symm.trans hs'
    obtain rfl := Task.subscription.inj (Option.some.inj hset)
    exact ⟨e, unread, read, he, hr⟩
  induction fuel with
  | zero => exact fun he ht hr => hrest he ht hr
  | succ fuel ih =>
    intro m s unread read he ht hr
    unfold QueryManager.deliver
    split
    · exact fun s' hs' hrun => absurd hrun (stage_endSubscription ht hs')
    rw [he]
    simp only
    obtain ⟨unread', read', hread⟩ := hr.next hexec
    cases hnext : s.updates.next e with
    | mk updates outcome =>
      rw [hnext] at hread
      cases outcome with
      | none => exact hrest he ht hread
      | some outcome =>
        simp only
        split
        · exact fun s' hs' hrun => absurd hrun
            (stage_endSubscription (m := (m.note _).note _) ht hs')
        · exact ih (m := m.note _) he ht hread

/-- **Every event** leaves it in its place, moves it on or ends it. -/
theorem Lending.Sound.places_next (hl : l.Sound) (htask : l.manager.tasks[t]? = some (.subscription s))
    (h : l.manager.Places t old) (ev : ManagerEvent) : (l.next ev).manager.Places t old := by
  have hkeep : ∀ {id : InstanceId} {e : Executor} {u : Updates} {unread read : List NumberedOutcome},
      l.manager.executor? id = some e → Reading e u unread read old → ∃ e' unread' read',
        (l.next ev).manager.executor? id = some e' ∧ Reading e' u unread' read' old := by
    intro id e u unread read he hr
    rcases l.next_manager ev with heq | heq
    · obtain ⟨e', he', hres | ⟨r, hres⟩⟩ := step_executor hl.ok he ev
      · exact ⟨e', _, _, by rw [heq]; exact he', hr.of_results hres⟩
      · exact ⟨e', _, _, by rw [heq]; exact he', hr.of_stored hres⟩
    · exact ⟨e, _, _, by rw [heq]; exact he, hr⟩
  rcases hl.touched htask ev with ⟨rfl, rest, hq⟩ | rfl | ⟨htask', -⟩
  · have hwake : Queued (l.manager.taken.runTask t) (l.next .poll).manager := by
      show Queued _ l.manager.poll
      rw [poll_eq hq]
      exact .wake _
    have hrun : (l.manager.taken.runTask t).Places t old := by
      have htaken : l.manager.taken.tasks[t]? = some (.subscription s) := htask
      unfold QueryManager.runTask
      rw [htaken]
      simp only
      split
      · rename_i hst
        obtain ⟨e, unread, read, he, hr⟩ := h s htask hst
        exact places_deliver (hl.ok.executor he) _ (m := l.manager.taken) he (lt_of_task htaken) hr
      · exact h
    intro s' hs' hst
    rw [hwake.frame] at hs'
    obtain ⟨e, unread, read, he, hr⟩ := hrun s' hs' hst
    exact ⟨e, unread, read, hwake.executor.trans he, hr⟩
  · have hwake : Queued (l.manager.setTask t (.subscription { s with cancelled := true }))
        (l.next (.unsubscribe t)).manager := by
      show Queued _ (l.manager.unsubscribe t)
      unfold QueryManager.unsubscribe
      rw [htask]
      exact .wake _
    intro s' hs' hst
    rw [hwake.frame] at hs'
    have hset := (List.getElem?_set_self (lt_of_task htask)).symm.trans hs'
    obtain rfl := Task.subscription.inj (Option.some.inj hset)
    obtain ⟨e, unread, read, he, hr⟩ := h s htask hst
    exact hkeep he hr
  · intro s' hs' hst
    obtain rfl := Task.subscription.inj (Option.some.inj (htask'.symm.trans hs'))
    obtain ⟨e, unread, read, he, hr⟩ := h s htask hst
    exact hkeep he hr

/-! ## What is handed over -/

theorem Watch.after {w : Follower} (h : Watch True w l.manager) (es : List ManagerEvent)
    (hes : ∀ ev ∈ es, ev.favours = false) : Watch True w (l.after es).manager := by
  induction es generalizing l with
  | nil => exact h
  | cons ev es ih =>
    obtain ⟨hev, hes⟩ := List.forall_mem_cons.1 hes
    refine ih ?_ hes
    rcases l.next_manager ev with heq | heq
    · rw [heq]
      exact h.step hev
    · rw [heq]
      exact h

namespace Opening

/-- The subscription, and what its executor had stored when it was created. -/
def watched (o : Opening) (e : Executor) : Watched := ⟨o.task, o.lease.id, o.react, e.results, e.remembered⟩

theorem watch_lending (o : Opening) : ∃ e₀,
    ((({} : Lending).after o.before).manager.acquire o.spec).1.executor? o.lease.id = some e₀ ∧
      Watch True (o.watched e₀).follower o.lending.manager := by
  have hok : ManagerOK (({} : Lending).after o.before).manager := (Lending.Sound.init.after o.before).ok
  obtain ⟨e₀, he₀⟩ := acquire_executor hok o.spec
  obtain ⟨-, hwatch⟩ := subscribe_watch hok o.spec o.executes o.react he₀
  exact ⟨e₀, he₀, hwatch⟩

/-- **What the subscription has handed over,** in every run from its beginning in which the order of the queue
is kept: what its executor remembered then, and what has been stored since. -/
theorem delivers_remembered (o : Opening) : ∃ e₀,
    ((({} : Lending).after o.before).manager.acquire o.spec).1.executor? o.lease.id = some e₀ ∧
    ∀ es, (∀ ev ∈ es, ev.favours = false) →
      ∃ e, (o.lending.after es).manager.executor? o.lease.id = some e ∧
        ∃ stored, e.results = stored.reverse ++ e₀.results ∧
          Delivers (o.watched e₀) stored (o.lending.after es).manager := by
  have hok : ManagerOK (({} : Lending).after o.before).manager := (Lending.Sound.init.after o.before).ok
  have hacq : ManagerOK ((({} : Lending).after o.before).manager.acquire o.spec).1 :=
    (Calm.leases (t := 0) (.acquire _ o.spec)).ok hok
  obtain ⟨e₀, he₀, hwatch⟩ := o.watch_lending
  refine ⟨e₀, he₀, fun es hes => ?_⟩
  have hafter := hwatch.after es hes
  obtain ⟨-, e, s, unread, read, he, hs, hf, -⟩ := id hafter
  have hres : e.results = (unread ++ read).reverse.reverse ++ e₀.results := by
    rw [List.reverse_reverse, hf.reading.results]
    exact congrArg (unread ++ · ++ e₀.results) (List.append_nil read)
  refine ⟨e, he, _, hres, hafter.delivers he hres (fun o' ho => ?_) ?_⟩
  · exact mem_results_of_replay (hacq.executor he₀) (by rw [replay_eq]; exact ho)
  · show List.Pairwise _ e₀.remembered
    rw [← replay_eq]
    exact replay_ordered e₀

/-- The subscription has a place in the results of its executor, in every run. -/
theorem places (o : Opening) : ∃ old, ∀ es, (o.lending.after es).manager.Places o.task old := by
  obtain ⟨e₀, -, hwatch⟩ := o.watch_lending
  refine ⟨e₀.results, fun es => ?_⟩
  induction es using List.reverseRecOn with
  | nil =>
    intro s hs _
    obtain ⟨-, e, s', unread, read, he, hs', hf, -⟩ := hwatch
    obtain rfl := Task.subscription.inj (Option.some.inj (hs'.symm.trans hs))
    exact ⟨e, unread, _, by rw [hf.lease]; exact he, hf.reading⟩
  | append_singleton es ev ih =>
    obtain ⟨s, htask, -⟩ := o.exists_shows es
    rw [Lending.after_append]
    exact (o.sound_lending.after es).places_next htask ih ev

/-! ## The result -/

/-- **The subscription has not ended:** its handlers were not told so, its lease is on the books, and it
will hand over the next result that its executor stores, as long as the order of the queue is kept. -/
structure GoesOn (o : Opening) (es : List ManagerEvent) : Prop where
  silent : .completed ∉ (o.lending.after es).manager.said o.task
  leased : (o.lending.after es).manager.leaseOf? o.task = some o.lease
  registered : (o.lending.after es).manager.registry.Has o.lease.key o.lease.id
  delivers : ∀ more, (∀ ev ∈ more, ev.favours = false) → .unsubscribe o.task ∉ more → .cancel ∉ more →
    (o.lending.after (es ++ more)).manager.queue = [] → ∀ e e' r later,
      (o.lending.after es).manager.executor? o.lease.id = some e →
      (o.lending.after (es ++ more)).manager.executor? o.lease.id = some e' →
      e'.results = (r :: later).reverse ++ e.results →
      (o.lending.after es).manager.handed o.task ++ [⟨r, .server⟩] <+:
        (o.lending.after (es ++ more)).manager.handed o.task

/-- **The subscription has ended:** its handlers were told so, or giving up its lease panicked; it has no
lease and will hand over nothing more. -/
structure Over (o : Opening) (es : List ManagerEvent) : Prop where
  told : .completed ∈ (o.lending.after es).manager.said o.task ∨
    ∃ text, (o.lending.after es).manager.faultOf? o.task = some text
  released : (o.lending.after es).manager.leaseOf? o.task = none
  silent : ∀ more, (o.lending.after (es ++ more)).manager.handed o.task =
    (o.lending.after es).manager.handed o.task

/-- No handler of the subscription has panicked. -/
def NoPanic (o : Opening) (es : List ManagerEvent) : Prop :=
  ∀ d ∈ (o.lending.after es).manager.handed o.task, (o.react d).panics = false

/-- The handle is active until it is given up, or the manager is cancelled. -/
theorem isActive_iff (o : Opening) (es : List ManagerEvent) :
    (o.lending.after es).manager.isActive o.task ↔ .unsubscribe o.task ∉ es ∧
      (∀ d ∈ (o.lending.after es).manager.handed o.task, (o.react d).unsubscribes = false) ∧
      .cancel ∉ o.before ++ es := by
  obtain ⟨s, htask, hshows⟩ := o.exists_shows es
  have hactive : (o.lending.after es).manager.isActive o.task ↔
      ¬ s.cancelled ∧ ¬ (o.lending.after es).manager.cancelled := by
    unfold QueryManager.isActive
    rw [htask]
    simp
  rw [hactive, hshows.cancelled, o.cancelled_iff]
  simp only [not_or, not_exists, not_and, Bool.not_eq_true, and_assoc]

/-- **Where nothing can go on,** the subscription goes on if and only if its handle is active and no
handler has panicked. -/
theorem running_iff (o : Opening) (es : List ManagerEvent)
    (hq : (o.lending.after es).manager.queue = []) (hawake : Awake (o.lending.after es).manager)
    (htask : (o.lending.after es).manager.tasks[o.task]? = some (.subscription s))
    (h : o.Shows (.unsubscribe o.task ∈ es) (o.lending.after es).manager s) :
    s.stage = .running ↔ (o.lending.after es).manager.isActive o.task ∧ o.NoPanic es := by
  constructor
  · intro hrun
    refine ⟨?_, (h.calm hrun).2⟩
    by_contra hactive
    -- it has to end, so that it would be queued
    have hready : (o.lending.after es).manager.isReady (.subscription s) := by
      unfold QueryManager.isActive at hactive
      rw [htask] at hactive
      unfold QueryManager.isReady
      simp only [hrun]
      simp only [Bool.not_eq_true', Bool.not_eq_false] at hactive
      simp [hactive]
    have hmem := hawake _ _ htask hready
    rw [hq] at hmem
    simp at hmem
  · rintro ⟨hactive, hcalm⟩
    exact h.running htask hactive hcalm

/-- A subscription keeps its lease. -/
theorem lease_eq (o : Opening) {es : List ManagerEvent}
    (htask : (o.lending.after es).manager.tasks[o.task]? = some (.subscription s)) : s.lease = o.lease := by
  obtain ⟨updates, htask₀, -⟩ := o.exists_subscription
  obtain ⟨s', htask', hlease⟩ := (Retains.after o.sound_lending es).subscription htask₀
  obtain rfl := Task.subscription.inj (Option.some.inj (htask.symm.trans htask'))
  exact hlease

/-- **A subscription that waits for results can be followed from there,** whatever came before. -/
theorem watch_resumes (o : Opening) {es : List ManagerEvent} (hq : (o.lending.after es).manager.queue = [])
    (htask : (o.lending.after es).manager.tasks[o.task]? = some (.subscription s)) (hrun : s.stage = .running)
    {e : Executor} (he : (o.lending.after es).manager.executor? o.lease.id = some e) :
    ∃ old read, e.results = read ++ old ∧
      Watch True ⟨o.task, o.lease.id, s.react, old, read, (o.lending.after es).manager.handed o.task⟩
        (o.lending.after es).manager := by
  obtain ⟨old, hplaces⟩ := o.places
  obtain ⟨e', unread, read, he', hr⟩ := hplaces es s htask hrun
  have hid : s.lease.id = o.lease.id := by rw [o.lease_eq htask]
  obtain rfl := Option.some.inj (he.symm.trans (hid ▸ he'))
  have hok := (o.sound_lending.after es).ok
  -- otherwise it would be queued
  have hready : ¬ s.updates.ready e := by
    intro hready
    have hmem := o.awake es _ _ htask (by simp [QueryManager.isReady, hrun, he', hready])
    rw [hq] at hmem
    simp at hmem
  rw [hr.ready_iff (hok.executor he), not_or, not_not, not_not] at hready
  obtain ⟨hpending, rfl⟩ := hready
  have hwatch := Watch.resume hok he' htask hr hpending hrun
  rw [hid] at hwatch
  exact ⟨old, read, hr.results, hwatch⟩

/-- A subscription that goes on hands over the next result. -/
theorem hands_next (o : Opening) {es more : List ManagerEvent} (hmore : ∀ ev ∈ more, ev.favours = false)
    (hq : (o.lending.after es).manager.queue = []) (hactive : (o.lending.after es).manager.isActive o.task)
    (hcalm : o.NoPanic es) (hun : .unsubscribe o.task ∉ more) (hcancel : .cancel ∉ more)
    (hq' : (o.lending.after (es ++ more)).manager.queue = []) {e e' : Executor} {r : NumberedOutcome}
    {later : List NumberedOutcome} (he : (o.lending.after es).manager.executor? o.lease.id = some e)
    (he' : (o.lending.after (es ++ more)).manager.executor? o.lease.id = some e')
    (hres : e'.results = (r :: later).reverse ++ e.results) :
    (o.lending.after es).manager.handed o.task ++ [⟨r, .server⟩] <+:
      (o.lending.after (es ++ more)).manager.handed o.task := by
  obtain ⟨s, htask, hshows⟩ := o.exists_shows es
  have hrun : s.stage = .running := hshows.running htask hactive hcalm
  have hreact : s.react = o.react := by
    cases hshows with
    | hears h => exact h.react
    | ceased h => exact absurd hrun h.stage
  obtain ⟨old, read, hold, hwatch⟩ := o.watch_resumes hq htask hrun he
  rw [hold] at hres
  have hafter := hwatch.after more hmore
  rw [← Lending.after_append] at hafter
  obtain ⟨hpre, hcomplete⟩ := hafter.hands_over he' hres
  replace hcomplete := hcomplete (by rw [hq']; exact List.not_mem_nil)
  have hexpected : Follower.expected ⟨o.task, o.lease.id, s.react, old, read,
      (o.lending.after es).manager.handed o.task⟩ (r :: later) =
      ((o.lending.after es).manager.handed o.task ++ [⟨r, .server⟩]) ++ later.map (⟨·, .server⟩) := by
    simp [Follower.expected]
  rw [hexpected] at hpre hcomplete
  rcases List.prefix_or_prefix_of_prefix hpre (List.prefix_append _ _) with hle | hle
  swap
  · exact hle
  rcases List.prefix_concat_iff.1 hle with heq | hle
  · exact ⟨[], by rw [List.append_nil, heq]⟩
  -- no more than before is handed over, so that there is no reason to end
  have hunasked := (o.isActive_iff es).1 hactive
  have hsame := hcomplete ((o.isActive_iff (es ++ more)).2 ⟨?_, fun d hd => hunasked.2.1 d (hle.mem hd), ?_⟩)
    fun d hd => by rw [hreact]; exact hcalm d (hle.mem hd)
  · have hlen := hle.length_le
    rw [hsame, List.length_append, List.length_append, List.length_singleton] at hlen
    omega
  · rw [List.mem_append, not_or]
    exact ⟨hunasked.1, hun⟩
  · rw [← List.append_assoc, List.mem_append, not_or]
    exact ⟨hunasked.2.2, hcancel⟩

/-- The lease of a subscription that goes on. -/
theorem leased (o : Opening) {es : List ManagerEvent}
    (htask : (o.lending.after es).manager.tasks[o.task]? = some (.subscription s)) (hrun : s.stage = .running) :
    (o.lending.after es).manager.leaseOf? o.task = some o.lease ∧
      (o.lending.after es).manager.registry.Has o.lease.key o.lease.id := by
  have hsound : (o.lending.after es).Sound := o.sound_lending.after es
  have hlease : Task.lease? (.subscription s) = some o.lease := by
    simp only [Task.lease?, Subscription.lease?, hrun]
    rw [o.lease_eq htask]
  have hmem := List.mem_append_left (o.lending.after es).held (Lending.Sound.mem_taskLeases htask hlease)
  obtain ⟨c, hc, hobj⟩ := hsound.books.entry?_held hmem
  exact ⟨(leaseOf?_of_task htask).trans hlease, c, LeaseStep.mem_of_entry? hc, hobj⟩

/-- A subscription that has ended is over. -/
theorem Ceased.over {es : List ManagerEvent}
    (htask : (o.lending.after es).manager.tasks[o.task]? = some (.subscription s))
    (h : o.Ceased (.unsubscribe o.task ∈ es) (o.lending.after es).manager s) : o.Over es := by
  have hfault : (∃ text, s.stage = .panicked text) →
      ∃ text, (o.lending.after es).manager.faultOf? o.task = some text := by
    rintro ⟨text, hst⟩
    refine ⟨text, ?_⟩
    unfold QueryManager.faultOf?
    rw [htask]
    simp only [Option.bind_some, Task.fault?, hst]
  refine ⟨h.told.imp_right hfault, leaseOf?_of_ended htask h.stage, fun more => ?_⟩
  obtain ⟨s', -, -, hended⟩ := Shows.after more (o.sound_lending.after es) htask (.ceased h)
  rw [Lending.after_append]
  exact (hended h.stage).2

end Opening

/-- **What a handle says** of its subscription, in every run. -/
structure HandleSays (o : Opening) (es : List ManagerEvent) : Prop where
  /-- The handle is active until it is given up, by whoever holds it or by a handler, or the manager is
  cancelled. -/
  active : (o.lending.after es).manager.isActive o.task ↔ .unsubscribe o.task ∉ es ∧
    (∀ d ∈ (o.lending.after es).manager.handed o.task, (o.react d).unsubscribes = false) ∧
    .cancel ∉ o.before ++ es
  /-- Where nothing can go on, this is so as long as the subscription goes on, and no longer, unless one
  of its handlers has panicked. -/
  goesOn_iff : (o.lending.after es).manager.queue = [] →
    (o.GoesOn es ↔ (o.lending.after es).manager.isActive o.task ∧ o.NoPanic es)
  /-- It has ended otherwise. -/
  over_iff : (o.lending.after es).manager.queue = [] →
    (o.Over es ↔ ¬ ((o.lending.after es).manager.isActive o.task ∧ o.NoPanic es))

/-- **A handle is active if and only if its subscription goes on,** as long as no handler panics. -/
theorem handle_says (o : Opening) (es : List ManagerEvent) : HandleSays o es := by
  have hsound : (o.lending.after es).Sound := o.sound_lending.after es
  obtain ⟨s, htask, hshows⟩ := o.exists_shows es
  have hrunning := fun hq => o.running_iff es hq (o.awake es) htask hshows
  refine ⟨o.isActive_iff es, fun hq => ?_, fun hq => ?_⟩
  · rw [← hrunning hq]
    constructor
    · intro h
      by_contra hne
      have hleased := h.leased
      rw [leaseOf?_of_ended htask hne] at hleased
      exact nomatch hleased
    · intro hrun
      obtain ⟨hactive, hcalm⟩ := (hrunning hq).1 hrun
      obtain ⟨hleased, hregistered⟩ := o.leased htask hrun
      exact ⟨(hshows.calm hrun).1, hleased, hregistered,
        fun more hmore hun hcancel hq' e e' r later he he' hres =>
          o.hands_next hmore hq hactive hcalm hun hcancel hq' he he' hres⟩
  · rw [← hrunning hq]
    constructor
    · intro h hrun
      have hleased := (o.leased htask hrun).1
      rw [h.released] at hleased
      exact nomatch hleased
    · intro hne
      cases hshows with
      | hears h => exact absurd h.running hne
      | ceased h => exact h.over htask

/-- A subscription whose handler panics at the first result. -/
def flop : Opening := ⟨[], ⟨"GetMovie", [("id", .int 7)]⟩, true, fun _ => { panics := true }⟩

def flopRun : List ManagerEvent := [.poll, .poll, .poll, .answer 2 (.returned (.ok {})), .poll, .poll, .poll]

/-- **The handle of a subscription that has ended can be active.** -/
theorem active_after_panic : (flop.lending.after flopRun).manager.queue = [] ∧
    ((flop.lending.after flopRun).manager.said flop.task).length = 2 ∧
    (flop.lending.after flopRun).manager.leaseOf? flop.task = none ∧
    (flop.lending.after flopRun).manager.isActive flop.task := by
  decide +kernel

end QueryClient
