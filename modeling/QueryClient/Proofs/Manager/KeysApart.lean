import QueryClient.Proofs.Manager.Names

/-!
# Keys do not interfere

What is seen of one key in a run is what is seen of it in the run without the events of another key.
Only numbers, request identifiers and the names of instances and tasks differ, and they come in the same
order.

* `Renaming.Without`: **the run without the events that concern a key.**
* `SameOn`: the same is seen of a key.
* `Renaming.Apart`: at every moment of the run, the same is seen of every other key.
* `Agrees.apart`: both runs stay in step.
* `keys_apart`: **what happens for one key is not seen of any other.**
-/

namespace QueryClient

/-! ## What is seen of a key -/

namespace QueryManager

/-- What is noted of the key's tasks: calls of the backend, how callers end, and what subscriptions are told. -/
def notesOn (m : QueryManager) (key : QueryKey) : List Note :=
  m.journal.filter fun n => n.task?.any fun t => m.taskKey? t = some key

/-- The key's live queries, the oldest first. -/
def livesOn (m : QueryManager) (key : QueryKey) : List LiveQuery := m.lives.filter fun q => q.key = key

end QueryManager

/-- The leases on the key that users hold. -/
def Lending.leasesOn (l : Lending) (key : QueryKey) : List Lease := l.held.filter fun x => x.key = key

/-- **The same is seen of the key,** under other names. -/
structure SameOn (g : Renaming) (key : QueryKey) (l' l : Lending) : Prop where
  notes : l.manager.notesOn key = (l'.manager.notesOn key).map g.note
  lives : l.manager.livesOn key = (l'.manager.livesOn key).map g.live
  users : l.manager.registry.users key = l'.manager.registry.users key
  leases : l.leasesOn key = (l'.leasesOn key).map g.lease

namespace Renaming

variable {g : Renaming} {key other : QueryKey} {keys : InstanceId → Option QueryKey} {m' m M : QueryManager}
variable {l' l : Lending} {ev : ManagerEvent} {es : List ManagerEvent} {t : TaskId}

/-- **The run without the events that concern the key,** under other names. At the end of the run, the
manager `M` tells what an event is about. -/
inductive Without (g : Renaming) (M : QueryManager) (key : QueryKey) :
    Lending → List ManagerEvent → List ManagerEvent → Prop where
  | nil (l : Lending) : Without g M key l [] []
  | skip {l : Lending} {ev : ManagerEvent} {es es' : List ManagerEvent} (hev : ev.Concerns M key l.manager)
      (h : Without g M key (l.next ev) es es') : Without g M key l (ev :: es) es'
  | keep {l : Lending} {ev' ev : ManagerEvent} {es es' : List ManagerEvent}
      (hev : ¬ ev.Concerns M key l.manager) (halike : g.Alike ev' ev)
      (h : Without g M key (l.next ev) es es') : Without g M key l (ev :: es) (ev' :: es')

/-- An event that does not concern the key has another name. -/
theorem Alike.exists (hev : ¬ ev.Concerns M key m)
    (hinst : ∀ id, M.instanceKey? id ≠ some key → ∃ i, g.inst i = id)
    (htask : ∀ u, M.taskKey? u ≠ some key → ∃ t, g.task t = u) : ∃ ev', g.Alike ev' ev := by
  cases ev with
  | drawn numbers requests => exact ⟨_, .drawn numbers requests⟩
  | poll => exact ⟨_, .poll⟩
  | favour u =>
    obtain ⟨t, rfl⟩ := htask u hev
    exact ⟨_, .favour t⟩
  | acquire spec => exact ⟨_, .acquire spec⟩
  | release x =>
    obtain ⟨i, hi⟩ := hinst x.id fun hid => hev (.inr hid)
    have halike := Alike.release (g := g) ⟨x.key, i⟩
    rw [show g.lease ⟨x.key, i⟩ = x by unfold lease; rw [hi]] at halike
    exact ⟨_, halike⟩
  | close id =>
    obtain ⟨i, rfl⟩ := hinst id hev
    exact ⟨_, .close i⟩
  | closeExecutor id =>
    obtain ⟨i, rfl⟩ := hinst id hev
    exact ⟨_, .closeExecutor i⟩
  | ask addressee block =>
    cases addressee with
    | direct id =>
      obtain ⟨i, rfl⟩ := hinst id hev
      exact ⟨_, .ask (.direct i) block⟩
    | leased spec => exact ⟨_, .ask (.leased spec) block⟩
  | abort u =>
    obtain ⟨t, rfl⟩ := htask u hev
    exact ⟨_, .abort t⟩
  | subscribe spec executes react => exact ⟨_, .subscribe spec executes react⟩
  | unsubscribe u =>
    obtain ⟨t, rfl⟩ := htask u hev
    exact ⟨_, .unsubscribe t⟩
  | answer u reply =>
    obtain ⟨t, rfl⟩ := htask u hev
    exact ⟨_, .answer t reply⟩
  | answerNow u reply =>
    obtain ⟨t, rfl⟩ := htask u hev
    exact ⟨_, .answerNow t reply⟩
  | cancel => exact ⟨_, .cancel⟩

/-! ## What is seen in both -/

/-- What is there, by its place. -/
theorem filterMap_getElem? {α : Type} (xs : List α) :
    (List.range xs.length).filterMap (fun i => xs[i]?) = xs := by
  have htake : ∀ n, (List.range n).filterMap (fun i => xs[i]?) = xs.take n := by
    intro n
    induction n with
    | zero => simp
    | succ n ih =>
      rw [List.range_succ, List.filterMap_append, ih, List.take_add_one]
      cases hx : xs[n]? <;> simp [hx]
  rw [htake, List.take_length]

/-- What is wanted of a list has a name, and so the other list has all of it. -/
theorem filter_of_names {α β : Type} (f : ℕ ↪o ℕ) {xs : List α} {ys : List β} {h : α → β}
    {p : β → Bool} (hget : ∀ i, ys[f i]? = (xs[i]?).map h)
    (hp : ∀ j y, ys[j]? = some y → p y = true → ∃ i, f i = j) :
    ys.filter p = (xs.map h).filter p := by
  have hlen : ∀ i, i < (xs.map h).length ↔ f i < ys.length := fun i => by
    rw [List.length_map]
    exact lt_length_iff hget i
  -- both lists are gone through by place, and the places without a name are left out
  rw [← filterMap_getElem? ys, ← filterMap_getElem? (xs.map h), List.filter_filterMap, List.filter_filterMap,
    ← filterMap_range f hlen, List.filterMap_filterMap]
  refine List.filterMap_congr fun j _ => ?_
  cases hj : Function.partialInv f j with
  | none =>
    -- nothing that is wanted is without a name
    cases hy : ys[j]? with
    | none => rfl
    | some y =>
      have hnot : ¬ p y = true := fun hpy => by
        obtain ⟨i, hi⟩ := hp j y hy hpy
        have hname := (Function.Injective.isPartialInv f.injective i j).2 hi
        rw [hj] at hname
        simp at hname
      simp [hnot]
  | some i =>
    obtain rfl := (Function.Injective.isPartialInv f.injective i j).1 hj
    rw [hget, ← List.getElem?_map]
    rfl

namespace Mirrors

theorem instanceKey? (h : g.Mirrors keys key m' m) (id : InstanceId) :
    m.instanceKey? (g.inst id) = m'.instanceKey? id := by
  unfold QueryManager.instanceKey?
  rw [h.executor?]
  cases m'.executor? id <;> rfl

theorem taskKey? (h : g.Mirrors keys key m' m) (t : TaskId) : m.taskKey? (g.task t) = m'.taskKey? t := by
  unfold QueryManager.taskKey?
  cases hx' : m'.tasks[t]? with
  | none => rw [h.no_task hx']; rfl
  | some x' =>
    obtain ⟨x, hx, hlike⟩ := h.tasks t x' hx'
    rw [hx]
    cases hlike with
    | attempt id n => exact h.instanceKey? id
    | subscription s react hreact hkey => rfl
    | caller c haddr hlease =>
      show (g.addressee c.addressee).key? m.instanceKey? = c.addressee.key? m'.instanceKey?
      cases c.addressee with
      | direct id => exact h.instanceKey? id
      | leased spec => rfl

/-- The same is noted of the other key's tasks. -/
theorem notesOn (h : g.Mirrors keys key m' m) (htask : ∀ u, m.taskKey? u = some other → ∃ t, g.task t = u) :
    m.notesOn other = (m'.notesOn other).map g.note := by
  have hsees : ∀ n, (n.task?.any fun t => decide (m.taskKey? t = some other)) = true → g.sees n = true := by
    intro n hn
    unfold sees
    cases ht : n.task? with
    | none => simp [ht] at hn
    | some u =>
      rw [ht] at hn
      obtain ⟨t, rfl⟩ := htask u (by simpa using hn)
      simp
  have hsame : ∀ n, ((g.note n).task?.any fun t => decide (m.taskKey? t = some other)) =
      n.task?.any fun t => decide (m'.taskKey? t = some other) := by
    intro n
    cases n <;> simp [Renaming.note, Note.task?, h.taskKey?]
  have hnoted : ∀ n : Note, (n.task?.any fun t => decide (m'.taskKey? t = some other)) = true →
      n.task?.isSome = true := by
    intro n hn
    cases ht : n.task? with
    | none => simp [ht] at hn
    | some u => rfl
  have hand : ∀ {p q : Bool}, (p = true → q = true) → p = (p && q) := by
    intro p q hpq
    rw [Bool.eq_iff_iff, Bool.and_eq_true]
    exact ⟨fun hp => ⟨hp, hpq hp⟩, And.left⟩
  calc m.notesOn other
      = (m.journal.filter g.sees).filter fun n => n.task?.any fun t => m.taskKey? t = some other := by
        rw [List.filter_filter]
        exact List.filter_congr fun n _ => hand (hsees n)
    _ = ((m'.journal.filter fun n => n.task?.isSome).filter fun n =>
          n.task?.any fun t => m'.taskKey? t = some other).map g.note := by
        rw [h.journal, List.filter_map]
        exact congrArg (List.map g.note) (List.filter_congr fun n _ => hsame n)
    _ = (m'.notesOn other).map g.note := by
        rw [List.filter_filter]
        exact congrArg (List.map g.note) (List.filter_congr fun n _ => (hand (hnoted n)).symm)

/-- The other key's live queries are the same. -/
theorem livesOn (h : g.Mirrors keys key m' m)
    (hinst : ∀ id, m.instanceKey? id = some other → ∃ i, g.inst i = id) :
    m.livesOn other = (m'.livesOn other).map g.live := by
  have hfilter := filter_of_names g.inst (p := fun q => decide (q.key = other)) h.lives fun j q hq hkey => by
    refine hinst j ?_
    unfold QueryManager.instanceKey?
    rw [QueryManager.executor?_eq_some.2 ⟨q, hq, rfl⟩]
    exact congrArg some (of_decide_eq_true hkey)
  unfold QueryManager.livesOn
  rw [hfilter, List.filter_map]
  rfl

end Mirrors

/-- **The same is seen of every other key.** -/
theorem Agrees.sameOn (h : g.Agrees keys key l' l) (hM : Retains l.manager M) (hother : other ≠ key)
    (hinst : ∀ id, M.instanceKey? id ≠ some key → ∃ i, g.inst i = id)
    (htask : ∀ u, M.taskKey? u ≠ some key → ∃ t, g.task t = u) : SameOn g other l' l := by
  have hne : ∀ {k : Option QueryKey}, k = some other → k ≠ some key := by
    rintro k rfl heq
    exact hother (Option.some.inj heq)
  refine ⟨h.manager.notesOn fun u hu => htask u (hne (hM.taskKey?_of hu)),
    h.manager.livesOn fun i hi => hinst i (hne (hM.instanceKey?_of hi)), ?_, ?_⟩
  · unfold Registry.users
    rw [h.manager.registry other hother]
    cases l'.manager.registry.entry? other <;> rfl
  · have hleases : l.leasesOn other = (l.held.filter fun x => x.key ≠ key).filter fun x => x.key = other := by
      rw [List.filter_filter]
      refine List.filter_congr fun x _ => ?_
      by_cases hx : x.key = other
      · simp [hx, hother]
      · simp [hx]
    rw [hleases, h.held, List.filter_map]
    rfl

/-! ## Both runs -/

/-- **At every moment of the run,** what has happened until then leads to the same for every other key as
what of it does not concern the key. -/
def Apart (g : Renaming) (M : QueryManager) (key : QueryKey) (l' l : Lending) (es' es : List ManagerEvent) :
    Prop :=
  ∀ past rest, es = past ++ rest → ∃ past' rest', es' = past' ++ rest' ∧ g.Without M key l past past' ∧
    g.Without M key (l.after past) rest rest' ∧
    ∀ other, other ≠ key → SameOn g other (l'.after past') (l.after past)

/-- **Both runs stay in step.** -/
theorem Agrees.apart (h : g.Agrees M.instanceKey? key l' l) (hs' : l'.Sound) (ha' : Awake l'.manager)
    (hs : l.Sound) (hM : M = (l.after es).manager) (hf : g.Fits M key l es)
    (hinst : ∀ id, M.instanceKey? id ≠ some key → ∃ i, g.inst i = id)
    (htask : ∀ u, M.taskKey? u ≠ some key → ∃ t, g.task t = u) :
    ∃ es', g.Without M key l es es' ∧ g.Apart M key l' l es' es := by
  induction es generalizing l l' with
  | nil =>
    refine ⟨[], .nil l, fun past rest heq => ?_⟩
    obtain ⟨rfl, rfl⟩ := List.append_eq_nil_iff.1 heq.symm
    exact ⟨[], [], rfl, .nil l, .nil l, fun other hother =>
      h.sameOn (by rw [hM]; exact .refl _) hother hinst htask⟩
  | cons ev es ih =>
    have hall : Retains l.manager M := by
      rw [hM]
      exact Retains.after hs (ev :: es)
    have hrest : Retains (l.next ev).manager M := by
      rw [hM]
      exact Retains.after (hs.next ev) es
    have hnow : ∀ other, other ≠ key → SameOn g other l' l :=
      fun other hother => h.sameOn hall hother hinst htask
    by_cases hev : ev.Concerns M key l.manager
    · -- the other run stays where it is
      have hskip := h.skip hs' hs ha' hev hrest (hf.avoids hs hev)
      obtain ⟨es', hwithout, hapart⟩ := ih hskip hs' ha' (hs.next ev) hM (hf.next hs)
      refine ⟨es', .skip hev hwithout, fun past rest heq => ?_⟩
      rcases List.cons_eq_append_iff.1 heq with ⟨rfl, rfl⟩ | ⟨past, rfl, hes⟩
      · exact ⟨[], es', rfl, .nil l, .skip hev hwithout, hnow⟩
      · obtain ⟨past', rest', heq', hpast, hlater, hsame⟩ := hapart past rest hes
        exact ⟨past', rest', heq', .skip hev hpast, hlater, hsame⟩
    · -- the other run goes through the same event
      obtain ⟨ev', halike⟩ := Alike.exists hev hinst htask
      have hnext := h.next hs' hs halike hev hrest htask (hf.covers hs hev)
      have hawake : Awake (l'.next ev').manager := by
        rcases l'.next_manager ev' with heq | heq <;> rw [heq]
        · exact ha'.step hs'.coherent ev'
        · exact ha'
      obtain ⟨es', hwithout, hapart⟩ := ih hnext (hs'.next ev') hawake (hs.next ev) hM (hf.next hs)
      refine ⟨ev' :: es', .keep hev halike hwithout, fun past rest heq => ?_⟩
      rcases List.cons_eq_append_iff.1 heq with ⟨rfl, rfl⟩ | ⟨past, rfl, hes⟩
      · exact ⟨[], ev' :: es', rfl, .nil l, .keep hev halike hwithout, hnow⟩
      · obtain ⟨past', rest', heq', hpast, hlater, hsame⟩ := hapart past rest hes
        exact ⟨ev' :: past', rest', by rw [heq']; rfl, .keep hev halike hpast, hlater, hsame⟩

end Renaming

/-- **What happens for one key is not seen of any other:** without the events that concern it, the same is
seen of every other key, at every moment, under names that come in the same order. -/
theorem keys_apart (es : List ManagerEvent) (key : QueryKey) : ∃ (g : Renaming) (es' : List ManagerEvent),
    g.Without (({} : Lending).after es).manager key {} es es' ∧
      g.Apart (({} : Lending).after es).manager key {} {} es' es := by
  obtain ⟨g, hlevel, hfits⟩ := exists_renaming (({} : Lending).after es).manager key es
  -- nothing is there yet, and nothing was drawn
  have hbegin : g.Agrees (({} : Lending).after es).manager.instanceKey? key {} {} := by
    refine ⟨⟨rfl, hlevel, fun i => rfl, fun i q hq => ?_, fun t => ?_, fun t x hx => ?_, fun k _ => rfl,
      rfl, rfl⟩, rfl⟩
    · simp at hq
    · exact iff_of_false (Nat.not_lt_zero t) (Nat.not_lt_zero _)
    · simp at hx
  refine ⟨g, hbegin.apart .init (.init {}) .init rfl hfits (fun id hid => ?_) fun u hu => ?_⟩
  · refine (hfits.inst id (Nat.not_lt_zero id)).2 (by_contra fun hk => hid ?_)
    exact BroughtElsewhere.instanceKey? .init rfl (Nat.not_lt_zero id) hk
  · refine (hfits.task u (Nat.not_lt_zero u)).2 (by_contra fun hk => hu ?_)
    exact BroughtElsewhere.taskKey? .init rfl (Nat.not_lt_zero u) hk

def lateFilm : QuerySpec := ⟨"GetMovie", [("id", .int 2)]⟩

/-- Two films are asked for, and the one that is asked for last is answered first. -/
def doubleFeature : List ManagerEvent :=
  [.ask (.leased ⟨"GetMovie", [("id", .int 1)]⟩) {}, .ask (.leased lateFilm) {}, .poll, .poll, .poll, .poll,
    .answer 3 (.returned (.ok {})), .poll, .poll, .answer 2 (.returned (.ok {})), .poll, .poll]

/-- The same without the other film. -/
def lateShow : List ManagerEvent :=
  [.ask (.leased lateFilm) {}, .poll, .poll, .answer 1 (.returned (.ok {})), .poll, .poll]

example : ((({} : Lending).after doubleFeature).manager.notesOn lateFilm.key).length = 2 ∧
    ((({} : Lending).after lateShow).manager.notesOn lateFilm.key).length = 2 := by decide +kernel

end QueryClient
