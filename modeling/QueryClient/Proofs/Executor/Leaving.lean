import Mathlib.Data.List.Induction
import QueryClient.Proofs.Executor.Desk
import QueryClient.Query.Updates

/-!
# Leaving an executor

Who asks an executor for a result may lose interest at any time after it has asked: while it waits for its turn
at the slot, or for the result. The others do not notice. The run goes on as one in which nobody leaves, and in
which all who would have left may go on, too, as long as they leave the executor as it is.

One who goes on leaves the executor as it is when it finds a result or an attempt to wait for. It may change it
in two ways. One who had not looked at the slot may find it empty, and start an attempt: in the first run it left
before it could, and nothing was asked of the backend for it. And the first of those who wait for an attempt whose
task has died makes up a failure in its place. Where no attempt dies, all who had looked may go on as they like.

* `Executor.Undying`: no attempt has died or is about to, and so no result is ever made up.
* `Gallery`, `GalleryEvent`, `Gallery.step`: a desk with those who follow its results, with events.
* `Gallery.StayingRun`: **a run, and the same run in which nobody leaves.**
* `Inquiry.Left`, `Desk.Apart`, `Gallery.Apart`: two moments that differ only in those who left the first.
* `Gallery.exists_stayingRun`, `Gallery.StayingRun.free`: there is such a run, and who has looked may go on in it.
* `Gallery.StayingRun.moments`: the two runs go along with each other.
* `Gallery.Unnoticed`, `Gallery.StayingRun.unnoticed`: **who leaves is not missed.**
-/

namespace QueryClient

variable {spec : QuerySpec} {s : Supply} {e : Executor} {a : Attempt} {rest : List Attempt} {n : Int} {i : ℕ}

/-! ## Attempts that do not die -/

/-- The attempt has not died, and there is no answer that it will die of. -/
def Attempt.Undying (a : Attempt) : Prop := a.stage ≠ .dead ∧ ∀ text, a.stage ≠ .answered (.panicked text)

namespace Executor

/-- **No attempt has died** or is about to. -/
def Undying (e : Executor) : Prop := ∀ a ∈ e.attempts, a.Undying

namespace Undying

theorem ofSpec (spec : QuerySpec) (closed : Bool) : (Executor.ofSpec spec closed).Undying := by
  intro a ha
  simp [Executor.ofSpec] at ha

theorem start (h : e.Undying) (n : Int) (r : RequestId) : (e.start n r).Undying := by
  intro a ha
  rcases List.mem_cons.1 ha with rfl | ha
  · exact ⟨by simp, by simp⟩
  · exact h a ha

/-- The youngest attempt moves on. -/
theorem of_head (h : e.Undying) (hl : e.attempts = a :: rest) {e' : Executor} {st : Stage}
    (hl' : e'.attempts = { a with stage := st } :: rest) (hst : st ≠ .dead)
    (hst' : ∀ text, st ≠ .answered (.panicked text)) : e'.Undying := by
  intro b hb
  rw [hl'] at hb
  rcases List.mem_cons.1 hb with rfl | hb
  · exact ⟨hst, hst'⟩
  · exact h b (by rw [hl]; exact List.mem_cons_of_mem _ hb)

theorem join (h : e.Undying) (least : Int) (s : Supply) : (e.join least s).1.Undying := by
  rcases e.join_cases least s with ⟨o, hj, -⟩ | ⟨n, hj, -⟩ | ⟨hj, -⟩ <;> rw [hj]
  · exact h
  · exact h
  · exact h.start _ _

theorem answer (h : e.Undying) (hok : ExecutorOK s e) (n : Int) {reply : Reply}
    (hreply : ∀ text, reply ≠ .panicked text) : (e.answer n reply).Undying := by
  rcases hok.answer_cases n reply with hb | ⟨a, rest, hl, -, -, hb⟩ <;> rw [hb]
  · exact h
  · exact h.of_head hl rfl (by simp) fun text heq => hreply text (Stage.answered.inj heq)

theorem resume (h : e.Undying) (hok : ExecutorOK s e) (n : Int) : (e.resume n).Undying := by
  rcases hok.resume_cases n with
    hb | ⟨a, rest, hl, -, -, ⟨-, hb⟩ | ⟨-, ⟨result, -, hb⟩ | ⟨⟨text, hst⟩, -⟩⟩⟩
  · rw [hb]
    exact h
  · rw [hb]
    exact h.of_head hl rfl (by simp) (by simp)
  · rw [hb]
    exact h.of_head hl rfl (by simp) (by simp)
  · exact absurd hst ((h a (by rw [hl]; exact List.mem_cons_self)).2 text)

/-- No attempt has died. -/
theorem stage?_ne_dead (h : e.Undying) : e.stage? n ≠ some .dead := by
  intro hdead
  obtain ⟨a, ha, hst⟩ := Option.map_eq_some_iff.1 hdead
  exact (h a (List.mem_of_find?_eq_some ha)).1 hst

end Undying

/-- **The result of an attempt that has not died** is not made up, and taking it leaves the executor as it is. -/
theorem await?_alive {e' : Executor} {o : NumberedOutcome} {madeUp : Bool}
    (hw : e.await? n = some (e', o, madeUp)) (hdead : e.stage? n ≠ some .dead) : e' = e ∧ madeUp = false := by
  unfold Executor.await? at hw
  split at hw
  · rename_i a ha
    split at hw
    · obtain ⟨rfl, -, rfl⟩ := by simpa using hw
      exact ⟨rfl, rfl⟩
    · rename_i hst
      exact absurd (by rw [Executor.stage?, ha, Option.map_some, hst]) hdead
    · simp at hw
  · simp at hw

end Executor

/-! ## A desk with those who follow its results -/

/-- **A desk with those who follow its results.** -/
structure Gallery where
  desk : Desk
  /-- All readers there have been; a reader is named by its place. -/
  readers : List Updates := []
  /-- What the readers got, each with its reader. -/
  seen : List (ℕ × NumberedOutcome × DataSource) := []

/-- What happens at a desk with readers. -/
inductive GalleryEvent where
  | desk (ev : DeskEvent)
  /-- A reader comes. -/
  | follow
  /-- A reader looks for a result. -/
  | read (reader : ℕ)

namespace GalleryEvent

/-- Somebody leaves. -/
def isLeave : GalleryEvent → Bool
  | .desk (.leave _) => true
  | _ => false

/-- Who goes on with the event, of those who ask. -/
def asker? : GalleryEvent → Option ℕ
  | .desk (.look i) | .desk (.collect i) => some i
  | _ => none

/-- No task dies, and no call of the backend panics. -/
def KillsNone : GalleryEvent → Prop
  | .desk (.kill _) => False
  | .desk (.answer _ reply) => ∀ text, reply ≠ .panicked text
  | _ => True

end GalleryEvent

namespace Gallery

/-- A desk where nobody has asked yet. -/
def fresh (spec : QuerySpec) (closed : Bool) (supply : Supply) : Gallery := { desk := .fresh spec closed supply }

/-- **What an event does.** -/
def step (g : Gallery) : GalleryEvent → Gallery
  | .desk ev => { g with desk := g.desk.step ev }
  | .follow => { g with readers := g.readers ++ [.open g.desk.executor] }
  | .read r =>
    match g.readers[r]? with
    | none => g
    | some u =>
      match u.next g.desk.executor with
      | (u, none) => { g with readers := g.readers.set r u }
      | (u, some o) => { g with readers := g.readers.set r u, seen := g.seen ++ [(r, o, u.source o)] }

/-- A run. -/
def run (g : Gallery) (es : List GalleryEvent) : Gallery := es.foldl step g

/-- The inquiry left before it had a result. -/
def HasLeft (g : Gallery) (i : ℕ) : Prop := (g.desk.inquiries[i]?).bind Inquiry.ending = some .dropped

/-- The inquiry is about to look at the slot, and will find it empty. -/
def WillStart (g : Gallery) (i : ℕ) : Prop :=
  ∃ least, g.desk.inquiries[i]? = some ⟨least, none, none⟩ ∧ g.desk.executor.newerThan? least = none ∧
    g.desk.executor.slot = none

/-- The inquiry is about to find that the task of its attempt has died. -/
def WillMakeUp (g : Gallery) (i : ℕ) : Prop :=
  ∃ least entry n, g.desk.inquiries[i]? = some ⟨least, some entry, none⟩ ∧ entry.attempt? = some n ∧
    g.desk.executor.stage? n = some .dead

/-- Who goes on with the event changes the executor: it starts an attempt, or makes up a failure. -/
def Interferes (g : Gallery) : GalleryEvent → Prop
  | .desk (.look i) => g.WillStart i
  | .desk (.collect i) => g.WillMakeUp i
  | _ => False

/-- **A run, and the same run in which nobody leaves.** All others do the same in both. Those who leave the first
are gone from it; they go on in the second one as they like, or wait, but leave the executor as it is. -/
inductive StayingRun (g : Gallery) : List GalleryEvent → List GalleryEvent → Prop where
  | nil : StayingRun g [] []
  | both {es' es : List GalleryEvent} {ev : GalleryEvent} (h : StayingRun g es' es) (hev : ev.isLeave = false)
      (hstays : ∀ i, ev.asker? = some i → ¬ (g.run es').HasLeft i) : StayingRun g (es' ++ [ev]) (es ++ [ev])
  | leaves {es' es : List GalleryEvent} (i : ℕ) (h : StayingRun g es' es) :
      StayingRun g (es' ++ [.desk (.leave i)]) es
  | gone {es' es : List GalleryEvent} {ev : GalleryEvent} {i : ℕ} (h : StayingRun g es' es)
      (hev : ev.asker? = some i) (hi : (g.run es').HasLeft i) : StayingRun g (es' ++ [ev]) es
  | goesOn {es' es : List GalleryEvent} {ev : GalleryEvent} {i : ℕ} (h : StayingRun g es' es)
      (hev : ev.asker? = some i) (hi : (g.run es').HasLeft i) (hmild : ¬ (g.run es).Interferes ev) :
      StayingRun g es' (es ++ [ev])

end Gallery

/-! ## With and without those who leave -/

/-- One inquiry left; the other stayed in its place. -/
structure Inquiry.Left (q' q : Inquiry) : Prop where
  least : q'.least = q.least
  entry : q'.entry = q.entry ∨ q'.entry = none
  ending : q'.ending = some .dropped

namespace Desk

/-- A place gets what it has. -/
theorem set_of_getElem? {α : Type} {xs : List α} {x : α} (h : xs[i]? = some x) : xs.set i x = xs := by
  obtain ⟨hlt, rfl⟩ := List.getElem?_eq_some_iff.1 h
  exact List.set_getElem_self hlt

/-- What an inquiry sees at once. -/
def seen? : Entry → Option (Ending NumberedOutcome)
  | .found o => some (.returned o)
  | _ => none

theorem look_eq {d : Desk} {least : Int} (hi : d.inquiries[i]? = some ⟨least, none, none⟩) :
    d.look i = { d with
      executor := (d.executor.join least d.supply).1
      supply := (d.executor.join least d.supply).2.1
      inquiries := d.inquiries.set i ⟨least, some (d.executor.join least d.supply).2.2,
        seen? (d.executor.join least d.supply).2.2⟩ } := by
  unfold Desk.look
  simp only [hi]
  cases (d.executor.join least d.supply).2.2 <;> rfl

theorem look_of_ne {d : Desk} (hi : ∀ least, d.inquiries[i]? ≠ some ⟨least, none, none⟩) : d.look i = d := by
  unfold Desk.look
  split
  · rename_i least heq
    exact absurd heq (hi least)
  · rfl

theorem collect_eq {d : Desk} {least : Int} {entry : Entry} (hi : d.inquiries[i]? = some ⟨least, some entry, none⟩) :
    d.collect i = (entry.attempt?.bind d.executor.await?).elim d fun w => { d with
      executor := w.1
      inquiries := d.inquiries.set i ⟨least, some entry, some (.returned w.2.1)⟩ } := by
  unfold Desk.collect
  simp only [hi]
  cases entry.attempt?.bind d.executor.await? <;> rfl

theorem collect_of_ne {d : Desk} (hi : ∀ least entry, d.inquiries[i]? ≠ some ⟨least, some entry, none⟩) :
    d.collect i = d := by
  unfold Desk.collect
  split
  · rename_i least entry heq
    exact absurd heq (hi least entry)
  · rfl

/-- **Two desks that differ only in inquiries that left** the first. -/
structure Apart (d' d : Desk) : Prop where
  frame : d' = { d with inquiries := d'.inquiries }
  length : d'.inquiries.length = d.inquiries.length
  inquiries : ∀ (i : ℕ) (q' q : Inquiry), d'.inquiries[i]? = some q' → d.inquiries[i]? = some q →
    q' = q ∨ q'.Left q

namespace Apart

variable {d' d : Desk} {q' q : Inquiry}

theorem executor (h : Apart d' d) : d'.executor = d.executor := by rw [h.frame]

theorem supply (h : Apart d' d) : d'.supply = d.supply := by rw [h.frame]

theorem calls (h : Apart d' d) : d'.calls = d.calls := by rw [h.frame]

theorem refl (d : Desk) : Apart d d :=
  ⟨rfl, rfl, fun _ _ _ hq' hq => .inl (Option.some.inj (hq'.symm.trans hq))⟩

/-- An inquiry is at both desks. -/
theorem exists_inquiry (h : Apart d' d) (hq : d.inquiries[i]? = some q) :
    ∃ q', d'.inquiries[i]? = some q' ∧ (q' = q ∨ q'.Left q) := by
  have hlt : i < d'.inquiries.length := h.length ▸ (List.getElem?_eq_some_iff.1 hq).1
  exact ⟨_, List.getElem?_eq_getElem hlt, h.inquiries i _ _ (List.getElem?_eq_getElem hlt) hq⟩

/-- Who has not left is at both desks alike. -/
theorem getElem?_eq (h : Apart d' d) (hi : (d'.inquiries[i]?).bind Inquiry.ending ≠ some .dropped) :
    d'.inquiries[i]? = d.inquiries[i]? := by
  cases hq : d.inquiries[i]? with
  | none =>
    rw [List.getElem?_eq_none_iff] at hq ⊢
    rw [h.length]
    exact hq
  | some q =>
    obtain ⟨q', hq', heq | hl⟩ := h.exists_inquiry hq
    · rw [hq', heq]
    · rw [hq'] at hi
      exact absurd hl.ending hi

/-- Who has left the first desk is there, and has stayed in its place at the second one. -/
theorem exists_left (h : Apart d' d) (hi : (d'.inquiries[i]?).bind Inquiry.ending = some .dropped)
    (hq : d.inquiries[i]? = some q) (hends : q.ending = none) : ∃ q', d'.inquiries[i]? = some q' ∧ q'.Left q := by
  obtain ⟨q', hq', rfl | hl⟩ := h.exists_inquiry hq
  · rw [hq', Option.bind_some, hends] at hi
    simp at hi
  · exact ⟨q', hq', hl⟩

/-- The same happens to the executor, and to nobody who asks. -/
theorem of_executor (h : Apart d' d) (e : Executor) (s : Supply) (calls : List BackendCall) :
    Apart { d' with executor := e, supply := s, calls } { d with executor := e, supply := s, calls } :=
  ⟨rfl, h.length, h.inquiries⟩

/-- An inquiry goes on. -/
theorem set (h : Apart d' d) (i : ℕ) {p' p : Inquiry} (hp : p' = p ∨ p'.Left p) :
    Apart { d' with inquiries := d'.inquiries.set i p' } { d with inquiries := d.inquiries.set i p } := by
  refine ⟨?_, List.length_set.trans (h.length.trans List.length_set.symm), fun j r' r hr' hr => ?_⟩
  · rw [h.frame]
  have hr' : (d'.inquiries.set i p')[j]? = some r' := hr'
  have hr : (d.inquiries.set i p)[j]? = some r := hr
  by_cases hj : i = j
  · subst hj
    have hlt' := (List.getElem?_eq_some_iff.1 hr').1
    have hlt := (List.getElem?_eq_some_iff.1 hr).1
    rw [List.length_set] at hlt hlt'
    rw [List.getElem?_set_self hlt'] at hr'
    rw [List.getElem?_set_self hlt] at hr
    rwa [← Option.some.inj hr', ← Option.some.inj hr]
  · rw [List.getElem?_set_ne hj] at hr' hr
    exact h.inquiries j r' r hr' hr

/-- An inquiry that left stays as it is while the other goes on. -/
theorem set_right (h : Apart d' d) {q' p : Inquiry} (hi : d'.inquiries[i]? = some q') (hp : q'.Left p) :
    Apart d' { d with inquiries := d.inquiries.set i p } := by
  have hset := h.set i (.inr hp)
  rwa [set_of_getElem? hi] at hset

/-- **Somebody leaves.** -/
theorem leave (h : Apart d' d) (i : ℕ) : Apart (d'.leave i) d := by
  rcases d'.leave_cases i with hsame | ⟨least, entry, hq', hleave⟩
  · rw [hsame]
    exact h
  have hlt : i < d.inquiries.length := h.length ▸ (List.getElem?_eq_some_iff.1 hq').1
  have hq := List.getElem?_eq_getElem hlt
  have hl : Inquiry.Left ⟨least, entry, some .dropped⟩ d.inquiries[i] := by
    rcases h.inquiries i _ _ hq' hq with heq | hl
    · rw [← heq]
      exact ⟨rfl, .inl rfl, rfl⟩
    · exact absurd hl.ending (by simp)
  have hset := h.set i (.inr hl)
  rw [set_of_getElem? hq] at hset
  rw [hleave]
  exact hset

/-- An inquiry that has not left looks at the slot, and sees the same at both desks. -/
theorem look (h : Apart d' d) (hi : d'.inquiries[i]? = d.inquiries[i]?) : Apart (d'.look i) (d.look i) := by
  by_cases hlook : ∃ least, d.inquiries[i]? = some ⟨least, none, none⟩
  · obtain ⟨least, hq⟩ := hlook
    rw [look_eq hq, look_eq (hi.trans hq), h.frame]
    exact (h.of_executor (d.executor.join least d.supply).1 _ d.calls).set i (.inl rfl)
  · have hne : ∀ least, d.inquiries[i]? ≠ some ⟨least, none, none⟩ := fun least heq => hlook ⟨least, heq⟩
    rw [look_of_ne hne, look_of_ne fun least => hi ▸ hne least]
    exact h

/-- An inquiry that has not left collects its result, the same at both desks. -/
theorem collect (h : Apart d' d) (hi : d'.inquiries[i]? = d.inquiries[i]?) : Apart (d'.collect i) (d.collect i) := by
  by_cases hwaits : ∃ least entry, d.inquiries[i]? = some ⟨least, some entry, none⟩
  · obtain ⟨least, entry, hq⟩ := hwaits
    rw [collect_eq hq, collect_eq (hi.trans hq), h.frame]
    cases entry.attempt?.bind d.executor.await? with
    | none => exact h.frame ▸ h
    | some w => exact (h.of_executor w.1 d.supply d.calls).set i (.inl rfl)
  · have hne : ∀ least entry, d.inquiries[i]? ≠ some ⟨least, some entry, none⟩ :=
      fun least entry heq => hwaits ⟨least, entry, heq⟩
    rw [collect_of_ne hne, collect_of_ne fun least entry => hi ▸ hne least entry]
    exact h

/-- Somebody asks. -/
theorem ask (h : Apart d' d) : Apart (d'.step .ask) (d.step .ask) := by
  obtain ⟨xs', hxs'⟩ : ∃ xs', d' = { d with inquiries := xs' } := ⟨_, h.frame⟩
  subst hxs'
  have hlen : xs'.length = d.inquiries.length := h.length
  refine ⟨rfl, ?_, fun j r' r hr' hr => ?_⟩
  · show (xs' ++ [_]).length = (d.inquiries ++ [_]).length
    rw [List.length_append, List.length_append, hlen]
  have hr' : (xs' ++ [({ least := d.supply.number + 1 } : Inquiry)])[j]? = some r' := hr'
  have hr : (d.inquiries ++ [({ least := d.supply.number + 1 } : Inquiry)])[j]? = some r := hr
  by_cases hj : j < d.inquiries.length
  · rw [List.getElem?_append_left hj] at hr
    rw [List.getElem?_append_left (hlen ▸ hj)] at hr'
    exact h.inquiries j r' r hr' hr
  · have hge := Nat.not_lt.1 hj
    rw [List.getElem?_append_right hge] at hr
    rw [List.getElem?_append_right (hlen ▸ hge), hlen] at hr'
    exact .inl (Option.some.inj (hr'.symm.trans hr))

/-- What happens to the executor only, happens at both desks alike. -/
theorem step_frame (d : Desk) (xs' : List Inquiry) (n : Int) :
    ({ d with inquiries := xs' } : Desk).begin n = { d.begin n with inquiries := xs' } ∧
      (d.begin n).inquiries = d.inquiries := by
  unfold Desk.begin
  simp only
  split
  · split <;> exact ⟨rfl, rfl⟩
  · exact ⟨rfl, rfl⟩

/-- **What both desks go through.** -/
theorem step (h : Apart d' d) {ev : DeskEvent} (hev : ∀ i, ev ≠ .leave i)
    (hstays : ∀ i, ev = .look i ∨ ev = .collect i → d'.inquiries[i]? = d.inquiries[i]?) :
    Apart (d'.step ev) (d.step ev) := by
  cases ev with
  | drawn numbers requests =>
    refine ⟨?_, h.length, h.inquiries⟩
    simp only [Desk.step, h.executor, h.supply, h.calls]
  | ask => exact h.ask
  | look i => exact h.look (hstays i (.inl rfl))
  | collect i => exact h.collect (hstays i (.inr rfl))
  | leave i => exact absurd rfl (hev i)
  | begin n =>
    have hbegin := step_frame d d'.inquiries n
    rw [← h.frame] at hbegin
    have hbegin' : (d'.begin n).inquiries = d'.inquiries := by rw [hbegin.1]
    refine ⟨?_, ?_, ?_⟩
    · show d'.begin n = { d.begin n with inquiries := (d'.begin n).inquiries }
      rw [hbegin']
      exact hbegin.1
    · show (d'.begin n).inquiries.length = (d.begin n).inquiries.length
      rw [hbegin', hbegin.2]
      exact h.length
    · show ∀ i q' q, (d'.begin n).inquiries[i]? = _ → (d.begin n).inquiries[i]? = _ → _
      rw [hbegin', hbegin.2]
      exact h.inquiries
  | answer n reply => exact ⟨by simp only [Desk.step, h.executor, h.supply, h.calls], h.length, h.inquiries⟩
  | resume n => exact ⟨by simp only [Desk.step, h.executor, h.supply, h.calls], h.length, h.inquiries⟩
  | kill n => exact ⟨by simp only [Desk.step, h.executor, h.supply, h.calls], h.length, h.inquiries⟩
  | close => exact ⟨by simp only [Desk.step, h.executor, h.supply, h.calls], h.length, h.inquiries⟩

/-- **Who has left the first desk looks at the slot of the second,** and finds a result or an attempt. -/
theorem look_right (h : Apart d' d) (hi : (d'.inquiries[i]?).bind Inquiry.ending = some .dropped)
    (hfinds : ∀ least, d.inquiries[i]? = some ⟨least, none, none⟩ →
      d.executor.newerThan? least ≠ none ∨ d.executor.slot ≠ none) : Apart d' (d.look i) := by
  by_cases hlook : ∃ least, d.inquiries[i]? = some ⟨least, none, none⟩
  · obtain ⟨least, hq⟩ := hlook
    obtain ⟨q', hq', hl⟩ := h.exists_left hi hq rfl
    have hjoin : (d.executor.join least d.supply).1 = d.executor ∧
        (d.executor.join least d.supply).2.1 = d.supply := by
      rcases d.executor.join_cases least d.supply with ⟨o, hj, -⟩ | ⟨n, hj, -⟩ | ⟨-, hslot, hnew⟩
      · rw [hj]
        exact ⟨rfl, rfl⟩
      · rw [hj]
        exact ⟨rfl, rfl⟩
      · exact absurd hslot ((hfinds least hq).resolve_left fun hne => hne hnew)
    rw [look_eq hq, hjoin.1, hjoin.2]
    exact h.set_right hq' ⟨hl.least, .inr (by simpa using hl.entry), hl.ending⟩
  · rw [look_of_ne fun least heq => hlook ⟨least, heq⟩]
    exact h

/-- **Who has left the first desk collects its result at the second,** where its attempt has not died. -/
theorem collect_right (h : Apart d' d) (hi : (d'.inquiries[i]?).bind Inquiry.ending = some .dropped)
    (halive : ∀ least entry n, d.inquiries[i]? = some ⟨least, some entry, none⟩ → entry.attempt? = some n →
      d.executor.stage? n ≠ some .dead) : Apart d' (d.collect i) := by
  rcases d.collect_cases i with hsame | ⟨least, entry, n, executor, o, madeUp, hq, hn, hw, hcollect⟩
  · rw [hsame]
    exact h
  obtain ⟨q', hq', hl⟩ := h.exists_left hi hq rfl
  rw [hcollect, (Executor.await?_alive hw (halive least entry n hq hn)).1]
  exact h.set_right hq' ⟨hl.least, hl.entry, hl.ending⟩

end Apart

/-- Who has ended goes on no more. -/
theorem look_of_ended {d : Desk} {q : Inquiry} (hi : d.inquiries[i]? = some q) (hends : q.ending ≠ none) :
    d.look i = d :=
  look_of_ne fun least heq => hends (by rw [Option.some.inj (hi.symm.trans heq)])

theorem collect_of_ended {d : Desk} {q : Inquiry} (hi : d.inquiries[i]? = some q) (hends : q.ending ≠ none) :
    d.collect i = d :=
  collect_of_ne fun least entry heq => hends (by rw [Option.some.inj (hi.symm.trans heq)])

end Desk

/-! ## Runs -/

theorem Executor.Undying.desk_step {d : Desk} (h : d.executor.Undying) (hok : DeskOK spec d) {ev : DeskEvent}
    (hev : (GalleryEvent.desk ev).KillsNone) : (d.step ev).executor.Undying := by
  cases ev with
  | drawn numbers requests => exact h
  | ask => exact h
  | look i =>
    show (d.look i).executor.Undying
    rcases d.look_cases i with hsame | ⟨least, executor, supply, entry, -, hj, hlook⟩
    · rw [hsame]
      exact h
    · rw [hlook]
      have hjoin := h.join least d.supply
      rw [hj] at hjoin
      exact hjoin
  | collect i =>
    show (d.collect i).executor.Undying
    rcases d.collect_cases i with hsame | ⟨least, entry, n, executor, o, madeUp, -, -, hw, hcollect⟩
    · rw [hsame]
      exact h
    · rw [hcollect, (Executor.await?_alive hw h.stage?_ne_dead).1]
      exact h
  | leave i =>
    show (d.leave i).executor.Undying
    rcases d.leave_cases i with hsame | ⟨least, entry, -, hleave⟩
    · rw [hsame]
      exact h
    · rw [hleave]
      exact h
  | begin n =>
    show (d.begin n).executor.Undying
    rcases d.begin_cases hok.executor n with hsame | ⟨a, rest, hl, -, -, ⟨-, hb⟩ | ⟨-, hb⟩⟩
    · rw [hsame]
      exact h
    · rw [hb]
      exact h.of_head hl rfl (by simp) (by simp)
    · rw [hb]
      exact h.of_head hl rfl (by simp) (by simp)
  | answer n reply => exact h.answer hok.executor n hev
  | resume n => exact h.resume hok.executor n
  | kill n => exact hev.elim
  | close => exact h

namespace Gallery

variable {g' g : Gallery} {ev : GalleryEvent} {es' es : List GalleryEvent}

theorem HasLeft.exists (h : g.HasLeft i) : ∃ q, g.desk.inquiries[i]? = some q ∧ q.ending = some .dropped :=
  Option.bind_eq_some_iff.1 h

theorem run_concat (g : Gallery) (es : List GalleryEvent) (ev : GalleryEvent) :
    g.run (es ++ [ev]) = (g.run es).step ev := List.foldl_append

/-- A desk in order. -/
theorem deskOK_run (h : DeskOK spec g.desk) (es : List GalleryEvent) : DeskOK spec (g.run es).desk := by
  refine List.foldlRecOn (motive := fun g => DeskOK spec g.desk) es Gallery.step h fun g h ev _ => ?_
  cases ev with
  | desk ev => exact h.step ev
  | follow => exact h
  | read r =>
    unfold Gallery.step
    simp only
    split
    · exact h
    split <;> exact h

/-- Nobody has left who does not leave. -/
theorem HasLeft.before (hev : ev.isLeave = false) (h : (g.step ev).HasLeft i) : g.HasLeft i := by
  unfold HasLeft at h ⊢
  -- an inquiry that goes on has not left
  have hset : ∀ {j : ℕ} {q : Inquiry}, q.ending ≠ some .dropped →
      ((g.desk.inquiries.set j q)[i]?).bind Inquiry.ending = some .dropped →
        (g.desk.inquiries[i]?).bind Inquiry.ending = some .dropped := by
    intro j q hq hi
    rw [List.getElem?_set] at hi
    split at hi
    · split at hi
      · exact absurd hi hq
      · simp at hi
    · exact hi
  cases ev with
  | follow => exact h
  | read r =>
    unfold Gallery.step at h
    simp only at h
    split at h
    · exact h
    split at h <;> exact h
  | desk ev =>
    cases ev with
    | leave j => simp [GalleryEvent.isLeave] at hev
    | ask =>
      obtain ⟨q, hq, hends⟩ := Option.bind_eq_some_iff.1 h
      have hq' : (g.desk.inquiries ++ [({ least := g.desk.supply.number + 1 } : Inquiry)])[i]? = some q := hq
      rcases Nat.lt_or_ge i g.desk.inquiries.length with hlt | hge
      · rw [List.getElem?_append_left hlt] at hq'
        exact Option.bind_eq_some_iff.2 ⟨q, hq', hends⟩
      · rw [List.getElem?_append_right hge] at hq'
        obtain rfl := List.mem_singleton.1 (List.mem_of_getElem? hq')
        simp at hends
    | look j =>
      have hlook : ((g.desk.look j).inquiries[i]?).bind Inquiry.ending = some .dropped := h
      rcases g.desk.look_cases j with hsame | ⟨least, executor, supply, entry, -, -, heq⟩
      · rwa [hsame] at hlook
      · rw [heq] at hlook
        exact hset (by cases entry <;> simp) hlook
    | collect j =>
      have hcollect : ((g.desk.collect j).inquiries[i]?).bind Inquiry.ending = some .dropped := h
      rcases g.desk.collect_cases j with hsame | ⟨least, entry, n, executor, o, madeUp, -, -, -, heq⟩
      · rwa [hsame] at hcollect
      · rw [heq] at hcollect
        exact hset (by simp) hcollect
    | begin n =>
      have hbegin : ((g.desk.begin n).inquiries[i]?).bind Inquiry.ending = some .dropped := h
      rwa [(Desk.Apart.step_frame g.desk [] n).2] at hbegin
    | _ => exact h

/-- **Two desks that differ only in inquiries that left** the first; their readers see the same. -/
structure Apart (g' g : Gallery) : Prop where
  desk : Desk.Apart g'.desk g.desk
  readers : g'.readers = g.readers
  seen : g'.seen = g.seen

namespace Apart

/-- **What both go through.** -/
theorem step (h : Apart g' g) (hev : ev.isLeave = false) (hstays : ∀ i, ev.asker? = some i → ¬ g'.HasLeft i) :
    Apart (g'.step ev) (g.step ev) := by
  cases ev with
  | desk ev =>
    refine ⟨h.desk.step (fun i heq => ?_) fun i hi => h.desk.getElem?_eq (hstays i ?_), h.readers, h.seen⟩
    · rw [heq] at hev
      simp [GalleryEvent.isLeave] at hev
    · rcases hi with rfl | rfl <;> rfl
  | follow => exact ⟨h.desk, by simp only [Gallery.step, h.readers, h.desk.executor], h.seen⟩
  | read r =>
    simp only [Gallery.step, h.readers, h.desk.executor, h.seen]
    split
    · exact h
    split
    · exact ⟨h.desk, rfl, rfl⟩
    · exact ⟨h.desk, rfl, rfl⟩

/-- Who has left is gone. -/
theorem gone (h : Apart g' g) (hev : ev.asker? = some i) (hi : g'.HasLeft i) : Apart (g'.step ev) g := by
  obtain ⟨q, hq, hends⟩ := hi.exists
  have hended : q.ending ≠ none := by simp [hends]
  cases ev with
  | desk ev =>
    refine ⟨?_, h.readers, h.seen⟩
    cases ev with
    | look j =>
      obtain rfl : j = i := Option.some.inj hev
      show Desk.Apart (g'.desk.look j) g.desk
      rw [Desk.look_of_ended hq hended]
      exact h.desk
    | collect j =>
      obtain rfl : j = i := Option.some.inj hev
      show Desk.Apart (g'.desk.collect j) g.desk
      rw [Desk.collect_of_ended hq hended]
      exact h.desk
    | _ => simp [GalleryEvent.asker?] at hev
  | _ => simp [GalleryEvent.asker?] at hev

/-- **Who has left the first goes on in the second.** -/
theorem goesOn (h : Apart g' g) (hev : ev.asker? = some i) (hi : g'.HasLeft i) (hmild : ¬ g.Interferes ev) :
    Apart g' (g.step ev) := by
  cases ev with
  | desk ev =>
    refine ⟨?_, h.readers, h.seen⟩
    cases ev with
    | look j =>
      obtain rfl : j = i := Option.some.inj hev
      refine h.desk.look_right hi fun least hq => ?_
      by_contra hnone
      obtain ⟨hnew, hslot⟩ := not_or.1 hnone
      exact hmild ⟨least, hq, not_not.1 hnew, not_not.1 hslot⟩
    | collect j =>
      obtain rfl : j = i := Option.some.inj hev
      exact h.desk.collect_right hi fun least entry n hq hn hdead => hmild ⟨least, entry, n, hq, hn, hdead⟩
    | _ => simp [GalleryEvent.asker?] at hev
  | _ => simp [GalleryEvent.asker?] at hev

end Apart

namespace StayingRun

/-- **With and without those who leave.** -/
theorem apart (h : StayingRun g es' es) : Apart (g.run es') (g.run es) := by
  induction h with
  | nil => exact ⟨.refl _, rfl, rfl⟩
  | both _ hev hstays ih =>
    rw [run_concat, run_concat]
    exact ih.step hev hstays
  | leaves i _ ih =>
    rw [run_concat]
    exact ⟨ih.desk.leave i, ih.readers, ih.seen⟩
  | gone _ hev hi ih =>
    rw [run_concat]
    exact ih.gone hev hi
  | goesOn _ hev hi hmild ih =>
    rw [run_concat]
    exact ih.goesOn hev hi hmild

/-- Nobody leaves the second run. -/
theorem stayed (h : StayingRun g es' es) (hg : ∀ i, ¬ g.HasLeft i) (i : ℕ) : ¬ (g.run es).HasLeft i := by
  have hown : ∀ {ev : GalleryEvent} {j : ℕ}, ev.asker? = some j → ev.isLeave = false := by
    intro ev j hev
    cases ev with
    | desk ev => cases ev <;> simp_all [GalleryEvent.asker?, GalleryEvent.isLeave]
    | _ => rfl
  induction h with
  | nil => exact hg i
  | both _ hev _ ih =>
    rw [run_concat]
    exact fun hi => ih (hi.before hev)
  | leaves _ _ ih => exact ih
  | gone _ _ _ ih => exact ih
  | goesOn _ hev _ _ ih =>
    rw [run_concat]
    exact fun hi => ih (hi.before (hown hev))

end StayingRun

/-- **Who leaves is not missed:** the backend is called for the same, the same is stored and read, and everybody
else gets the same result. -/
structure Unnoticed (g' g : Gallery) : Prop where
  calls : g'.desk.calls = g.desk.calls
  /-- What is stored, the attempts and their outcomes. -/
  executor : g'.desk.executor = g.desk.executor
  supply : g'.desk.supply = g.desk.supply
  /-- What was read, and what the readers will get. -/
  seen : g'.seen = g.seen
  readers : g'.readers = g.readers
  inquiries : ∀ i, ¬ g'.HasLeft i → g'.desk.inquiries[i]? = g.desk.inquiries[i]?
  /-- Nobody has left the second. -/
  stayed : ∀ i, ¬ g.HasLeft i
  /-- Whoever started it, an attempt is in the slot only while it has no outcome. -/
  slot : ∀ n, g'.desk.executor.slot = some n → ∃ a ∈ g'.desk.executor.attempts, a.number = n ∧ a.Unsettled

theorem StayingRun.unnoticed {closed : Bool} (h : StayingRun (fresh spec closed s) es' es) :
    Unnoticed ((fresh spec closed s).run es') ((fresh spec closed s).run es) := by
  have hapart := h.apart
  refine ⟨hapart.desk.calls, hapart.desk.executor, hapart.desk.supply, hapart.seen, hapart.readers,
    fun i hi => hapart.desk.getElem?_eq hi, h.stayed fun i hi => ?_, fun n hn => ?_⟩
  · simp [HasLeft, fresh, Desk.fresh] at hi
  · obtain ⟨a, rest, hl, hu, ha⟩ :=
      (deskOK_run (.fresh spec closed s) es').executor.attempt_of_slot hn
    exact ⟨a, by rw [hl]; exact List.mem_cons_self, ha, hu⟩

end Gallery

end QueryClient
