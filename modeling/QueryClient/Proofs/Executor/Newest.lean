import Mathlib.Data.List.Induction
import QueryClient.Proofs.Executor.Reader

/-!
# The newest result is kept

Results may be published in any order, and more than once. Which of them are accepted depends on
their numbers alone: those with a number above all before. They are what the last result and the
last success are taken from, and what a reader gets.

* `Executor.publishAll`, `Executor.acceptedOf`: results published one after another, and those that
  are accepted.
* `Executor.RetainsLatest`: what is stored, by what was accepted; `RetainsLatest.publish` and `RetainsLatest.publishAll` are
  the step and the run.
* `Updates.due`: what a reader gets if it looks now until there is nothing; `Updates.Behind`: its
  mark is not ahead of what is stored.
* `Updates.follow`, `Updates.read`: what it gets while results are published; `Updates.InTime`: when
  it looks.
* `newest_kept`: **the newest is kept in any order of arrival,** and readers that look in time get
  what is accepted.
* `missed_while_replaying`: one that still reads what is replayed can miss a result.
-/

namespace QueryClient

namespace Executor

/-- Results are published one after another. -/
def publishAll (e : Executor) (rs : List NumberedOutcome) : Executor := rs.foldl publish e

/-- The result, if it is accepted. -/
def taken (e : Executor) (o : NumberedOutcome) : List NumberedOutcome :=
  if e.accepts o then [o] else []

/-- **The results that are accepted,** of those that are published one after another. -/
def acceptedOf (e : Executor) : List NumberedOutcome → List NumberedOutcome
  | [] => []
  | o :: rest => e.taken o ++ (e.publish o).acceptedOf rest

end Executor

/-- The results are in strictly increasing order of their numbers. -/
def Rising (rs : List NumberedOutcome) : Prop := rs.Pairwise fun a b => a.number < b.number

/-- No result has a larger number. -/
def isLargest (rs : List NumberedOutcome) (o : NumberedOutcome) : Bool :=
  rs.all fun r => r.number ≤ o.number

namespace Updates

/-- A reader looks some times; what it gets. -/
def looks (u : Updates) (e : Executor) : ℕ → Updates × List NumberedOutcome
  | 0 => (u, [])
  | n + 1 =>
    let (u, got) := u.next e
    let (u, more) := u.looks e n
    (u, got.toList ++ more)

/-- **What a reader gets while results are published,** when it looks the given number of times
after each of them. -/
def follow (u : Updates) (e : Executor) : List (NumberedOutcome × ℕ) → List NumberedOutcome
  | [] => []
  | (o, n) :: rest =>
    let (u, got) := u.looks (e.publish o) n
    got ++ u.follow (e.publish o) rest

/-- What one who comes now gets, when it looks some times before the next result is published. -/
def read (e : Executor) (n : ℕ) (later : List (NumberedOutcome × ℕ)) : List NumberedOutcome :=
  let (u, got) := (Updates.open e).looks e n
  got ++ u.follow e later

/-- **A reader looks in time:** after each result that is published. A look gets one result, so that
one with replayed results left needs a look for each of these, too, before the next is published. -/
def InTime (left : ℕ) : List (NumberedOutcome × ℕ) → Prop
  | [] => left = 0
  | (_, n) :: rest => left < n ∧ ∀ p ∈ rest, 0 < p.2

/-- What a reader gets if it looks now until there is nothing. -/
def due (u : Updates) (e : Executor) : List NumberedOutcome :=
  u.pending ++ if u.seen = e.version then [] else (u.fresh? e).toList

/-- A reader's marks are not ahead of what is stored. -/
structure Behind (u : Updates) (e : Executor) : Prop where
  seen : u.seen ≤ e.version
  delivered : ∀ n ∈ u.delivered, ∃ r, e.last = some r ∧ n ≤ r.number

end Updates

variable {e : Executor} {u : Updates} {o r : NumberedOutcome} {rs acc : List NumberedOutcome}

/-! ## Results in order -/

/-- The last is the one with the largest number. -/
theorem Rising.getLast?_eq_some_iff (h : Rising rs) :
    rs.getLast? = some o ↔ o ∈ rs ∧ ∀ r ∈ rs, r.number ≤ o.number := by
  -- the last is above all others, so that no other can be a largest one
  have last : ∀ x, rs.getLast? = some x → ∀ r ∈ rs, r = x ∨ r.number < x.number := by
    intro x hx r hr
    obtain ⟨init, rfl⟩ := List.getLast?_eq_some_iff.1 hx
    rcases List.mem_append.1 hr with hr | hr
    · exact .inr ((List.pairwise_append.1 h).2.2 r hr x List.mem_cons_self)
    · exact .inl (List.mem_singleton.1 hr)
  constructor
  · intro ho
    refine ⟨List.mem_of_getLast? ho, fun r hr => ?_⟩
    rcases last o ho r hr with rfl | hlt
    · exact Int.le_refl _
    · exact Int.le_of_lt hlt
  · rintro ⟨ho, hmax⟩
    have hx := List.getLast?_eq_some_getLast (List.ne_nil_of_mem ho)
    rcases last _ hx o ho with heq | hlt
    · rw [hx, ← heq]
    · exact absurd (hmax _ (List.getLast_mem _)) (by omega)

theorem isLargest_iff : isLargest rs o = true ↔ ∀ r ∈ rs, r.number ≤ o.number := by
  simp [isLargest]

theorem isLargest_concat :
    isLargest (rs ++ [o]) r = true ↔ isLargest rs r = true ∧ o.number ≤ r.number := by
  simp [isLargest]

/-- A larger number than all before is the first with the largest. -/
theorem find?_isLargest_of_lt (hlt : ∀ r ∈ rs, r.number < o.number) :
    (rs ++ [o]).find? (isLargest (rs ++ [o])) = some o := by
  have hbefore : rs.find? (isLargest (rs ++ [o])) = none := by
    refine List.find?_eq_none.2 fun r hr hmax => ?_
    have hle := (isLargest_concat.1 hmax).2
    have := hlt r hr
    omega
  have hmax : isLargest (rs ++ [o]) o = true :=
    isLargest_concat.2 ⟨isLargest_iff.2 fun r hr => Int.le_of_lt (hlt r hr), Int.le_refl _⟩
  rw [List.find?_append, hbefore, List.find?_singleton, if_pos hmax]
  rfl

/-- A number that is not larger than one before changes nothing. -/
theorem find?_isLargest_of_le (hr : r ∈ rs) (hle : o.number ≤ r.number) :
    (rs ++ [o]).find? (isLargest (rs ++ [o])) = rs.find? (isLargest rs) := by
  have hsame : ∀ x, isLargest (rs ++ [o]) x = isLargest rs x := by
    intro x
    rw [Bool.eq_iff_iff, isLargest_concat]
    refine ⟨fun hmax => hmax.1, fun hmax => ⟨hmax, ?_⟩⟩
    exact Int.le_trans hle (isLargest_iff.1 hmax r hr)
  rw [funext hsame, List.find?_append]
  cases hf : rs.find? (isLargest rs) with
  | some x => rfl
  | none =>
    -- were the result a largest one, so were the one before
    have hnot : isLargest rs o ≠ true := by
      intro hmax
      refine List.find?_eq_none.1 hf r hr (isLargest_iff.2 fun x hx => ?_)
      exact Int.le_trans (isLargest_iff.1 hmax x hx) hle
    rw [List.find?_singleton, if_neg hnot]
    rfl

/-! ## Publishing -/

namespace Executor

theorem accepts_iff : e.accepts o = true ↔ ∀ r, e.last = some r → r.number < o.number := by
  unfold accepts
  cases e.last <;> simp [Sequenced.isNewerThan]

theorem publish_of_refused (h : e.accepts o = false) : e.publish o = e := by
  simp [publish, h]

theorem taken_of_accepts (h : e.accepts o = true) : e.taken o = [o] := if_pos h

theorem taken_of_refused (h : e.accepts o = false) : e.taken o = [] := by simp [taken, h]

theorem publishAll_append (e : Executor) (rs rs' : List NumberedOutcome) :
    e.publishAll (rs ++ rs') = (e.publishAll rs).publishAll rs' := List.foldl_append

theorem acceptedOf_sublist (e : Executor) (rs : List NumberedOutcome) :
    (e.acceptedOf rs).Sublist rs := by
  induction rs generalizing e with
  | nil => exact .slnil
  | cons o rest ih =>
    show (e.taken o ++ (e.publish o).acceptedOf rest).Sublist ([o] ++ rest)
    refine List.Sublist.append ?_ (ih _)
    cases h : e.accepts o with
    | true => rw [taken_of_accepts h]
    | false => rw [taken_of_refused h]; exact List.nil_sublist _

/-- **What is stored, by what was accepted:** of it, the last and the last success. -/
structure RetainsLatest (e : Executor) (acc : List NumberedOutcome) : Prop where
  last : e.last = acc.getLast?
  lastSuccess : e.lastSuccess = (acc.filter fun o => o.value.isSuccess).getLast?
  rising : Rising acc

namespace RetainsLatest

theorem fresh (spec : QuerySpec) (closed : Bool) : (ofSpec spec closed).RetainsLatest [] :=
  ⟨rfl, rfl, .nil⟩

/-- What is accepted has a number above all that was accepted before. -/
theorem accepts_iff (h : e.RetainsLatest acc) : e.accepts o = true ↔ ∀ r ∈ acc, r.number < o.number := by
  rw [Executor.accepts_iff, h.last]
  constructor
  · intro hlt r hr
    have hx := List.getLast?_eq_some_getLast (List.ne_nil_of_mem hr)
    have hle := (h.rising.getLast?_eq_some_iff.1 hx).2 r hr
    have := hlt _ hx
    omega
  · exact fun hlt r hr => hlt r (List.mem_of_getLast? hr)

/-- What is refused has a number up to that of a result that was accepted. -/
theorem exists_of_refused (h : e.RetainsLatest acc) (ha : e.accepts o = false) :
    ∃ r ∈ acc, o.number ≤ r.number := by
  by_contra hno
  have hlt : ∀ r ∈ acc, r.number < o.number := fun r hr => Int.not_le.1 fun hle => hno ⟨r, hr, hle⟩
  rw [h.accepts_iff.2 hlt] at ha
  exact absurd ha (by decide)

/-- The last success is not newer than the last result. -/
theorem success_le (h : e.RetainsLatest acc) (hs : e.lastSuccess = some o) :
    ∃ r, e.last = some r ∧ o.number ≤ r.number := by
  rw [h.lastSuccess] at hs
  have ho := (List.mem_filter.1 (List.mem_of_getLast? hs)).1
  have hr := List.getLast?_eq_some_getLast (List.ne_nil_of_mem ho)
  exact ⟨_, h.last.trans hr, (h.rising.getLast?_eq_some_iff.1 hr).2 o ho⟩

/-- The last success is the newest of the successes. -/
theorem lastSuccess_eq_some_iff (h : e.RetainsLatest acc) :
    e.lastSuccess = some o ↔ o ∈ acc ∧ o.value.isSuccess = true ∧
      ∀ r ∈ acc, r.value.isSuccess = true → r.number ≤ o.number := by
  have hrising : Rising (acc.filter fun r => r.value.isSuccess) := List.Pairwise.filter _ h.rising
  rw [h.lastSuccess, hrising.getLast?_eq_some_iff]
  simp only [List.mem_filter, and_imp, and_assoc]

/-- One result is published. -/
theorem publish (h : e.RetainsLatest acc) (o : NumberedOutcome) :
    (e.publish o).RetainsLatest (acc ++ e.taken o) := by
  cases ha : e.accepts o with
  | false =>
    rw [publish_of_refused ha, taken_of_refused ha, List.append_nil]
    exact h
  | true =>
    have hlt := h.accepts_iff.1 ha
    rw [taken_of_accepts ha]
    refine ⟨?_, ?_, ?_⟩
    · rw [List.getLast?_concat, Executor.publish, if_pos ha]
    · rw [Executor.publish, if_pos ha, List.filter_append]
      cases hs : o.value.isSuccess with
      | false => simpa [hs] using h.lastSuccess
      | true =>
        -- what is newer than the last result is newer than the last success, too
        have hnew : e.lastSuccess.all (fun r => o.isNewerThan r) = true := by
          rw [Option.all_eq_true]
          intro s hsucc
          obtain ⟨r, hr, hle⟩ := h.success_le hsucc
          have := Executor.accepts_iff.1 ha r hr
          exact decide_eq_true (by omega)
        simp [hs, hnew]
    · refine List.pairwise_append.2 ⟨h.rising, List.pairwise_singleton _ _, fun r hr x hx => ?_⟩
      rw [List.mem_singleton.1 hx]
      exact hlt r hr

/-- Results are published one after another. -/
theorem publishAll (h : e.RetainsLatest acc) (rs : List NumberedOutcome) :
    (e.publishAll rs).RetainsLatest (acc ++ e.acceptedOf rs) := by
  induction rs generalizing e acc with
  | nil => simpa [Executor.publishAll, acceptedOf] using h
  | cons o rest ih =>
    have := ih (h.publish o)
    rwa [List.append_assoc] at this

/-- What was published has a number up to that of a result that was accepted. -/
theorem exists_accepted (h : e.RetainsLatest acc) (hr : r ∈ rs) :
    ∃ x ∈ acc ++ e.acceptedOf rs, r.number ≤ x.number := by
  induction rs generalizing e acc with
  | nil => simp at hr
  | cons o rest ih =>
    show ∃ x ∈ acc ++ (e.taken o ++ (e.publish o).acceptedOf rest), r.number ≤ x.number
    rw [← List.append_assoc]
    rcases List.mem_cons.1 hr with rfl | hr
    · cases ha : e.accepts r with
      | true => exact ⟨r, by simp [taken_of_accepts ha], Int.le_refl _⟩
      | false =>
        obtain ⟨x, hx, hle⟩ := h.exists_of_refused ha
        exact ⟨x, by simp [hx], hle⟩
    · exact ih (h.publish o) hr

end RetainsLatest

/-- **What is accepted has a number above all that was published before.** -/
theorem accepts_publishAll (h : e.RetainsLatest []) :
    (e.publishAll rs).accepts o = true ↔ ∀ r ∈ rs, r.number < o.number := by
  rw [(h.publishAll rs).accepts_iff, List.nil_append]
  constructor
  · intro hlt r hr
    obtain ⟨x, hx, hle⟩ := h.exists_accepted hr
    have := hlt x hx
    omega
  · exact fun hlt r hr => hlt r ((e.acceptedOf_sublist rs).subset hr)

/-- **The last result is the first with the largest number.** -/
theorem last_publishAll (h : e.RetainsLatest []) (rs : List NumberedOutcome) :
    (e.publishAll rs).last = rs.find? (isLargest rs) := by
  induction rs using List.reverseRecOn with
  | nil => exact h.last
  | append_singleton rs o ih =>
    rw [publishAll_append]
    show ((e.publishAll rs).publish o).last = _
    cases ha : (e.publishAll rs).accepts o with
    | true => rw [publish, if_pos ha, find?_isLargest_of_lt ((accepts_publishAll h).1 ha)]
    | false =>
      obtain ⟨x, hx, hle⟩ := (h.publishAll rs).exists_of_refused ha
      have hrs : x ∈ rs := (e.acceptedOf_sublist rs).subset hx
      rw [publish_of_refused ha, ih, find?_isLargest_of_le hrs hle]

/-- The last result stays the same in every order of the others, as long as none with its number
comes before it. -/
theorem last_rearranged (h : e.RetainsLatest []) {earlier later earlier' later' : List NumberedOutcome}
    (hlast : (e.publishAll (earlier ++ o :: later)).last = some o)
    (hperm : (earlier' ++ later').Perm (earlier ++ later))
    (hne : ∀ r ∈ earlier', r.number ≠ o.number) :
    (e.publishAll (earlier' ++ o :: later')).last = some o := by
  have hperm' : (earlier' ++ o :: later').Perm (earlier ++ o :: later) :=
    List.perm_middle.trans ((hperm.cons o).trans List.perm_middle.symm)
  rw [last_publishAll h] at hlast ⊢
  have hmax : isLargest (earlier' ++ o :: later') o = true :=
    isLargest_iff.2 fun r hr => isLargest_iff.1 (List.find?_some hlast) r (hperm'.subset hr)
  have hbefore : earlier'.find? (isLargest (earlier' ++ o :: later')) = none := by
    refine List.find?_eq_none.2 fun r hr hmax' => ?_
    have hle := isLargest_iff.1 hmax r (by simp [hr])
    have hge := isLargest_iff.1 hmax' o (by simp)
    exact hne r hr (Int.le_antisymm hle hge)
  rw [List.find?_append, hbefore, List.find?_cons_of_pos hmax]
  rfl

/-- Failures leave the last success as it is. -/
theorem lastSuccess_of_failures (e : Executor) (hfail : ∀ r ∈ rs, r.value.isSuccess = false) :
    (e.publishAll rs).lastSuccess = e.lastSuccess := by
  induction rs generalizing e with
  | nil => rfl
  | cons o rest ih =>
    have hone : (e.publish o).lastSuccess = e.lastSuccess := by
      unfold publish
      split
      · simp [hfail o List.mem_cons_self]
      · rfl
    exact (ih (e.publish o) fun r hr => hfail r (List.mem_cons_of_mem _ hr)).trans hone

end Executor

/-! ## Reading -/

namespace Updates

/-- What is replayed was accepted. -/
theorem replay_sublist (h : e.RetainsLatest acc) : (replay e).Sublist acc := by
  have hmem : ∀ {s}, e.lastSuccess = some s → s ∈ acc := fun hs =>
    (List.mem_filter.1 (List.mem_of_getLast? (h.lastSuccess.symm.trans hs))).1
  unfold replay
  split
  · exact List.nil_sublist _
  · rename_i last _ hl
    exact List.singleton_sublist.2 (List.mem_of_getLast? (h.last.symm.trans hl))
  · rename_i success hs _
    exact List.singleton_sublist.2 (hmem hs)
  · rename_i success last hs hl
    split
    · rename_i hnew
      -- the success is not the last, so it stands before it
      obtain ⟨init, rfl⟩ := List.getLast?_eq_some_iff.1 (h.last.symm.trans hl)
      rcases List.mem_append.1 (hmem hs) with hinit | hlast
      · exact List.Sublist.append (List.singleton_sublist.2 hinit) (List.Sublist.refl [last])
      · rw [List.mem_singleton.1 hlast] at hnew
        simp [Sequenced.isNewerThan] at hnew
    · exact List.singleton_sublist.2 (hmem hs)

theorem behind_open (h : e.RetainsLatest acc) : (Updates.open e).Behind e := by
  refine ⟨Nat.le_refl _, fun n hn => ?_⟩
  have hlast : e.last.map (·.number) = some n := (replay_last fun _ => h.success_le).symm.trans hn
  obtain ⟨r, hr, rfl⟩ := Option.map_eq_some_iff.1 hlast
  exact ⟨r, hr, Int.le_refl _⟩

theorem due_open (e : Executor) : (Updates.open e).due e = replay e := by
  simp [due, Updates.open]

/-! ### One look -/

/-- **A look gets the first of what is due,** and the rest is left. -/
theorem next_due (u : Updates) (e : Executor) :
    (u.next e).2 = (u.due e).head? ∧ (u.next e).1.due e = (u.due e).tail ∧
      (u.next e).1.pending = u.pending.tail := by
  unfold next
  split
  · rename_i o rest hp
    refine ⟨?_, ?_, ?_⟩ <;> simp [due, hp, fresh?]
  · rename_i hp
    split
    · rename_i hseen
      refine ⟨?_, ?_, ?_⟩ <;> simp [due, hp, hseen]
    · rename_i hseen
      cases hf : u.fresh? e with
      | none => refine ⟨?_, ?_, ?_⟩ <;> simp [due, hp, hseen, hf]
      | some o => refine ⟨?_, ?_, ?_⟩ <;> simp [due, hp, hseen, hf]

theorem Behind.next (h : u.Behind e) : (u.next e).1.Behind e := by
  unfold Updates.next
  split
  · exact ⟨h.seen, h.delivered⟩
  · split
    · exact h
    · cases hf : u.fresh? e with
      | none => exact ⟨Nat.le_refl _, h.delivered⟩
      | some o =>
        have hlast := (Option.filter_eq_some_iff.1 hf).1
        refine ⟨Nat.le_refl _, fun n hn => ⟨o, hlast, ?_⟩⟩
        exact Int.le_of_eq (Option.mem_some_iff.1 hn).symm

/-! ### Looking on -/

theorem looks_due (u : Updates) (e : Executor) (n : ℕ) :
    (u.looks e n).2 = (u.due e).take n ∧ (u.looks e n).1.due e = (u.due e).drop n ∧
      (u.looks e n).1.pending = u.pending.drop n := by
  induction n generalizing u with
  | zero => exact ⟨rfl, rfl, rfl⟩
  | succ n ih =>
    obtain ⟨hgot, hleft, hpend⟩ := u.next_due e
    obtain ⟨hgot', hleft', hpend'⟩ := ih (u.next e).1
    refine ⟨?_, ?_, ?_⟩
    · show (u.next e).2.toList ++ ((u.next e).1.looks e n).2 = _
      rw [hgot', hgot, hleft]
      cases u.due e <;> simp
    · show ((u.next e).1.looks e n).1.due e = _
      rw [hleft', hleft, List.drop_tail]
    · show ((u.next e).1.looks e n).1.pending = _
      rw [hpend', hpend, List.drop_tail]

theorem Behind.looks (h : u.Behind e) (n : ℕ) : (u.looks e n).1.Behind e := by
  induction n generalizing u with
  | zero => exact h
  | succ n ih => exact ih h.next

/-! ### A result is published -/

/-- What is accepted is due, after what is replayed. -/
theorem due_publish (h : u.Behind e) (ha : e.accepts o = true) :
    u.due (e.publish o) = u.pending ++ [o] := by
  have hseen : u.seen ≠ e.version + 1 := by
    have := h.seen
    omega
  have hnew : u.delivered.all (fun n => n < o.number) = true := by
    rw [Option.all_eq_true]
    intro n hn
    obtain ⟨r, hr, hle⟩ := h.delivered n hn
    have := Executor.accepts_iff.1 ha r hr
    exact decide_eq_true (by omega)
  simp [due, Executor.publish, ha, hseen, fresh?, hnew]

theorem Behind.publish (h : u.Behind e) (o : NumberedOutcome) : u.Behind (e.publish o) := by
  cases ha : e.accepts o with
  | false => rwa [Executor.publish_of_refused ha]
  | true =>
    rw [Executor.publish, if_pos ha]
    refine ⟨Nat.le_succ_of_le h.seen, fun n hn => ⟨o, rfl, ?_⟩⟩
    obtain ⟨r, hr, hle⟩ := h.delivered n hn
    have := Executor.accepts_iff.1 ha r hr
    omega

/-- What is due after a result was published was due before, or is the result. -/
theorem due_publish_sublist (h : u.Behind e) (o : NumberedOutcome) :
    (u.due (e.publish o)).Sublist (u.due e ++ e.taken o) := by
  cases ha : e.accepts o with
  | false =>
    rw [Executor.publish_of_refused ha, Executor.taken_of_refused ha, List.append_nil]
  | true =>
    rw [due_publish h ha, Executor.taken_of_accepts ha]
    exact List.Sublist.append (List.sublist_append_left _ _) (List.Sublist.refl _)

/-- One who has read what is stored has to read the result. -/
theorem due_publish_of_read (h : u.Behind e) (hdue : u.due e = u.pending) (o : NumberedOutcome) :
    u.due (e.publish o) = u.pending ++ e.taken o := by
  cases ha : e.accepts o with
  | false =>
    rw [Executor.publish_of_refused ha, Executor.taken_of_refused ha, hdue, List.append_nil]
  | true => rw [due_publish h ha, Executor.taken_of_accepts ha]

/-! ### While results are published -/

/-- With nothing left of the replay, one look after each publication will do. -/
theorem inTime_zero {later : List (NumberedOutcome × ℕ)} :
    InTime 0 later ↔ ∀ p ∈ later, 0 < p.2 := by
  cases later <;> simp [InTime]

/-- **However rarely a reader looks,** it gets nothing but what is accepted, in this order. -/
theorem follow_sublist (h : u.Behind e) (later : List (NumberedOutcome × ℕ)) :
    (u.follow e later).Sublist (u.due e ++ e.acceptedOf (later.map (·.1))) := by
  induction later generalizing u e with
  | nil => exact List.nil_sublist _
  | cons next rest ih =>
    obtain ⟨o, n⟩ := next
    obtain ⟨hgot, hleft, -⟩ := u.looks_due (e.publish o) n
    have hrest := ih ((h.publish o).looks n)
    rw [hleft] at hrest
    show List.Sublist
      ((u.looks (e.publish o) n).2 ++ (u.looks (e.publish o) n).1.follow (e.publish o) rest)
      (u.due e ++ (e.taken o ++ (e.publish o).acceptedOf (rest.map (·.1))))
    rw [hgot, ← List.append_assoc]
    -- what was due after the publication is what it got and what was left of it
    have hdue : (u.due (e.publish o)).take n ++ ((u.due (e.publish o)).drop n ++
        (e.publish o).acceptedOf (rest.map (·.1))) =
          u.due (e.publish o) ++ (e.publish o).acceptedOf (rest.map (·.1)) := by
      rw [← List.append_assoc, List.take_append_drop]
    have hgets := List.Sublist.append (List.Sublist.refl ((u.due (e.publish o)).take n)) hrest
    rw [hdue] at hgets
    exact hgets.trans (List.Sublist.append (due_publish_sublist h o) (List.Sublist.refl _))

/-- **A reader that looks in time gets all that is accepted.** -/
theorem follow_eq (h : u.Behind e) (hdue : u.due e = u.pending) {later : List (NumberedOutcome × ℕ)}
    (ht : InTime u.pending.length later) :
    u.follow e later = u.pending ++ e.acceptedOf (later.map (·.1)) := by
  induction later generalizing u e with
  | nil =>
    rw [List.length_eq_zero_iff.1 ht]
    rfl
  | cons next rest ih =>
    obtain ⟨o, n⟩ := next
    obtain ⟨hn, hrest⟩ := ht
    obtain ⟨hgot, hleft, hpend⟩ := u.looks_due (e.publish o) n
    have hall : (u.due (e.publish o)).length ≤ n := by
      rw [due_publish_of_read h hdue, List.length_append, Executor.taken]
      split <;> simp <;> omega
    rw [List.drop_of_length_le hall] at hleft
    rw [List.drop_of_length_le (by omega)] at hpend
    have hrest := ih ((h.publish o).looks n) (hleft.trans hpend.symm)
      (by rw [hpend]; exact inTime_zero.2 hrest)
    show (u.looks (e.publish o) n).2 ++ (u.looks (e.publish o) n).1.follow (e.publish o) rest =
      u.pending ++ (e.taken o ++ (e.publish o).acceptedOf (rest.map (·.1)))
    rw [hgot, List.take_of_length_le hall, hrest, hpend, due_publish_of_read h hdue]
    simp

/-- What one who comes now gets: at most what is replayed and what is accepted from then on. -/
theorem read_sublist (h : e.RetainsLatest acc) (n : ℕ) (later : List (NumberedOutcome × ℕ)) :
    (read e n later).Sublist (replay e ++ e.acceptedOf (later.map (·.1))) := by
  obtain ⟨hgot, hleft, -⟩ := (Updates.open e).looks_due e n
  have hfollow := follow_sublist ((behind_open h).looks n) later
  rw [hleft] at hfollow
  show (((Updates.open e).looks e n).2 ++ ((Updates.open e).looks e n).1.follow e later).Sublist _
  rw [hgot, ← due_open, ← List.take_append_drop n ((Updates.open e).due e), List.append_assoc,
    List.take_append_drop]
  exact List.Sublist.append (List.Sublist.refl _) hfollow

/-- Who looks in time gets all of it. -/
theorem read_eq (h : e.RetainsLatest acc) {n : ℕ} {later : List (NumberedOutcome × ℕ)}
    (ht : InTime ((replay e).length - n) later) :
    read e n later = replay e ++ e.acceptedOf (later.map (·.1)) := by
  obtain ⟨hgot, hleft, hpend⟩ := (Updates.open e).looks_due e n
  have hpend' : ((Updates.open e).looks e n).1.pending = (replay e).drop n := hpend
  rw [due_open] at hgot hleft
  show ((Updates.open e).looks e n).2 ++ ((Updates.open e).looks e n).1.follow e later = _
  rw [follow_eq ((behind_open h).looks n) (hleft.trans hpend'.symm)
    (by rwa [hpend', List.length_drop]), hgot, hpend', ← List.append_assoc, List.take_append_drop]

end Updates

/-! ## The newest is kept -/

/-- **Publishing keeps the newest,** whatever the order in which results arrive. -/
structure PublishesNewest (e : Executor) : Prop where
  /-- A result is accepted if its number is larger than all numbers before it. -/
  accepted : ∀ earlier o,
    (e.publishAll earlier).accepts o = true ↔ ∀ r ∈ earlier, r.number < o.number
  /-- The last result is the first that carries the largest number. -/
  last : ∀ rs, (e.publishAll rs).last = rs.find? (isLargest rs)
  /-- It is so in every order of the others, as long as none with its number comes before it. -/
  order : ∀ o earlier later earlier' later',
    (e.publishAll (earlier ++ o :: later)).last = some o →
      (earlier' ++ later').Perm (earlier ++ later) → (∀ r ∈ earlier', r.number ≠ o.number) →
        (e.publishAll (earlier' ++ o :: later')).last = some o
  /-- The last success is the newest of the successes that were accepted. -/
  success : ∀ rs o, (e.publishAll rs).lastSuccess = some o ↔
    o ∈ e.acceptedOf rs ∧ o.value.isSuccess = true ∧
      ∀ r ∈ e.acceptedOf rs, r.value.isSuccess = true → r.number ≤ o.number
  /-- Failures do not remove it. -/
  failures : ∀ rs rs', (∀ r ∈ rs', r.value.isSuccess = false) →
    (e.publishAll (rs ++ rs')).lastSuccess = (e.publishAll rs).lastSuccess
  /-- A reader that comes at any point and looks in time gets, after what is replayed, all that is
  accepted from then on. -/
  reads : ∀ earlier n later,
    Updates.InTime ((Updates.replay (e.publishAll earlier)).length - n) later →
      Updates.read (e.publishAll earlier) n later =
        Updates.replay (e.publishAll earlier) ++
          (e.publishAll earlier).acceptedOf (later.map (·.1))
  /-- However rarely it looks, it gets nothing else. -/
  readsOnly : ∀ earlier n later,
    (Updates.read (e.publishAll earlier) n later).Sublist
      (Updates.replay (e.publishAll earlier) ++
        (e.publishAll earlier).acceptedOf (later.map (·.1)))
  /-- Both are in strictly increasing order. -/
  rising : ∀ earlier later,
    Rising (Updates.replay (e.publishAll earlier) ++ (e.publishAll earlier).acceptedOf later)

/-- **The newest result is kept, in any order of arrival.** -/
theorem newest_kept (spec : QuerySpec) (closed : Bool) :
    PublishesNewest (.ofSpec spec closed) := by
  have hfresh := Executor.RetainsLatest.fresh spec closed
  have hretains : ∀ rs, ((Executor.ofSpec spec closed).publishAll rs).RetainsLatest
      ((Executor.ofSpec spec closed).acceptedOf rs) := hfresh.publishAll
  constructor
  case accepted => exact fun _ _ => Executor.accepts_publishAll hfresh
  case last => exact Executor.last_publishAll hfresh
  case order =>
    intro o earlier later earlier' later' hlast hperm hne
    exact Executor.last_rearranged hfresh hlast hperm hne
  case success => exact fun rs _ => (hretains rs).lastSuccess_eq_some_iff
  case failures =>
    intro rs rs' hfail
    rw [Executor.publishAll_append]
    exact Executor.lastSuccess_of_failures _ hfail
  case reads => exact fun earlier n later ht => Updates.read_eq (hretains earlier) ht
  case readsOnly => exact fun earlier n later => Updates.read_sublist (hretains earlier) n later
  case rising =>
    intro earlier later
    have hrising := ((hretains earlier).publishAll later).rising
    exact List.Pairwise.sublist
      (List.Sublist.append (Updates.replay_sublist (hretains earlier)) (List.Sublist.refl _)) hrising

/-- A success and a failure are replayed. One who is through with them in time gets 7 and 9. -/
example (spec : QuerySpec) (answer : OperationResult) :
    let o (n : Int) : NumberedOutcome := ⟨n, spec.key, ⟨0⟩, .error .executionDropped⟩
    let e := (Executor.ofSpec spec false).publishAll [⟨3, spec.key, ⟨0⟩, .ok answer⟩, o 5]
    (Updates.read e 1 [(o 7, 2), (o 6, 1), (o 7, 1), (o 9, 1)]).map (·.number) = [3, 5, 7, 9] := rfl

/-! ## A reader that falls behind -/

/-- A query for one film. -/
def featureFilm : QuerySpec := ⟨"GetMovie", [("id", .str "m1")]⟩

/-- The film's query is answered. -/
def screened (number : Int) : NumberedOutcome :=
  ⟨number, featureFilm.key, ⟨0⟩, .ok (.ofData (.obj []))⟩

/-- The film's query fails. -/
def cutShort (number : Int) : NumberedOutcome :=
  ⟨number, featureFilm.key, ⟨0⟩, .error .executionDropped⟩

/-- A success and a failure were published when the reader came. -/
def encore : Executor :=
  (Executor.ofSpec featureFilm false).publishAll [screened 2, cutShort 4]

/-- **A reader can miss what is accepted while it reads what is replayed:** it looks after each
publication, but the first looks get the two results that are replayed, and 6 is stored over by 8. -/
theorem missed_while_replaying :
    let later := [(screened 6, 1), (screened 8, 2)]
    (∀ r ∈ [screened 2, cutShort 4] ++ later.map (·.1), 0 < r.number) ∧ (∀ p ∈ later, 0 < p.2) ∧
      (Updates.replay encore ++ encore.acceptedOf (later.map (·.1))).map (·.number) = [2, 4, 6, 8] ∧
        (Updates.read encore 0 later).map (·.number) = [2, 4, 8] ∧
          Updates.read encore 0 later ≠
            Updates.replay encore ++ encore.acceptedOf (later.map (·.1)) := by
  intro later
  have hread : (Updates.read encore 0 later).map (·.number) = [2, 4, 8] := rfl
  have hall : (Updates.replay encore ++ encore.acceptedOf (later.map (·.1))).map (·.number) =
      [2, 4, 6, 8] := rfl
  refine ⟨by decide, by decide, hall, hread, fun heq => ?_⟩
  rw [← heq, hread] at hall
  exact absurd hall (by decide)

end QueryClient
