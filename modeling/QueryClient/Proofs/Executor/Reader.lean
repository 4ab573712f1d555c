import QueryClient.Proofs.Executor.Attempts
import QueryClient.Query.Updates

/-!
# What a reader gets

A reader came when some results were stored (`old`), has read some that came after (`read`), and has
not read others (`unread`). What it gets follows from these lists.

* `mem_results_of_replay`, `replay_ordered`, `replay_last`, `replay_through`: what a new reader gets
  first is stored, in order, and up to the last result.
* `Reading`: where a reader is in an executor's results.
* `Reading.next_pending`, `Reading.next_none`, `Reading.next_unread`, `Reading.next`: what it gets next.
* `Reading.source_cache`, `Reading.source_server`: where its results come from.
-/

namespace QueryClient

variable {s : Supply} {e : Executor} {u : Updates} {o : NumberedOutcome}
variable {unread read old : List NumberedOutcome}

/-! ## What a new reader gets first -/

/-- What is replayed is stored. -/
theorem mem_results_of_replay (h : ExecutorOK s e) (ho : o ∈ Updates.replay e) : o ∈ e.results := by
  have hlast : ∀ r, e.last = some r → r ∈ e.results := by
    intro r hr
    rw [h.last] at hr
    exact List.mem_of_mem_head? hr
  have hsucc : ∀ r, e.lastSuccess = some r → r ∈ e.results := by
    intro r hr
    rw [h.lastSuccess] at hr
    exact List.mem_of_find?_eq_some hr
  unfold Updates.replay at ho
  split at ho
  · simp at ho
  · rename_i last _ hl
    rw [List.mem_singleton.1 ho]
    exact hlast _ hl
  · rename_i success hs _
    rw [List.mem_singleton.1 ho]
    exact hsucc _ hs
  · rename_i success last hs hl
    split at ho
    · rcases List.mem_cons.1 ho with rfl | ho
      · exact hsucc _ hs
      · rw [List.mem_singleton.1 ho]
        exact hlast _ hl
    · rw [List.mem_singleton.1 ho]
      exact hsucc _ hs

/-- What is replayed comes in order. -/
theorem replay_ordered (e : Executor) :
    (Updates.replay e).Pairwise fun o r => o.number < r.number := by
  unfold Updates.replay
  split
  · exact .nil
  · exact List.pairwise_singleton _ _
  · exact List.pairwise_singleton _ _
  · rename_i success last _ _
    split
    · rename_i hnew
      refine List.pairwise_cons.2 ⟨fun r hr => ?_, List.pairwise_singleton _ _⟩
      rw [List.mem_singleton.1 hr]
      simpa [Sequenced.isNewerThan] using hnew
    · exact List.pairwise_singleton _ _

/-- No result has a larger number than the last. -/
theorem number_le_head (h : ExecutorOK s e) {r : NumberedOutcome} (hr : e.results.head? = some r)
    (ho : o ∈ e.results) : o.number ≤ r.number := by
  have hord := h.results_ordered
  obtain ⟨rest, hrest⟩ := List.head?_eq_some_iff.1 hr
  rw [hrest] at hord ho
  rcases List.mem_cons.1 ho with rfl | ho
  · exact Int.le_refl _
  · exact Int.le_of_lt (List.rel_of_pairwise_cons hord ho)

/-- The last that is replayed has the number of the last result, if no success is newer than that. -/
theorem replay_last (hle : ∀ r, e.lastSuccess = some r → ∃ l, e.last = some l ∧ r.number ≤ l.number) :
    (Updates.replay e).getLast?.map (·.number) = e.last.map (·.number) := by
  unfold Updates.replay
  split
  · rename_i _ hl
    rw [hl]
    rfl
  · rename_i last _ hl
    rw [hl]
    rfl
  · rename_i success hs hl
    obtain ⟨r, hr, -⟩ := hle success hs
    rw [hl] at hr
    simp at hr
  · rename_i success last hs hl
    obtain ⟨r, hr, hnum⟩ := hle success hs
    obtain rfl : last = r := Option.some.inj (hl.symm.trans hr)
    rw [hl]
    split
    · rfl
    · rename_i hnew
      have hge : last.number ≤ success.number := by simpa [Sequenced.isNewerThan] using hnew
      exact congrArg some (Int.le_antisymm hnum hge)

/-- So it is at a well-formed executor, whose successes are results. -/
theorem replay_through (h : ExecutorOK s e) :
    (Updates.replay e).getLast?.map (·.number) = e.results.head?.map (·.number) := by
  rw [← h.last]
  refine replay_last fun r hr => ?_
  have hmem : r ∈ e.results := List.mem_of_find?_eq_some (h.lastSuccess.symm.trans hr)
  have hhead := List.head?_eq_some_head (List.ne_nil_of_mem hmem)
  exact ⟨_, h.last.trans hhead, number_le_head h hhead hmem⟩

/-! ## Where a reader is -/

/-- **A reader's place** in the results of an executor, the latest first. -/
structure Reading (e : Executor) (u : Updates) (unread read old : List NumberedOutcome) : Prop where
  results : e.results = unread ++ read ++ old
  seen : u.seen = (read ++ old).length
  delivered : u.delivered = (read ++ old).head?.map (·.number)
  through : u.replayedThrough = old.head?.map (·.number)
  pending : ∀ o ∈ u.pending, o ∈ old

namespace Reading

theorem «open» (h : ExecutorOK s e) : Reading e (.open e) [] [] e.results :=
  ⟨rfl, h.version, replay_through h, replay_through h, fun _ ho => mem_results_of_replay h ho⟩

/-- The executor does something that concerns no result. -/
theorem of_results (hr : Reading e u unread read old) {e' : Executor}
    (he : e'.results = e.results) : Reading e' u unread read old :=
  ⟨he.trans hr.results, hr.seen, hr.delivered, hr.through, hr.pending⟩

/-- A result is stored. -/
theorem of_stored (hr : Reading e u unread read old) {e' : Executor}
    (he : e'.results = o :: e.results) : Reading e' u (o :: unread) read old :=
  ⟨by rw [he, hr.results]; rfl, hr.seen, hr.delivered, hr.through, hr.pending⟩

theorem version (h : ExecutorOK s e) (hr : Reading e u unread read old) :
    e.version = unread.length + u.seen := by
  rw [h.version, hr.results, hr.seen]
  simp

/-- A reader has to look as long as there is something it has not read. -/
theorem ready_iff (h : ExecutorOK s e) (hr : Reading e u unread read old) :
    u.ready e ↔ u.pending ≠ [] ∨ unread ≠ [] := by
  have hver := hr.version h
  have hseen : u.seen = e.version ↔ unread = [] := by
    rw [← List.length_eq_zero_iff]
    omega
  unfold Updates.ready
  rw [Bool.or_eq_true, bne_iff_ne, ne_eq, hseen]
  simp

theorem next_pending {rest : List NumberedOutcome} (hr : Reading e u unread read old)
    (hp : u.pending = o :: rest) : u.next e = ({ u with pending := rest }, some o) ∧
      Reading e { u with pending := rest } unread read old := by
  refine ⟨by unfold Updates.next; rw [hp], hr.results, hr.seen, hr.delivered, hr.through, ?_⟩
  exact fun r hr' => hr.pending r (by rw [hp]; exact List.mem_cons_of_mem _ hr')

theorem next_none (h : ExecutorOK s e) (hr : Reading e u [] read old) (hp : u.pending = []) :
    u.next e = (u, none) := by
  have hver := hr.version h
  unfold Updates.next
  rw [hp]
  simp only
  rw [if_pos (by simpa using hver.symm)]

/-- **A reader gets the result that was stored last,** which is the only one that was stored since it looked
last if it looks in time. -/
theorem next_unread (h : ExecutorOK s e) (hr : Reading e u (o :: unread) read old) (hp : u.pending = []) :
    u.next e = ({ u with seen := e.version, delivered := some o.number }, some o) ∧
      Reading e { u with seen := e.version, delivered := some o.number } [] (o :: (unread ++ read)) old := by
  have hver := hr.version h
  have hord := h.results_ordered
  have hlast : e.last = some o := by
    rw [h.last, hr.results]
    rfl
  rw [hr.results] at hord
  have hfresh : u.fresh? e = some o := by
    refine Option.filter_eq_some_iff.2 ⟨hlast, ?_⟩
    rw [hr.delivered]
    cases hd : (read ++ old).head? with
    | none => rfl
    | some r =>
      have hmem : r ∈ read ++ old := List.mem_of_mem_head? hd
      have hlater : r ∈ unread ++ read ++ old := by
        rw [List.append_assoc]
        exact List.mem_append_right _ hmem
      exact decide_eq_true (List.rel_of_pairwise_cons hord hlater)
  refine ⟨?_, hr.results, ?_, rfl, hr.through, ?_⟩
  · unfold Updates.next
    rw [hp]
    simp only
    rw [if_neg (by simp at hver; omega), hfresh]
  · rw [h.version, hr.results]
    rfl
  · rw [hp]
    simp

/-- Whatever the reader gets, it has a place in the results afterwards. -/
theorem next (h : ExecutorOK s e) (hr : Reading e u unread read old) :
    ∃ unread' read', Reading e (u.next e).1 unread' read' old := by
  cases hp : u.pending with
  | cons o rest =>
    obtain ⟨hnext, hread⟩ := hr.next_pending hp
    rw [hnext]
    exact ⟨_, _, hread⟩
  | nil =>
    cases unread with
    | nil =>
      rw [hr.next_none h hp]
      exact ⟨_, _, hr⟩
    | cons o unread =>
      obtain ⟨hnext, hread⟩ := hr.next_unread h hp
      rw [hnext]
      exact ⟨_, _, hread⟩

/-! ## Sources -/

/-- What was stored when the reader came is from the cache. -/
theorem source_cache (h : ExecutorOK s e) (hr : Reading e u unread read old) (ho : o ∈ old) :
    u.source o = .cache := by
  have hord := h.results_ordered
  rw [hr.results] at hord
  have hold := (List.pairwise_append.1 hord).2.1
  unfold Updates.source
  rw [hr.through]
  cases hd : old.head? with
  | none =>
    rw [List.head?_eq_none_iff.1 hd] at ho
    simp at ho
  | some r =>
    obtain ⟨rest, hrest⟩ := List.head?_eq_some_iff.1 hd
    rw [hrest] at hold ho
    have hle : o.number ≤ r.number := by
      rcases List.mem_cons.1 ho with rfl | ho
      · exact Int.le_refl _
      · exact Int.le_of_lt (List.rel_of_pairwise_cons hold ho)
    simp [hle]

/-- What was stored after the reader came is from the backend. -/
theorem source_server (h : ExecutorOK s e) (hr : Reading e u unread read old)
    (ho : o ∈ unread ++ read) : u.source o = .server := by
  have hord := h.results_ordered
  rw [hr.results] at hord
  unfold Updates.source
  rw [hr.through]
  cases hd : old.head? with
  | none => rfl
  | some r =>
    have hlt := (List.pairwise_append.1 hord).2.2 o ho r (List.mem_of_mem_head? hd)
    have hno : ¬ o.number ≤ r.number := by omega
    simp [hno]

end Reading

end QueryClient
