import QueryClient.Proofs.Executor.Published

/-!
# Fresh results

Who asks an executor for a result is never handed one that was stored before. The number drawn on
asking is not enough for this: the attempt that is joined may have been started, and numbered,
before. What carries it is that an attempt in the slot is numbered above all that is stored.

* `ExecutorOK.slot_above`: the attempt in the slot is above all that is stored.
* `Later`: an inquiry that was made after some point waits for an attempt above what was stored
  there.
* `fresh_results`: **what an inquiry is handed is newer than all that was stored when it was made.**
-/

namespace QueryClient

variable {spec : QuerySpec} {s : Supply} {e : Executor} {q : Inquiry} {d d₀ : Desk} {n : Int}
  {o r : NumberedOutcome} {i : ℕ}

namespace ExecutorOK

/-- **The attempt in the slot is above all that is stored.** -/
theorem slot_above (h : ExecutorOK s e) (hs : e.slot = some n) : ∀ r ∈ e.results, r.number < n := by
  obtain ⟨a, rest, hl, hu, rfl⟩ := h.attempt_of_slot hs
  exact h.results_lt hl hu

/-- What is stored has been drawn. -/
theorem results_drawn (h : ExecutorOK s e) : ∀ r ∈ e.results, r.number ≤ s.number := by
  intro r hr
  obtain ⟨a, ha, hst⟩ := mem_results.1 hr
  have hnum := (h.outcome a ha r hst).1
  have hdrawn := (h.drawn a ha).1
  omega

theorem mem_of_last (h : ExecutorOK s e) (hr : e.last = some r) : r ∈ e.results := by
  rw [h.last] at hr
  exact List.mem_of_mem_head? hr

end ExecutorOK

/-- The inquiry drew a number above all that was stored at an earlier point, and so is the attempt
that it waits for. -/
structure Inquiry.Above (q : Inquiry) (stored : List NumberedOutcome) : Prop where
  least : ∀ r ∈ stored, r.number < q.least
  attempt : ∀ n, q.attempt? = some n → ∀ r ∈ stored, r.number < n

/-- The desk at a later point, as seen from an earlier one. -/
structure Later (d₀ d : Desk) : Prop where
  results : d₀.executor.results ⊆ d.executor.results
  length : d₀.inquiries.length ≤ d.inquiries.length
  above : ∀ i q, d₀.inquiries.length ≤ i → d.inquiries[i]? = some q → q.Above d₀.executor.results

namespace Later

theorem refl (d : Desk) : Later d d := by
  refine ⟨List.Subset.refl _, Nat.le_refl _, ?_⟩
  intro i q hi hq
  have := (List.getElem?_eq_some_iff.1 hq).1
  omega

/-- An inquiry goes on, and still waits for an attempt above what was stored. -/
theorem set (h : Later d₀ d) {q' : Inquiry} {e : Executor} {s : Supply}
    (hres : d.executor.results ⊆ e.results) (hq : d.inquiries[i]? = some q)
    (habove : q.Above d₀.executor.results → q'.Above d₀.executor.results) :
    Later d₀ { d with executor := e, supply := s, inquiries := d.inquiries.set i q' } := by
  refine ⟨List.Subset.trans h.results hres, ?_, ?_⟩
  · show _ ≤ (d.inquiries.set i q').length
    rw [List.length_set]
    exact h.length
  intro j p hj hp
  have hlt := (List.getElem?_eq_some_iff.1 hq).1
  by_cases hij : i = j
  · subst hij
    obtain rfl : q' = p := Option.some.inj ((List.getElem?_set_self hlt).symm.trans hp)
    exact habove (h.above i q hj hq)
  · exact h.above j p hj ((List.getElem?_set_ne hij).symm.trans hp)

/-- Only the executor changes, and keeps its results. -/
theorem of_executor (h : Later d₀ d) {e : Executor} (hres : d.executor.results ⊆ e.results)
    (calls : List BackendCall) : Later d₀ { d with executor := e, calls } :=
  ⟨List.Subset.trans h.results hres, h.length, h.above⟩

theorem look (h : Later d₀ d) (hd : DeskOK spec d) (i : ℕ) : Later d₀ (d.look i) := by
  rcases d.look_cases i with hsame | ⟨least, executor, supply, entry, hi, hj, hlook⟩
  · rw [hsame]; exact h
  rw [hlook]
  rcases d.executor.join_cases least d.supply with
    ⟨o, hj', -⟩ | ⟨n, hj', hslot, -⟩ | ⟨hj', -⟩ <;> rw [hj'] at hj <;> obtain ⟨rfl, rfl, rfl⟩ := hj
  · exact h.set (List.Subset.refl _) hi fun hq => ⟨hq.least, by simp [Inquiry.attempt?, Entry.attempt?]⟩
  · refine h.set (List.Subset.refl _) hi fun hq => ⟨hq.least, ?_⟩
    intro m hm r hr
    obtain rfl : n = m := by simpa [Inquiry.attempt?, Entry.attempt?] using hm
    exact hd.executor.slot_above hslot r (h.results hr)
  · refine h.set (ExecutorExt.start _ _ _).results.subset hi fun hq => ⟨hq.least, ?_⟩
    intro m hm r hr
    obtain rfl : d.supply.number + 1 = m := by simpa [Inquiry.attempt?, Entry.attempt?] using hm
    have := hd.executor.results_drawn r (h.results hr)
    omega

theorem step (h : Later d₀ d) (hd : DeskOK spec d) (ev : DeskEvent) : Later d₀ (d.step ev) := by
  have hres : d.executor.results ⊆ (d.step ev).executor.results := (hd.suffix_run [ev]).subset
  cases ev with
  | ask =>
    refine ⟨h.results, ?_, ?_⟩
    · show _ ≤ (d.inquiries ++ [_]).length
      have := h.length
      rw [List.length_append]
      omega
    intro i q hi hq
    have hq : (d.inquiries ++ [({ least := d.supply.number + 1 } : Inquiry)])[i]? = some q := hq
    rcases Nat.lt_or_ge i d.inquiries.length with hlt | hge
    · exact h.above i q hi ((List.getElem?_append_left hlt).symm.trans hq)
    · rw [List.getElem?_append_right hge] at hq
      obtain rfl := List.mem_singleton.1 (List.mem_of_getElem? hq)
      refine ⟨fun r hr => ?_, by simp [Inquiry.attempt?]⟩
      have := hd.executor.results_drawn r (h.results hr)
      show r.number < d.supply.number + 1
      omega
  | look i => exact h.look hd i
  | collect i =>
    have hres : d.executor.results ⊆ (d.collect i).executor.results := hres
    show Later d₀ (d.collect i)
    rcases d.collect_cases i with hsame | ⟨least, entry, n, executor, o, madeUp, hi, -, -, hcollect⟩
    · rw [hsame]; exact h
    · rw [hcollect] at hres ⊢
      exact h.set hres hi fun hq => ⟨hq.least, hq.attempt⟩
  | leave i =>
    show Later d₀ (d.leave i)
    rcases d.leave_cases i with hsame | ⟨least, entry, hi, hleave⟩
    · rw [hsame]; exact h
    · rw [hleave]
      exact h.set (List.Subset.refl _) hi fun hq => ⟨hq.least, hq.attempt⟩
  | begin n =>
    have hres : d.executor.results ⊆ (d.begin n).executor.results := hres
    show Later d₀ (d.begin n)
    rcases d.begin_cases hd.executor n with hsame | ⟨a, rest, -, -, -, ⟨-, hb⟩ | ⟨-, hb⟩⟩
    · rw [hsame]; exact h
    · rw [hb] at hres ⊢; exact h.of_executor hres _
    · rw [hb] at hres ⊢; exact h.of_executor hres _
  | drawn numbers requests => exact ⟨h.results, h.length, h.above⟩
  | answer n reply => exact h.of_executor hres _
  | resume n => exact h.of_executor hres _
  | kill n => exact h.of_executor hres _
  | close => exact h.of_executor hres _

theorem run (h : Later d₀ d) (hd : DeskOK spec d) (es : List DeskEvent) : Later d₀ (d.run es) := by
  induction es generalizing d with
  | nil => exact h
  | cons ev es ih => exact ih (h.step hd ev) (hd.step ev)

/-- What an inquiry made since is handed is above all that was stored. -/
theorem returned (h : Later d₀ d) (hd : DeskOK spec d) (hi : d₀.inquiries.length ≤ i)
    (hq : d.inquiries[i]? = some q) (ho : q.ending = some (.returned o)) :
    ∀ r ∈ d₀.executor.results, r.number < o.number := by
  intro r hr
  have habove := h.above i q hi hq
  have hok := hd.inquiries q (List.mem_of_getElem? hq)
  rcases hok.returned o ho with hf | ⟨a, ha, hn, hst⟩
  · exact Int.lt_trans (habove.least r hr) (hok.found o hf).2.1
  · have hlt := habove.attempt _ hn r hr
    have hnum := (hd.executor.outcome a ha o hst).1
    omega

end Later

/-! ## The theorem -/

/-- **Freshness,** at a desk that the first events led to, as the others follow. -/
structure FreshResults (d₀ : Desk) (before after : List DeskEvent) : Prop where
  /-- An attempt in the slot is unfinished, and numbered above all that is stored. -/
  slot : ∀ n, (d₀.run before).executor.slot = some n →
    (∃ a ∈ (d₀.run before).executor.attempts, a.number = n ∧ a.Unsettled) ∧
    ∀ r, (d₀.run before).executor.last = some r → r.number < n
  /-- Whoever asks from here on is handed nothing up to the last result that is stored here. -/
  newer : ∀ i q o, (d₀.run before).inquiries.length ≤ i →
    ((d₀.run before).run after).inquiries[i]? = some q → q.ending = some (.returned o) →
    ∀ r, (d₀.run before).executor.last = some r → r.number < o.number
  /-- It was not stored at any point up to here. -/
  unpublished : ∀ i q o, (d₀.run before).inquiries.length ≤ i →
    ((d₀.run before).run after).inquiries[i]? = some q → q.ending = some (.returned o) →
    o ∉ (d₀.run before).executor.results ∧
    ∀ earlier, earlier <+: before → ∀ r, (d₀.run earlier).executor.last = some r → r.number < o.number

/-- **Nobody is handed a result that was there when they asked,** whatever else happens, before or
after, and in whatever order. -/
theorem fresh_results (spec : QuerySpec) (closed : Bool) (s : Supply)
    (before after : List DeskEvent) : FreshResults (.fresh spec closed s) before after := by
  have hfresh := DeskOK.fresh spec closed s
  have h := hfresh.run before
  have hall := fun i q o hi hq ho => ((Later.refl _).run h after).returned (i := i) (q := q) (o := o)
    (h.run after) hi hq ho
  constructor
  case slot =>
    intro n hn
    obtain ⟨a, rest, hl, hu, han⟩ := h.executor.attempt_of_slot hn
    refine ⟨⟨a, by rw [hl]; exact List.mem_cons_self, han, hu⟩, fun r hr => ?_⟩
    exact h.executor.slot_above hn r (h.executor.mem_of_last hr)
  case newer =>
    intro i q o hi hq ho r hr
    exact hall i q o hi hq ho r (h.executor.mem_of_last hr)
  case unpublished =>
    intro i q o hi hq ho
    refine ⟨fun hmem => Int.lt_irrefl _ (hall i q o hi hq ho o hmem), ?_⟩
    rintro earlier ⟨rest, rfl⟩ r hr
    have hearlier := hfresh.run earlier
    refine hall i q o hi hq ho r ?_
    unfold Desk.run
    rw [List.foldl_append]
    exact (hearlier.suffix_run rest).mem (hearlier.executor.mem_of_last hr)

end QueryClient
