import Mathlib.Data.List.Dedup
import QueryClient.Query.Registry
import QueryClient.Query.Task

/-!
# The books of a registry

A registry keeps books on the leases that are held: it has one entry for each key on which there is a
lease, with the instance that these leases are on and their number.

* `Books`: a registry is in keeping with the leases that are held.
* `Books.acquire`, `Books.release`: it stays so.
* `Books.acquire_held`, `Books.acquire_fresh`: which instance is handed out.
* `Books.size`: **the entries are as many as the keys with a lease.**
-/

namespace QueryClient

variable {r : Registry} {key k : QueryKey} {c c' : Counted InstanceId} {fresh : InstanceId}
variable {held held' rest : List Lease} {x : Lease}

/-! ## Entries -/

namespace Registry

theorem entry?_setEntry (h : r.entry? key = some c) (c' : Counted InstanceId) (k : QueryKey) :
    Registry.entry? (r.setEntry key c') k = if k = key then some c' else r.entry? k := by
  have hentry : Registry.entry? (r.setEntry key c') k =
      if k = key then (r.entry? key).map fun _ => c' else r.entry? k := by
    obtain ⟨es⟩ := r
    unfold entry? setEntry
    clear h
    induction es with
    | nil => simp
    | cons e es ih =>
      rw [List.map_cons, List.find?_cons, List.find?_cons, List.find?_cons]
      by_cases he : e.1 = key
      · by_cases hk : k = key
        · simp [he, hk]
        · simpa [he, hk, Ne.symm hk] using ih
      · by_cases hek : e.1 = k
        · have hne : k ≠ key := fun hk => he (hek.trans hk)
          simp [hek, hne]
        · simpa [he, hek] using ih
  rw [hentry, h]
  rfl

theorem entry?_remove (r : Registry) (key k : QueryKey) :
    Registry.entry? (r.remove key) k = if k = key then none else r.entry? k := by
  obtain ⟨es⟩ := r
  unfold entry? remove
  induction es with
  | nil => simp
  | cons e es ih =>
    by_cases he : e.1 = key
    · by_cases hk : k = key
      · simp [he, hk]
      · simpa [he, hk, Ne.symm hk] using ih
    · by_cases hek : e.1 = k
      · have hne : k ≠ key := fun hk => he (hek.trans hk)
        simp [hek, hne]
      · simpa [he, hek] using ih

theorem entry?_append (h : r.entry? key = none) (c : Counted InstanceId) (k : QueryKey) :
    Registry.entry? { entries := r.entries ++ [(key, c)] } k =
      if k = key then some c else r.entry? k := by
  unfold entry? at *
  rw [List.find?_append]
  by_cases hk : k = key
  · subst hk
    rw [Option.map_eq_none_iff] at h
    simp [h]
  · simp [hk, Ne.symm hk]

theorem mem_keys : key ∈ r.entries.map (·.1) ↔ (r.entry? key).isSome := by
  unfold entry?
  rw [Option.isSome_map, List.find?_isSome, List.mem_map]
  simp

theorem keys_setEntry (r : Registry) (key : QueryKey) (c : Counted InstanceId) :
    (r.setEntry key c).entries.map (·.1) = r.entries.map (·.1) := by
  unfold setEntry
  rw [List.map_map]
  refine List.map_congr_left fun e _ => ?_
  simp only [Function.comp]
  split
  · rename_i he; exact he.symm
  · rfl

end Registry

/-! ## Books -/

/-- A registry is in keeping with the leases that are held. -/
structure Books (r : Registry) (held : List Lease) : Prop where
  nodup : (r.entries.map (·.1)).Nodup
  entry : ∀ key c, r.entry? key = some c →
    c.count = held.countP (fun x => x.key = key) ∧ 0 < c.count ∧
      ∀ x ∈ held, x.key = key → x.id = c.object
  covered : ∀ x ∈ held, (r.entry? x.key).isSome

namespace Books

theorem empty : Books {} [] := ⟨List.nodup_nil, by simp [ Registry.entry?], by simp⟩

/-- The order of the leases does not count. -/
theorem perm (h : Books r held) (hp : held.Perm held') : Books r held' := by
  refine ⟨h.nodup, fun key c hc => ?_, fun x hx => h.covered x (hp.mem_iff.2 hx)⟩
  obtain ⟨hcount, hpos, hid⟩ := h.entry key c hc
  exact ⟨hcount.trans (hp.countP_eq _), hpos, fun x hx => hid x (hp.mem_iff.2 hx)⟩

/-- A key that has an entry is leased. -/
theorem exists_held (h : Books r held) (hc : r.entry? key = some c) :
    ∃ x ∈ held, x.key = key ∧ x.id = c.object := by
  obtain ⟨hcount, hpos, hid⟩ := h.entry key c hc
  rw [hcount, List.countP_pos_iff] at hpos
  obtain ⟨x, hx, hk⟩ := hpos
  have hk : x.key = key := by simpa using hk
  exact ⟨x, hx, hk, hid x hx hk⟩

theorem entry?_held (h : Books r held) (hx : x ∈ held) :
    ∃ c, r.entry? x.key = some c ∧ c.object = x.id := by
  obtain ⟨c, hc⟩ := Option.isSome_iff_exists.1 (h.covered x hx)
  exact ⟨c, hc, ((h.entry _ c hc).2.2 x hx rfl).symm⟩

theorem entry?_unheld (h : Books r held) (hn : ∀ x ∈ held, x.key ≠ key) : r.entry? key = none := by
  cases hc : r.entry? key with
  | none => rfl
  | some c =>
    obtain ⟨x, hx, hk, -⟩ := h.exists_held hc
    exact absurd hk (hn x hx)

theorem isSome_entry? (h : Books r held) (key : QueryKey) :
    (r.entry? key).isSome ↔ ∃ x ∈ held, x.key = key := by
  constructor
  · intro hc
    obtain ⟨c, hc⟩ := Option.isSome_iff_exists.1 hc
    obtain ⟨x, hx, hk, -⟩ := h.exists_held hc
    exact ⟨x, hx, hk⟩
  · rintro ⟨x, hx, rfl⟩
    exact h.covered x hx

/-- **The count of a key is the number of leases on it.** -/
theorem users (h : Books r held) (key : QueryKey) :
    r.users key = held.countP fun x => x.key = key := by
  unfold Registry.users
  cases hc : r.entry? key with
  | some c => exact (h.entry key c hc).1
  | none =>
    refine (List.countP_eq_zero.2 fun x hx hk => ?_).symm
    have hsome := (h.isSome_entry? key).2 ⟨x, hx, by simpa using hk⟩
    rw [hc] at hsome
    simp at hsome

/-- **The entries are as many as the keys with a lease.** -/
theorem size (h : Books r held) : r.size = (held.map (·.key)).dedup.length := by
  have hperm : (r.entries.map (·.1)).Perm (held.map (·.key)).dedup := by
    refine (List.perm_ext_iff_of_nodup h.nodup (List.nodup_dedup _)).2 fun key => ?_
    rw [Registry.mem_keys, h.isSome_entry?, List.mem_dedup, List.mem_map]
  rw [Registry.size, ← hperm.length_eq, List.length_map]

/-! ## One lease more -/

/-- A key that is leased already is leased once more, on the same instance. -/
theorem acquire_held (h : Books r held) (hx : x ∈ held) (fresh : InstanceId) :
    (r.acquire x.key fresh).2 = x.id := by
  obtain ⟨c, hc, hid⟩ := h.entry?_held hx
  unfold Registry.acquire
  rw [hc]
  exact hid

/-- A key that is not leased gets the instance that is offered. -/
theorem acquire_fresh (h : Books r held) (hn : ∀ x ∈ held, x.key ≠ key) (fresh : InstanceId) :
    (r.acquire key fresh).2 = fresh := by
  unfold Registry.acquire
  rw [h.entry?_unheld hn]

theorem countP_cons (x : Lease) (held : List Lease) (key : QueryKey) :
    (x :: held).countP (fun y => y.key = key) =
      held.countP (fun y => y.key = key) + if key = x.key then 1 else 0 := by
  rw [List.countP_cons]
  by_cases hk : x.key = key
  · simp [hk]
  · simp [hk, Ne.symm hk]

/-- The entry of a key counts one lease more; the other entries stay as they are. -/
theorem cons {r' : Registry} (h : Books r held) (hnodup : (r'.entries.map (·.1)).Nodup)
    (hget : ∀ k, r'.entry? k = if k = x.key then some c else r.entry? k)
    (hcount : c.count = held.countP (fun y => y.key = x.key) + 1)
    (hid : ∀ y ∈ x :: held, y.key = x.key → y.id = c.object) : Books r' (x :: held) := by
  refine ⟨hnodup, fun k ck hk => ?_, fun y hy => ?_⟩
  · rw [hget] at hk
    rw [countP_cons]
    split at hk
    · rename_i hkey
      subst hkey
      rw [← Option.some.inj hk]
      exact ⟨by simp [hcount], by omega, hid⟩
    · rename_i hkey
      obtain ⟨hcount, hpos, hid⟩ := h.entry k ck hk
      refine ⟨by simp [hkey, hcount], hpos, fun y hy hyk => ?_⟩
      rcases List.mem_cons.1 hy with rfl | hy
      · exact absurd hyk.symm hkey
      · exact hid y hy hyk
  · rw [hget]
    split
    · rfl
    · rename_i hkey
      rcases List.mem_cons.1 hy with rfl | hy
      · exact absurd rfl hkey
      · exact h.covered y hy

/-- **A lease that is taken** is counted, in the entry that is there or in a new one. -/
theorem acquire (h : Books r held) (key : QueryKey) (fresh : InstanceId) :
    Books (r.acquire key fresh).1 (⟨key, (r.acquire key fresh).2⟩ :: held) := by
  unfold Registry.acquire
  cases hc : r.entry? key with
  | some c =>
    obtain ⟨hcount, -, hid⟩ := h.entry key c hc
    refine h.cons ?_ (Registry.entry?_setEntry hc c.increment) ?_ fun y hy hyk => ?_
    · rw [Registry.keys_setEntry]
      exact h.nodup
    · exact congrArg (· + 1) hcount
    · rcases List.mem_cons.1 hy with rfl | hy
      · rfl
      · exact hid y hy hyk
  | none =>
    have hnone : ∀ y ∈ held, y.key ≠ key := by
      intro y hy hk
      have hsome := h.covered y hy
      rw [hk, hc] at hsome
      simp at hsome
    refine h.cons ?_ (Registry.entry?_append hc { object := fresh, count := 1 }) ?_ fun y hy hyk => ?_
    · rw [List.map_append]
      refine List.nodup_append.2 ⟨h.nodup, List.nodup_singleton _, fun a ha b hb hab => ?_⟩
      rw [hab, List.mem_singleton.1 hb, Registry.mem_keys, hc] at ha
      simp at ha
    · have hzero : held.countP (fun y => y.key = key) = 0 :=
        List.countP_eq_zero.2 fun y hy hyk => hnone y hy (by simpa using hyk)
      rw [hzero]
    · rcases List.mem_cons.1 hy with rfl | hy
      · rfl
      · exact absurd hyk (hnone y hy)

/-! ## One lease less -/

/-- **A lease that is given up** is taken off its key, or takes the entry with it if there is no
other. -/
theorem release (h : Books r (x :: rest)) : Books (r.release x.key x.id).1 rest ∧
    ((r.release x.key x.id).2 = .last ∧ (∀ y ∈ rest, y.key ≠ x.key) ∨
      (r.release x.key x.id).2 = .kept ∧ ∃ y ∈ rest, y.key = x.key) := by
  obtain ⟨c, hc, hobj⟩ := h.entry?_held List.mem_cons_self
  obtain ⟨hcount, -, hid⟩ := h.entry x.key c hc
  rw [countP_cons, if_pos rfl] at hcount
  -- what concerns other keys stays as it is
  have hother : ∀ k ck, k ≠ x.key → r.entry? k = some ck →
      ck.count = rest.countP (fun y => y.key = k) ∧ 0 < ck.count ∧ ∀ y ∈ rest, y.key = k → y.id = ck.object := by
    intro k ck hk hck
    obtain ⟨hcount, hpos, hid⟩ := h.entry k ck hck
    rw [countP_cons, if_neg hk] at hcount
    exact ⟨hcount, hpos, fun y hy => hid y (List.mem_cons_of_mem _ hy)⟩
  have hdec : c.decrement? = some { c with count := c.count - 1 } := by
    unfold Counted.decrement?
    rw [if_neg (by omega)]
  have hrelease : r.release x.key x.id =
      if c.count - 1 = 0 then (r.remove x.key, .last)
      else (r.setEntry x.key { c with count := c.count - 1 }, .kept) := by
    unfold Registry.release
    rw [hc]
    simp only
    rw [if_neg (fun hne => hne hobj), hdec]
  by_cases hz : c.count - 1 = 0
  · rw [hrelease, if_pos hz]
    have hnone : ∀ y ∈ rest, y.key ≠ x.key := by
      have hzero : rest.countP (fun y => y.key = x.key) = 0 := by omega
      intro y hy hk
      exact List.countP_eq_zero.1 hzero y hy (by simpa using hk)
    refine ⟨⟨?_, fun k ck hk => ?_, fun y hy => ?_⟩, .inl ⟨rfl, hnone⟩⟩
    · exact h.nodup.sublist (List.filter_sublist.map _)
    · rw [Registry.entry?_remove] at hk
      split at hk
      · simp at hk
      · exact hother k ck ‹_› hk
    · rw [Registry.entry?_remove, if_neg (hnone y hy)]
      exact h.covered y (List.mem_cons_of_mem _ hy)
  · rw [hrelease, if_neg hz]
    have hget := Registry.entry?_setEntry hc { c with count := c.count - 1 }
    have hsome : ∃ y ∈ rest, y.key = x.key := by
      have hpos : 0 < rest.countP (fun y => y.key = x.key) := by omega
      obtain ⟨y, hy, hk⟩ := List.countP_pos_iff.1 hpos
      exact ⟨y, hy, by simpa using hk⟩
    refine ⟨⟨?_, fun k ck hk => ?_, fun y hy => ?_⟩, .inr ⟨rfl, hsome⟩⟩
    · rw [Registry.keys_setEntry]
      exact h.nodup
    · rw [hget] at hk
      split at hk
      · rename_i hkey
        rw [← Option.some.inj hk, hkey]
        exact ⟨by simp [hcount], Nat.pos_of_ne_zero hz, fun y hy => hid y (List.mem_cons_of_mem _ hy)⟩
      · exact hother k ck ‹_› hk
    · rw [hget]
      split
      · rfl
      · exact h.covered y (List.mem_cons_of_mem _ hy)

end Books

end QueryClient
