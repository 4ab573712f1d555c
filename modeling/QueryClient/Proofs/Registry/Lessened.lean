import QueryClient.Proofs.Registry.Books

/-!
# Fewer users on the books

The books without some of the leases on a key. As long as there is another lease on the key, whatever is done
to the books comes to the same with and without them.

* `Registry.lessen`: the books without so many leases on each key.
* `Registry.Lent`: there is another lease on each of these keys.
* `Registry.acquire_lessen`, `Registry.release_lessen`: **leases are taken and given up as they would be
  without them.**
* `Registry.release_lent`: a lease that is given up is one of those that are left out.
-/

namespace QueryClient.Registry

variable {r : Registry} {owed : QueryKey → ℕ} {key k : QueryKey} {c : Counted InstanceId} {id : InstanceId}

/-- An entry without the leases on its key. -/
def lessEntry (owed : QueryKey → ℕ) (key : QueryKey) (c : Counted InstanceId) : Counted InstanceId :=
  { c with count := c.count - owed key }

/-- **The books without so many leases on each key.** -/
def lessen (r : Registry) (owed : QueryKey → ℕ) : Registry :=
  { entries := r.entries.map fun e => (e.1, lessEntry owed e.1 e.2) }

/-- There is a lease on each of the keys. -/
def Lent (r : Registry) (owed : QueryKey → ℕ) : Prop := ∀ key, 0 < owed key → 0 < r.users key

/-- One lease on one key. -/
def oneOn (key : QueryKey) : QueryKey → ℕ := fun k => if k = key then 1 else 0

/-- Whoever takes a lease takes none away. -/
theorem Lent.acquire (h : r.Lent owed) (key : QueryKey) (fresh : InstanceId) :
    Registry.Lent (r.acquire key fresh).1 owed := by
  intro k hk
  have hpos := h k hk
  unfold Registry.acquire
  unfold users at hpos ⊢
  cases hc : r.entry? key with
  | some c =>
    simp only
    rw [entry?_setEntry hc]
    split
    · exact Nat.succ_pos _
    · exact hpos
  | none =>
    simp only
    rw [entry?_append hc]
    split
    · exact Nat.one_pos
    · exact hpos

theorem lessen_lessen (r : Registry) (owed more : QueryKey → ℕ) :
    Registry.lessen (r.lessen owed) more = r.lessen fun key => owed key + more key := by
  unfold lessen lessEntry
  simp [Nat.sub_sub]

theorem entry?_lessen (r : Registry) (owed : QueryKey → ℕ) (k : QueryKey) :
    Registry.entry? (r.lessen owed) k = (r.entry? k).map (lessEntry owed k) := by
  unfold entry? lessen
  rw [List.find?_map, Option.map_map, Option.map_map]
  refine Option.map_congr fun e he => ?_
  have hk : e.1 = k := by simpa using List.find?_some he
  simp [hk]

theorem users_lessen (r : Registry) (owed : QueryKey → ℕ) (k : QueryKey) :
    Registry.users (r.lessen owed) k = r.users k - owed k := by
  unfold users
  rw [entry?_lessen]
  cases r.entry? k with
  | none => simp
  | some c => rfl

theorem setEntry_lessen (r : Registry) (owed : QueryKey → ℕ) (key : QueryKey) (c : Counted InstanceId) :
    Registry.lessen (r.setEntry key c) owed = Registry.setEntry (r.lessen owed) key (lessEntry owed key c) := by
  unfold lessen setEntry
  simp only [List.map_map, Registry.mk.injEq]
  refine List.map_congr_left fun e _ => ?_
  by_cases he : e.1 = key
  · simp [he]
  · simp [he]

theorem remove_lessen (r : Registry) (owed : QueryKey → ℕ) (key : QueryKey) :
    Registry.lessen (r.remove key) owed = Registry.remove (r.lessen owed) key := by
  unfold lessen remove
  simp only [List.filter_map, Registry.mk.injEq]
  rfl

/-- What is taken away from the key is less than what is there. -/
theorem Lent.lt_count (h : (r.lessen owed).Lent owed) (hc : r.entry? key = some c) (howed : 0 < owed key) :
    owed key < c.count := by
  have hpos := h key howed
  rw [users_lessen] at hpos
  unfold users at hpos
  rw [hc] at hpos
  exact Nat.lt_of_sub_pos hpos

/-- **Leases are taken as they would be without them.** -/
theorem acquire_lessen (h : (r.lessen owed).Lent owed) (key : QueryKey) (fresh : InstanceId) :
    Registry.acquire (r.lessen owed) key fresh =
      (Registry.lessen (r.acquire key fresh).1 owed, (r.acquire key fresh).2) := by
  unfold acquire
  rw [entry?_lessen]
  cases hc : r.entry? key with
  | some c =>
    have hincrement : (lessEntry owed key c).increment = lessEntry owed key c.increment := by
      unfold lessEntry Counted.increment
      simp only [Counted.mk.injEq, true_and]
      rcases Nat.eq_zero_or_pos (owed key) with hzero | howed
      · omega
      · have hlt := h.lt_count hc howed
        omega
    simp only [Option.map_some, setEntry_lessen, hincrement]
    rfl
  | none =>
    -- none of the leases is on the key
    have hzero : owed key = 0 := by
      by_contra hne
      have hpos := h key (Nat.pos_of_ne_zero hne)
      rw [users_lessen] at hpos
      simp [users, hc] at hpos
    have hnew : lessEntry owed key { object := fresh, count := 1 } = { object := fresh, count := 1 } := by
      unfold lessEntry
      rw [hzero]
      rfl
    simp only [Option.map_none]
    unfold lessen
    rw [List.map_append, List.map_singleton, hnew]

/-- One of several users leaves. -/
theorem release_kept (hc : r.entry? key = some c) (hid : c.object = id) (hcount : 1 < c.count) :
    r.release key id = (r.setEntry key { c with count := c.count - 1 }, .kept) := by
  have hne : c.count ≠ 0 := by omega
  have hne' : c.count - 1 ≠ 0 := by omega
  unfold release
  simp [hc, hid, Counted.decrement?, hne, hne']

/-- Nobody is left once the last user has left. -/
theorem users_release_last (hc : r.entry? key = some c) (hid : c.object = id) (hcount : c.count ≤ 1) :
    Registry.users (r.release key id).1 key = 0 := by
  unfold release
  simp only [hc, hid, ne_eq, not_true_eq_false, if_false]
  unfold Counted.decrement?
  by_cases hzero : c.count = 0
  · simp [hzero, users, hc]
  · have hone : c.count - 1 = 0 := by omega
    simp only [hzero, if_false, hone, if_true]
    unfold users
    rw [entry?_remove, if_pos rfl]
    rfl

/-- **Leases are given up as they would be without them.** -/
theorem release_lessen (h : (Registry.release (r.lessen owed) key id).1.Lent owed) :
    Registry.release (r.lessen owed) key id =
      (Registry.lessen (r.release key id).1 owed, (r.release key id).2) := by
  have hentry := entry?_lessen r owed key
  cases hc : r.entry? key with
  | none =>
    rw [hc, Option.map_none] at hentry
    unfold release
    rw [hentry, hc]
  | some c =>
    rw [hc, Option.map_some] at hentry
    have hobj : (lessEntry owed key c).object = c.object := rfl
    by_cases hid : c.object = id
    · rcases Nat.eq_zero_or_pos (owed key) with hzero | howed
      · -- none of the leases is on the key
        have hsame : ∀ c : Counted InstanceId, lessEntry owed key c = c := fun c => by
          unfold lessEntry
          rw [hzero]
          rfl
        unfold release
        rw [hentry, hc, hsame]
        simp only
        split
        · rfl
        cases hdec : c.decrement? with
        | none => rfl
        | some c' =>
          simp only
          split
          · rw [remove_lessen]
          · rw [setEntry_lessen, hsame]
      · -- another lease on the key remains, and so does its entry
        have hmore : 1 < (lessEntry owed key c).count := by
          by_contra hle
          have hlast := users_release_last hentry (hobj.trans hid) (Nat.le_of_not_lt hle)
          exact absurd (h key howed) (by rw [hlast]; exact Nat.lt_irrefl 0)
        have hcount : 1 < c.count := Nat.lt_of_lt_of_le hmore (Nat.sub_le _ _)
        rw [release_kept hentry (hobj.trans hid) hmore, release_kept hc hid hcount, setEntry_lessen]
        simp only [lessEntry, Nat.sub_right_comm]
    · unfold release
      simp [hentry, hc, hobj, hid]

/-- **A lease that is given up** is left out, as long as there is another one on its key. -/
theorem release_lent (hnodup : (r.entries.map (·.1)).Nodup) (hc : r.entry? key = some c) (hid : c.object = id)
    (hcount : 1 < c.count) : r.release key id = (r.lessen (oneOn key), .kept) := by
  rw [release_kept hc hid hcount]
  unfold setEntry lessen lessEntry oneOn
  simp only [Prod.mk.injEq, Registry.mk.injEq, and_true]
  refine List.map_congr_left fun e he => ?_
  by_cases hkey : e.1 = key
  · -- the key has no other entry
    have hsame : e.2 = c := by
      unfold entry? at hc
      obtain ⟨e', hfind, rfl⟩ := Option.map_eq_some_iff.1 hc
      have hkey' : e'.1 = key := by simpa using List.find?_some hfind
      have hinj := List.inj_on_of_nodup_map hnodup he (List.mem_of_find?_eq_some hfind) (hkey.trans hkey'.symm)
      rw [hinj]
    simp [hkey, hsame]
  · simp [hkey]

end QueryClient.Registry
