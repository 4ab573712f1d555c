import QueryClient.Proofs.Auth.Events

/-!
# Token managers that are closed

A token manager that has been closed hands out no token any more: its fetches fail, those that begin
later and those that wait for the provider or have an answer that was not looked at.

* `isClosed_close`: closing a manager closes it.
* `AuthRealm.Serves`: a fetch is there, and is one of a manager; `AuthRealm.Serves.step`.
* `AuthRealm.Tokenless`: a fetch has brought no token; `AuthRealm.Tokenless.step`: **of a closed
  manager, it never will.**
-/

namespace QueryClient

variable {r r' : AuthRealm} {id : AuthId} {f g : FetchId}

/-- **A manager that is closed** is closed. -/
theorem isClosed_close (h : id < r.managers.length) : (r.close id).isClosed id := by
  have hclose : (r.closeManager id).isClosed id := by
    unfold AuthRealm.closeManager
    rw [List.getElem?_eq_getElem h]
    simp only
    split
    · rename_i hc
      unfold AuthRealm.isClosed
      rw [List.getElem?_eq_getElem h]
      exact hc
    · have hmodify : (r.modifyManager id fun m =>
          { m with closed := true, listener := none, attached := false, registered := false }).isClosed id := by
        unfold AuthRealm.isClosed
        rw [r.getElem?_modifyManager, if_pos rfl, List.getElem?_eq_getElem h]
        rfl
      split
      · exact ((Keeps.note _ _).trans (Keeps.removeListener _ id) : Keeps [] _ _).closed id hmodify
      · exact hmodify
  exact (Keeps.wake _ : Keeps [] _ _).closed id hclose

/-- A new manager is there. -/
theorem create_lt (r : AuthRealm) (unavailable : Bool) :
    (r.create unavailable).2 < (r.create unavailable).1.managers.length := by
  have hadd : r.managers.length < ({ r with managers := r.managers ++ [{}] } : AuthRealm).managers.length := by
    simp
  unfold AuthRealm.create
  simp only
  split
  · exact hadd
  split
  · exact Nat.lt_of_lt_of_le hadd ((Keeps.arrived _ _).trans (Keeps.wake _)).length
  · exact hadd

namespace AuthRealm

/-- The fetch is there, and is one of the manager. -/
structure Serves (r : AuthRealm) (id : AuthId) (f : FetchId) : Prop where
  lt : f < r.fetches.length
  manager : ∀ y, r.fetches[f]? = some y → y.manager = id

/-- The fetch has brought no token. -/
def Tokenless (r : AuthRealm) (f : FetchId) : Prop :=
  ∀ y token, r.fetches[f]? = some y → y.stage ≠ .ended (.returned (.ok token))

namespace Serves

theorem step (h : r.Serves id f) (ev : AuthEvent) : (r.step ev).Serves id f := by
  refine ⟨Nat.lt_of_lt_of_le h.lt (step_length r ev), fun y hy => ?_⟩
  obtain ⟨st, hbefore, -⟩ := step_moves r ev f y hy
  cases hbefore with
  | there hx hid => exact hid.symm.trans (h.manager _ hx)
  | fresh hnone => exact absurd h.lt (Nat.not_lt.2 (List.getElem?_eq_none_iff.1 hnone))
  | replied hx hid => exact hid.symm.trans (h.manager _ hx)

theorem fetch (r : AuthRealm) (id : AuthId) : (r.fetch id).1.Serves id (r.fetch id).2 := by
  have hget : (r.fetch id).1.fetches[(r.fetch id).2]? = some { manager := id } := List.getElem?_concat_length
  refine ⟨(List.getElem?_eq_some_iff.1 hget).1, fun y hy => ?_⟩
  rw [← Option.some.inj (hget.symm.trans hy)]

theorem fetchNow (r : AuthRealm) (id : AuthId) : (r.fetchNow id).1.Serves id (r.fetchNow id).2 := by
  have hgoes := Goes.runFetch { r with fetches := r.fetches ++ [{ manager := id }] } r.fetches.length
  refine ⟨?_, fun y hy => ?_⟩
  · refine Nat.lt_of_lt_of_eq ?_ hgoes.count.symm
    show r.fetches.length < (r.fetches ++ [_]).length
    rw [List.length_append, List.length_singleton]
    exact Nat.lt_succ_self _
  · obtain ⟨x, hx, hid, -⟩ := hgoes.own y hy
    have hx' : (r.fetches ++ [({ manager := id } : Fetch)])[r.fetches.length]? = some x := hx
    rw [List.getElem?_append_right (Nat.le_refl _), Nat.sub_self] at hx'
    rw [hid, ← Option.some.inj hx']

end Serves

namespace Tokenless

/-- **A closed manager hands out no token.** -/
theorem step (h : r.Tokenless f) (hs : r.Serves id f) (hc : r.isClosed id) (ev : AuthEvent) :
    (r.step ev).Tokenless f := by
  intro y token hy hst
  obtain ⟨st, hbefore, hstep⟩ := step_moves r ev f y hy
  rw [(hs.step ev).manager y hy, hst] at hstep
  -- a fetch of a closed manager ends in a failure, if it has not ended before
  have hrest : st = .ended (.returned (.ok token)) := by
    generalize hend : FetchStage.ended (.returned (.ok token)) = st' at hstep
    cases hstep with
    | rest => rfl
    | absent _ hopen => rw [hc] at hopen; simp at hopen
    | returned hopen => rw [hc] at hopen; simp at hopen
    | called _ _ _ _ _ hasks => exact absurd hend.symm (hasks.ne_ended _)
    | _ => simp at hend
  cases hbefore with
  | there hx => exact h _ token hx hrest
  | fresh => simp at hrest
  | replied => simp at hrest

/-- A fetch that is abandoned brings no token, and others are not concerned. -/
theorem abort (h : r.Tokenless f) (g : FetchId) : (r.abort g).Tokenless f := by
  unfold AuthRealm.abort
  split
  · exact h
  · exact h
  split
  · exact h
  · intro y token hy hst
    have hy' : (r.fetches.modify g fun x => { x with stage := .ended .dropped })[f]? = some y := hy
    rw [List.getElem?_modify] at hy'
    obtain ⟨x, hx, hxy⟩ := Option.map_eq_some_iff.1 hy'
    split at hxy
    · rw [← hxy] at hst
      simp at hst
    · obtain rfl : x = y := hxy
      exact h x token hx hst

end Tokenless

end AuthRealm

end QueryClient
