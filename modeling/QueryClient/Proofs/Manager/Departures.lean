import QueryClient.Proofs.Executor.Leaving
import QueryClient.Proofs.Manager.Absent
import QueryClient.Proofs.Manager.InStep
import QueryClient.Proofs.Manager.Winding

/-!
# What a departure changes

A caller that waits leaves one of two managers, and later gets its result in the other. Neither changes what
they have in common: only a lease is given up, of which there is another one on the key.

* `QueryManager.Undying`: no attempt has died or is about to; `Lending.Undisturbed` for managers in a run.
* `QueryManager.Covers`: there is a lease on every key that some callers were interested in.
* `QueryManager.withdraw`: a caller ends and gives up a lease that is not the only one on its key.
* `Absent.leave`: **a caller leaves one of the managers.**
* `Absent.stay`: **a caller that has left one of them runs in the other.**
-/

namespace QueryClient

variable {m' m m₁ : QueryManager} {b b' : Bench} {t u : TaskId} {gone : List TaskId} {due : QueryKey → ℕ}
variable {given : Input} {id : InstanceId} {e : Executor} {c : Caller} {n : Int} {x : Option Lease}
variable {ev : ManagerEvent} {l : Lending} {leases : List Lease} {rest : List TaskId}

/-! ## Attempts that do not die -/

/-- The backend does not panic. -/
def ManagerEvent.KillsNone (ev : ManagerEvent) : Prop := ∀ t text, ¬ ev.Answers t (.panicked text)

/-- **No attempt has died** or is about to. -/
def QueryManager.Undying (m : QueryManager) : Prop := ∀ id e, m.executor? id = some e → e.Undying

theorem Act.calm (h : Act t given b b') (hr : Registered b.manager) (hg : ∀ text, given.reply ≠ some (.panicked text))
    (hc : b.manager.Undying) : b'.manager.Undying := by
  intro id e' he' a' ha'
  cases h.attempt_cases hr he' ha' with
  | same he ha => exact hc id _ he a' ha
  | started he hst hreq hn htask => exact ⟨by simp [hst], by simp [hst]⟩
  | moved he ha hmove heq =>
    subst heq
    cases hmove with
    | call hst hopen htask hnote => exact ⟨by simp, by simp⟩
    | reply hst htask hreply => exact ⟨by simp, fun text heq => hg text (by rw [hreply, Stage.answered.inj heq])⟩
    | die hst hopen => exact absurd hst ((hc id _ he _ ha).2 _)
    | settle hcause => exact ⟨by simp, by simp⟩

theorem Acts.calm (h : Acts t given b b') (hr : Coherent b.manager) (hok : ManagerOK b.manager)
    (hg : ∀ text, given.reply ≠ some (.panicked text)) (hc : b.manager.Undying) : b'.manager.Undying := by
  induction h with
  | refl => exact hc
  | tail hacts hact ih => exact hact.calm (Acts.coherent hacts hr hok).registered hg ih

/-- **No attempt dies** as long as the backend does not panic. -/
theorem QueryManager.Undying.step (h : m.Undying) (hok : ManagerOK m) (hc : Coherent m) (hev : ev.KillsNone) :
    (m.step ev).Undying := by
  obtain ⟨hstart, hacts, hqueued, -, hgives⟩ := performed hok hc ev
  rename_i t given m₀ m₁ x y fault
  have hg : ∀ text, given.reply ≠ some (.panicked text) := fun text hreply =>
    hev t text (hgives.reply _ hreply).1
  have hdone : m₁.Undying := by
    rcases hstart with rfl | rfl
    · exact Acts.calm hacts hc hok hg h
    · exact Acts.calm hacts hc.taken hok.taken hg h
  rw [hqueued.frame]
  exact hdone

/-- **A manager in a run in which the backend does not panic.** -/
structure Lending.Undisturbed (l : Lending) : Prop where
  sound : l.Sound
  awake : Awake l.manager
  calm : l.manager.Undying

namespace Lending.Undisturbed

theorem init : Undisturbed {} := ⟨.init, .init {}, fun id e he => by simp [QueryManager.executor?] at he⟩

theorem next (h : l.Undisturbed) (hev : ev.KillsNone) : (l.next ev).Undisturbed := by
  have hsound := h.sound.next ev
  rcases l.next_manager ev with heq | heq
  · refine ⟨hsound, ?_, ?_⟩ <;> rw [heq]
    · exact h.awake.step h.sound.coherent ev
    · exact h.calm.step h.sound.ok h.sound.coherent hev
  · rw [heq]
    exact h

end Lending.Undisturbed

/-! ## What is owed -/

theorem owed_append (m : QueryManager) (gone more : List TaskId) :
    m.owed (gone ++ more) = fun key => m.owed gone key + m.owed more key := by
  funext key
  exact List.countP_append

theorem owed_singleton (m : QueryManager) (u : TaskId) (key : QueryKey) :
    m.owed [u] key = if (m.leaseOf? u).any fun x => x.key = key then 1 else 0 := by
  unfold QueryManager.owed
  rw [List.countP_cons, List.countP_nil, Nat.zero_add]

theorem owed_singleton_some {y : Lease} (h : m.leaseOf? u = some y) : m.owed [u] = Registry.oneOn y.key := by
  funext key
  rw [owed_singleton, h]
  unfold Registry.oneOn
  simp [eq_comm]

theorem owed_singleton_none (h : m.leaseOf? u = none) : m.owed [u] = fun _ => 0 := by
  funext key
  rw [owed_singleton, h]
  rfl

/-- One of them gives its lease up. -/
theorem owed_given_up (hnodup : gone.Nodup) (hu : u ∈ gone) (hnone : m₁.leaseOf? u = none)
    (hothers : ∀ v, v ≠ u → m₁.leaseOf? v = m.leaseOf? v) :
    m.owed gone = fun key => m.owed [u] key + m₁.owed gone key := by
  funext key
  have hperm : ∀ m : QueryManager, m.owed gone key = m.owed [u] key + m.owed (gone.erase u) key := fun m => by
    have happend := congrFun (owed_append m [u] (gone.erase u)) key
    rw [← happend]
    exact (List.perm_cons_erase hu).countP_eq _
  have hrest : m₁.owed (gone.erase u) key = m.owed (gone.erase u) key := by
    refine List.countP_congr fun v hv => ?_
    rw [hothers v fun hvu => (List.Nodup.mem_erase_iff hnodup).1 hv |>.1 hvu]
  rw [hperm m, hperm m₁, hrest, owed_singleton_none hnone, Nat.zero_add]

/-- The key that the caller of the given name is interested in. -/
def QueryManager.callerKey? (m : QueryManager) (u : TaskId) : Option QueryKey :=
  match m.tasks[u]? with
  | some (.caller c) => c.key?
  | _ => none

/-- **There is a lease on every key** that these callers were interested in. -/
def QueryManager.Covers (m : QueryManager) (gone : List TaskId) : Prop :=
  ∀ u ∈ gone, ∀ key ∈ m.callerKey? u, 0 < m.registry.users key

instance (m : QueryManager) (gone : List TaskId) : Decidable (m.Covers gone) :=
  inferInstanceAs (Decidable (∀ u ∈ gone, ∀ key ∈ m.callerKey? u, 0 < m.registry.users key))

/-- A caller waits with a lease on its query's key. -/
theorem key?_of_lease {y : Lease} (hc : Coherent m) (htask : m.tasks[u]? = some (.caller c))
    (hy : c.lease? = some y) : c.key? = some y.key := by
  unfold Caller.lease? at hy
  split at hy
  · rename_i id n x hst
    subst hy
    obtain ⟨hasks, -⟩ := (hc.caller htask).waiting id n _ hst
    cases hasks with
    | leased haddr hkey he hk =>
      unfold Caller.key?
      rw [haddr, hkey]
  · simp at hy

/-- The task is that of a caller who was interested in the same. -/
def SameCaller (m₁ m : QueryManager) (u : TaskId) : Prop :=
  ∃ c₁ c, m₁.tasks[u]? = some (.caller c₁) ∧ m.tasks[u]? = some (.caller c) ∧ c₁.addressee = c.addressee

/-- Whatever is owed is owed on a key that is covered. -/
theorem QueryManager.Covers.lent (h : m₁.Covers gone) (hc : Coherent m)
    (hsame : ∀ u ∈ gone, SameCaller m₁ m u) : m₁.registry.Lent (m.owed gone) := by
  intro key hkey
  obtain ⟨u, hu, hlease⟩ := List.countP_pos_iff.1 hkey
  obtain ⟨c₁, c, htask₁, htask, haddr⟩ := hsame u hu
  rw [leaseOf?_of_task htask, Option.any_eq_true] at hlease
  obtain ⟨y, hy, hyk⟩ := hlease
  have hkey₁ : m₁.callerKey? u = c.key? := by
    unfold QueryManager.callerKey? Caller.key?
    simp only [htask₁, haddr]
  refine h u hu key ?_
  rw [hkey₁, key?_of_lease hc htask hy, of_decide_eq_true hyk]
  exact Option.mem_some_self key

/-- What a caller was interested in stays. -/
theorem SameCaller.later (h : SameCaller m' m u) (hkeeps : Retains m' m₁) : SameCaller m₁ m u := by
  obtain ⟨c', c, htask', htask, haddr⟩ := h
  obtain ⟨y, hy, hsame⟩ := hkeeps.tasks u _ htask'
  cases hsame with
  | caller haddr' hend => exact ⟨_, c, hy, htask, haddr'.trans haddr⟩

theorem Absent.sameCaller (h : Absent gone due m' m) (hu : u ∈ gone) : SameCaller m' m u := by
  have hdeparted := h.departed u hu
  unfold SameCaller
  generalize m'.tasks[u]? = x' at hdeparted
  generalize m.tasks[u]? = x at hdeparted
  obtain ⟨haddr, -, -⟩ := hdeparted
  exact ⟨_, _, rfl, rfl, haddr⟩

/-! ## Giving up a lease that others hold, too -/

/-- **A lease that is given up** is left out of the books, and nothing else changes. -/
theorem releaseLease?_kept (hb : Books m.registry (m.taskLeases ++ leases)) (htask : m.tasks[u]? = some (.caller c))
    (hmore : ∀ y, c.lease? = some y → 1 < m.registry.users y.key) :
    m.releaseLease? c.lease? = ({ m with registry := m.registry.lessen (m.owed [u]) }, none) := by
  have hlease : m.leaseOf? u = c.lease? := leaseOf?_of_task htask
  cases hy : c.lease? with
  | none =>
    have hsame : m.registry.lessen (m.owed [u]) = m.registry := by
      rw [owed_singleton_none (hlease.trans hy)]
      unfold Registry.lessen Registry.lessEntry
      simp
    rw [hsame]
    rfl
  | some y =>
    have hmem : y ∈ m.taskLeases ++ leases := List.mem_append_left _ (Lending.Sound.mem_taskLeases htask hy)
    obtain ⟨cnt, hcnt, hid⟩ := hb.entry?_held hmem
    have hcount : 1 < cnt.count := by
      have husers := hmore y hy
      unfold Registry.users at husers
      rwa [hcnt] at husers
    have hrelease := Registry.release_lent hb.nodup hcnt hid hcount
    rw [owed_singleton_some (hlease.trans hy)]
    show m.releaseLease y = _
    unfold QueryManager.releaseLease
    rw [hrelease]
    rfl

/-- There was another lease if there still is one. -/
theorem lt_users_of_release {y : Lease} (hb : Books m.registry leases) (hy : y ∈ leases)
    (h : 0 < Registry.users (m.releaseLease y).1.registry y.key) : 1 < m.registry.users y.key := by
  obtain ⟨cnt, hcnt, hid⟩ := hb.entry?_held hy
  by_contra hle
  have hcount : cnt.count ≤ 1 := by
    unfold Registry.users at hle
    rw [hcnt] at hle
    exact Nat.le_of_not_lt hle
  rw [registry_releaseLease, Registry.users_release_last hcnt hid hcount] at h
  exact Nat.lt_irrefl 0 h

/-- **A caller ends and gives its lease up,** which is not the only one on its key. -/
def QueryManager.withdraw (m : QueryManager) (u : TaskId) (c : Caller) (ending : Ending NumberedOutcome) :
    QueryManager :=
  { m with registry := m.registry.lessen (m.owed [u]) }.endCaller u c ending

theorem getElem?_withdraw (htask : m.tasks[u]? = some (.caller c)) (ending : Ending NumberedOutcome) (v : TaskId) :
    (m.withdraw u c ending).tasks[v]? =
      if u = v then some (.caller { c with stage := .ended ending }) else m.tasks[v]? :=
  getElem?_setTask htask _ v

/-- Only its end is noted. -/
theorem filter_withdraw (m : QueryManager) (c : Caller) (ending : Ending NumberedOutcome) (hu : u ∈ gone) :
    ((m.withdraw u c ending).journal.filter fun n => !n.endsOne gone) = m.journal.filter fun n => !n.endsOne gone := by
  have hlast : ([Note.ended u ending].filter fun n => !n.endsOne gone) = [] := by simp [Note.endsOne, hu]
  show (m.journal ++ [Note.ended u ending]).filter _ = _
  rw [List.filter_append, hlast, List.append_nil]

/-! ## A caller leaves -/

/-- A caller leaves that waits with a lease, and there is another lease on the key afterwards. -/
theorem abort_kept (hb : Books m.registry (m.taskLeases ++ leases)) (htask : m.tasks[u]? = some (.caller c))
    (hst : c.stage = .waiting id n x) (hlent : ∀ y, x = some y → 0 < (m.abort u).registry.users y.key) :
    m.abort u = (m.withdraw u c .dropped).wake := by
  obtain rfl : c.lease? = x := by simp only [Caller.lease?, hst]
  have habort : m.abort u = ((m.releaseLease? c.lease?).1.endCaller u c
      ((m.releaseLease? c.lease?).2.elim .dropped .panicked)).wake := by
    unfold QueryManager.abort
    simp only [htask, hst]
  have hkept := releaseLease?_kept hb htask fun y hy => by
    have hmem : y ∈ m.taskLeases ++ leases := List.mem_append_left _ (Lending.Sound.mem_taskLeases htask hy)
    have hpos := hlent y hy
    rw [habort, registry_wake, hy] at hpos
    exact lt_users_of_release hb hmem hpos
  rw [habort, hkept]
  rfl

/-- More tasks are left out. -/
theorem filter_notMem_append (gone more queue : List TaskId) :
    queue.filter (fun t => t ∉ gone ++ more) =
      (queue.filter fun t => t ∉ gone).filter fun t => t ∉ more := by
  rw [List.filter_filter]
  refine List.filter_congr fun t _ => ?_
  simp only [List.mem_append, not_or, Bool.decide_and, Bool.and_comm]

theorem filter_endsOne_append (gone more : List TaskId) (journal : List Note) :
    (journal.filter fun n => !n.endsOne (gone ++ more)) =
      (journal.filter fun n => !n.endsOne gone).filter fun n => !n.endsOne more := by
  rw [List.filter_filter]
  refine List.filter_congr fun n _ => ?_
  cases n with
  | ended t ending => simp [Note.endsOne, Bool.and_comm]
  | _ => rfl

namespace Absent

/-- Who has not left holds the same lease in both. -/
theorem owed_eq (h : Absent gone due m' m) (hu : u ∉ gone) : m'.owed [u] = m.owed [u] :=
  owed_congr fun v hv => by rw [List.mem_singleton.1 hv, h.others u hu]

/-- One more caller has given up its lease, and ended. -/
theorem depart (h : Absent gone due m' m) (hu : u ∉ gone) (htask : m'.tasks[u]? = some (.caller c))
    (hst : c.stage ≠ .arriving) (ending : Ending NumberedOutcome)
    (hlent : (m'.withdraw u c ending).registry.Lent (m.owed (gone ++ [u]))) :
    Absent (gone ++ [u]) (m.owed (gone ++ [u])) (m'.withdraw u c ending) m := by
  refine ⟨h.supply, h.cancelled, h.lives, rfl, ?_, hlent, ?_, fun v hv => ?_, fun v hv => ?_, ?_, ?_⟩
  · show Registry.lessen m'.registry _ = _
    rw [h.owed_eq hu, h.registry, Registry.lessen_lessen, owed_append, h.owes]
  · exact (List.length_set ..).trans h.length
  · rw [List.mem_append, List.mem_singleton, not_or] at hv
    rw [getElem?_withdraw htask, if_neg (Ne.symm hv.2)]
    exact h.others v hv.1
  · rw [getElem?_withdraw htask]
    split
    · rename_i huv
      rw [← huv, ← h.others u hu, htask]
      exact .intro rfl hst (by simp [Caller.Pending])
    · rename_i huv
      exact h.departed v ((List.mem_append.1 hv).resolve_right fun hv => huv (List.mem_singleton.1 hv).symm)
  · show m'.queue.filter _ = _
    rw [filter_notMem_append, filter_notMem_append, h.queue]
  · rw [filter_withdraw m' c ending (by simp), filter_endsOne_append, filter_endsOne_append, h.journal]

/-- **A caller leaves one of the managers.** -/
theorem leave (h : Absent gone due m' m) (hb : Books m'.registry (m'.taskLeases ++ leases)) (hc : Coherent m)
    (ha : Awake m) (hu : u ∉ gone) (htask : m'.tasks[u]? = some (.caller c)) (hst : c.stage = .waiting id n x)
    (hcovers : (m'.abort u).Covers (gone ++ [u])) (hkeeps : Retains m' (m'.abort u)) :
    Absent (gone ++ [u]) (m.owed (gone ++ [u])) (m'.abort u) m := by
  have htask' : m.tasks[u]? = some (.caller c) := (h.others u hu).symm.trans htask
  have hlent : (m'.abort u).registry.Lent (m.owed (gone ++ [u])) := hcovers.lent hc fun v hv => by
    refine SameCaller.later ?_ hkeeps
    rcases List.mem_append.1 hv with hv | hv
    · exact h.sameCaller hv
    · rw [List.mem_singleton.1 hv]
      exact ⟨c, c, htask, htask', rfl⟩
  have hkept := abort_kept hb htask hst fun y hy => by
    have hlease : m.leaseOf? u = some y := by
      rw [leaseOf?_of_task htask', ← hy]
      simp only [Task.lease?, Caller.lease?, hst]
    refine hlent y.key ?_
    rw [owed_append, owed_singleton_some hlease]
    simp [Registry.oneOn]
  rw [hkept, registry_wake] at hlent
  have hwoken := (h.depart hu htask (by simp [hst]) .dropped hlent).wake
  rw [ha.wake_eq] at hwoken
  rw [hkept]
  exact hwoken

end Absent

/-! ## A caller that has left runs where it has not -/

/-- One who has ended does nothing. -/
theorem runTask_ended (htask : m.tasks[u]? = some (.caller c)) {ending : Ending NumberedOutcome}
    (hst : c.stage = .ended ending) : m.runTask u = m := by
  unfold QueryManager.runTask
  simp only [htask, hst]

theorem abort_ended (htask : m.tasks[u]? = some (.caller c)) {ending : Ending NumberedOutcome}
    (hst : c.stage = .ended ending) : m.abort u = m := by
  unfold QueryManager.abort
  simp only [htask, hst]

/-- A task that cannot go on is taken from the queue. -/
theorem Awake.taken (h : Awake m) (hq : m.queue = u :: rest) (hqueue : m₁.queue = rest)
    (hready : ∀ x, m₁.isReady x = m.isReady x) (hothers : ∀ v, v ≠ u → m₁.tasks[v]? = m.tasks[v]?)
    (hu : ∀ x, m₁.tasks[u]? = some x → m₁.isReady x = false) : Awake m₁ := by
  intro v x hx hr
  by_cases hv : v = u
  · subst hv
    rw [hu x hx] at hr
    simp at hr
  · rw [hothers v hv] at hx
    rw [hready] at hr
    have hmem := h v x hx hr
    rw [hq] at hmem
    rw [hqueue]
    exact (List.mem_cons.1 hmem).resolve_left hv

/-- There is nothing for those who cannot go on. -/
theorem awaitReady_eq_false (h : e.await? n = none) : e.awaitReady n = false := by
  unfold Executor.await? at h
  unfold Executor.awaitReady Executor.stage?
  cases ha : e.attempt? n with
  | none => rfl
  | some a =>
    simp only [ha] at h
    cases hst : a.stage with
    | dead => simp [hst] at h
    | settled o => simp [hst] at h
    | _ => simp [hst]

theorem setTask_self {y : Task} (htask : m.tasks[u]? = some y) : m.setTask u y = m := by
  obtain ⟨hlt, rfl⟩ := List.getElem?_eq_some_iff.1 htask
  unfold QueryManager.setTask
  rw [List.set_getElem_self]

/-- A caller that waits runs: it goes on waiting, or it has its result and gives its lease up. -/
theorem awaitAttempt_cases (hcalm : m.Undying) (hc : Coherent m) (hb : Books m.registry (m.taskLeases ++ leases))
    (htask : m.tasks[u]? = some (.caller c)) (hst : c.stage = .waiting id n x)
    (hmore : ∀ y, x = some y → 1 < m.registry.users y.key) :
    m.isReady (.caller c) = false ∧ m.runTask u = m ∨ ∃ o, m.runTask u = m.withdraw u c (.returned o) := by
  obtain ⟨addressee, block, stage⟩ := c
  obtain rfl : stage = .waiting id n x := hst
  obtain ⟨-, e, he, -⟩ := (hc.caller htask).waiting id n x rfl
  have hrun : m.runTask u = m.awaitAttempt u ⟨addressee, block, .waiting id n x⟩ id n x := by
    unfold QueryManager.runTask
    simp only [htask]
  have hkept : m.releaseLease? x = _ := releaseLease?_kept hb htask hmore
  rw [hrun]
  unfold QueryManager.awaitAttempt
  rw [he]
  simp only
  cases hawait : e.await? n with
  | none =>
    refine .inl ⟨?_, setTask_self htask⟩
    simp only [QueryManager.isReady, he, Option.any_some]
    exact awaitReady_eq_false hawait
  | some res =>
    obtain ⟨e', o, madeUp⟩ := res
    obtain ⟨rfl, rfl⟩ := Executor.await?_alive hawait (hcalm id e he).stage?_ne_dead
    refine .inr ⟨o, ?_⟩
    simp only [QueryManager.setExecutor_self he]
    unfold QueryManager.finishCaller
    simp only [Bool.false_eq_true, if_false, hkept]
    rfl

namespace Absent

/-- **A caller that has left runs** where it has left. -/
theorem skip (h : Absent gone due m' m) (ha : Awake m) (hu : u ∈ gone) (hq : m'.queue = u :: rest) :
    Absent gone due m'.poll m := by
  obtain ⟨c, ending, htask, hst⟩ := h.ended hu
  have hrun : m'.taken.runTask u = m'.taken := runTask_ended htask hst
  have htaken : Absent gone due m'.taken m := by
    refine { h with queue := ?_ }
    rw [← h.queue]
    unfold QueryManager.taken
    rw [hq]
    simp [hu]
  have hwoken := htaken.wake
  rw [ha.wake_eq] at hwoken
  rw [poll_eq hq, hrun]
  exact hwoken

/-- A caller that has left gives its lease up where it has not left, and ends. -/
theorem result (h : Absent gone due m' m) (hnodup : gone.Nodup) (hu : u ∈ gone)
    (htask : m.tasks[u]? = some (.caller c)) (ending : Ending NumberedOutcome) :
    Absent gone ((m.withdraw u c ending).owed gone) m' (m.withdraw u c ending) := by
  have hset := getElem?_withdraw htask ending
  have hnone : (m.withdraw u c ending).leaseOf? u = none := leaseOf?_of_task ((hset u).trans (if_pos rfl))
  have howed : due = fun key => m.owed [u] key + (m.withdraw u c ending).owed gone key := by
    rw [← h.owes]
    refine owed_given_up hnodup hu hnone fun v hv => ?_
    unfold QueryManager.leaseOf?
    rw [hset, if_neg (Ne.symm hv)]
  refine ⟨h.supply, h.cancelled, h.lives, rfl, ?_, fun key hkey => ?_, ?_, fun v hv => ?_, fun v hv => ?_, h.queue, ?_⟩
  · show _ = Registry.lessen (m.registry.lessen (m.owed [u])) _
    rw [Registry.lessen_lessen, h.registry, howed]
  · refine h.lent key ?_
    rw [howed]
    exact Nat.add_pos_right _ hkey
  · exact h.length.trans (List.length_set ..).symm
  · rw [hset, if_neg fun huv : u = v => hv (huv ▸ hu)]
    exact h.others v hv
  · have hdeparted := h.departed v hv
    rw [hset]
    split
    · rename_i huv
      subst huv
      rw [htask] at hdeparted
      generalize m'.tasks[u]? = x' at hdeparted
      obtain ⟨haddr, -, hended⟩ := hdeparted
      exact .intro haddr (by simp) hended
    · exact hdeparted
  · rw [filter_withdraw m c ending hu, h.journal]

/-- A lease that is owed is not the only one on its key. -/
theorem lt_users (h : Absent gone due m' m) (hu : u ∈ gone) {y : Lease} (hlease : m.leaseOf? u = some y) :
    1 < m.registry.users y.key := by
  have howed : 0 < due y.key := by
    rw [← h.owes]
    exact List.countP_pos_iff.2 ⟨u, hu, by rw [hlease]; simp⟩
  have hpos := h.lent y.key howed
  rw [h.registry, Registry.users_lessen] at hpos
  omega

/-- **A caller that has left runs** where it has not left: it goes on waiting, or it has ended, or it has its
result. -/
theorem stay (h : Absent gone due m' m) (hb : Books m.registry (m.taskLeases ++ leases)) (hc : Coherent m)
    (hcalm : m.Undying) (ha : Awake m) (hnodup : gone.Nodup) (hu : u ∈ gone) (hq : m.queue = u :: rest) :
    Absent gone (m.poll.owed gone) m' m.poll ∧ m.poll.queue = rest := by
  obtain ⟨c, htask, hentered⟩ := h.entered hu
  have hqueue : m'.queue.filter (fun t => t ∉ gone) = rest.filter fun t => t ∉ gone := by
    rw [h.queue, hq]
    simp [hu]
  have htail : m.taken.queue = rest := by
    unfold QueryManager.taken
    rw [hq]
    rfl
  have htaken : Absent gone due m' m.taken := by
    refine { h with queue := ?_ }
    rw [hqueue, htail]
  -- nothing is queued once it has run
  have hstill : m.isReady (.caller c) = false → m.taken.runTask u = m.taken →
      Absent gone (m.poll.owed gone) m' m.poll ∧ m.poll.queue = rest := by
    intro hready hrun
    have hawake : Awake m.taken := ha.taken hq htail (fun _ => rfl) (fun _ _ => rfl) fun x hx => by
      obtain rfl : Task.caller c = x := Option.some.inj (htask.symm.trans hx)
      exact hready
    rw [poll_eq hq, hrun, hawake.wake_eq, htaken.owes]
    exact ⟨htaken, htail⟩
  cases hst : c.stage with
  | arriving => exact absurd hst hentered
  | ended ending => exact hstill (by simp [QueryManager.isReady, hst]) (runTask_ended htask hst)
  | waiting id n x =>
    have hlease : m.leaseOf? u = x := by
      rw [leaseOf?_of_task htask]
      simp only [Task.lease?, Caller.lease?, hst]
    have hmore : ∀ y, x = some y → 1 < m.registry.users y.key := fun y hy => h.lt_users hu (hlease.trans hy)
    rcases awaitAttempt_cases (m := m.taken) hcalm hc.taken hb htask hst hmore with ⟨hready, hrun⟩ | ⟨o, hrun⟩
    · exact hstill hready hrun
    · have hdone := htaken.result hnodup hu htask (.returned o)
      have hset := getElem?_withdraw (m := m.taken) htask (.returned o)
      have hawake : Awake (m.taken.withdraw u c (.returned o)) := by
        refine ha.taken hq htail (fun _ => rfl) (fun v hv => (hset v).trans (if_neg (Ne.symm hv))) fun x hx => ?_
        rw [hset, if_pos rfl] at hx
        rw [← Option.some.inj hx]
        rfl
      rw [poll_eq hq, hrun, hawake.wake_eq]
      exact ⟨hdone, htail⟩

end Absent

end QueryClient
