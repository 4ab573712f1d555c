import Mathlib.Order.OrderIsoNat
import QueryClient.Proofs.Manager.InStep

/-!
# The names of what is kept

A run without the events of one key draws, opens and starts what the other events do, in the same
order. Counting that off gives it the names that it has in the whole run.

* `Grows.next`: a run undoes nothing.
* `BroughtElsewhere`: what the events bring that do not concern the key.
* `Renaming.Fits`: the names are those of what is kept.
* `BroughtElsewhere.instanceKey?`, `BroughtElsewhere.taskKey?`: **what is not brought elsewhere is of the key.**
* `exists_renaming`: **there are names for what is kept.**
-/

namespace QueryClient

variable {key : QueryKey} {m m' M : QueryManager} {b b' : Bench} {t : TaskId} {given : Input}
variable {id : InstanceId} {l : Lending} {ev : ManagerEvent} {es : List ManagerEvent}

/-! ## Runs undo nothing -/

namespace Grows

theorem leases (h : LeaseStep m m') : Grows m m' := by
  have hlen : m.lives.length ≤ m'.lives.length := by
    refine Nat.le_of_not_lt fun hlt => ?_
    -- the last live query is still there
    have hlast := List.getElem?_eq_getElem hlt
    obtain ⟨e', he', -⟩ := h.kept _ _ (QueryManager.executor?_eq_some.2 ⟨_, hlast, rfl⟩)
    obtain ⟨q, hq, -⟩ := QueryManager.executor?_eq_some.1 he'
    exact Nat.lt_irrefl _ (List.getElem?_eq_some_iff.1 hq).1
  rw [h.frame]
  exact ⟨le_rfl, le_rfl, hlen, le_rfl⟩

theorem effect {stored : Bool} (h : Effect t m stored m') : Grows m m' := by
  induction h with
  | refl => exact .refl m
  | @calm b m' m'' _ hc ih =>
    refine ih.trans ?_
    cases hc with
    | note n hn => exact .steady (.note m' n)
    | setTask x hx => exact .steady (.setTask m' t x)
    | spawn x hx => exact .spawn m' x
    | cancel => exact ⟨le_rfl, le_rfl, le_rfl, le_rfl⟩
    | draw s hn hr => exact ⟨hn, hr, le_rfl, le_rfl⟩
    | leases hl => exact .leases hl
    | advance he hl hu hst ht => exact .steady (.setExecutor m' _ _)
  | @start m' m'' _ hs ih =>
    refine ih.trans ?_
    cases hs with
    | @intro id e n r s he hslot hn hr hn' hr' =>
      have hdrawn : Grows m' { m' with supply := s } :=
        ⟨(hn.trans_le hn').le, (hr.trans_le hr').le, le_rfl, le_rfl⟩
      exact (hdrawn.trans (.steady (.setExecutor _ id _))).trans (.spawn _ _)
  | @store m' m'' _ hs ih =>
    refine ih.trans ?_
    cases hs with
    | intro result he hl hu ht => exact .steady (.setExecutor m' _ _)

theorem acts (h : Acts t given b b') : Grows b.manager b'.manager := by
  induction h with
  | refl => exact .refl _
  | tail _ hact ih =>
    obtain ⟨stored, heffect⟩ := hact.effect
    exact ih.trans (.effect heffect)

/-- **A run undoes nothing.** -/
theorem next (h : l.Sound) (ev : ManagerEvent) : Grows l.manager (l.next ev).manager := by
  rcases l.next_manager ev with heq | heq
  · rw [heq]
    obtain ⟨hstart, hacts, hq, -, -⟩ := performed h.ok h.coherent ev
    have hbegun : Grows l.manager _ → Grows l.manager (l.manager.step ev) :=
      fun hg => (hg.trans (.acts hacts)).trans (.queued hq)
    rcases hstart with rfl | rfl
    · exact hbegun (.refl _)
    · exact hbegun ⟨le_rfl, le_rfl, le_rfl, le_rfl⟩
  · rw [heq]
    exact .refl _

end Grows

/-! ## What is kept -/

section BroughtElsewhere

variable {α : Type} {has : QueryManager → α → Prop} {n : α}

/-- What the managers of a run come to have by events that do not concern the key, and what they do not
come to have. -/
def BroughtElsewhere (M : QueryManager) (key : QueryKey) (has : QueryManager → α → Prop) :
    Lending → List ManagerEvent → α → Prop
  | l, [], n => ¬ has l.manager n
  | l, ev :: es, n =>
    (¬ has l.manager n ∧ has (l.next ev).manager n ∧ ¬ ev.Concerns M key l.manager) ∨
      BroughtElsewhere M key has (l.next ev) es n

/-- It is kept what managers have once they have it. -/
def Lasts (has : QueryManager → α → Prop) : Prop := ∀ m m' n, Grows m m' → has m n → has m' n

namespace BroughtElsewhere

theorem not_has (hl : Lasts has) (h : l.Sound) (hk : BroughtElsewhere M key has l es n) : ¬ has l.manager n := by
  induction es generalizing l with
  | nil => exact hk
  | cons ev es ih =>
    rcases hk with ⟨hnot, -, -⟩ | hk
    · exact hnot
    · exact fun hhas => ih (h.next ev) hk (hl _ _ _ (.next h ev) hhas)

/-- What an event brings is kept if it does not concern the key. -/
theorem cons_iff (hl : Lasts has) (h : l.Sound) (hnot : ¬ has l.manager n) (hhas : has (l.next ev).manager n) :
    BroughtElsewhere M key has l (ev :: es) n ↔ ¬ ev.Concerns M key l.manager := by
  constructor
  · rintro (⟨-, -, hev⟩ | hk)
    · exact hev
    · exact absurd hhas (hk.not_has hl (h.next ev))
  · exact fun hev => .inl ⟨hnot, hhas, hev⟩

theorem cons_later (hnot : ¬ has (l.next ev).manager n) :
    BroughtElsewhere M key has l (ev :: es) n ↔ BroughtElsewhere M key has (l.next ev) es n := by
  constructor
  · rintro (⟨-, hhas, -⟩ | hk)
    · exact absurd hhas hnot
    · exact hk
  · exact .inr

theorem of_not_has (hnot : ¬ has (l.after es).manager n) : BroughtElsewhere M key has l es n := by
  induction es generalizing l with
  | nil => exact hnot
  | cons ev es ih => exact .inr (ih hnot)

/-- What is not kept was brought by an event that concerns the key. -/
theorem brought (h : l.Sound) (hM : M = (l.after es).manager) (hnot : ¬ has l.manager n)
    (hk : ¬ BroughtElsewhere M key has l es n) : ∃ (l₁ : Lending) (ev : ManagerEvent), l₁.Sound ∧
      Retains (l₁.next ev).manager M ∧ ev.Concerns M key l₁.manager ∧
      ¬ has l₁.manager n ∧ has (l₁.next ev).manager n := by
  induction es generalizing l with
  | nil => exact absurd hnot hk
  | cons ev es ih =>
    by_cases hhas : has (l.next ev).manager n
    · have hev : ev.Concerns M key l.manager := by
        by_contra hev
        exact hk (.inl ⟨hnot, hhas, hev⟩)
      refine ⟨l, ev, h, ?_, hev, hnot, hhas⟩
      rw [hM]
      exact Retains.after (h.next ev) es
    · exact ih (h.next ev) hM hhas fun hk' => hk (.inr hk')

end BroughtElsewhere

end BroughtElsewhere

/-- The instance is there. -/
def HasInstance (m : QueryManager) (id : InstanceId) : Prop := id < m.lives.length

/-- The task is there. -/
def HasTask (m : QueryManager) (t : TaskId) : Prop := t < m.tasks.length

/-- The number has been drawn. -/
def HasNumber (m : QueryManager) (n : ℤ) : Prop := n ≤ m.supply.number

/-- The request has been drawn. -/
def HasRequest (m : QueryManager) (r : ℕ) : Prop := r ≤ m.supply.request

theorem lasts_instance : Lasts HasInstance := fun _ _ _ hg h => Nat.lt_of_lt_of_le h hg.lives

theorem lasts_task : Lasts HasTask := fun _ _ _ hg h => Nat.lt_of_lt_of_le h hg.tasks

theorem lasts_number : Lasts HasNumber := fun _ _ _ hg h => Int.le_trans h hg.number

theorem lasts_request : Lasts HasRequest := fun _ _ _ hg h => Nat.le_trans h hg.request

namespace BroughtElsewhere

/-- **An instance that is not kept is one of the key.** -/
theorem instanceKey? (h : l.Sound) (hM : M = (l.after es).manager) (hnot : ¬ HasInstance l.manager id)
    (hk : ¬ BroughtElsewhere M key HasInstance l es id) : M.instanceKey? id = some key := by
  obtain ⟨l₁, ev, h₁, hrest, hev, hnot, hhas⟩ := brought h hM hnot hk
  obtain ⟨⟨m₁, hspares, hsettles⟩, -⟩ := h₁.spares hrest hev
  have hnone : l₁.manager.otherLive? key id = none := by
    unfold QueryManager.otherLive?
    rw [List.getElem?_eq_none_iff.2 (Nat.not_lt.1 hnot)]
    rfl
  -- there was none before, and the event brings none of another key
  have hown : (l₁.next ev).manager.otherLive? key id = none := by
    rw [hsettles.queued.frame]
    exact hspares.own_live hnone
  have hq := List.getElem?_eq_getElem hhas
  rw [hrest.instanceKey? (QueryManager.executor?_eq_some.2 ⟨_, hq, rfl⟩)]
  exact congrArg some (Spares.otherLive?_eq_none.1 hown _ hq)

/-- **A task that is not kept is one of the key.** -/
theorem taskKey? (h : l.Sound) (hM : M = (l.after es).manager) (hnot : ¬ HasTask l.manager t)
    (hk : ¬ BroughtElsewhere M key HasTask l es t) : M.taskKey? t = some key := by
  obtain ⟨l₁, ev, h₁, hrest, hev, hnot, hhas⟩ := brought h hM hnot hk
  obtain ⟨⟨m₁, hspares, hsettles⟩, -⟩ := h₁.spares hrest hev
  have hnone : l₁.manager.otherTask? M.instanceKey? key t = none := by
    unfold QueryManager.otherTask?
    rw [List.getElem?_eq_none_iff.2 (Nat.not_lt.1 hnot)]
    rfl
  have hsame : (l₁.next ev).manager.otherTask? M.instanceKey? key t = none := by
    rw [hsettles.queued.frame]
    exact (congrFun hspares.tasks t).trans hnone
  have hx := List.getElem?_eq_getElem hhas
  generalize (l₁.next ev).manager.tasks[t] = x at hx
  have hown : (l₁.next ev).manager.concernsOther M.instanceKey? key x = false := by
    unfold QueryManager.otherTask? at hsame
    rw [hx] at hsame
    simpa using hsame
  rw [hrest.taskKey? hx]
  cases x with
  | attempt id n =>
    obtain ⟨e, he, -⟩ := (h₁.next ev).coherent.tasks t _ hx
    have hid : (l₁.next ev).manager.otherLive? key id = none := by simpa using hown
    show M.instanceKey? id = some key
    rw [hrest.instanceKey? he, Spares.key_eq hid he]
  | caller c =>
    have haddr : c.addressee.key? M.instanceKey? = some key := by simpa using hown
    exact haddr
  | subscription s =>
    have hkey : s.lease.key = key := by simpa using hown
    exact congrArg some hkey

end BroughtElsewhere

/-! ## Names for what is kept -/

theorem exists_embedding {S : ℕ → Prop} {bound : ℕ} (hS : ∀ n, bound ≤ n → S n) :
    ∃ f : ℕ ↪o ℕ, ∀ n, (∃ k, f k = n) ↔ S n := by
  classical
  have hinfinite : {n | S n}.Infinite :=
    Set.infinite_of_forall_exists_gt fun n => ⟨max bound (n + 1), hS _ (le_max_left ..), by omega⟩
  have : Infinite {n | S n} := hinfinite.to_subtype
  exact ⟨Nat.orderEmbeddingOfSet {n | S n},
    fun n => Set.ext_iff.1 (Nat.orderEmbeddingOfSet_range {n | S n}) n⟩

/-- The integers that are not positive keep their names. -/
theorem exists_embedding_int {S : ℤ → Prop} (hzero : ∀ z ≤ 0, S z) {bound : ℤ} (hS : ∀ z, bound ≤ z → S z) :
    ∃ f : ℤ ↪o ℤ, (∀ z, z ≤ 0 ↔ f z ≤ 0) ∧ ∀ z, (∃ k, f k = z) ↔ S z := by
  obtain ⟨f, hf⟩ := @exists_embedding (fun n => S n) bound.toNat fun n hn => hS n (by omega)
  have hleast : f 0 = 0 := by
    obtain ⟨k, hk⟩ := (hf 0).2 (hzero 0 le_rfl)
    have hle : f 0 ≤ f k := f.le_iff_le.2 (Nat.zero_le k)
    omega
  have hpos : ∀ n, 0 < n → 0 < f n := fun n hn => by
    have hlt : f 0 < f n := f.lt_iff_lt.2 hn
    omega
  -- the positive ones are counted off as natural numbers
  have hmono : StrictMono fun z : ℤ => if z ≤ 0 then z else (f z.toNat : ℤ) := by
    intro y z hyz
    dsimp only
    split_ifs with hy hz hz
    · exact hyz
    · have := hpos z.toNat (by omega)
      omega
    · omega
    · have hlt : f y.toNat < f z.toNat := f.lt_iff_lt.2 (by omega)
      omega
  refine ⟨OrderEmbedding.ofStrictMono _ hmono, fun z => ?_, fun z => ?_⟩
  · show z ≤ 0 ↔ (if z ≤ 0 then z else (f z.toNat : ℤ)) ≤ 0
    split_ifs with hz
    · exact Iff.rfl
    · have := hpos z.toNat (by omega)
      omega
  show (∃ k, (if k ≤ 0 then k else (f k.toNat : ℤ)) = z) ↔ S z
  constructor
  · rintro ⟨k, rfl⟩
    split_ifs with hk
    · exact hzero k hk
    · exact (hf _).1 ⟨_, rfl⟩
  · intro hz
    by_cases hneg : z ≤ 0
    · exact ⟨z, if_pos hneg⟩
    · have hnat : (z.toNat : ℤ) = z := Int.toNat_of_nonneg (by omega)
      obtain ⟨k, hk⟩ := (hf z.toNat).2 (by rw [hnat]; exact hz)
      have hk' : ¬ (k : ℤ) ≤ 0 := fun hle => by
        obtain rfl : k = 0 := by omega
        omega
      refine ⟨k, ?_⟩
      rw [if_neg hk', Int.toNat_natCast, hk, hnat]

/-- **The names are those of what is kept.** -/
structure Renaming.Fits (g : Renaming) (M : QueryManager) (key : QueryKey) (l : Lending)
    (es : List ManagerEvent) : Prop where
  number : ∀ n, ¬ HasNumber l.manager n → ((∃ k, g.number k = n) ↔ BroughtElsewhere M key HasNumber l es n)
  request : ∀ r, ¬ HasRequest l.manager r → ((∃ k, g.request k = r) ↔ BroughtElsewhere M key HasRequest l es r)
  inst : ∀ id, ¬ HasInstance l.manager id → ((∃ i, g.inst i = id) ↔ BroughtElsewhere M key HasInstance l es id)
  task : ∀ u, ¬ HasTask l.manager u → ((∃ t, g.task t = u) ↔ BroughtElsewhere M key HasTask l es u)

namespace Renaming.Fits

variable {g : Renaming}

theorem next (hf : g.Fits M key l (ev :: es)) (h : l.Sound) : g.Fits M key (l.next ev) es := by
  have hg := Grows.next h ev
  exact ⟨fun n hn => (hf.number n (mt (lasts_number _ _ n hg) hn)).trans (BroughtElsewhere.cons_later hn),
    fun r hr => (hf.request r (mt (lasts_request _ _ r hg) hr)).trans (BroughtElsewhere.cons_later hr),
    fun i hi => (hf.inst i (mt (lasts_instance _ _ i hg) hi)).trans (BroughtElsewhere.cons_later hi),
    fun u hu => (hf.task u (mt (lasts_task _ _ u hg) hu)).trans (BroughtElsewhere.cons_later hu)⟩

/-- What an event brings that does not concern the key has a name. -/
theorem covers (hf : g.Fits M key l (ev :: es)) (h : l.Sound) (hev : ¬ ev.Concerns M key l.manager) :
    g.Covers l.manager (l.next ev).manager := by
  refine ⟨⟨fun n hn hle => ?_, fun r hr hle => ?_⟩, fun i hi hlt => ?_, fun u hu hlt => ?_⟩
  · have hnew : ¬ HasNumber l.manager n := not_le_of_gt hn
    exact (hf.number n hnew).2 ((BroughtElsewhere.cons_iff lasts_number h hnew hle).2 hev)
  · have hnew : ¬ HasRequest l.manager r := not_le_of_gt hr
    exact (hf.request r hnew).2 ((BroughtElsewhere.cons_iff lasts_request h hnew hle).2 hev)
  · have hnew : ¬ HasInstance l.manager i := not_lt_of_ge hi
    exact (hf.inst i hnew).2 ((BroughtElsewhere.cons_iff lasts_instance h hnew hlt).2 hev)
  · have hnew : ¬ HasTask l.manager u := not_lt_of_ge hu
    exact (hf.task u hnew).2 ((BroughtElsewhere.cons_iff lasts_task h hnew hlt).2 hev)

/-- What an event brings that concerns the key has none. -/
theorem avoids (hf : g.Fits M key l (ev :: es)) (h : l.Sound) (hev : ev.Concerns M key l.manager) :
    g.Avoids l.manager (l.next ev).manager := by
  refine ⟨fun k hk hle => ?_, fun k hk hle => ?_, fun i hi hlt => ?_, fun t ht hlt => ?_⟩
  · have hnew : ¬ HasNumber l.manager (g.number k) := not_le_of_gt hk
    exact (BroughtElsewhere.cons_iff lasts_number h hnew hle).1 ((hf.number _ hnew).1 ⟨k, rfl⟩) hev
  · have hnew : ¬ HasRequest l.manager (g.request k) := not_le_of_gt hk
    exact (BroughtElsewhere.cons_iff lasts_request h hnew hle).1 ((hf.request _ hnew).1 ⟨k, rfl⟩) hev
  · have hnew : ¬ HasInstance l.manager (g.inst i) := not_lt_of_ge hi
    exact (BroughtElsewhere.cons_iff lasts_instance h hnew hlt).1 ((hf.inst _ hnew).1 ⟨i, rfl⟩) hev
  · have hnew : ¬ HasTask l.manager (g.task t) := not_lt_of_ge ht
    exact (BroughtElsewhere.cons_iff lasts_task h hnew hlt).1 ((hf.task _ hnew).1 ⟨t, rfl⟩) hev

end Renaming.Fits

/-- **There are names for what is kept** of a run. -/
theorem exists_renaming (M : QueryManager) (key : QueryKey) (es : List ManagerEvent) :
    ∃ g : Renaming, g.Level {} {} ∧ g.Fits M key {} es := by
  have hbeyond : ∀ {α : Type} {has : QueryManager → α → Prop} {n : α},
      ¬ has (({} : Lending).after es).manager n → BroughtElsewhere M key has {} es n := fun hn => .of_not_has hn
  obtain ⟨number, hsign, hnumber⟩ := @exists_embedding_int
    (fun n => n ≤ 0 ∨ BroughtElsewhere M key HasNumber {} es n) (fun n hn => .inl hn)
    ((({} : Lending).after es).manager.supply.number + 1)
    fun n hn => .inr (hbeyond (not_le_of_gt (Int.lt_of_add_one_le hn)))
  obtain ⟨request, hrequest⟩ := @exists_embedding
    (fun r => r ≤ 0 ∨ BroughtElsewhere M key HasRequest {} es r)
    ((({} : Lending).after es).manager.supply.request + 1)
    fun r hr => .inr (hbeyond (not_le_of_gt (Nat.lt_of_succ_le hr)))
  obtain ⟨inst, hinst⟩ := exists_embedding (S := BroughtElsewhere M key HasInstance {} es)
    fun i hi => hbeyond (not_lt_of_ge hi)
  obtain ⟨task, htask⟩ := exists_embedding (S := BroughtElsewhere M key HasTask {} es)
    fun u hu => hbeyond (not_lt_of_ge hu)
  have hfirst : request 0 = 0 := by
    obtain ⟨k, hk⟩ := (hrequest 0).2 (.inl le_rfl)
    have hle : request 0 ≤ request k := request.le_iff_le.2 (Nat.zero_le k)
    omega
  -- before the run begins no number is drawn but those that keep their names
  refine ⟨⟨number, request, inst, task⟩, ⟨hsign, fun k => ?_⟩, ⟨fun n hn => ?_, fun r hr => ?_,
    fun i _ => hinst i, fun u _ => htask u⟩⟩
  · have hle : request k ≤ request 0 ↔ k ≤ 0 := request.le_iff_le
    rw [hfirst] at hle
    exact hle.symm
  · exact (hnumber n).trans ⟨fun h => h.resolve_left hn, .inr⟩
  · exact (hrequest r).trans ⟨fun h => h.resolve_left hr, .inr⟩

end QueryClient
