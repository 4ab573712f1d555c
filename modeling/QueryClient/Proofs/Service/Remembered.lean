import QueryClient.Proofs.Service.Premises

/-!
# The services that are remembered

A directory remembers services by their project and connector. Services that were made in other ways may
have the same project and connector; they are not remembered, and closing one of them forgets nothing.

* `Directory.WellFormed`: what is remembered is open, and is remembered by its own key.
* `Directory.obtain_cases`: a service is obtained.
* `Directory.StepsTo`, `Premises.stepsTo`: **what an event does to a directory.**
* `Service.Goes`, `Directory.StepsTo.goes`: what becomes of a service in an event.
* `Directory.WellFormed.stepsTo`: **what is remembered stays in order.**
-/

namespace QueryClient

/-! ## What is remembered -/

namespace Directory

variable {d d' : Directory} {key : ServiceKey} {i j : ServiceId}

/-- **What is remembered** is open, and is remembered by its own key and by no other; every service has a
token manager that is there. -/
structure WellFormed (d : Directory) : Prop where
  entries : ∀ e ∈ d.remembered, ∃ x, d.services[e.2]? = some x ∧ x.closed = false ∧
    x.options.serviceKey = e.1
  keys : (d.remembered.map Prod.fst).Nodup
  auth : ∀ x ∈ d.services, x.auth < d.realm.managers.length

theorem mem_of_find? (h : d.find? key = some i) : (key, i) ∈ d.remembered := by
  obtain ⟨e, he, rfl⟩ := Option.map_eq_some_iff.1 h
  have hkey : e.1 = key := by simpa using List.find?_some he
  rw [← hkey]
  exact List.mem_of_find?_eq_some he

theorem ne_of_find?_eq_none (h : d.find? key = none) : ∀ e ∈ d.remembered, e.1 ≠ key := by
  have hnone := Option.map_eq_none_iff.1 h
  intro e he hkey
  simpa [hkey] using List.find?_eq_none.1 hnone e he

namespace WellFormed

/-- A key is that of one service. -/
theorem unique (h : d.WellFormed) {e e' : ServiceKey × ServiceId} (he : e ∈ d.remembered) (he' : e' ∈ d.remembered)
    (hkey : e.1 = e'.1) : e = e' := List.inj_on_of_nodup_map h.keys he he' hkey

theorem find?_eq (h : d.WellFormed) : d.find? key = some i ↔ (key, i) ∈ d.remembered := by
  refine ⟨mem_of_find?, fun hmem => ?_⟩
  cases hfind : d.find? key with
  | none => exact absurd rfl (ne_of_find?_eq_none hfind _ hmem)
  | some j =>
    have heq := h.unique hmem (mem_of_find? hfind) rfl
    exact congrArg (fun e : ServiceKey × ServiceId => some e.2) heq.symm

/-- A service is remembered by its own key. -/
theorem key_eq (h : d.WellFormed) {x : Service} {e : ServiceKey × ServiceId} (he : e ∈ d.remembered)
    (hx : d.services[e.2]? = some x) : e.1 = x.options.serviceKey := by
  obtain ⟨y, hy, -, hkey⟩ := h.entries e he
  rw [hx] at hy
  rw [← hkey, ← Option.some.inj hy]

/-- **Closing a service** forgets what is remembered of this service, and nothing else. -/
theorem remembered_close (h : d.WellFormed) (i : ServiceId) :
    (d.close i).remembered = d.remembered.filter fun e => e.2 ≠ i := by
  have hnone : (∀ e ∈ d.remembered, e.2 ≠ i) → d.remembered.filter (fun e => e.2 ≠ i) = d.remembered :=
    fun hne => List.filter_eq_self.2 fun e he => by simpa using hne e he
  unfold Directory.close
  split
  · rename_i hx
    refine (hnone fun e he hei => ?_).symm
    obtain ⟨y, hy, -⟩ := h.entries e he
    rw [hei, hx] at hy
    simp at hy
  rename_i x hx
  split
  · rename_i hc
    refine (hnone fun e he hei => ?_).symm
    obtain ⟨y, hy, hopen, -⟩ := h.entries e he
    rw [hei, hx] at hy
    obtain rfl := Option.some.inj hy
    simp [hc] at hopen
  · refine List.filter_congr fun e he => ?_
    by_cases hei : e.2 = i
    · have hkey := h.key_eq he (by rw [hei]; exact hx)
      simp [hei, hkey]
    · simp [hei]

end WellFormed

/-! ## Obtaining a service -/

/-- A new service that is remembered. -/
def enlist (d : Directory) (options : Options) (settings : Settings) : Directory where
  realm := (d.realm.create false).1
  services := d.services ++ [{ options, settings, auth := (d.realm.create false).2, transport := none }]
  remembered := d.remembered ++ [(options.serviceKey, d.services.length)]

/-- **A service is obtained:** the one that is remembered, or a new one. -/
theorem obtain_cases {options : Options} {requested : Option Settings} {environment : Option (List Char)}
    (h : d.obtain options requested environment = .ok (d', i)) :
    (d.find? options.serviceKey = some i ∧ d' = d) ∨
      d.find? options.serviceKey = none ∧ i = d.services.length ∧ ∃ settings,
        settingsFor requested environment = .ok settings ∧ d' = d.enlist options settings := by
  unfold Directory.obtain at h
  split at h
  · rename_i j hfind
    refine .inl ?_
    split at h
    · split at h
      · obtain ⟨rfl, rfl⟩ := Prod.mk.inj (Except.ok.inj h)
        exact ⟨hfind, rfl⟩
      · simp at h
    · obtain ⟨rfl, rfl⟩ := Prod.mk.inj (Except.ok.inj h)
      exact ⟨hfind, rfl⟩
  · rename_i hfind
    obtain ⟨settings, hset, h⟩ := Station.bind_eq_ok h
    obtain ⟨rfl, rfl⟩ := Prod.mk.inj (Except.ok.inj h)
    exact .inr ⟨hfind, rfl, settings, hset, rfl⟩

end Directory

/-- A new token manager comes after those that are there. -/
theorem create_snd (r : AuthRealm) (unavailable : Bool) : (r.create unavailable).2 = r.managers.length := by
  unfold AuthRealm.create
  simp only
  split
  · rfl
  split <;> rfl

/-! ## What an event does to a directory -/

namespace Directory

/-- A service comes in an event, with a token manager of its own or one that it is given. -/
structure Adds (d : Directory) (ev : PremisesEvent) (d' : Directory) (x : Service) : Prop where
  services : d'.services = d.services ++ [x]
  closed : x.closed = false
  managers : d.realm.managers.length ≤ d'.realm.managers.length
  auth : x.auth < d'.realm.managers.length
  own : x.auth = d.realm.managers.length ∨ ∃ options settings, ev = .web options settings x.auth

/-- **What an event does to a directory.** -/
inductive StepsTo (d d' : Directory) : PremisesEvent → Prop where
  /-- Services stay as they are. -/
  | rests {ev : PremisesEvent} (hev : ∀ id sev, ev = .at id sev → d.services.length ≤ id)
      (services : d'.services = d.services)
      (remembered : d'.remembered = d.remembered)
      (managers : d.realm.managers.length ≤ d'.realm.managers.length) : StepsTo d d' ev
  /-- A service comes that is remembered, with a token manager of its own. -/
  | enlists {options : Options} {requested : Option Settings} {environment : Option (List Char)} {x : Service}
      (hnew : d.find? options.serviceKey = none)
      (adds : d.Adds (.obtain options requested environment) d' x) (hkey : x.options = options)
      (own : x.auth = d.realm.managers.length)
      (remembered : d'.remembered = d.remembered ++ [(options.serviceKey, d.services.length)]) :
      StepsTo d d' (.obtain options requested environment)
  /-- A service comes that is not remembered. -/
  | adds {ev : PremisesEvent} {x : Service} (adds : d.Adds ev d' x)
      (hev : ∀ id sev, ev ≠ .at id sev) (remembered : d'.remembered = d.remembered) : StepsTo d d' ev
  /-- A service goes on. -/
  | works {id : ServiceId} {ev : ServiceEvent} {x y : Service} (hev : ev ≠ .close)
      (before : d.services[id]? = some x) (after : d'.services[id]? = some y)
      (count : d'.services.length = d.services.length) (others : ∀ j ≠ id, d'.services[j]? = d.services[j]?)
      (options : y.options = x.options) (auth : y.auth = x.auth) (settings : y.settings = x.settingsAfter ev)
      (closed : y.closed = x.closed) (remembered : d'.remembered = d.remembered)
      (managers : d.realm.managers.length ≤ d'.realm.managers.length) : StepsTo d d' (.at id ev)
  | closes {id : ServiceId} (h : d' = d.close id) : StepsTo d d' (.at id .close)

end Directory

namespace Premises

variable {p : Premises} {id : ServiceId}

/-- What the work of a service does to its directory. -/
theorem turn_at (here : id < p.directory.services.length) (ev : ServiceEvent) :
    p.directory.StepsTo (p.setStation ((p.station id here).next ev)).directory (.at id ev) := by
  have hbefore : p.directory.services[id]? = some (p.station id here).service :=
    (p.station id here).getElem?_service
  show p.directory.StepsTo ((p.station id here).next ev).directory (.at id ev)
  have hafter : ((p.station id here).next ev).id = id →
      ((p.station id here).next ev).directory.services[id]? = some ((p.station id here).next ev).service :=
    fun hid => by
      have hservice := ((p.station id here).next ev).getElem?_service
      rwa [hid] at hservice
  cases hturn : (p.station id here).turns ev with
  | stays hev hset h =>
    refine .works hev hbefore (hafter h.id) h.count h.others h.options h.auth ?_ h.closed h.remembered
      h.managers
    rw [h.settings, hset]
  | routed hset h =>
    refine .works (by simp) hbefore (hafter h.id) ?_ ?_ ?_ ?_ ?_ ?_ h.remembered h.managers
    · exact h.count.trans List.length_set
    · exact fun j hj => (h.others j hj).trans (List.getElem?_set_ne (Ne.symm hj))
    · rw [h.options, Station.service_setService]
    · rw [h.auth, Station.service_setService]
    · rw [h.settings, Station.service_setService, hset]
    · rw [h.closed, Station.service_setService]
  | closes h => exact .closes (congrArg Station.directory h)

/-- **What an event does to the directory.** -/
theorem stepsTo (p : Premises) (ev : PremisesEvent) : p.directory.StepsTo (p.step ev).directory ev := by
  cases ev with
  | obtain options requested environment =>
    have hrests : p.directory.StepsTo p.directory (.obtain options requested environment) :=
      .rests (by simp) rfl rfl (Nat.le_refl _)
    simp only [Premises.step]
    split
    · exact hrests
    rename_i d i hd
    rcases Directory.obtain_cases hd with ⟨-, rfl⟩ | ⟨hnew, -, settings, -, rfl⟩
    · exact hrests
    · have hown := create_snd p.directory.realm false
      refine .enlists hnew ⟨rfl, rfl, ?_, create_lt _ _, .inl hown⟩ rfl hown rfl
      exact (step_mono p.directory.realm (.create false)).1
  | given options =>
    have hadds : p.directory.Adds (.given options) (p.directory.addGiven options).1
        { options, settings := .production, auth := (p.directory.realm.create true).2,
          transport := some .given } :=
      ⟨rfl, rfl, (step_mono p.directory.realm (.create true)).1, create_lt _ _, .inl (create_snd _ _)⟩
    exact .adds hadds (by simp) rfl
  | web options settings auth =>
    simp only [Premises.step]
    split
    · rename_i hauth
      exact .adds ⟨rfl, rfl, Nat.le_refl _, hauth, .inr ⟨options, settings, rfl⟩⟩ (by simp) rfl
    · exact .rests (by simp) rfl rfl (Nat.le_refl _)
  | «at» id ev =>
    simp only [Premises.step]
    split
    · exact turn_at _ ev
    · rename_i hout
      refine .rests (fun id' sev hev => ?_) rfl rfl (Nat.le_refl _)
      obtain ⟨rfl, -⟩ := PremisesEvent.at.inj hev
      exact Nat.not_lt.1 hout
  | auth ev => exact .rests (by simp) rfl rfl (step_mono p.directory.realm ev).1

end Premises

/-! ## What becomes of a service -/

/-- The settings of a service after an event. -/
def Service.settingsIn (x : Service) (j : ServiceId) : PremisesEvent → Settings
  | .at id ev => if id = j then x.settingsAfter ev else x.settings
  | _ => x.settings

/-- **What becomes of a service in an event:** it keeps its options and its token manager, only an event of its
own changes its settings, and only its own end closes it. -/
structure Service.Goes (j : ServiceId) (ev : PremisesEvent) (x y : Service) : Prop where
  options : y.options = x.options
  auth : y.auth = x.auth
  settings : y.settings = x.settingsIn j ev
  closed : y.closed ↔ x.closed ∨ ev = .at j .close

theorem Service.Goes.rests {j : ServiceId} {ev : PremisesEvent} (x : Service) (hev : ∀ sev, ev ≠ .at j sev) :
    Service.Goes j ev x x := by
  refine ⟨rfl, rfl, ?_, by simp [hev]⟩
  cases ev with
  | «at» id sev =>
    have hid : id ≠ j := fun hid => hev sev (hid ▸ rfl)
    simp [settingsIn, hid]
  | _ => rfl

namespace Directory

variable {d d' : Directory} {key : ServiceKey} {i j : ServiceId} {ev : PremisesEvent} {x : Service}

/-- What is closed is shut. -/
theorem getElem?_close (d : Directory) (i j : ServiceId) :
    (d.close i).services[j]? = if j = i then (d.services[j]?).map (fun x => if x.closed then x else x.shut)
      else d.services[j]? := by
  by_cases hji : j = i
  · subst hji
    unfold Directory.close
    cases hx : d.services[j]? with
    | none => simp [hx]
    | some x =>
      cases hc : x.closed with
      | true => simp [hx, hc]
      | false => simp [hc, Directory.set, (List.getElem?_eq_some_iff.1 hx).1]
  · rw [if_neg hji]
    unfold Directory.close
    split
    · rfl
    split
    · rfl
    · exact List.getElem?_set_ne (Ne.symm hji)

theorem length_close (d : Directory) (i : ServiceId) : (d.close i).services.length = d.services.length := by
  unfold Directory.close
  split
  · rfl
  split
  · rfl
  · exact List.length_set

theorem managers_close (d : Directory) (i : ServiceId) :
    d.realm.managers.length ≤ (d.close i).realm.managers.length := by
  unfold Directory.close
  split
  · exact Nat.le_refl _
  split
  · exact Nat.le_refl _
  · rename_i x _ _
    exact (step_mono d.realm (.close x.auth)).1

namespace StepsTo

theorem managers (h : d.StepsTo d' ev) : d.realm.managers.length ≤ d'.realm.managers.length := by
  cases h with
  | rests _ _ _ hm => exact hm
  | enlists _ hadds => exact hadds.managers
  | adds hadds => exact hadds.managers
  | works _ _ _ _ _ _ _ _ _ _ hm => exact hm
  | closes hd => exact hd ▸ managers_close d _

/-- **What becomes of a service.** -/
theorem goes (h : d.StepsTo d' ev) (hx : d.services[j]? = some x) :
    ∃ y, d'.services[j]? = some y ∧ x.Goes j ev y := by
  have hj : j < d.services.length := (List.getElem?_eq_some_iff.1 hx).1
  have hadd : ∀ {z}, d.Adds ev d' z → d'.services[j]? = some x := fun hadds => by
    rw [hadds.services, List.getElem?_append_left hj, hx]
  cases h with
  | rests hev hs =>
    exact ⟨x, hs ▸ hx, .rests x fun sev heq => absurd hj (Nat.not_lt.2 (hev j sev heq))⟩
  | enlists _ hadds => exact ⟨x, hadd hadds, .rests x (by simp)⟩
  | adds hadds hev => exact ⟨x, hadd hadds, .rests x (hev j)⟩
  | @works id sev x' y hev hbefore hafter _ hothers hoptions hauth hsettings hclosed =>
    by_cases hji : j = id
    · subst hji
      rw [hx] at hbefore
      obtain rfl := Option.some.inj hbefore
      refine ⟨y, hafter, hoptions, hauth, ?_, by simp [hclosed, hev]⟩
      rw [hsettings, Service.settingsIn, if_pos rfl]
    · exact ⟨x, (hothers j hji).trans hx, .rests x (by simp [Ne.symm hji])⟩
  | @closes id hd =>
    subst hd
    rw [getElem?_close, hx]
    by_cases hji : j = id
    · subst hji
      rw [if_pos rfl]
      cases hc : x.closed with
      | true => exact ⟨x, by simp [hc], rfl, rfl, by simp [Service.settingsIn, Service.settingsAfter], by simp [hc]⟩
      | false =>
        exact ⟨x.shut, by simp [hc], rfl, rfl, by simp [Service.settingsIn, Service.settingsAfter, Service.shut],
          by simp [Service.shut]⟩
    · rw [if_neg hji]
      exact ⟨x, rfl, .rests x (by simp [Ne.symm hji])⟩

/-- A service was there before, or is the last one and has just come. -/
theorem of_goes (h : d.StepsTo d' ev) {y : Service} (hy : d'.services[j]? = some y) :
    (∃ x, d.services[j]? = some x ∧ x.Goes j ev y) ∨ j = d.services.length ∧ d.Adds ev d' y := by
  by_cases hj : j < d.services.length
  · obtain ⟨y', hy', hgoes⟩ := h.goes (List.getElem?_eq_getElem hj)
    rw [hy] at hy'
    obtain rfl := Option.some.inj hy'
    exact .inl ⟨_, List.getElem?_eq_getElem hj, hgoes⟩
  have hle := Nat.not_lt.1 hj
  have hlt : j < d'.services.length := (List.getElem?_eq_some_iff.1 hy).1
  have hadd : ∀ {z}, d.Adds ev d' z → j = d.services.length ∧ d.Adds ev d' y := fun {z} hadds => by
    have hj' : j = d.services.length := by
      rw [hadds.services, List.length_append, List.length_singleton] at hlt
      exact Nat.le_antisymm (Nat.le_of_lt_succ hlt) hle
    rw [hadds.services, hj', List.getElem?_concat_length] at hy
    exact ⟨hj', Option.some.inj hy ▸ hadds⟩
  cases h with
  | rests _ hs => exact absurd (hs ▸ hlt) hj
  | enlists _ hadds => exact .inr (hadd hadds)
  | adds hadds => exact .inr (hadd hadds)
  | works _ _ _ hcount => exact absurd (hcount ▸ hlt) hj
  | closes hd => exact absurd (length_close d _ ▸ hd ▸ hlt) hj

/-- What is remembered stays remembered until the service is closed. -/
theorem mem_remembered (h : d.StepsTo d' ev) (hk : d.WellFormed) {e : ServiceKey × ServiceId} (he : e ∈ d.remembered)
    (hev : ev ≠ .at e.2 .close) : e ∈ d'.remembered := by
  cases h with
  | rests _ _ hr => exact hr ▸ he
  | enlists _ _ _ _ hr => exact hr ▸ List.mem_append_left _ he
  | adds _ _ hr => exact hr ▸ he
  | works _ _ _ _ _ _ _ _ _ hr => exact hr ▸ he
  | @closes id hd =>
    subst hd
    rw [hk.remembered_close]
    exact List.mem_filter.2 ⟨he, by simpa using fun heq : e.2 = id => hev (heq ▸ rfl)⟩

/-- What is remembered was remembered before, or has just come. -/
theorem of_mem_remembered (h : d.StepsTo d' ev) (hk : d.WellFormed) {e : ServiceKey × ServiceId}
    (he : e ∈ d'.remembered) : e ∈ d.remembered ∧ ev ≠ .at e.2 .close ∨ e.2 = d.services.length ∧
      ∃ options requested environment x, ev = .obtain options requested environment ∧ d.Adds ev d' x ∧
        x.options.serviceKey = e.1 ∧ d.find? e.1 = none ∧ x.auth = d.realm.managers.length := by
  cases h with
  | rests hev _ hr =>
    rw [hr] at he
    refine .inl ⟨he, fun heq => ?_⟩
    obtain ⟨x, hx, -⟩ := hk.entries e he
    exact absurd (List.getElem?_eq_some_iff.1 hx).1 (Nat.not_lt.2 (hev _ _ heq))
  | @enlists options requested environment x hnew hadds hkey hown hr =>
    rw [hr] at he
    rcases List.mem_append.1 he with he | he
    · exact .inl ⟨he, by simp⟩
    · obtain rfl := List.mem_singleton.1 he
      exact .inr ⟨rfl, options, requested, environment, x, rfl, hadds, congrArg Options.serviceKey hkey, hnew, hown⟩
  | adds _ hev hr => exact .inl ⟨hr ▸ he, hev _ _⟩
  | works hev _ _ _ _ _ _ _ _ hr => exact .inl ⟨hr ▸ he, by simp [hev]⟩
  | @closes id hd =>
    subst hd
    rw [hk.remembered_close] at he
    obtain ⟨he, hne⟩ := List.mem_filter.1 he
    have hne' : e.2 ≠ id := by simpa using hne
    exact .inl ⟨he, by simp [Ne.symm hne']⟩

end StepsTo

/-- **What is remembered stays in order.** -/
theorem WellFormed.stepsTo (hk : d.WellFormed) (h : d.StepsTo d' ev) : d'.WellFormed := by
  refine ⟨fun e he => ?_, ?_, fun y hy => ?_⟩
  · rcases h.of_mem_remembered hk he with ⟨he, hev⟩ | ⟨hid, _, _, _, x, -, hadds, hkey, -⟩
    · obtain ⟨x, hx, hopen, hkey⟩ := hk.entries e he
      obtain ⟨y, hy, hgoes⟩ := h.goes hx
      refine ⟨y, hy, ?_, by rw [hgoes.options, hkey]⟩
      exact Bool.eq_false_iff.2 fun hc => (hgoes.closed.1 hc).elim (by simp [hopen]) hev
    · refine ⟨x, ?_, hadds.closed, hkey⟩
      rw [hadds.services, hid, List.getElem?_concat_length]
  · cases h with
    | rests _ _ hr => exact hr ▸ hk.keys
    | enlists hnew _ _ _ hr =>
      rw [hr, List.map_append, List.map_singleton]
      refine List.nodup_append.2 ⟨hk.keys, List.nodup_singleton _, fun key hkey key' hkey' heq => ?_⟩
      obtain ⟨e, he, rfl⟩ := List.mem_map.1 hkey
      exact ne_of_find?_eq_none hnew e he (heq.trans (List.mem_singleton.1 hkey'))
    | adds _ _ hr => exact hr ▸ hk.keys
    | works _ _ _ _ _ _ _ _ _ hr => exact hr ▸ hk.keys
    | closes hd =>
      subst hd
      rw [hk.remembered_close]
      exact hk.keys.sublist (List.filter_sublist.map _)
  · obtain ⟨j, hj⟩ := List.mem_iff_getElem?.1 hy
    rcases h.of_goes hj with ⟨x, hx, hgoes⟩ | ⟨-, hadds⟩
    · rw [hgoes.auth]
      exact Nat.lt_of_lt_of_le (hk.auth x (List.mem_of_getElem? hx)) h.managers
    · exact hadds.auth

end Directory

end QueryClient
