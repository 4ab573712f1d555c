import Mathlib.Data.List.Induction
import QueryClient.Deferred

/-!
# Callbacks run once, with the first value

While a callback runs it may register others and provide values, so that the list of those that wait and
the value itself are open to change under the loop that runs them. They do not change: the value is there
before the first callback begins, so what a callback registers runs within it, and what it provides is
ignored.

* `Callback.story`: how a callback runs, with what it registers nested in it; `Callback.family`.
* `Deferred.moment`: a call step by step; `RunsWithValue.advance`: **what every step keeps.**
* `moment_run`: **a callback that runs does what its story says,** whatever else is left to be done.
* `Deferred.perform`, `Deferred.after`: a call from outside, and a sequence of calls.
* `RunsOnce`, `callbacks_run_once`: **every callback runs once, with the first value,** for every
  sequence of calls.
-/

namespace QueryClient

variable {α : Type}

namespace Callback

mutual

/-- **How a callback runs with a value:** it begins, what it registers runs within it, one after another,
and it returns. -/
def story (value : α) : Callback α → List (CallbackNote α)
  | .mk label deeds => .began label value :: (storyDeeds value deeds ++ [.returned label])

def storyDeeds (value : α) : List (Callback α ⊕ α) → List (CallbackNote α)
  | [] => []
  | .inl callback :: rest => story value callback ++ storyDeeds value rest
  | .inr _ :: rest => storyDeeds value rest

end

mutual

/-- How often a value is provided while a callback runs. -/
def provisions : Callback α → ℕ
  | .mk _ deeds => provisionsDeeds deeds

def provisionsDeeds : List (Callback α ⊕ α) → ℕ
  | [] => 0
  | .inl callback :: rest => provisions callback + provisionsDeeds rest
  | .inr _ :: rest => provisionsDeeds rest + 1

end

mutual

/-- A callback and all that are registered while it runs, in the order of their registration. -/
def family : Callback α → List (Callback α)
  | .mk label deeds => .mk label deeds :: familyDeeds deeds

def familyDeeds : List (Callback α ⊕ α) → List (Callback α)
  | [] => []
  | .inl callback :: rest => family callback ++ familyDeeds rest
  | .inr _ :: rest => familyDeeds rest

end

mutual

/-- Each of a family begins once. -/
theorem began_story (value : α) : ∀ c : Callback α, (c.story value).filterMap CallbackNote.began? =
    c.family.map fun c => (c.label, value)
  | .mk label deeds => by
    have hdeeds := began_storyDeeds value deeds
    simp [story, family, CallbackNote.began?, Callback.label, hdeeds]

theorem began_storyDeeds (value : α) : ∀ deeds : List (Callback α ⊕ α),
    (storyDeeds value deeds).filterMap CallbackNote.began? =
      (familyDeeds deeds).map fun c => (c.label, value)
  | [] => rfl
  | .inl c :: rest => by
    simp only [storyDeeds, familyDeeds, List.filterMap_append, List.map_append]
    rw [began_story value c, began_storyDeeds value rest]
  | .inr _ :: rest => began_storyDeeds value rest

end

end Callback

namespace Deferred

variable {d : Deferred α} {v w : α} {c : Callback α} {calls : List (Deed α)}
variable {frame : Frame α} {frames rest : List (Frame α)} {start : Option α} {n : ℕ}

/-! ## Step by step -/

/-- What has been done after `n` steps, and what is left to be done. -/
def moment : ℕ → Deferred α → List (Frame α) → Deferred α × List (Frame α)
  | 0, d, frames => (d, frames)
  | _ + 1, d, [] => (d, [])
  | n + 1, d, frame :: rest => moment n (d.advance frame).1 ((d.advance frame).2 ++ rest)

theorem exec_nil (d : Deferred α) : d.exec [] = d := by rw [exec]

theorem exec_cons (d : Deferred α) (frame : Frame α) (rest : List (Frame α)) :
    d.exec (frame :: rest) = (d.advance frame).1.exec ((d.advance frame).2 ++ rest) := by rw [exec]

/-- All is done, however much of it has been done. -/
theorem exec_moment (n : ℕ) : ∀ (d : Deferred α) (frames : List (Frame α)),
    (moment n d frames).1.exec (moment n d frames).2 = d.exec frames := by
  induction n with
  | zero => intro d frames; rfl
  | succ n ih =>
    intro d frames
    cases frames with
    | nil => rfl
    | cons frame rest =>
      rw [exec_cons]
      exact ih _ _

/-- The value stays once it is there. -/
theorem value_advance (hv : d.value = some v) (frame : Frame α) : (d.advance frame).1.value = some v := by
  rcases frame with (c | w) | ⟨c, w⟩ | label <;> simp [advance, note, hv]

/-- **Whatever runs, or has run, does so with the value.** So nothing has run before the value is there. -/
structure RunsWithValue (d : Deferred α) (frames : List (Frame α)) : Prop where
  running : ∀ c w, .run c w ∈ frames → d.value = some w
  began : ∀ label w, .began label w ∈ d.journal → d.value = some w

/-- What a step leaves to run, it leaves to run with the value. -/
theorem run_mem_advance (h : .run c w ∈ (d.advance frame).2) : (d.advance frame).1.value = some w := by
  rcases frame with (c' | w') | ⟨c', w'⟩ | label
  · cases hv : d.value with
    | none => simp [advance, hv] at h
    | some v => simp_all [advance]
  · cases hv : d.value with
    | none => simp_all [advance]
    | some v => simp [advance, hv] at h
  · simp [advance] at h
  · simp [advance] at h

/-- What begins in a step was left to run. -/
theorem began_mem_advance {label : String} (h : .began label w ∈ (d.advance frame).1.journal) :
    .began label w ∈ d.journal ∨ ∃ c, frame = .run c w := by
  rcases frame with (c' | w') | ⟨c', w'⟩ | label'
  · cases hv : d.value <;> simp_all [advance]
  · cases hv : d.value <;> simp_all [advance]
  · rcases List.mem_append.1 h with h | h
    · exact .inl h
    · cases List.mem_singleton.1 h
      exact .inr ⟨c', rfl⟩
  · rcases List.mem_append.1 h with h | h
    · exact .inl h
    · cases List.mem_singleton.1 h

/-- **A step keeps it so.** -/
theorem RunsWithValue.advance (h : RunsWithValue d (frame :: rest)) :
    RunsWithValue (d.advance frame).1 ((d.advance frame).2 ++ rest) := by
  constructor
  · intro c w hmem
    rcases List.mem_append.1 hmem with hmem | hmem
    · exact run_mem_advance hmem
    · exact value_advance (h.running c w (List.mem_cons_of_mem _ hmem)) frame
  · intro label w hmem
    rcases began_mem_advance hmem with hmem | ⟨c, rfl⟩
    · exact value_advance (h.began label w hmem) frame
    · exact value_advance (h.running c w List.mem_cons_self) _

theorem value_moment (n : ℕ) : ∀ {d : Deferred α} {frames : List (Frame α)}, d.value = some v →
    (moment n d frames).1.value = some v := by
  induction n with
  | zero => intro d frames hv; exact hv
  | succ n ih =>
    intro d frames hv
    cases frames with
    | nil => exact hv
    | cons frame rest => exact ih (value_advance hv frame)

theorem RunsWithValue.moment (n : ℕ) : ∀ {d : Deferred α} {frames : List (Frame α)}, RunsWithValue d frames →
    RunsWithValue (moment n d frames).1 (moment n d frames).2 := by
  induction n with
  | zero => intro d frames h; exact h
  | succ n ih =>
    intro d frames h
    cases frames with
    | nil => exact h
    | cons frame rest => exact ih h.advance

/-! ## What a callback does -/

/-- A callback has run with the value, and has returned. -/
def ran (d : Deferred α) (v : α) (c : Callback α) : Deferred α :=
  { d with journal := d.journal ++ c.story v, ignored := d.ignored + c.provisions }

/-- A callback that is registered when the value is there runs next. -/
theorem moment_registers (hv : d.value = some v) (c : Callback α) (rest : List (Frame α)) (n : ℕ) :
    moment (n + 1) d (.deed (.inl c) :: rest) = moment n d (.run c v :: rest) := by
  simp [moment, advance, hv]

/-- A value that is provided again is ignored. -/
theorem moment_ignores (hv : d.value = some v) (w : α) (rest : List (Frame α)) (n : ℕ) :
    moment (n + 1) d (.deed (.inr w) :: rest) = moment n { d with ignored := d.ignored + 1 } rest := by
  simp [moment, advance, hv]

mutual

/-- **A callback that runs does what its story says,** and then the rest is left to be done. -/
theorem moment_run (v : α) : ∀ (c : Callback α) (d : Deferred α) (rest : List (Frame α)) (n : ℕ),
    d.value = some v → moment (n + c.size) d (.run c v :: rest) = moment n (d.ran v c) rest
  | .mk label deeds, d, rest, n, hv => by
    have hbegins : moment (n + (Callback.mk label deeds).size) d (.run (.mk label deeds) v :: rest) =
        moment (n + 1 + Callback.sizeDeeds deeds) (d.note (.began label v))
          (deeds.map .deed ++ .leave label :: rest) := by
      have hsize : n + (Callback.mk label deeds).size = n + 1 + Callback.sizeDeeds deeds + 1 := by
        rw [Callback.size]
        omega
      rw [hsize, moment]
      simp [advance, Callback.label, Callback.deeds]
    -- its deeds are done before it returns, whatever is left beneath
    rw [hbegins, moment_deeds v deeds (d.note (.began label v)) _ (n + 1) hv, moment]
    simp [advance, note, ran, Callback.story, Callback.provisions]

theorem moment_deeds (v : α) : ∀ (deeds : List (Callback α ⊕ α)) (d : Deferred α)
    (rest : List (Frame α)) (n : ℕ), d.value = some v →
      moment (n + Callback.sizeDeeds deeds) d (deeds.map .deed ++ rest) =
        moment n { d with journal := d.journal ++ Callback.storyDeeds v deeds
                          ignored := d.ignored + Callback.provisionsDeeds deeds } rest
  | [], d, rest, n, _ => by simp [Callback.sizeDeeds, Callback.storyDeeds, Callback.provisionsDeeds]
  | .inl c :: deeds, d, rest, n, hv => by
    -- what is registered runs at once, before the deeds that follow
    have hsize : n + Callback.sizeDeeds (.inl c :: deeds) = n + Callback.sizeDeeds deeds + c.size + 1 := by
      rw [Callback.sizeDeeds]
      omega
    rw [hsize, List.map_cons, List.cons_append, moment_registers hv,
      moment_run v c d _ _ hv, moment_deeds v deeds (d.ran v c) rest n hv]
    simp [ran, Callback.storyDeeds, Callback.provisionsDeeds, Nat.add_assoc]
  | .inr w :: deeds, d, rest, n, hv => by
    have hsize : n + Callback.sizeDeeds (.inr w :: deeds) = n + Callback.sizeDeeds deeds + 1 := rfl
    rw [hsize, List.map_cons, List.cons_append, moment_ignores hv,
      moment_deeds v deeds { d with ignored := d.ignored + 1 } rest n hv]
    simp [Callback.storyDeeds, Callback.provisionsDeeds, Nat.add_assoc, Nat.add_comm]

end

theorem exec_run (hv : d.value = some v) (c : Callback α) (rest : List (Frame α)) :
    d.exec (.run c v :: rest) = (d.ran v c).exec rest := by
  have hran := moment_run v c d rest 0 hv
  rw [Nat.zero_add] at hran
  rw [← exec_moment c.size d, hran]
  rfl

/-- What has waited runs in the order of registration. -/
theorem exec_waiting (v : α) (cs : List (Callback α)) : ∀ d : Deferred α, d.value = some v →
    d.exec (cs.map fun c => .run c v) = { d with
      journal := d.journal ++ cs.flatMap (Callback.story v)
      ignored := d.ignored + total Callback.provisions cs } := by
  induction cs with
  | nil =>
    intro d _
    rw [List.map_nil, exec_nil]
    simp
  | cons c cs ih =>
    intro d hv
    rw [List.map_cons, exec_run hv, ih (d.ran v c) hv]
    simp [ran, Nat.add_assoc]

/-! ## Calls from outside -/

/-- A call from outside: a callback is registered, or a value provided. -/
def perform (d : Deferred α) : Deed α → Deferred α
  | .inl c => d.whenAvailable c
  | .inr v => d.provide v

/-- After a sequence of calls; a value may be available from the start. -/
def after (start : Option α) (calls : List (Deed α)) : Deferred α :=
  calls.foldl perform (start.elim {} available)

theorem after_concat (start : Option α) (calls : List (Deed α)) (call : Deed α) :
    after start (calls ++ [call]) = (after start calls).perform call := by
  simp [after]

theorem whenAvailable_none (hv : d.value = none) (c : Callback α) :
    d.whenAvailable c = { d with waiting := d.waiting ++ [c] } := by
  rw [whenAvailable, exec_cons]
  simp [advance, hv, exec_nil]

theorem whenAvailable_some (hv : d.value = some v) (c : Callback α) : d.whenAvailable c = d.ran v c := by
  rw [whenAvailable, ← exec_moment 1, moment_registers hv, moment, exec_run hv, exec_nil]

theorem provide_none (hv : d.value = none) (v : α) : d.provide v = { d with
    value := some v
    waiting := []
    journal := d.journal ++ d.waiting.flatMap (Callback.story v)
    ignored := d.ignored + total Callback.provisions d.waiting } := by
  have hwaiting := exec_waiting v d.waiting { d with value := some v, waiting := [] } rfl
  rw [provide, exec_cons]
  simpa [advance, hv] using hwaiting

theorem provide_some (hv : d.value = some v) (w : α) :
    d.provide w = { d with ignored := d.ignored + 1 } := by
  rw [provide, ← exec_moment 1, moment_ignores hv, moment, exec_nil]

/-- The value stays, whatever is called. -/
theorem value_perform (hv : d.value = some v) (call : Deed α) : (d.perform call).value = some v := by
  cases call with
  | inl c => rw [perform, whenAvailable_some hv]; exact hv
  | inr w => rw [perform, provide_some hv]; exact hv

/-- Each step makes the load lighter, so it is done in the end. -/
theorem moment_done (n : ℕ) (d : Deferred α) (frames : List (Frame α)) (hn : d.load frames ≤ n) :
    (moment n d frames).2 = [] := by
  induction n generalizing d frames with
  | zero =>
    cases frames with
    | nil => rfl
    | cons frame rest =>
      have := load_advance d frame rest
      omega
  | succ n ih =>
    cases frames with
    | nil => rfl
    | cons frame rest =>
      have := load_advance d frame rest
      exact ih _ _ (by omega)

/-- A call returns, and has done then all that there was to do. -/
theorem exists_returned (d : Deferred α) (call : Deed α) :
    ∃ n, moment n d [.deed call] = (d.perform call, []) := by
  have hdone := moment_done _ d [.deed call] (Nat.le_refl _)
  have hexec := exec_moment (d.load [.deed call]) d [.deed call]
  rw [hdone, exec_nil] at hexec
  refine ⟨d.load [.deed call], Prod.ext ?_ hdone⟩
  rw [hexec]
  cases call <;> rfl

/-! ## The law -/

/-- The callbacks that are registered from outside, in order. -/
def registered (calls : List (Deed α)) : List (Callback α) := calls.filterMap Sum.getLeft?

/-- The first value that is provided from outside. -/
def firstValue? (start : Option α) (calls : List (Deed α)) : Option α :=
  start.or (calls.findSome? Sum.getRight?)

theorem firstValue?_concat (start : Option α) (calls : List (Deed α)) (call : Deed α) :
    firstValue? start (calls ++ [call]) = (firstValue? start calls).or call.getRight? := by
  unfold firstValue?
  rw [List.findSome?_append, Option.or_assoc]
  cases call <;> rfl

/-- What has come of a sequence of calls. -/
structure StandsAfter (start : Option α) (calls : List (Deed α)) (d : Deferred α) : Prop where
  /-- The value is the first one that was provided. -/
  first : d.value = firstValue? start calls
  /-- Before there is one, nothing has run and all wait. -/
  before : d.value = none → d.journal = [] ∧ d.waiting = registered calls
  /-- From then on none waits. All have run with it in the order of their registration, each with what it
  registers nested in it. -/
  ran : ∀ v, d.value = some v → d.waiting = [] ∧
    d.journal = (registered calls).flatMap (Callback.story v)

theorem StandsAfter.perform (h : StandsAfter start calls d) (call : Deed α) :
    StandsAfter start (calls ++ [call]) (d.perform call) := by
  have hfirst : firstValue? start (calls ++ [call]) = d.value.or call.getRight? := by
    rw [firstValue?_concat, h.first]
  cases hv : d.value with
  | none =>
    obtain ⟨hjournal, hwaiting⟩ := h.before hv
    rw [hv, Option.none_or] at hfirst
    cases call with
    | inl c =>
      rw [Deferred.perform, whenAvailable_none hv]
      have hnone : ∀ w, d.value ≠ some w := fun w => by simp [hv]
      refine ⟨hv.trans hfirst.symm, fun _ => ⟨hjournal, ?_⟩, fun w hw => absurd hw (hnone w)⟩
      simp [registered, hwaiting]
    | inr v =>
      -- the first value: what has waited runs with it
      rw [Deferred.perform, provide_none hv]
      refine ⟨hfirst.symm, fun hnone => by simp at hnone, fun w hw => ⟨rfl, ?_⟩⟩
      obtain rfl : v = w := Option.some.inj hw
      simp [hjournal, hwaiting, registered]
  | some v =>
    obtain ⟨hwaiting, hjournal⟩ := h.ran v hv
    rw [hv, Option.some_or] at hfirst
    have hsome := value_perform hv call
    refine ⟨hsome.trans hfirst.symm, fun hnone => by simp [hsome] at hnone, fun w hw => ?_⟩
    obtain rfl : v = w := Option.some.inj (hsome.symm.trans hw)
    cases call with
    | inl c =>
      rw [Deferred.perform, whenAvailable_some hv]
      exact ⟨hwaiting, by simp [Deferred.ran, hjournal, registered]⟩
    | inr u =>
      rw [Deferred.perform, provide_some hv]
      exact ⟨hwaiting, by simp [hjournal, registered]⟩

theorem standing_after (start : Option α) (calls : List (Deed α)) :
    StandsAfter start calls (after start calls) := by
  induction calls using List.reverseRecOn with
  | nil =>
    cases start with
    | none => exact ⟨rfl, fun _ => ⟨rfl, rfl⟩, fun v hv => by simp [after] at hv⟩
    | some v =>
      have hstart : after (some v) [] = ({ value := some v } : Deferred α) := provide_none rfl v
      rw [hstart]
      -- nothing has been registered that could have run
      exact ⟨rfl, fun hnone => by simp at hnone, fun w _ => ⟨rfl, rfl⟩⟩
  | append_singleton calls call ih =>
    rw [after_concat]
    exact ih.perform call

/-- Of all that were registered each began once. -/
theorem StandsAfter.fired (h : StandsAfter start calls d) (hv : d.value = some v) :
    d.fired = ((registered calls).flatMap Callback.family).map fun c => (c.label, v) := by
  rw [Deferred.fired, (h.ran v hv).2, List.filterMap_flatMap, List.map_flatMap]
  exact congrArg (List.flatMap · _) (funext (Callback.began_story v))

/-- A call finds that what has run has run with the value. -/
theorem StandsAfter.steady (h : StandsAfter start calls d) (call : Deed α) : RunsWithValue d [.deed call] := by
  constructor
  · intro c w hmem
    simp at hmem
  · intro label w hmem
    cases hv : d.value with
    | none => simp [(h.before hv).1] at hmem
    | some v =>
      have hfired : (label, w) ∈ d.fired := List.mem_filterMap.2 ⟨_, hmem, rfl⟩
      rw [h.fired hv] at hfired
      obtain ⟨c, -, heq⟩ := List.mem_map.1 hfired
      exact congrArg some (Prod.ext_iff.1 heq).2

/-- **Every callback runs once, with the first value,** whatever the callbacks do. -/
structure RunsOnce (start : Option α) (calls : List (Deed α)) : Prop where
  standing : StandsAfter start calls (after start calls)
  /-- Of all that were registered, from outside or while another ran, each began once. -/
  once : ∀ v, (after start calls).value = some v →
    (after start calls).fired = ((registered calls).flatMap Callback.family).map fun c => (c.label, v)
  /-- The value stays. -/
  stays : ∀ v more, (after start calls).value = some v → (after start (calls ++ more)).value = some v
  /-- A value that is provided later runs nothing and changes nothing; it is only said to be ignored. -/
  later : ∀ v w, (after start calls).value = some v → after start (calls ++ [.inr w]) =
    { after start calls with ignored := (after start calls).ignored + 1 }
  /-- Every call returns. -/
  returns : ∀ call, ∃ n, moment n (after start calls) [.deed call] = (after start (calls ++ [call]), [])
  /-- At every moment until then the value stays once it is there, and what runs, runs with it. -/
  steady : ∀ call n, (∀ v, (after start calls).value = some v →
      (moment n (after start calls) [.deed call]).1.value = some v) ∧
    RunsWithValue (moment n (after start calls) [.deed call]).1 (moment n (after start calls) [.deed call]).2
  /-- A callback that is registered when the value is there has run, with all that it registers, when its
  registration returns; whatever else is left to be done is left still. -/
  nested : ∀ (d : Deferred α) v c rest, d.value = some v →
    moment (c.size + 1) d (.deed (.inl c) :: rest) = (d.ran v c, rest)

/-- **In every sequence of calls every callback runs once, with the first value.** -/
theorem callbacks_run_once (start : Option α) (calls : List (Deed α)) : RunsOnce start calls := by
  have hstanding := standing_after start calls
  constructor
  case standing => exact hstanding
  case once => exact fun v hv => hstanding.fired hv
  case stays =>
    intro v more hv
    induction more using List.reverseRecOn with
    | nil => rwa [List.append_nil]
    | append_singleton more call ih =>
      rw [← List.append_assoc, after_concat]
      exact value_perform ih call
  case later =>
    intro v w hv
    rw [after_concat]
    exact provide_some hv w
  case returns =>
    intro call
    rw [after_concat]
    exact exists_returned _ call
  case steady =>
    intro call n
    exact ⟨fun v hv => value_moment n hv, (hstanding.steady call).moment n⟩
  case nested =>
    intro d v c rest hv
    rw [moment_registers hv]
    have hran := moment_run v c d rest 0 hv
    rw [Nat.zero_add] at hran
    exact hran

/-- A callback that registers another and provides a value: the other runs within it, before the one that
waits still, and the value is ignored. -/
example : (after none [.inl (.mk "a" [.inl (.mk "b" []), .inr 2]), .inl (.mk "c" []), .inr 1]).journal =
    [.began "a" 1, .began "b" 1, .returned "b", .returned "a", .began "c" 1, .returned "c"] := by
  cbv

end Deferred

end QueryClient
