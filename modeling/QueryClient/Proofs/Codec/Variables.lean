import QueryClient.Proofs.Codec.Image

/-!
# What can be variables

Variables are a struct. Options and newtypes around a value do not count; what is left is unit-like and
stands for no variables, or it has entries, and these are the variables, or it is a scalar or a list and
is refused. A number that is not finite has the image of a unit and is taken for one.

* `Serial.core`: a value without the options and newtypes around it.
* `Serial.entries?`, `Serial.Unshared`: what a value is made of, and when no two of its entries share a
  name.
* `Struct.sort_perm`: an object keeps the members that have different names.
* `Serial.AsVariables`, `variables_encoding`: **what becomes of any value that is given as variables.**
-/

namespace QueryClient

namespace Struct

variable {as : Struct}

/-- **An object keeps all members that have different names,** in another order. -/
theorem sort_perm (h : as.names.Nodup) : (sort as).Perm as := by
  have hsorted : (sort as).names.Nodup := by
    refine List.pairwise_map.2 ((ordered_sort as).imp ?_)
    intro m n hlt
    exact ne_of_lt hlt
  refine (List.perm_ext_iff_of_nodup hsorted.of_map h.of_map).2 fun m => ?_
  rw [← get?_eq_some hsorted, get?_sort, value?_eq_some h]

end Struct

namespace Serial

/-- A value without the options and newtypes around it. -/
def core : Serial → Serial
  | .present value | .newtype value => value.core
  | other => other

/-- What is encoded as nothing at all, JSON null among it. -/
def UnitLike : Serial → Prop
  | .unit | .absent => True
  | _ => False

/-- **The entries** of a map, a record or a variant that carries data. A variant has one, named as it
is. -/
def entries? : Serial → Option (List (Serial × Serial))
  | .map entries => some entries
  | .record fields => some (keyed fields)
  | .newtypeVariant name value => some [(.str name, value)]
  | .tupleVariant name items => some [(.str name, .list items)]
  | .recordVariant name fields => some [(.str name, .record fields)]
  | _ => none

/-- What a scalar or a list is called when it is refused. -/
def refused? : Serial → Option String
  | .bool _ => some "a boolean"
  | .int _ | .float (some _) => some "a number"
  | .char _ | .str _ | .unitVariant _ => some "a string"
  | .list _ => some "a list"
  | _ => none

/-- Keys of one kind, no two of which are one. -/
def Unshared (entries : List (Serial × Serial)) : Prop :=
  entries.Pairwise fun a b => SameKind a.1 b.1 ∧ a.1 ≠ b.1

/-! ## Options and newtypes -/

theorem toJson?_core (v : Serial) : v.core.toJson? = v.toJson? := by
  fun_induction core v with
  | case1 value ih => exact ih
  | case2 value ih => exact ih
  | case3 => rfl

theorem faults_core (v : Serial) : v.core.faults = v.faults := by
  fun_induction core v with
  | case1 value ih => exact ih
  | case2 value ih => exact ih
  | case3 => rfl

theorem encodeVariables_core (typeName : String) (v : Serial) :
    encodeVariables typeName v.core = encodeVariables typeName v := by
  unfold encodeVariables
  rw [toJson?_core]

/-- **What is accepted as variables,** options and newtypes removed: what is unit-like, a number that is
not finite, and what has entries. -/
def Accepted (v : Serial) : Prop := v.UnitLike ∨ v = .float none ∨ v.entries?.isSome

/-- A core is one of these, since no option and no newtype is left around it. -/
theorem core_cases (v : Serial) :
    v.core.Accepted ∨ v.core.refused?.isSome ∨ ∃ reason, v.core = .failing reason := by
  fun_induction core v with
  | case1 value ih => exact ih
  | case2 value ih => exact ih
  | case3 v hpresent hnewtype =>
    cases v with
    | float value => cases value <;> simp [Accepted, refused?]
    | present value => exact absurd rfl (hpresent value)
    | newtype value => exact absurd rfl (hnewtype value)
    | _ => simp [Accepted, UnitLike, entries?, refused?]

/-- What cannot fail is accepted or refused. -/
theorem accepted_or_refused {v : Serial} (h : v.faults = []) :
    v.core.Accepted ∨ ∃ kind, v.core.refused? = some kind := by
  rcases core_cases v with haccepted | hrefused | ⟨reason, hreason⟩
  · exact .inl haccepted
  · exact .inr (Option.isSome_iff_exists.1 hrefused)
  · rw [← faults_core, hreason] at h
    cases h

theorem exists_image_core {v : Serial} (h : v.faults = []) : ∃ j, Image v.core j := by
  rw [exists_image_iff, faults_core]
  exact h

/-! ## The image of each kind -/

variable {v : Serial} {j : Json} {typeName kind reason : String}
variable {entries : List (Serial × Serial)}

theorem encodeVariables_null (h : Image v.core .null) : encodeVariables typeName v = .ok [] := by
  rw [← encodeVariables_core, encodeVariables, (toJson?_eq_ok_iff v.core .null).2 h]

theorem encodeVariables_obj {members : Struct} (h : Image v.core (.obj members)) :
    encodeVariables typeName v = .ok members := by
  rw [← encodeVariables_core, encodeVariables, (toJson?_eq_ok_iff v.core (.obj members)).2 h]

theorem Image.of_unitLike (h : Image v j) (hv : v.UnitLike) : j = .null := by
  cases h <;> first | rfl | exact hv.elim

/-- **What has entries becomes the object of their images.** -/
theorem Image.of_entries (h : Image v j) (hv : v.entries? = some entries) : ∃ members : Struct,
    List.Forall₂ KeyText (entries.map (·.1)) members.names ∧
    List.Forall₂ Image (entries.map (·.2)) (members.map (·.2)) ∧ j = .obj members.sort := by
  -- the one entry of a variant, whose object has nothing to sort
  have hvariant : ∀ (name : String) {value : Serial} {k : Json}, Image value k →
      ∃ members : Struct, List.Forall₂ KeyText [.str name] members.names ∧
        List.Forall₂ Image [value] (members.map (·.2)) ∧ Json.obj [(name, k)] = .obj members.sort :=
    fun name _ k hk => ⟨[(name, k)], .cons (.str name) .nil, .cons hk .nil, rfl⟩
  cases h with
  | map hkeys hvalues =>
    obtain rfl := Option.some.inj hv
    exact ⟨_, hkeys, hvalues, rfl⟩
  | record h =>
    obtain rfl := Option.some.inj hv
    cases h with
    | map hkeys hvalues => exact ⟨_, hkeys, hvalues, rfl⟩
  | newtypeVariant name h =>
    obtain rfl := Option.some.inj hv
    exact hvariant name h
  | tupleVariant name h =>
    obtain rfl := Option.some.inj hv
    exact hvariant name h
  | recordVariant name h =>
    obtain rfl := Option.some.inj hv
    exact hvariant name h
  | _ => cases hv

/-- A scalar or a list has the image that it is called after. -/
theorem Image.of_refused (h : Image v j) (hv : v.refused? = some kind) :
    j ≠ .null ∧ (∀ members, j ≠ .obj members) ∧ j.kind = kind := by
  cases h <;> simp_all [refused?, Json.kind]

/-- **Entries with keys of one kind get different names.** -/
theorem nodup_of_unshared {names : List String} (h : Unshared entries)
    (hkeys : List.Forall₂ KeyText (entries.map (·.1)) names) : names.Nodup := by
  induction entries generalizing names with
  | nil =>
    cases hkeys
    exact .nil
  | cons entry rest ih =>
    obtain ⟨hfirst, hrest⟩ := List.pairwise_cons.1 h
    obtain _ | ⟨hname, hnames⟩ := hkeys
    refine List.nodup_cons.2 ⟨fun hmem => ?_, ih hrest hnames⟩
    -- a later key of the same text would be the same key
    obtain ⟨key, hkey, htext⟩ := Struct.exists_of_forall₂ hnames.flip hmem
    obtain ⟨other, hother, rfl⟩ := List.mem_map.1 hkey
    obtain ⟨hsame, hne⟩ := hfirst other hother
    exact hne (hname.injective htext hsame)

/-! ## Variables -/

/-- **What becomes of a value that is given as variables.** -/
structure AsVariables (typeName : String) (v : Serial) : Prop where
  /-- The first of its parts to have no image is reported. -/
  failing : ∀ reason later, v.faults = reason :: later →
    encodeVariables typeName v = .error (.unencodable typeName reason)
  /-- What is unit-like stands for no variables, -/
  unitLike : v.core.UnitLike → encodeVariables typeName v = .ok []
  /-- and so does a number that is not finite. -/
  notFinite : v.core = .float none → encodeVariables typeName v = .ok []
  /-- Entries become the members of an object, sorted by name; where keys are of one kind and differ,
  these are all of them. -/
  entries : ∀ entries, v.core.entries? = some entries → v.faults = [] → ∃ members : Struct,
    List.Forall₂ KeyText (entries.map (·.1)) members.names ∧
    List.Forall₂ Image (entries.map (·.2)) (members.map (·.2)) ∧
    encodeVariables typeName v = .ok members.sort ∧
    (Unshared entries → members.sort.Perm members)
  /-- Any other scalar is refused, and so is a list. -/
  refused : ∀ kind, v.core.refused? = some kind → v.faults = [] →
    encodeVariables typeName v = .error (.notAStruct typeName kind)
  /-- Nothing else is accepted, -/
  accepted : (∃ made, encodeVariables typeName v = .ok made) ↔ v.faults = [] ∧ v.core.Accepted
  /-- and the code of a failure tells why. -/
  code : ∀ e, encodeVariables typeName v = .error e →
    e.code = if v.faults = [] then .invalidArgument else .encode

theorem encodeVariables_failing {later : List String} (h : v.faults = reason :: later) :
    encodeVariables typeName v = .error (.unencodable typeName reason) := by
  rw [encodeVariables, toJson?_eq_error h]

theorem encodeVariables_unitLike (h : v.core.UnitLike) : encodeVariables typeName v = .ok [] := by
  have hfaults : v.faults = [] := by
    rw [← faults_core]
    revert h
    cases v.core <;> simp [UnitLike, faults]
  obtain ⟨j, hj⟩ := exists_image_core hfaults
  exact encodeVariables_null (hj.of_unitLike h ▸ hj)

theorem encodeVariables_notFinite (h : v.core = .float none) :
    encodeVariables typeName v = .ok [] := by
  have hnull : Image v.core .null := h ▸ .notFinite
  exact encodeVariables_null hnull

theorem encodeVariables_entries (hv : v.core.entries? = some entries) (hfaults : v.faults = []) :
    ∃ members : Struct, List.Forall₂ KeyText (entries.map (·.1)) members.names ∧
      List.Forall₂ Image (entries.map (·.2)) (members.map (·.2)) ∧
      encodeVariables typeName v = .ok members.sort ∧
      (Unshared entries → members.sort.Perm members) := by
  obtain ⟨j, hj⟩ := exists_image_core hfaults
  obtain ⟨members, hkeys, hvalues, rfl⟩ := hj.of_entries hv
  refine ⟨members, hkeys, hvalues, encodeVariables_obj hj, fun hunshared => ?_⟩
  exact Struct.sort_perm (nodup_of_unshared hunshared hkeys)

theorem encodeVariables_refused (hv : v.core.refused? = some kind) (hfaults : v.faults = []) :
    encodeVariables typeName v = .error (.notAStruct typeName kind) := by
  obtain ⟨j, hj⟩ := exists_image_core hfaults
  obtain ⟨hnull, hobj, rfl⟩ := hj.of_refused hv
  rw [← encodeVariables_core, encodeVariables, (toJson?_eq_ok_iff v.core j).2 hj]
  cases j with
  | null => exact absurd rfl hnull
  | obj members => exact absurd rfl (hobj members)
  | _ => rfl

theorem encodeVariables_accepted (hv : v.core.Accepted) (hfaults : v.faults = []) :
    ∃ made, encodeVariables typeName v = .ok made := by
  rcases hv with hunit | hfloat | hentries
  · exact ⟨[], encodeVariables_unitLike hunit⟩
  · exact ⟨[], encodeVariables_notFinite hfloat⟩
  · obtain ⟨entries, hentries⟩ := Option.isSome_iff_exists.1 hentries
    obtain ⟨members, -, -, hmade, -⟩ := encodeVariables_entries hentries hfaults
    exact ⟨_, hmade⟩

end Serial

open Serial

/-- **Variables are a struct, or nothing at all.** -/
theorem variables_encoding (typeName : String) (v : Serial) : v.AsVariables typeName := by
  refine ⟨fun _ _ => encodeVariables_failing, encodeVariables_unitLike, encodeVariables_notFinite,
    fun _ => encodeVariables_entries, fun _ => encodeVariables_refused, ⟨?_, ?_⟩, ?_⟩
  · rintro ⟨made, hmade⟩
    cases hfaults : v.faults with
    | nil =>
      rcases accepted_or_refused hfaults with haccepted | ⟨kind, hkind⟩
      · exact ⟨rfl, haccepted⟩
      · rw [encodeVariables_refused hkind hfaults] at hmade
        cases hmade
    | cons reason later =>
      rw [encodeVariables_failing hfaults] at hmade
      cases hmade
  · rintro ⟨hfaults, haccepted⟩
    exact encodeVariables_accepted haccepted hfaults
  · intro e he
    cases hfaults : v.faults with
    | nil =>
      rcases accepted_or_refused hfaults with haccepted | ⟨kind, hkind⟩
      · obtain ⟨made, hmade⟩ : ∃ made, encodeVariables typeName v = .ok made :=
          encodeVariables_accepted haccepted hfaults
        rw [hmade] at he
        cases he
      · rw [encodeVariables_refused hkind hfaults] at he
        cases he
        rfl
    | cons reason later =>
      rw [encodeVariables_failing hfaults] at he
      cases he
      rfl

/-- A number that is not finite passes for no variables, although it is not unit-like. -/
theorem notFinite_encodes : encodeVariables "f64" (.float none) = .ok [] ∧
    ¬ (Serial.float none).core.UnitLike :=
  ⟨rfl, id⟩

end QueryClient
