import QueryClient.Codec.Decode
import QueryClient.Proofs.Json.Reorder

/-!
# The forms of a record

A record is read from an object or from the list of its fields. In an object the fields are found by
their names, others are passed over, and an optional field that has no value may be left out. In a list
they are found by their places, so what is missing is missing at the end, and only some fields may be.

* `Slot`, `RecordForm`: **the forms of a record,** from the forms of its fields.
* `Fields.build_add`, `Fields.RefusesUnreadable`: what a record is built from.
* `Decoder.record_eq_ok_iff`: **a record is read from its forms,** and from nothing else.
* `RecordForm.perm`, `RecordForm.cons`, `RecordForm.leave_out`, `RecordForm.replace`, `RecordForm.listed`: the
  forms that a form can be changed into.
-/

namespace QueryClient

/-! ## Forms -/

/-- How the value of a field may be given. -/
structure Slot where
  name : String
  /-- What may stand for the value. -/
  admits : Json → Prop
  /-- The value is the one that the field has if nothing is given for it. -/
  optional : Prop
  /-- A list may end before the field. -/
  trailing : Bool

/-- Something stands for the value of a field, or nothing does. -/
def Slot.Holds (s : Slot) : Option Json → Prop
  | some j => s.admits j
  | none => s.optional

/-- **The list of a record's fields** in the order of their declaration, perhaps without the last ones. -/
inductive ListForm : List Slot → List Json → Prop where
  | ended {slots : List Slot} (h : ∀ s ∈ slots, s.trailing ∧ s.optional) : ListForm slots []
  | item {s : Slot} {slots : List Slot} {j : Json} {items : List Json} (hj : s.admits j)
      (h : ListForm slots items) : ListForm (s :: slots) (j :: items)

/-- **The forms of a record** whose fields have the given values: an object with the fields among its
members, or the list of the fields. -/
inductive RecordForm (slots : List Slot) : Json → Prop where
  | object {members : Struct} (h : ∀ s ∈ slots, s.Holds (members.get? s.name)) :
      RecordForm slots (.obj members)
  | list {items : List Json} (h : ListForm slots items) : RecordForm slots (.arr items)

/-- A field that has to be given. -/
def Slot.mandatory (name : String) (admits : Json → Prop) : Slot := ⟨name, admits, False, false⟩

/-- A field that may be none, and is null then or not given at all. -/
def Slot.maybe {α : Type} (name : String) (write : α → Json) (value : Option α) (trailing : Bool) : Slot :=
  ⟨name, (· = Json.ofOption write value), value = none, trailing⟩

variable {α β : Type} {name : String} {s : Slot} {slots : List Slot} {j : Json} {items : List Json}
variable {members others : Struct}

/-! ## Building a record -/

namespace Fields

/-- What is read where a field may be: its value, or the one that it has if nothing is given. -/
def ReadOr (d : Decoder α) (absent : Option α) (given : Option Json) (a : α) : Prop :=
  match given with
  | some j => d.run j = .ok a
  | none => absent = some a

theorem build_add (fs : Fields (α → β)) (name : String) (d : Decoder α) (absent : Option α)
    (hasDefault : Bool) (value? : String → Option Json) (b : β) :
    (fs.add name d absent hasDefault).build value? = .ok b ↔
      ∃ f a, fs.build value? = .ok f ∧ ReadOr d absent (value? name) a ∧ f a = b := by
  show (fs.build value? >>= _) = .ok b ↔ _
  unfold ReadOr
  cases fs.build value? with
  | error fault => simp [bind, Except.bind]
  | ok f =>
    cases value? name with
    | some j =>
      simp only [bind, Except.bind]
      cases d.run j <;> simp [Pure.pure, Except.pure]
    | none => cases absent <;> simp [bind, Except.bind, Pure.pure, Except.pure]

theorem found_mandatory {d : Decoder α} {a : α} {admits : Json → Prop} {given : Option Json}
    (h : ∀ j, given = some j → (d.run j = .ok a ↔ admits j)) :
    ReadOr d none given a ↔ (Slot.mandatory name admits).Holds given := by
  cases given with
  | some j => exact h j rfl
  | none => exact ⟨nofun, False.elim⟩

theorem found_maybe {d : Decoder α} {write : α → Json} (hd : ∀ j a, d.run j = .ok a ↔ j = write a)
    (hwrite : ∀ a, write a ≠ .null) (a : Option α) (trailing : Bool) (given : Option Json) :
    ReadOr d.option (some none) given a ↔ (Slot.maybe name write a trailing).Holds given := by
  cases given with
  | none => exact ⟨fun h => (Option.some.inj h).symm, fun h => congrArg some h.symm⟩
  | some j =>
    show d.option.run j = .ok a ↔ j = Json.ofOption write a
    by_cases hj : j = .null
    · subst hj
      cases a with
      | none => exact ⟨fun _ => rfl, fun _ => rfl⟩
      | some a => exact ⟨nofun, fun h => absurd h.symm (hwrite a)⟩
    · have hrun : d.option.run j = (d.run j).map some := by
        cases j <;> first | rfl | exact absurd rfl hj
      rw [hrun]
      cases a with
      | none =>
        refine ⟨fun h => ?_, fun h => absurd h hj⟩
        cases hr : d.run j <;> simp [hr, Except.map] at h
      | some a =>
        show _ ↔ j = write a
        rw [← hd]
        cases d.run j <;> simp [Except.map]

/-- A record is built only from fields that can be read. -/
structure RefusesUnreadable (fs : Fields α) : Prop where
  readable : ∀ value? a, fs.build value? = .ok a →
    ∀ f ∈ fs.fields, ∀ j, value? f.name = some j → f.fault? j = none

theorem RefusesUnreadable.pure (value : α) : (Fields.pure value).RefusesUnreadable := by
  refine ⟨fun value? a _ f hf => ?_⟩
  simp [Fields.pure] at hf

theorem RefusesUnreadable.add {fs : Fields (α → β)} (h : fs.RefusesUnreadable) (name : String) (d : Decoder α)
    (absent : Option α) (hasDefault : Bool) : (fs.add name d absent hasDefault).RefusesUnreadable := by
  refine ⟨fun value? b hb f hf j hj => ?_⟩
  obtain ⟨g, a, hg, hfound, -⟩ := (build_add ..).1 hb
  rcases List.mem_append.1 hf with hf | hf
  · exact h.readable value? g hg f hf j hj
  · obtain rfl := List.mem_singleton.1 hf
    have hj : value? name = some j := hj
    rw [hj] at hfound
    have hread : d.run j = .ok a := hfound
    simp [Decoder.fault?, hread]

theorem memberFault?_eq_none {fields : List Field}
    (h : ∀ m ∈ members, ∀ f ∈ fields, f.name = m.1 → f.fault? m.2 = none) :
    memberFault? fields members = none := by
  induction members with
  | nil => rfl
  | cons m ms ih =>
    obtain ⟨hm, hms⟩ := List.forall_mem_cons.1 h
    have hnone : ((fields.find? fun f => f.name = m.1).bind fun f => f.fault? m.2) = none := by
      cases hfind : fields.find? fun f => f.name = m.1 with
      | none => rfl
      | some f =>
        have hname : f.name = m.1 := by simpa using List.find?_some hfind
        exact hm f (List.mem_of_find?_eq_some hfind) hname
    rw [memberFault?, hnone]
    exact ih hms

theorem itemFault?_eq_none_iff {expected : String} {count : ℕ} {fields : List Field} :
    itemFault? expected count fields items = none ↔ items.length ≤ fields.length ∧
      (∀ f ∈ fields.drop items.length, f.hasDefault) ∧ ∀ p ∈ fields.zip items, p.1.fault? p.2 = none := by
  induction fields generalizing items count with
  | nil => cases items <;> simp [itemFault?]
  | cons field fields ih =>
    cases items with
    | nil =>
      have hrest := @ih [] count
      simp only [List.length_nil, Nat.zero_le, List.drop_zero, List.zip_nil_right, List.not_mem_nil,
        false_imp_iff, implies_true, and_true, true_and] at hrest
      rw [itemFault?]
      split
      · rename_i hdefault
        simp [hrest, hdefault]
      · rename_i hdefault
        simp [hdefault]
    | cons item items =>
      rw [itemFault?]
      split
      · rename_i fault hfault
        simp [hfault]
      · rename_i hfault
        rw [ih]
        simp [hfault]

end Fields

/-- One member is left out. -/
theorem Struct.get?_without (members : Struct) (name other : String) :
    Struct.get? (members.filter fun m => m.1 ≠ name) other =
      if other = name then none else members.get? other := by
  split
  · rename_i heq
    refine Struct.get?_eq_none fun m hm => ?_
    rw [heq]
    simpa using (List.mem_filter.1 hm).2
  · rename_i hne
    unfold Struct.get?
    rw [List.find?_filter]
    congr 2
    funext m
    by_cases hm : m.1 = other <;> simp [hm, hne]

/-- What is found in the list of the fields by name is what stands at their places. -/
theorem get?_zip {names : List String} (hn : names.Nodup) :
    Struct.get? (names.zip items) name = some j ↔ (name, j) ∈ names.zip items := by
  refine Struct.get?_eq_some ?_
  induction names generalizing items with
  | nil => simp [Struct.names]
  | cons n names ih =>
    cases items with
    | nil => simp [Struct.names]
    | cons item items =>
      obtain ⟨hnot, hnames⟩ := List.nodup_cons.1 hn
      refine List.nodup_cons.2 ⟨fun hmem => ?_, ih hnames⟩
      obtain ⟨m, hm, rfl⟩ := List.mem_map.1 hmem
      exact hnot (List.of_mem_zip hm).1

/-- **The list of the fields,** seen by their places. -/
theorem listForm_iff (hn : (slots.map (·.name)).Nodup) : ListForm slots items ↔
    items.length ≤ slots.length ∧ (∀ s ∈ slots.drop items.length, s.trailing) ∧
      ∀ s ∈ slots, s.Holds (Struct.get? ((slots.map (·.name)).zip items) s.name) := by
  induction slots generalizing items with
  | nil =>
    cases items with
    | nil => simpa using ListForm.ended (by simp)
    | cons item items => exact ⟨nofun, fun h => absurd h.1 (by simp)⟩
  | cons s slots ih =>
    cases items with
    | nil =>
      constructor
      · rintro (h | _)
        exact ⟨Nat.zero_le _, fun s hs => (h s hs).1, fun s hs => (h s hs).2⟩
      · rintro ⟨-, htrailing, hholds⟩
        exact .ended fun s hs => ⟨htrailing s hs, hholds s hs⟩
    | cons item items =>
      obtain ⟨hnot, hnames⟩ := List.nodup_cons.1 hn
      -- the others are not found at the first place
      have hothers : ∀ t ∈ slots, Struct.get? (((s :: slots).map (·.name)).zip (item :: items)) t.name =
          Struct.get? ((slots.map (·.name)).zip items) t.name := by
        intro t ht
        refine (Struct.get?_cons _ _ _).trans (if_neg fun heq => hnot ?_)
        exact List.mem_map.2 ⟨t, ht, heq.symm⟩
      have hfirst : Struct.get? (((s :: slots).map (·.name)).zip (item :: items)) s.name = some item :=
        (Struct.get?_cons _ _ _).trans (if_pos rfl)
      have hrest : (∀ t ∈ slots,
            t.Holds (Struct.get? (((s :: slots).map (·.name)).zip (item :: items)) t.name)) ↔
          ∀ t ∈ slots, t.Holds (Struct.get? ((slots.map (·.name)).zip items) t.name) :=
        forall₂_congr fun t ht => by rw [hothers t ht]
      rw [List.forall_mem_cons, hfirst, hrest, List.length_cons, List.length_cons, List.drop_succ_cons,
        Nat.add_le_add_iff_right]
      constructor
      · rintro (_ | ⟨hj, h⟩)
        obtain ⟨hlen, htrailing, hholds⟩ := (ih hnames).1 h
        exact ⟨hlen, htrailing, hj, hholds⟩
      · rintro ⟨hlen, htrailing, hj, hholds⟩
        exact .item hj ((ih hnames).2 ⟨hlen, htrailing, hholds⟩)

/-! ## Reading a record -/

/-- The fields of a record are those of the slots of each of its values. -/
structure Fields.Reads (fs : Fields α) (slots : α → List Slot) : Prop where
  sound : fs.RefusesUnreadable
  nodup : (fs.fields.map (·.name)).Nodup
  fields : ∀ a, fs.fields.map (fun f => (f.name, f.hasDefault)) = (slots a).map fun s => (s.name, s.trailing)
  build : ∀ value? a, (∀ name j, value? name = some j → j.WellFormed) →
    (fs.build value? = .ok a ↔ ∀ s ∈ slots a, s.Holds (value? s.name))

namespace Fields.Reads

variable {fs : Fields α} {slots : α → List Slot} {a : α}

theorem names (h : fs.Reads slots) (a : α) : fs.fields.map (·.name) = (slots a).map (·.name) := by
  have hmap := congrArg (List.map (·.1)) (h.fields a)
  rwa [List.map_map, List.map_map] at hmap

theorem object (h : fs.Reads slots) (hj : (Json.obj members).WellFormed) :
    (Decoder.record name fs).run (.obj members) = .ok a ↔ RecordForm (slots a) (.obj members) := by
  rw [Json.WellFormed, Json.wellFormedMembers_iff] at hj
  have hget : ∀ name j, members.get? name = some j → j.WellFormed :=
    fun name j hm => hj.2 _ ((Struct.get?_eq_some hj.1).1 hm)
  have hrun : (Decoder.record name fs).run (.obj members) = .ok a ↔ fs.build members.get? = .ok a := by
    simp only [Decoder.record]
    constructor
    · intro hrun
      split at hrun
      · simp at hrun
      · exact hrun
    · intro hbuild
      -- a member that has a fault would be the value of its field
      rw [memberFault?_eq_none fun m hm f hf hname => ?_]
      · exact hbuild
      · refine h.sound.readable _ a hbuild f hf m.2 ?_
        exact (Struct.get?_eq_some hj.1).2 (by rw [hname]; exact hm)
  rw [hrun, h.build _ a hget]
  exact ⟨.object, fun h => by cases h with | object h => exact h⟩

theorem list (h : fs.Reads slots) (hj : (Json.arr items).WellFormed) :
    (Decoder.record name fs).run (.arr items) = .ok a ↔ RecordForm (slots a) (.arr items) := by
  rw [Json.WellFormed, Json.wellFormedItems_iff] at hj
  have hget : ∀ name j, Struct.get? ((fs.fields.map (·.name)).zip items) name = some j → j.WellFormed :=
    fun name j hm => hj _ (List.of_mem_zip ((get?_zip h.nodup).1 hm)).2
  have hform : RecordForm (slots a) (.arr items) ↔ ListForm (slots a) items :=
    ⟨fun h => by cases h with | list h => exact h, .list⟩
  have hlen : fs.fields.length = (slots a).length := by
    simpa using congrArg List.length (h.names a)
  have hdefault : (∀ f ∈ fs.fields.drop items.length, f.hasDefault) ↔
      ∀ s ∈ (slots a).drop items.length, s.trailing := by
    have hflags : fs.fields.map Field.hasDefault = (slots a).map Slot.trailing := by
      have hmap := congrArg (List.map (·.2)) (h.fields a)
      rwa [List.map_map, List.map_map] at hmap
    have hall : ∀ {γ : Type} (l : List γ) (p : γ → Bool),
        (∀ x ∈ l.drop items.length, p x) ↔ ∀ b ∈ (l.map p).drop items.length, b = true := by
      intro γ l p
      rw [← List.map_drop, List.forall_mem_map]
    exact (hall fs.fields Field.hasDefault).trans (by rw [hflags, ← hall (slots a) Slot.trailing])
  have hrun : (Decoder.record name fs).run (.arr items) = .ok a ↔ items.length ≤ fs.fields.length ∧
      (∀ f ∈ fs.fields.drop items.length, f.hasDefault) ∧
        fs.build (Struct.get? ((fs.fields.map (·.name)).zip items)) = .ok a := by
    simp only [Decoder.record]
    constructor
    · intro hrun
      split at hrun
      · simp at hrun
      · rename_i hnone
        obtain ⟨hle, hrest, -⟩ := itemFault?_eq_none_iff.1 hnone
        exact ⟨hle, hrest, hrun⟩
    · rintro ⟨hle, hrest, hbuild⟩
      -- an item that has a fault would be the value of the field at its place
      rw [itemFault?_eq_none_iff.2 ⟨hle, hrest, fun p hp => ?_⟩]
      · exact hbuild
      · refine h.sound.readable _ a hbuild p.1 (List.of_mem_zip hp).1 p.2 ((get?_zip h.nodup).2 ?_)
        rw [List.zip_map_left]
        exact List.mem_map.2 ⟨p, hp, rfl⟩
  rw [hrun, hform, listForm_iff (by rw [← h.names a]; exact h.nodup), h.build _ a hget, h.names a, hlen,
    hdefault]

end Fields.Reads

/-- **A record is read from its forms,** and from nothing else. -/
theorem Decoder.record_eq_ok_iff {fs : Fields α} {slots : α → List Slot} {a : α} (h : fs.Reads slots)
    (hj : j.WellFormed) : (Decoder.record name fs).run j = .ok a ↔ RecordForm (slots a) j := by
  cases j with
  | obj members => exact h.object hj
  | arr items => exact h.list hj
  | _ => exact ⟨nofun, nofun⟩

/-! ## Other forms of the same record -/

namespace RecordForm

/-- The members may come in any order. -/
theorem perm (h : RecordForm slots (.obj members)) (hn : members.names.Nodup) (hp : members.Perm others) :
    RecordForm slots (.obj others) := by
  have hget : ∀ name, Struct.get? others name = members.get? name := by
    intro name
    refine Option.ext fun j => ?_
    have hothers : (Struct.names others).Nodup := (hp.map _).nodup_iff.1 hn
    rw [Struct.get?_eq_some hothers, Struct.get?_eq_some hn, hp.mem_iff]
  cases h with
  | object h => exact .object fun s hs => by rw [hget]; exact h s hs

/-- Unknown members may be there. -/
theorem cons (h : RecordForm slots (.obj members)) (hname : ∀ s ∈ slots, s.name ≠ name) (j : Json) :
    RecordForm slots (.obj ((name, j) :: members)) := by
  cases h with
  | object h =>
    refine .object fun s hs => ?_
    rw [Struct.get?_cons, if_neg (Ne.symm (hname s hs))]
    exact h s hs

/-- A member that is null may be left out, if null stands for a value only where it is none. -/
theorem leave_out (h : RecordForm slots (.obj members)) (hnull : ∀ s ∈ slots, s.admits .null → s.optional)
    (hname : members.get? name = some .null) :
    RecordForm slots (.obj (members.filter fun m => m.1 ≠ name)) := by
  cases h with
  | object h =>
    refine .object fun s hs => ?_
    rw [Struct.get?_without]
    have hgiven := h s hs
    split
    · rename_i heq
      rw [heq, hname] at hgiven
      exact hnull s hs hgiven
    · exact hgiven

/-- A field may be given in another way. -/
theorem replace (h : RecordForm (s :: slots) (.obj members)) (hname : ∀ t ∈ slots, t.name ≠ s.name)
    (hj : s.admits j) :
    RecordForm (s :: slots) (.obj ((s.name, j) :: members.filter fun m => m.1 ≠ s.name)) := by
  cases h with
  | object h =>
    refine .object (List.forall_mem_cons.2 ⟨?_, fun t ht => ?_⟩)
    · rw [Struct.get?_cons, if_pos rfl]
      exact hj
    · rw [Struct.get?_cons, if_neg (Ne.symm (hname t ht)), Struct.get?_without, if_neg (hname t ht)]
      exact h t (List.mem_cons_of_mem _ ht)

/-- The fields may be listed, if all of them are there. -/
theorem listed (h : RecordForm slots (.obj members))
    (hitems : List.Forall₂ (fun s item => members.get? s.name = some item) slots items) :
    RecordForm slots (.arr items) := by
  cases h with
  | object h =>
    refine .list ?_
    induction hitems with
    | nil => exact .ended (by simp)
    | cons hitem _ ih =>
      obtain ⟨hs, hslots⟩ := List.forall_mem_cons.1 h
      rw [hitem] at hs
      exact .item hs (ih hslots)

/-- **What an object has to say:** each field that has to be given. -/
theorem given (h : RecordForm slots (.obj members)) (hs : s ∈ slots) (hopt : ¬ s.optional) :
    (members.get? s.name).isSome := by
  cases h with
  | object h =>
    have hs := h s hs
    cases hget : members.get? s.name with
    | some j => rfl
    | none => rw [hget] at hs; exact absurd hs hopt

/-- **What a list has to hold:** each field before which it may not end. -/
theorem length_lt (h : RecordForm slots (.arr items)) {n : ℕ} (hs : slots[n]? = some s)
    (htrailing : s.trailing = false) : n < items.length := by
  cases h with
  | list h =>
    induction h generalizing n with
    | ended h =>
      have hmem := (h s (List.mem_of_getElem? hs)).1
      rw [htrailing] at hmem
      simp at hmem
    | item _ _ ih =>
      cases n with
      | zero => exact Nat.succ_pos _
      | succ n => exact Nat.succ_lt_succ (ih (by simpa using hs))

end RecordForm

end QueryClient
