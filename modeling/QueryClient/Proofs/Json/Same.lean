import Mathlib.Data.List.Forall2
import Mathlib.Data.Option.Basic
import Mathlib.Data.String.Basic
import QueryClient.Json.Basic

/-!
# The same JSON value

The order in which an object lists its members has no meaning, at whatever depth; of several members
of one name the last counts. Everything else has: the order of items, and whether a number is an
integer or a float.

* `Json.Same`: two texts of one value.
* `Struct.get?_sort`: what sorting keeps.
* `Struct.sort_eq_iff`: sorted members are the same when the members say the same.
* `Json.same_iff`: **values are the same if and only if they have one normal form.**
-/

namespace QueryClient

/-- The value of a member, the last one if there are several of its name. -/
def Struct.value? (members : Struct) (name : String) : Option Json :=
  Struct.get? members.reverse name

namespace Json

/-- **The same value:** members are found by name, items by place. -/
inductive Same : Json → Json → Prop where
  | null : Same .null .null
  | bool (b : Bool) : Same (.bool b) (.bool b)
  | int (n : ℤ) : Same (.int n) (.int n)
  | float (x : Binary64) : Same (.float x) (.float x)
  | str (s : String) : Same (.str s) (.str s)
  | arr {as bs : List Json} : List.Forall₂ Same as bs → Same (.arr as) (.arr bs)
  | obj {as bs : Struct} : (∀ name, Option.Rel Same (Struct.value? as name) (Struct.value? bs name)) →
      Same (.obj as) (.obj bs)

end Json

namespace Struct

variable {as bs : Struct} {name other : String} {v : Json}

/-! ## Members in order -/

/-- The names are in strictly increasing order. -/
def Ordered (members : Struct) : Prop := members.Pairwise fun a b => a.1 < b.1

theorem get?_cons (m : String × Json) (ms : Struct) (name : String) :
    get? (m :: ms) name = if m.1 = name then some m.2 else get? ms name := by
  unfold get?
  rw [List.find?_cons]
  split
  · rename_i h
    rw [if_pos (by simpa using h)]
    rfl
  · rename_i h
    rw [if_neg (by simpa using h)]

theorem get?_eq_none (h : ∀ m ∈ as, m.1 ≠ name) : get? as name = none := by
  unfold get?
  rw [Option.map_eq_none_iff, List.find?_eq_none]
  intro m hm
  simpa using h m hm

theorem get?_insert (as : Struct) (name : String) (v : Json) (other : String) :
    get? (insert name v as) other = if name = other then some v else get? as other := by
  induction as with
  | nil => exact get?_cons _ _ _
  | cons m ms ih =>
    obtain ⟨key, old⟩ := m
    unfold insert
    split
    · rename_i hkey
      subst hkey
      rw [get?_cons, get?_cons]
      split <;> rfl
    split
    · rw [get?_cons]
    · rename_i hkey _
      rw [get?_cons, get?_cons, ih]
      by_cases hother : key = other
      · rw [if_pos hother, if_pos hother, if_neg (by rintro rfl; exact hkey hother.symm)]
      · rw [if_neg hother, if_neg hother]

theorem mem_insert {m : String × Json} (h : m ∈ insert name v as) : m = (name, v) ∨ m ∈ as := by
  induction as with
  | nil => exact .inl (List.mem_singleton.1 h)
  | cons p ps ih =>
    obtain ⟨key, old⟩ := p
    unfold insert at h
    split at h
    · exact (List.mem_cons.1 h).imp_right (List.mem_cons_of_mem _)
    split at h
    · exact List.mem_cons.1 h
    · rcases List.mem_cons.1 h with rfl | h
      · exact .inr List.mem_cons_self
      · exact (ih h).imp_right (List.mem_cons_of_mem _)

theorem Ordered.insert (h : Ordered as) (name : String) (v : Json) : Ordered (insert name v as) := by
  induction as with
  | nil => exact List.pairwise_singleton _ _
  | cons p ps ih =>
    obtain ⟨key, old⟩ := p
    obtain ⟨hall, hps⟩ := List.pairwise_cons.1 h
    unfold Struct.insert
    split
    · rename_i hkey
      subst hkey
      exact List.pairwise_cons.2 ⟨hall, hps⟩
    split
    · rename_i hlt
      refine List.pairwise_cons.2 ⟨fun m hm => ?_, h⟩
      rcases List.mem_cons.1 hm with rfl | hm
      · exact hlt
      · exact lt_trans hlt (hall m hm)
    · rename_i hne hnlt
      refine List.pairwise_cons.2 ⟨fun m hm => ?_, ih hps⟩
      rcases mem_insert hm with rfl | hm
      · exact lt_of_le_of_ne (not_lt.1 hnlt) (Ne.symm hne)
      · exact hall m hm

/-- Ordered members are told apart by what they say. -/
theorem Ordered.ext (ha : Ordered as) (hb : Ordered bs) (h : ∀ name, get? as name = get? bs name) :
    as = bs := by
  induction as generalizing bs with
  | nil =>
    cases bs with
    | nil => rfl
    | cons m ms =>
      have := h m.1
      rw [get?_cons, if_pos rfl] at this
      simp [get?] at this
  | cons p ps ih =>
    cases bs with
    | nil =>
      have := h p.1
      rw [get?_cons, if_pos rfl] at this
      simp [get?] at this
    | cons m ms =>
      obtain ⟨hpall, hps⟩ := List.pairwise_cons.1 ha
      obtain ⟨hmall, hms⟩ := List.pairwise_cons.1 hb
      -- neither first name can be missing from the other members
      have hname : p.1 = m.1 := by
        rcases lt_trichotomy p.1 m.1 with hlt | heq | hgt
        · have hp := h p.1
          rw [get?_cons, if_pos rfl, get?_cons, if_neg (ne_of_gt hlt),
            get?_eq_none fun x hx => ne_of_gt (lt_trans hlt (hmall x hx))] at hp
          simp at hp
        · exact heq
        · have hm := h m.1
          rw [get?_cons, if_neg (ne_of_gt hgt), get?_cons, if_pos rfl,
            get?_eq_none fun x hx => ne_of_gt (lt_trans hgt (hpall x hx))] at hm
          simp at hm
      have hfirst := h p.1
      rw [get?_cons, if_pos rfl, get?_cons, if_pos hname.symm] at hfirst
      have hmem : p = m := Prod.ext hname (Option.some.inj hfirst)
      subst hmem
      refine congrArg _ (ih hps hms fun name => ?_)
      have hrest := h name
      rw [get?_cons, get?_cons] at hrest
      by_cases hn : p.1 = name
      · subst hn
        rw [get?_eq_none fun x hx => ne_of_gt (hpall x hx),
          get?_eq_none fun x hx => ne_of_gt (hmall x hx)]
      · rwa [if_neg hn, if_neg hn] at hrest

/-! ## Sorting -/

theorem get?_append (as bs : Struct) (name : String) :
    get? (as ++ bs) name = (get? as name).or (get? bs name) := by
  induction as with
  | nil => rfl
  | cons m ms ih =>
    rw [List.cons_append, get?_cons, get?_cons, ih]
    split <;> rfl

theorem value?_cons (m : String × Json) (ms : Struct) (name : String) :
    value? (m :: ms) name = (value? ms name).or (if m.1 = name then some m.2 else none) := by
  unfold value?
  rw [List.reverse_cons, get?_append, get?_cons]
  rfl

theorem foldl_insert (as sorted : Struct) (h : Ordered sorted) :
    Ordered (as.foldl (fun sorted m => insert m.1 m.2 sorted) sorted) ∧
      ∀ name, get? (as.foldl (fun sorted m => insert m.1 m.2 sorted) sorted) name =
        (value? as name).or (get? sorted name) := by
  induction as generalizing sorted with
  | nil => exact ⟨h, fun _ => rfl⟩
  | cons m ms ih =>
    obtain ⟨hord, hget⟩ := ih _ (h.insert m.1 m.2)
    refine ⟨hord, fun name => ?_⟩
    rw [List.foldl_cons, hget, get?_insert, value?_cons, Option.or_assoc]
    congr 1
    split <;> rfl

theorem ordered_sort (as : Struct) : Ordered (sort as) :=
  (foldl_insert as [] List.Pairwise.nil).1

/-- **Sorting keeps what the members say.** -/
theorem get?_sort (as : Struct) (name : String) : get? (sort as) name = value? as name := by
  refine ((foldl_insert as [] List.Pairwise.nil).2 name).trans ?_
  rw [show get? [] name = none from rfl, Option.or_none]

theorem sort_eq_iff : sort as = sort bs ↔ ∀ name, value? as name = value? bs name := by
  constructor
  · intro h name
    rw [← get?_sort, ← get?_sort, h]
  · intro h
    refine (ordered_sort as).ext (ordered_sort bs) fun name => ?_
    rw [get?_sort, get?_sort, h name]

end Struct

/-! ## Normal forms -/

namespace Json

theorem normalizeItems_eq (as : List Json) : normalizeItems as = as.map normalize := by
  induction as with
  | nil => rfl
  | cons a as ih => rw [normalizeItems, ih, List.map_cons]

theorem value?_normalizeMembers (as : Struct) (name : String) :
    Struct.value? (normalizeMembers as) name = (Struct.value? as name).map normalize := by
  induction as with
  | nil => rfl
  | cons m ms ih =>
    rw [normalizeMembers, Struct.value?_cons, Struct.value?_cons, ih, Option.map_or]
    congr 1
    split <;> rfl

theorem exists_of_value? {as : Struct} {name : String} {v : Json} (h : Struct.value? as name = some v) :
    ∃ m ∈ as, m.2 = v := by
  unfold Struct.value? Struct.get? at h
  obtain ⟨m, hm, rfl⟩ := Option.map_eq_some_iff.1 h
  exact ⟨m, List.mem_reverse.1 (List.mem_of_find?_eq_some hm), rfl⟩

/-- Items are the same when their normal forms are equal, if this holds of each. -/
theorem forall₂_same_iff {as bs : List Json}
    (ih : ∀ a ∈ as, ∀ b, Same a b ↔ a.normalize = b.normalize) :
    List.Forall₂ Same as bs ↔ as.map normalize = bs.map normalize := by
  induction as generalizing bs with
  | nil => cases bs <;> simp
  | cons a as ihl =>
    cases bs with
    | nil => simp
    | cons b bs =>
      rw [List.forall₂_cons, List.map_cons, List.map_cons, List.cons.injEq,
        ih a List.mem_cons_self b, ihl fun a ha => ih a (List.mem_cons_of_mem _ ha)]

/-- So are members. -/
theorem rel_same_iff {as bs : Struct}
    (ih : ∀ m ∈ as, ∀ b, Same m.2 b ↔ m.2.normalize = b.normalize) (name : String) :
    Option.Rel Same (Struct.value? as name) (Struct.value? bs name) ↔
      (Struct.value? as name).map normalize = (Struct.value? bs name).map normalize := by
  cases ha : Struct.value? as name with
  | none => cases Struct.value? bs name <;> simp
  | some a =>
    obtain ⟨m, hm, rfl⟩ := exists_of_value? ha
    cases Struct.value? bs name with
    | none => simp
    | some b => simpa using ih m hm b

mutual

/-- **Values are the same if and only if they have one normal form.** -/
theorem same_iff : ∀ a b : Json, Same a b ↔ a.normalize = b.normalize
  | .null, b => by
    cases b with
    | null => exact ⟨fun _ => rfl, fun _ => .null⟩
    | _ => exact ⟨nofun, fun h => by simp [normalize] at h⟩
  | .bool x, b => by
    cases b with
    | bool y =>
      refine ⟨fun h => by cases h; rfl, fun h => ?_⟩
      obtain rfl : x = y := by simpa only [normalize, bool.injEq] using h
      exact .bool _
    | _ => exact ⟨nofun, fun h => by simp [normalize] at h⟩
  | .int n, b => by
    cases b with
    | int y =>
      refine ⟨fun h => by cases h; rfl, fun h => ?_⟩
      obtain rfl : n = y := by simpa only [normalize, int.injEq] using h
      exact .int _
    | _ => exact ⟨nofun, fun h => by simp [normalize] at h⟩
  | .float x, b => by
    cases b with
    | float y =>
      refine ⟨fun h => by cases h; rfl, fun h => ?_⟩
      obtain rfl : x = y := by simpa only [normalize, float.injEq] using h
      exact .float _
    | _ => exact ⟨nofun, fun h => by simp [normalize] at h⟩
  | .str s, b => by
    cases b with
    | str y =>
      refine ⟨fun h => by cases h; rfl, fun h => ?_⟩
      obtain rfl : s = y := by simpa only [normalize, str.injEq] using h
      exact .str _
    | _ => exact ⟨nofun, fun h => by simp [normalize] at h⟩
  | .arr as, b => by
    have ih := same_iff_items as
    cases b with
    | arr bs =>
      have hitems : List.Forall₂ Same as bs ↔ as.map normalize = bs.map normalize :=
        forall₂_same_iff ih
      rw [normalize, normalize, arr.injEq, normalizeItems_eq, normalizeItems_eq, ← hitems]
      exact ⟨fun h => by cases h; assumption, .arr⟩
    | _ => exact ⟨nofun, fun h => by simp [normalize] at h⟩
  | .obj as, b => by
    have ih := same_iff_members as
    cases b with
    | obj bs =>
      rw [normalize, normalize, obj.injEq, Struct.sort_eq_iff]
      have hmembers : (∀ name, Struct.value? (normalizeMembers as) name =
          Struct.value? (normalizeMembers bs) name) ↔
          ∀ name, Option.Rel Same (Struct.value? as name) (Struct.value? bs name) := by
        refine forall_congr' fun name => ?_
        rw [value?_normalizeMembers, value?_normalizeMembers, rel_same_iff ih]
      rw [hmembers]
      exact ⟨fun h => by cases h; assumption, .obj⟩
    | _ => exact ⟨nofun, fun h => by simp [normalize] at h⟩

theorem same_iff_items : ∀ as : List Json, ∀ a ∈ as, ∀ b, Same a b ↔ a.normalize = b.normalize
  | [] => by simp
  | a :: as => List.forall_mem_cons.2 ⟨same_iff a, same_iff_items as⟩

theorem same_iff_members : ∀ as : Struct, ∀ m ∈ as, ∀ b, Same m.2 b ↔ m.2.normalize = b.normalize
  | [] => by simp
  | (_, a) :: as => List.forall_mem_cons.2 ⟨same_iff a, same_iff_members as⟩

end

end Json

end QueryClient
