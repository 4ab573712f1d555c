import QueryClient.Proofs.Json.Canonical
import QueryClient.Proofs.Text.Bytes

/-!
# The canonical encoding is a faithful normal form

Objects that name no member twice have one encoding exactly when one is the other with its members in
another order, at whatever depth: nothing else is forgotten, and this is.

* `Json.Reordered`: the same value with members in another order.
* `Struct.value?_eq_some`: what an object says that names no member twice.
* `Json.reordered_iff`: **reordered values are the same values.**
* `Struct.Faithful`, `canonical_faithful`: **one encoding, one value.**
-/

namespace QueryClient

namespace Json

/-- **The same value with its members in another order,** at whatever depth. The order of items
stays. -/
inductive Reordered : Json → Json → Prop where
  | null : Reordered .null .null
  | bool (b : Bool) : Reordered (.bool b) (.bool b)
  | int (n : ℤ) : Reordered (.int n) (.int n)
  | float (x : Binary64) : Reordered (.float x) (.float x)
  | str (s : String) : Reordered (.str s) (.str s)
  | arr {as bs : List Json} : List.Forall₂ Reordered as bs → Reordered (.arr as) (.arr bs)
  | obj {as cs bs : Struct} (hperm : as.Perm cs) (hnames : cs.names = bs.names) :
      List.Forall₂ Reordered (cs.map (·.2)) (bs.map (·.2)) → Reordered (.obj as) (.obj bs)

end Json

namespace Struct

variable {as bs cs : Struct} {name : String} {v : Json}

/-! ## Objects that name no member twice -/

theorem get?_eq_some (h : as.names.Nodup) : get? as name = some v ↔ (name, v) ∈ as := by
  induction as with
  | nil => simp [get?]
  | cons m ms ih =>
    obtain ⟨key, w⟩ := m
    obtain ⟨hkey, hms⟩ := List.nodup_cons.1 h
    rw [get?_cons, List.mem_cons]
    split
    · rename_i hname
      obtain rfl : key = name := hname
      have hnot : (key, v) ∉ ms := fun hmem => hkey (List.mem_map.2 ⟨_, hmem, rfl⟩)
      simp [hnot, eq_comm]
    · rename_i hname
      rw [ih hms]
      simp [Ne.symm hname]

/-- **What an object says** are its members, if it names none twice. -/
theorem value?_eq_some (h : as.names.Nodup) : value? as name = some v ↔ (name, v) ∈ as := by
  have hreverse : Struct.names as.reverse = as.names.reverse := List.map_reverse
  unfold value?
  rw [get?_eq_some (by rw [hreverse]; exact List.nodup_reverse.2 h), List.mem_reverse]

/-- Names and values taken together are members. -/
theorem forall₂_members {R : Json → Json → Prop} :
    cs.names = bs.names ∧ List.Forall₂ R (cs.map (·.2)) (bs.map (·.2)) ↔
      List.Forall₂ (fun m n => m.1 = n.1 ∧ R m.2 n.2) cs bs := by
  induction cs generalizing bs with
  | nil => cases bs <;> simp [Struct.names]
  | cons m ms ih =>
    cases bs with
    | nil => simp [Struct.names]
    | cons n ns =>
      have ih := @ih ns
      simp only [Struct.names, List.map_cons, List.cons.injEq, List.forall₂_cons] at ih ⊢
      rw [← ih]
      constructor
      · rintro ⟨⟨hname, hnames⟩, hvalue, hvalues⟩
        exact ⟨⟨hname, hvalue⟩, hnames, hvalues⟩
      · rintro ⟨⟨hname, hvalue⟩, hnames, hvalues⟩
        exact ⟨⟨hname, hnames⟩, hvalue, hvalues⟩

theorem mem_names (h : as.names.Nodup) : name ∈ as.names ↔ (value? as name).isSome := by
  rw [Option.isSome_iff_exists, Struct.names, List.mem_map]
  constructor
  · rintro ⟨⟨_, v⟩, hm, rfl⟩
    exact ⟨v, (value?_eq_some h).2 hm⟩
  · rintro ⟨v, hv⟩
    exact ⟨_, (value?_eq_some h).1 hv, rfl⟩

theorem exists_of_forall₂ {α β : Type} {R : α → β → Prop} {xs : List α} {ys : List β} {x : α}
    (h : List.Forall₂ R xs ys) (hx : x ∈ xs) : ∃ y ∈ ys, R x y := by
  induction h with
  | nil => simp at hx
  | cons hab _ ih =>
    rcases List.mem_cons.1 hx with rfl | hx
    · exact ⟨_, List.mem_cons_self, hab⟩
    · obtain ⟨y, hy, hxy⟩ := ih hx
      exact ⟨y, List.mem_cons_of_mem _ hy, hxy⟩

/-- Members with the same names in the same order go together. -/
theorem forall₂_of_names {R : Json → Json → Prop} (hnames : cs.names = bs.names)
    (h : ∀ m ∈ cs, ∀ n ∈ bs, m.1 = n.1 → R m.2 n.2) :
    List.Forall₂ (fun m n => m.1 = n.1 ∧ R m.2 n.2) cs bs := by
  induction cs generalizing bs with
  | nil =>
    cases bs with
    | nil => exact .nil
    | cons n ns => simp [Struct.names] at hnames
  | cons m ms ih =>
    cases bs with
    | nil => simp [Struct.names] at hnames
    | cons n ns =>
      obtain ⟨hname, hnames⟩ := List.cons.inj hnames
      refine .cons ⟨hname, h m List.mem_cons_self n List.mem_cons_self hname⟩ (ih hnames ?_)
      exact fun m hm n hn => h m (List.mem_cons_of_mem _ hm) n (List.mem_cons_of_mem _ hn)

/-- Members with the same names can be put in the same order. -/
theorem exists_perm (h : as.names.Perm bs.names) : ∃ cs : Struct, as.Perm cs ∧ Struct.names cs = bs.names := by
  -- each member goes with its name
  have hnames : List.Forall₂ (fun (m : String × Json) n => m.1 = n) as as.names := by
    unfold Struct.names
    rw [List.forall₂_map_right_iff]
    exact List.forall₂_same.2 fun _ _ => rfl
  have hcomp : Relation.Comp (List.Forall₂ fun (m : String × Json) n => m.1 = n) List.Perm as bs.names :=
    ⟨_, hnames, h⟩
  rw [List.forall₂_comp_perm_eq_perm_comp_forall₂] at hcomp
  obtain ⟨cs, hperm, hcs⟩ := hcomp
  refine ⟨cs, hperm, ?_⟩
  have hmap : List.Forall₂ (· = ·) (Struct.names cs) bs.names := List.forall₂_map_left_iff.2 hcs
  exact List.forall₂_eq_eq_eq ▸ hmap

end Struct

namespace Json

/-! ## Reordered values are the same -/

theorem wellFormedItems_iff {as : List Json} : WellFormedItems as ↔ ∀ a ∈ as, a.WellFormed := by
  induction as with
  | nil => simp [WellFormedItems]
  | cons a as ih => rw [WellFormedItems, ih, List.forall_mem_cons]

theorem wellFormedMembers_iff {as : Struct} : WellFormedMembers as ↔ ∀ m ∈ as, m.2.WellFormed := by
  induction as with
  | nil => simp [WellFormedMembers]
  | cons m ms ih => rw [WellFormedMembers, ih, List.forall_mem_cons]

/-- Items are reordered when they are the same, if this holds of each. -/
theorem reorderedItems_iff {as bs : List Json} (ha : ∀ a ∈ as, a.WellFormed)
    (hb : ∀ b ∈ bs, b.WellFormed)
    (ih : ∀ a ∈ as, ∀ b, a.WellFormed → b.WellFormed → (Reordered a b ↔ Same a b)) :
    List.Forall₂ Reordered as bs ↔ List.Forall₂ Same as bs := by
  induction as generalizing bs with
  | nil => cases bs <;> simp
  | cons a as ihl =>
    cases bs with
    | nil => simp
    | cons b bs =>
      rw [List.forall_mem_cons] at ha hb ih
      rw [List.forall₂_cons, List.forall₂_cons, ih.1 b ha.1 hb.1, ihl ha.2 hb.2 ih.2]

/-- So are objects. -/
theorem reorderedMembers_iff {as bs : Struct} (ha : as.names.Nodup) (hb : bs.names.Nodup)
    (ih : ∀ m ∈ as, ∀ n ∈ bs, (Reordered m.2 n.2 ↔ Same m.2 n.2)) :
    Reordered (.obj as) (.obj bs) ↔ Same (.obj as) (.obj bs) := by
  constructor
  · rintro (_ | _ | _ | _ | _ | _ | ⟨hperm, hnames, hvalues⟩)
    have hpairs := Struct.forall₂_members.1 ⟨hnames, hvalues⟩
    -- the member of a name is found on either side
    have hleft : ∀ m ∈ as, ∃ n ∈ bs, m.1 = n.1 ∧ Reordered m.2 n.2 :=
      fun m hm => Struct.exists_of_forall₂ hpairs (hperm.mem_iff.1 hm)
    have hright : ∀ n ∈ bs, ∃ m ∈ as, m.1 = n.1 := by
      intro n hn
      obtain ⟨m, hm, hname, -⟩ := Struct.exists_of_forall₂ hpairs.flip hn
      exact ⟨m, hperm.mem_iff.2 hm, hname⟩
    refine .obj fun name => ?_
    cases hav : Struct.value? as name with
    | some v =>
      have hm := (Struct.value?_eq_some ha).1 hav
      obtain ⟨⟨other, w⟩, hn, rfl, hvw⟩ := hleft _ hm
      rw [(Struct.value?_eq_some hb).2 hn]
      exact .some ((ih _ hm _ hn).1 hvw)
    | none =>
      cases hbv : Struct.value? bs name with
      | none => exact .none
      | some w =>
        obtain ⟨⟨other, v⟩, hm, rfl⟩ := hright _ ((Struct.value?_eq_some hb).1 hbv)
        rw [(Struct.value?_eq_some ha).2 hm] at hav
        simp at hav
  · rintro (_ | _ | _ | _ | _ | _ | hsame)
    have hnames : as.names.Perm bs.names := by
      refine (List.perm_ext_iff_of_nodup ha hb).2 fun name => ?_
      rw [Struct.mem_names ha, Struct.mem_names hb]
      have hrel := hsame name
      cases hav : Struct.value? as name <;> cases hbv : Struct.value? bs name <;> simp_all
    obtain ⟨cs, hperm, hcs⟩ := Struct.exists_perm hnames
    obtain ⟨-, hvalues⟩ := Struct.forall₂_members.2 (Struct.forall₂_of_names hcs fun m hm n hn hname => by
      have hm := hperm.mem_iff.2 hm
      refine (ih m hm n hn).2 ?_
      have hrel := hsame m.1
      rw [(Struct.value?_eq_some ha).2 hm, (Struct.value?_eq_some hb).2 (by rw [hname]; exact hn)] at hrel
      simpa using hrel)
    exact .obj hperm hcs hvalues

mutual

/-- **Reordered values are the same values,** if no object names a member twice. -/
theorem reordered_iff : ∀ a b : Json, a.WellFormed → b.WellFormed → (Reordered a b ↔ Same a b)
  | .null, b, _, _ => by
    cases b with
    | null => exact ⟨fun _ => .null, fun _ => .null⟩
    | _ => exact ⟨nofun, nofun⟩
  | .bool x, b, _, _ => by
    cases b with
    | bool y => exact ⟨fun h => by cases h; exact .bool _, fun h => by cases h; exact .bool _⟩
    | _ => exact ⟨nofun, nofun⟩
  | .int n, b, _, _ => by
    cases b with
    | int k => exact ⟨fun h => by cases h; exact .int _, fun h => by cases h; exact .int _⟩
    | _ => exact ⟨nofun, nofun⟩
  | .float x, b, _, _ => by
    cases b with
    | float y => exact ⟨fun h => by cases h; exact .float _, fun h => by cases h; exact .float _⟩
    | _ => exact ⟨nofun, nofun⟩
  | .str s, b, _, _ => by
    cases b with
    | str t => exact ⟨fun h => by cases h; exact .str _, fun h => by cases h; exact .str _⟩
    | _ => exact ⟨nofun, nofun⟩
  | .arr as, b, ha, hb => by
    cases b with
    | arr bs =>
      rw [WellFormed, wellFormedItems_iff] at ha hb
      have hitems := reorderedItems_iff ha hb (reordered_iff_items as)
      exact ⟨fun h => by cases h with | arr h => exact .arr (hitems.1 h),
        fun h => by cases h with | arr h => exact .arr (hitems.2 h)⟩
    | _ => exact ⟨nofun, nofun⟩
  | .obj as, b, ha, hb => by
    cases b with
    | obj bs =>
      rw [WellFormed, wellFormedMembers_iff] at ha hb
      exact reorderedMembers_iff ha.1 hb.1 fun m hm n hn =>
        reordered_iff_members as m hm n.2 (ha.2 m hm) (hb.2 n hn)
    | _ => exact ⟨nofun, nofun⟩

theorem reordered_iff_items : ∀ as : List Json, ∀ a ∈ as, ∀ b, a.WellFormed → b.WellFormed →
    (Reordered a b ↔ Same a b)
  | [] => by simp
  | a :: as => List.forall_mem_cons.2 ⟨reordered_iff a, reordered_iff_items as⟩

theorem reordered_iff_members : ∀ as : Struct, ∀ m ∈ as, ∀ b, m.2.WellFormed → b.WellFormed →
    (Reordered m.2 b ↔ Same m.2 b)
  | [] => by simp
  | (_, a) :: as => List.forall_mem_cons.2 ⟨reordered_iff a, reordered_iff_members as⟩

end

end Json

/-! ## One encoding, one value -/

/-- An encoding of objects that is **a faithful normal form.** -/
structure Struct.Faithful (encode : Struct → List UInt8) : Prop where
  /-- One encoding, one value: members are found by name and items by place, an integer is no float,
  and the two floating-point zeros are two. -/
  same : ∀ as bs, encode as = encode bs ↔ Json.Same (.obj as) (.obj bs)
  /-- All that is forgotten of an object that names no member twice is the order of its members, at
  whatever depth. -/
  reordered : ∀ as bs, (Json.obj as).WellFormed → (Json.obj bs).WellFormed →
    (encode as = encode bs ↔ Json.Reordered (.obj as) (.obj bs))

/-- **The canonical encoding is a faithful normal form.** -/
theorem canonical_faithful : Struct.Faithful fun as => Utf8.bytes as.canonical := by
  have hsame : ∀ as bs : Struct, Utf8.bytes as.canonical = Utf8.bytes bs.canonical ↔
      Json.Same (.obj as) (.obj bs) := by
    intro as bs
    rw [← Json.canonical_eq_iff]
    exact ⟨fun h => Utf8.bytes_injective h, congrArg Utf8.bytes⟩
  refine ⟨hsame, fun as bs ha hb => ?_⟩
  rw [Json.reordered_iff _ _ ha hb]
  exact hsame as bs

end QueryClient
