import QueryClient.Codec.Encode
import QueryClient.Proofs.Json.Reorder

/-!
# The JSON image of a value

A value of a program has a JSON image unless one of its parts has none: an integer that is too large, a
key that is no text, or a part whose own encoder fails. What has named parts becomes the object of their
images; the names of a map's entries are the texts of its keys.

* `Serial.KeyText`, `Serial.key?_eq_ok_iff`: the texts of keys.
* `Serial.Image`, `Serial.toJson?_eq_ok_iff`: **the image of a value.**
* `Serial.faults`, `Serial.reason?_toJson?`: the parts without an image; the first of them is reported.
* `Serial.KeyText.injective`: keys of one kind do not share a text.
-/

namespace QueryClient

namespace Serial

/-! ## Keys -/

/-- **The texts of keys.** -/
inductive KeyText : Serial → String → Prop
  | str (s : String) : KeyText (.str s) s
  | char (c : Char) : KeyText (.char c) (String.singleton c)
  | unitVariant (name : String) : KeyText (.unitVariant name) name
  | int (n : ℤ) : KeyText (.int n) (String.ofList (Json.writeInt n))
  | bool (b : Bool) : KeyText (.bool b) (if b then "true" else "false")
  | float (x : Binary64) : KeyText (.float (some x)) (String.ofList (FloatText.json.write x))
  | newtype {key : Serial} {text : String} (h : KeyText key text) : KeyText (.newtype key) text

/-- Why a key has no text. -/
def keyFaults : Serial → List String
  | .str _ | .char _ | .unitVariant _ | .int _ | .bool _ | .float (some _) => []
  | .float none => ["float key must be finite (got NaN or +/-inf)"]
  | .newtype key => key.keyFaults
  | .failing reason => [reason]
  | _ => [keyNotText]

/-- The reason why something failed, if it did. -/
def reason? {α : Type} : Except String α → Option String
  | .ok _ => none
  | .error reason => some reason

/-- A success gives the one thing that has a property. -/
theorem ok_eq_ok_iff {α : Type} {a b : α} {P : α → Prop} (h : P a) (hunique : ∀ {c}, P c → c = a) :
    (.ok a : Except String α) = .ok b ↔ P b :=
  ⟨fun heq => Except.ok.inj heq ▸ h, fun hb => by rw [hunique hb]⟩

theorem key?_eq_ok_iff {key : Serial} {text : String} : key.key? = .ok text ↔ KeyText key text := by
  fun_induction Serial.key? key with
  | case1 s => exact ok_eq_ok_iff (.str s) fun h => by cases h; rfl
  | case2 c => exact ok_eq_ok_iff (.char c) fun h => by cases h; rfl
  | case3 name => exact ok_eq_ok_iff (.unitVariant name) fun h => by cases h; rfl
  | case4 n => exact ok_eq_ok_iff (.int n) fun h => by cases h; rfl
  | case5 => exact ok_eq_ok_iff (.bool true) fun h => by cases h; rfl
  | case6 => exact ok_eq_ok_iff (.bool false) fun h => by cases h; rfl
  | case7 x => exact ok_eq_ok_iff (.float x) fun h => by cases h; rfl
  | case8 => exact ⟨nofun, nofun⟩
  | case9 key ih => exact ⟨fun h => .newtype (ih.1 h), fun h => by cases h with | newtype h => exact ih.2 h⟩
  | case10 reason => exact ⟨nofun, nofun⟩
  | case11 key => exact ⟨nofun, fun h => by cases h <;> simp_all⟩

theorem reason?_key? (key : Serial) : reason? key.key? = key.keyFaults.head? := by
  fun_induction Serial.key? key with
  | case9 key ih => exact ih
  | case11 key => cases key <;> simp_all [keyFaults, reason?]
  | _ => rfl

/-! ## The image -/

/-- The fields of a record as the entries of a map. -/
def keyed (fields : List (String × Serial)) : List (Serial × Serial) :=
  fields.map fun field => (.str field.1, field.2)

/-- **The JSON image of a value.** A record has that of the map from its names, and a variant is named
in it. -/
inductive Image : Serial → Json → Prop
  | unit : Image .unit .null
  | absent : Image .absent .null
  | present {value : Serial} {j : Json} (h : Image value j) : Image (.present value) j
  | bool (b : Bool) : Image (.bool b) (.bool b)
  | int {n : ℤ} (h : intInRange n) : Image (.int n) (.int n)
  | float (x : Binary64) : Image (.float (some x)) (.float x)
  | notFinite : Image (.float none) .null
  | char (c : Char) : Image (.char c) (.str (String.singleton c))
  | str (s : String) : Image (.str s) (.str s)
  | list {items : List Serial} {js : List Json} (h : List.Forall₂ Image items js) :
      Image (.list items) (.arr js)
  | map {entries : List (Serial × Serial)} {members : Struct}
      (hkeys : List.Forall₂ KeyText (entries.map (·.1)) members.names)
      (hvalues : List.Forall₂ Image (entries.map (·.2)) (members.map (·.2))) :
      Image (.map entries) (.obj members.sort)
  | record {fields : List (String × Serial)} {j : Json} (h : Image (.map (keyed fields)) j) :
      Image (.record fields) j
  | newtype {value : Serial} {j : Json} (h : Image value j) : Image (.newtype value) j
  | unitVariant (name : String) : Image (.unitVariant name) (.str name)
  | newtypeVariant (name : String) {value : Serial} {j : Json} (h : Image value j) :
      Image (.newtypeVariant name value) (.obj [(name, j)])
  | tupleVariant (name : String) {items : List Serial} {j : Json} (h : Image (.list items) j) :
      Image (.tupleVariant name items) (.obj [(name, j)])
  | recordVariant (name : String) {fields : List (String × Serial)} {j : Json}
      (h : Image (.record fields) j) : Image (.recordVariant name fields) (.obj [(name, j)])

/-- Fields are encoded as entries are whose keys are their names. -/
theorem fieldsToJson?_eq (sofar : Struct) (fields : List (String × Serial)) :
    fieldsToJson? sofar fields = entriesToJson? sofar (keyed fields) := by
  induction fields generalizing sofar with
  | nil => rfl
  | cons field rest ih =>
    obtain ⟨name, value⟩ := field
    simp only [fieldsToJson?, keyed, List.map_cons, entriesToJson?, key?, bind, Except.bind]
    cases value.toJson? with
    | error => rfl
    | ok j => exact ih _

/-- A step that may fail has a result if its parts have. -/
theorem bind_eq_ok_iff {α β : Type} {x : Except String α} {f : α → Except String β} {b : β} :
    (x >>= f) = .ok b ↔ ∃ a, x = .ok a ∧ f a = .ok b := by
  cases x <;> simp [bind, Except.bind]

theorem itemsToJson?_eq_ok_iff {items : List Serial} {js : List Json}
    (ih : ∀ item ∈ items, ∀ j, item.toJson? = .ok j ↔ Image item j) :
    itemsToJson? items = .ok js ↔ List.Forall₂ Image items js := by
  induction items generalizing js with
  | nil => cases js <;> simp [itemsToJson?]
  | cons item rest ihl =>
    rw [List.forall_mem_cons] at ih
    simp only [itemsToJson?, bind_eq_ok_iff, ih.1, ihl ih.2, pure, Except.pure, Except.ok.injEq]
    constructor
    · rintro ⟨j, hj, js, hjs, rfl⟩
      exact .cons hj hjs
    · rintro (_ | ⟨hj, hjs⟩)
      exact ⟨_, hj, _, hjs, rfl⟩

/-- Entries become members, each put among those before it. -/
theorem entriesToJson?_eq_ok_iff {entries : List (Serial × Serial)} {sofar made : Struct}
    (ih : ∀ entry ∈ entries, ∀ j, entry.2.toJson? = .ok j ↔ Image entry.2 j) :
    entriesToJson? sofar entries = .ok made ↔ ∃ members : Struct,
      List.Forall₂ KeyText (entries.map (·.1)) members.names ∧
      List.Forall₂ Image (entries.map (·.2)) (members.map (·.2)) ∧
      made = members.foldl (fun sorted m => Struct.insert m.1 m.2 sorted) sofar := by
  induction entries generalizing sofar with
  | nil =>
    simp only [entriesToJson?, Except.ok.injEq, List.map_nil, List.forall₂_nil_left_iff, Struct.names,
      List.map_eq_nil_iff]
    constructor
    · rintro rfl
      exact ⟨[], rfl, rfl, rfl⟩
    · rintro ⟨members, rfl, -, rfl⟩
      rfl
  | cons entry rest ihl =>
    obtain ⟨key, value⟩ := entry
    rw [List.forall_mem_cons] at ih
    simp only [entriesToJson?, bind_eq_ok_iff, key?_eq_ok_iff, ih.1, ihl ih.2]
    constructor
    · rintro ⟨name, hname, j, hj, members, hkeys, hvalues, rfl⟩
      exact ⟨(name, j) :: members, .cons hname hkeys, .cons hj hvalues, rfl⟩
    · rintro ⟨_ | ⟨⟨name, j⟩, members⟩, hkeys, hvalues, rfl⟩
      · cases hkeys
      · obtain ⟨hname, hkeys⟩ := List.forall₂_cons.1 hkeys
        obtain ⟨hj, hvalues⟩ := List.forall₂_cons.1 hvalues
        exact ⟨name, hname, j, hj, members, hkeys, hvalues, rfl⟩

/-- The image of a map, if its values have theirs. -/
theorem map_image_iff {entries : List (Serial × Serial)} {made : Struct}
    (ih : ∀ entry ∈ entries, ∀ j, entry.2.toJson? = .ok j ↔ Image entry.2 j) :
    entriesToJson? [] entries = .ok made ↔ Image (.map entries) (.obj made) := by
  rw [entriesToJson?_eq_ok_iff ih]
  constructor
  · rintro ⟨members, hkeys, hvalues, rfl⟩
    exact .map hkeys hvalues
  · rintro (_ | _)
    rename_i members hkeys hvalues
    exact ⟨members, hkeys, hvalues, rfl⟩

/-- A record is the map from its names. -/
theorem record_image_iff {fields : List (String × Serial)} {made : Struct}
    (ih : ∀ field ∈ fields, ∀ j, field.2.toJson? = .ok j ↔ Image field.2 j) :
    fieldsToJson? [] fields = .ok made ↔ Image (.record fields) (.obj made) := by
  have hentries : ∀ entry ∈ keyed fields, ∀ j, entry.2.toJson? = .ok j ↔ Image entry.2 j := by
    intro entry hentry
    obtain ⟨field, hfield, rfl⟩ := List.mem_map.1 hentry
    exact ih field hfield
  rw [fieldsToJson?_eq, map_image_iff hentries]
  exact ⟨.record, fun h => by cases h with | record h => exact h⟩

/-- The image of what has members is an object. -/
theorem Image.of_record {fields : List (String × Serial)} {j : Json} (h : Image (.record fields) j) :
    ∃ members, j = .obj members := by
  cases h with
  | record h =>
    cases h with
    | map => exact ⟨_, rfl⟩

mutual

/-- **The encoder computes the image,** where there is one. -/
theorem toJson?_eq_ok_iff : ∀ (v : Serial) (j : Json), v.toJson? = .ok j ↔ Image v j
  | .unit, j => ok_eq_ok_iff .unit fun h => by cases h; rfl
  | .absent, j => ok_eq_ok_iff .absent fun h => by cases h; rfl
  | .present value, j => by
    rw [toJson?, toJson?_eq_ok_iff value j]
    exact ⟨.present, fun h => by cases h with | present h => exact h⟩
  | .bool b, j => ok_eq_ok_iff (.bool b) fun h => by cases h; rfl
  | .int n, j => by
    rw [toJson?]
    constructor
    · intro h
      split at h
      · rename_i hn
        exact Except.ok.inj h ▸ .int hn
      · cases h
    · rintro (_ | _ | _ | _ | hn)
      rw [if_pos hn]
  | .float (some x), j => ok_eq_ok_iff (.float x) fun h => by cases h; rfl
  | .float none, j => ok_eq_ok_iff .notFinite fun h => by cases h; rfl
  | .char c, j => ok_eq_ok_iff (.char c) fun h => by cases h; rfl
  | .str s, j => ok_eq_ok_iff (.str s) fun h => by cases h; rfl
  | .list items, j => by
    have hitems : ∀ js, itemsToJson? items = .ok js ↔ List.Forall₂ Image items js :=
      fun _ => itemsToJson?_eq_ok_iff (toJson?_eq_ok_iff_items items)
    simp only [toJson?, bind_eq_ok_iff, hitems, pure, Except.pure, Except.ok.injEq]
    constructor
    · rintro ⟨js, hjs, rfl⟩
      exact .list hjs
    · intro h
      cases h with
      | list h => exact ⟨_, h, rfl⟩
  | .map entries, j => by
    have hmap : ∀ made, entriesToJson? [] entries = .ok made ↔ Image (.map entries) (.obj made) :=
      fun _ => map_image_iff (toJson?_eq_ok_iff_entries entries)
    simp only [toJson?, bind_eq_ok_iff, hmap, pure, Except.pure, Except.ok.injEq]
    constructor
    · rintro ⟨made, hmade, rfl⟩
      exact hmade
    · intro h
      cases h with
      | map hkeys hvalues => exact ⟨_, .map hkeys hvalues, rfl⟩
  | .record fields, j => by
    have hrecord : ∀ made, fieldsToJson? [] fields = .ok made ↔ Image (.record fields) (.obj made) :=
      fun _ => record_image_iff (toJson?_eq_ok_iff_fields fields)
    simp only [toJson?, bind_eq_ok_iff, hrecord, pure, Except.pure, Except.ok.injEq]
    constructor
    · rintro ⟨made, hmade, rfl⟩
      exact hmade
    · intro h
      obtain ⟨made, rfl⟩ := h.of_record
      exact ⟨made, h, rfl⟩
  | .newtype value, j => by
    rw [toJson?, toJson?_eq_ok_iff value j]
    exact ⟨.newtype, fun h => by cases h with | newtype h => exact h⟩
  | .unitVariant name, j => ok_eq_ok_iff (.unitVariant name) fun h => by cases h; rfl
  | .newtypeVariant name value, j => by
    simp only [toJson?, bind_eq_ok_iff, toJson?_eq_ok_iff value, pure, Except.pure, Except.ok.injEq]
    constructor
    · rintro ⟨k, hk, rfl⟩
      exact .newtypeVariant name hk
    · intro h
      cases h with
      | newtypeVariant _ h => exact ⟨_, h, rfl⟩
  | .tupleVariant name items, j => by
    have hitems : ∀ js, itemsToJson? items = .ok js ↔ List.Forall₂ Image items js :=
      fun _ => itemsToJson?_eq_ok_iff (toJson?_eq_ok_iff_items items)
    simp only [toJson?, bind_eq_ok_iff, hitems, pure, Except.pure, Except.ok.injEq]
    constructor
    · rintro ⟨js, hjs, rfl⟩
      exact .tupleVariant name (.list hjs)
    · intro h
      cases h with
      | tupleVariant _ h =>
        cases h with
        | list h => exact ⟨_, h, rfl⟩
  | .recordVariant name fields, j => by
    have hrecord : ∀ made, fieldsToJson? [] fields = .ok made ↔ Image (.record fields) (.obj made) :=
      fun _ => record_image_iff (toJson?_eq_ok_iff_fields fields)
    simp only [toJson?, bind_eq_ok_iff, hrecord, pure, Except.pure, Except.ok.injEq]
    constructor
    · rintro ⟨made, hmade, rfl⟩
      exact .recordVariant name hmade
    · intro h
      cases h with
      | recordVariant _ h =>
        obtain ⟨made, rfl⟩ := h.of_record
        exact ⟨made, h, rfl⟩
  | .failing reason, j => ⟨nofun, nofun⟩

theorem toJson?_eq_ok_iff_items : ∀ items : List Serial, ∀ item ∈ items, ∀ j,
    item.toJson? = .ok j ↔ Image item j
  | [] => by simp
  | item :: rest => List.forall_mem_cons.2 ⟨toJson?_eq_ok_iff item, toJson?_eq_ok_iff_items rest⟩

theorem toJson?_eq_ok_iff_entries : ∀ entries : List (Serial × Serial), ∀ entry ∈ entries, ∀ j,
    entry.2.toJson? = .ok j ↔ Image entry.2 j
  | [] => by simp
  | (_, value) :: rest =>
    List.forall_mem_cons.2 ⟨toJson?_eq_ok_iff value, toJson?_eq_ok_iff_entries rest⟩

theorem toJson?_eq_ok_iff_fields : ∀ fields : List (String × Serial), ∀ field ∈ fields, ∀ j,
    field.2.toJson? = .ok j ↔ Image field.2 j
  | [] => by simp
  | (_, value) :: rest =>
    List.forall_mem_cons.2 ⟨toJson?_eq_ok_iff value, toJson?_eq_ok_iff_fields rest⟩

end

/-- A value has one image at most. -/
theorem Image.unique {v : Serial} {j k : Json} (hj : Image v j) (hk : Image v k) : j = k := by
  have hok := (toJson?_eq_ok_iff v j).2 hj
  rw [(toJson?_eq_ok_iff v k).2 hk] at hok
  exact (Except.ok.inj hok).symm

/-! ## What has no image -/

mutual

/-- **Why the parts of a value without an image have none,** in the order in which they are encoded. -/
def faults : Serial → List String
  | .int n => if intInRange n then [] else [outOfRange]
  | .present value | .newtype value | .newtypeVariant _ value => value.faults
  | .list items | .tupleVariant _ items => itemsFaults items
  | .map entries => entriesFaults entries
  | .record fields | .recordVariant _ fields => fieldsFaults fields
  | .failing reason => [reason]
  | .unit | .absent | .bool _ | .float _ | .char _ | .str _ | .unitVariant _ => []

def itemsFaults : List Serial → List String
  | [] => []
  | item :: rest => item.faults ++ itemsFaults rest

def entriesFaults : List (Serial × Serial) → List String
  | [] => []
  | (key, value) :: rest => key.keyFaults ++ (value.faults ++ entriesFaults rest)

def fieldsFaults : List (String × Serial) → List String
  | [] => []
  | (_, value) :: rest => value.faults ++ fieldsFaults rest

end

/-- Of two steps the first to fail says why. -/
theorem reason?_bind {α β : Type} {x : Except String α} {f : α → Except String β}
    {now later : List String} (hx : reason? x = now.head?) (hf : ∀ a, reason? (f a) = later.head?) :
    reason? (x >>= f) = (now ++ later).head? := by
  rw [List.head?_append, ← hx]
  cases x with
  | ok a => exact hf a
  | error reason => rfl

/-- A last step that cannot fail does not. -/
theorem reason?_bind_ok {α β : Type} {x : Except String α} {f : α → β} :
    reason? (x >>= fun a => .ok (f a)) = reason? x := by
  cases x <;> rfl

mutual

/-- **The first part without an image is reported,** and nothing else is. -/
theorem reason?_toJson? : ∀ v : Serial, reason? v.toJson? = v.faults.head?
  | .unit | .absent | .bool _ | .float (some _) | .float none | .char _ | .str _ | .unitVariant _ => rfl
  | .present value => reason?_toJson? value
  | .newtype value => reason?_toJson? value
  | .int n => by
    rw [toJson?, faults]
    split <;> rfl
  | .list items => reason?_bind_ok.trans (reason?_items items)
  | .map entries => reason?_bind_ok.trans (reason?_entries entries [])
  | .record fields => reason?_bind_ok.trans (reason?_fields fields [])
  | .newtypeVariant name value => reason?_bind_ok.trans (reason?_toJson? value)
  | .tupleVariant name items => reason?_bind_ok.trans (reason?_items items)
  | .recordVariant name fields => reason?_bind_ok.trans (reason?_fields fields [])
  | .failing reason => rfl

theorem reason?_items : ∀ items : List Serial,
    reason? (itemsToJson? items) = (itemsFaults items).head?
  | [] => rfl
  | item :: rest =>
    reason?_bind (reason?_toJson? item) fun _ => reason?_bind_ok.trans (reason?_items rest)

theorem reason?_entries : ∀ (entries : List (Serial × Serial)) (sofar : Struct),
    reason? (entriesToJson? sofar entries) = (entriesFaults entries).head?
  | [], _ => rfl
  | (key, value) :: rest, _ =>
    reason?_bind (reason?_key? key) fun _ =>
      reason?_bind (reason?_toJson? value) fun _ => reason?_entries rest _

theorem reason?_fields : ∀ (fields : List (String × Serial)) (sofar : Struct),
    reason? (fieldsToJson? sofar fields) = (fieldsFaults fields).head?
  | [], _ => rfl
  | (_, value) :: rest, _ => reason?_bind (reason?_toJson? value) fun _ => reason?_fields rest _

end

/-- **What has no part without an image has one.** -/
theorem exists_image_iff {v : Serial} : (∃ j, Image v j) ↔ v.faults = [] := by
  rw [← List.head?_eq_none_iff, ← reason?_toJson?]
  cases hv : v.toJson? with
  | ok j =>
    have himage := (toJson?_eq_ok_iff v j).1 hv
    exact ⟨fun _ => rfl, fun _ => ⟨j, himage⟩⟩
  | error reason =>
    constructor
    · rintro ⟨j, hj⟩
      rw [(toJson?_eq_ok_iff v j).2 hj] at hv
      cases hv
    · nofun

theorem toJson?_eq_error {v : Serial} {reason : String} {later : List String}
    (h : v.faults = reason :: later) : v.toJson? = .error reason := by
  have hreason := reason?_toJson? v
  rw [h] at hreason
  cases hv : v.toJson? with
  | ok j =>
    rw [hv] at hreason
    cases hreason
  | error other =>
    rw [hv] at hreason
    cases hreason
    rfl

/-! ## Keys of one kind -/

/-- Two keys of one kind. -/
inductive SameKind : Serial → Serial → Prop
  | str (s t : String) : SameKind (.str s) (.str t)
  | char (c d : Char) : SameKind (.char c) (.char d)
  | unitVariant (name other : String) : SameKind (.unitVariant name) (.unitVariant other)
  | int (m n : ℤ) : SameKind (.int m) (.int n)
  | bool (a b : Bool) : SameKind (.bool a) (.bool b)
  | float (x y : Binary64) : SameKind (.float (some x)) (.float (some y))
  | newtype {key other : Serial} (h : SameKind key other) : SameKind (.newtype key) (.newtype other)

/-- **Keys of one kind do not share a text.** -/
theorem KeyText.injective {key other : Serial} {text : String} (hkey : KeyText key text)
    (hother : KeyText other text) (h : SameKind key other) : key = other := by
  induction h generalizing text with
  | str s t =>
    cases hkey
    cases hother
    rfl
  | char c d =>
    cases hkey with
    | char =>
      generalize hd : String.singleton c = text at hother
      cases hother
      rw [String.singleton_inj.1 hd]
  | unitVariant name other =>
    cases hkey
    cases hother
    rfl
  | int m n =>
    cases hkey with
    | int =>
      generalize hn : String.ofList (Json.writeInt m) = text at hother
      cases hother
      rw [Json.writeInt_injective (String.ofList_injective hn)]
  | bool a b =>
    cases hkey with
    | bool =>
      generalize hb : (if a then "true" else "false" : String) = text at hother
      cases hother
      revert hb
      cases a <;> cases b <;> simp
  | float x y =>
    cases hkey with
    | float =>
      generalize hy : String.ofList (FloatText.json.write x) = text at hother
      cases hother
      rw [FloatText.write_injective (String.ofList_injective hy)]
  | newtype h ih =>
    cases hkey with
    | newtype hkey =>
      cases hother with
      | newtype hother => rw [ih hkey hother]

end Serial

end QueryClient
