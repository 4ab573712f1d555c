import QueryClient.Proofs.Query.Handlers
import QueryClient.Proofs.Rest.Requests
import Mathlib.Data.Int.Notation
import Mathlib.Data.List.Forall2

/-!
# Listed errors are not swallowed

The body of an answer has data and a list of errors, each of which may be missing, and so may the parts of
an error. What is made of it has an error for each that is listed, in their order, and a typed result is a
value just if none is listed and the data can be decoded.

* `Part`, `BodyParts`, `ErrorParts`: the parts of a body and of an error.
* `DataOf`, `MessageOf`, `PathOf`, `SegmentsOf`: **what the parts say.**
* `Says`, `ErrorOf`: what a body and a listed error say; `readResult?_eq_some_iff`: **what is made of a body.**
* `Unswallowed`: what somebody gets who wants a value of a type.
* `ErrorsUnswallowed`, `errors_unswallowed`: **listed errors are not swallowed** between the wire and a typed
  result.
-/

namespace QueryClient

namespace Rest

/-! ## What a body says -/

/-- **The part of a record with a name,** if there is one. -/
inductive Part (name : String) (members : List (Option String × Document)) : Option Document → Prop where
  | absent (h : ∀ m ∈ members, m.1 ≠ some name) : Part name members none
  | present {before after : List (Option String × Document)} {d : Document}
      (h : members = before ++ (some name, d) :: after) (hbefore : ∀ m ∈ before, m.1 ≠ some name)
      (hafter : ∀ m ∈ after, m.1 ≠ some name) : Part name members (some d)

/-- Two parts of a record, all of whose names are texts. -/
structure NamedParts (first second : String) (members : List (Option String × Document))
    (a b : Option Document) : Prop where
  text : ∀ m ∈ members, m.1.isSome
  left : Part first members a
  right : Part second members b

/-- Data and errors of a body: two members of a record, or a list. -/
inductive BodyParts : Document → Option Document → Option Document → Prop where
  | record {members : List (Option String × Document)} {data errors : Option Document}
      (h : NamedParts "data" "errors" members data errors) : BodyParts (.record members) data errors
  | nothing : BodyParts (.list []) none none
  | data (d : Document) : BodyParts (.list [d]) (some d) none
  | both (d e : Document) : BodyParts (.list [d, e]) (some d) (some e)

/-- Message and path of an error: two members of a record, or a pair. -/
inductive ErrorParts : Document → Option Document → Option Document → Prop where
  | record {members : List (Option String × Document)} {message path : Option Document}
      (h : NamedParts "message" "path" members message path) : ErrorParts (.record members) message path
  | pair (message path : Document) : ErrorParts (.list [message, path]) (some message) (some path)

/-- A part is missing, or null. -/
def Blank (part : Option Document) : Prop := part = none ∨ part = some .null

/-- **The data of a body** is none if it is missing or null. -/
inductive DataOf : Option Document → Option Json → Prop where
  | none {part : Option Document} (h : Blank part) : DataOf part none
  | some {d : Document} {j : Json} (hd : d ≠ .null) (hj : d.value? (Document.maxDepth - 1) = some j) :
      DataOf (some d) (some j)

/-- The list of errors of a body may be missing, but is not null. -/
inductive ListOf : Option Document → List Document → Prop where
  | absent : ListOf none []
  | list (docs : List Document) : ListOf (some (.list docs)) docs

/-- **The message of an error,** or the one for an error that has none. -/
inductive MessageOf : Option Document → String → Prop where
  | unknown {part : Option Document} (h : Blank part) : MessageOf part "Unknown Data Connect error"
  | text (text : String) : MessageOf (some (.string (some text))) text

/-- The values of the path of an error. -/
inductive PathOf : Option Document → List Json → Prop where
  | none {part : Option Document} (h : Blank part) : PathOf part []
  | list {items : List Document} {values : List Json}
      (h : List.Forall₂ (fun d j => d.value? (Document.maxDepth - 4) = some j) items values) :
      PathOf (some (.list items)) values

/-- A value is a step into data: a text, or an integer of 64 bits. -/
inductive IsSegment : Json → PathSegment → Prop where
  | field (name : String) : IsSegment (.str name) (.field name)
  | index {n : ℤ} (hn : -Int.pow 2 63 ≤ n ∧ n < Int.pow 2 63) : IsSegment (.int n) (.index n)

/-- **The steps among values,** in their order; the others are left out. -/
inductive SegmentsOf : List Json → List PathSegment → Prop where
  | nil : SegmentsOf [] []
  | keep {j : Json} {s : PathSegment} {values : List Json} {path : List PathSegment} (hs : IsSegment j s)
      (h : SegmentsOf values path) : SegmentsOf (j :: values) (s :: path)
  | skip {j : Json} {values : List Json} {path : List PathSegment} (hj : ∀ s, ¬ IsSegment j s)
      (h : SegmentsOf values path) : SegmentsOf (j :: values) path

/-- **What a listed error says.** -/
inductive ErrorOf : Document → ResponseError → Prop where
  | mk {d : Document} {message path : Option Document} {text : String} {values : List Json}
      {segments : List PathSegment} (hparts : ErrorParts d message path) (hmessage : MessageOf message text)
      (hpath : PathOf path values) (hkept : SegmentsOf values segments) : ErrorOf d ⟨text, segments⟩

/-- **What a body says:** its data and the errors it lists. -/
inductive Says : Document → Option Json → List Document → Prop where
  | mk {d : Document} {data errors : Option Document} {j : Option Json} {docs : List Document}
      (hparts : BodyParts d data errors) (hdata : DataOf data j) (herrors : ListOf errors docs) : Says d j docs

variable {name text : String} {members : List (Option String × Document)} {part data errors : Option Document}
variable {d : Document} {docs : List Document} {j : Json} {values : List Json} {path : List PathSegment}
variable {e : ResponseError} {r : OperationResult}

/-! ## Reading it -/

/-- A part is what the members of its name are. -/
theorem part_iff : Part name members part ↔
    (members.filter fun m => m.1 = some name) = part.toList.map fun d => (some name, d) := by
  cases part with
  | none =>
    have hnil : (members.filter fun m => m.1 = some name) = [] ↔ ∀ m ∈ members, m.1 ≠ some name := by
      simp [List.filter_eq_nil_iff]
    exact ⟨fun h => by cases h with | absent h => exact hnil.2 h, fun h => .absent (hnil.1 h)⟩
  | some d =>
    show _ ↔ _ = [(some name, d)]
    rw [List.filter_eq_cons_iff]
    constructor
    · rintro (_ | ⟨h, hbefore, hafter⟩)
      exact ⟨_, _, h, by simpa using hbefore, by simp, by simpa [List.filter_eq_nil_iff] using hafter⟩
    · rintro ⟨before, after, h, hbefore, -, hafter⟩
      exact .present h (by simpa using hbefore) (by simpa [List.filter_eq_nil_iff] using hafter)

theorem member?_eq_some_iff : member? name members = some part ↔
    (∀ m ∈ members, m.1.isSome) ∧ Part name members part := by
  have htext : members.any (·.1.isNone) = false ↔ ∀ m ∈ members, m.1.isSome := by
    simp [List.any_eq_false, Option.isSome_iff_ne_none]
  rw [part_iff]
  unfold member?
  cases hany : members.any (·.1.isNone) with
  | true =>
    have hnot : ¬ ∀ m ∈ members, m.1.isSome := fun h => by simp [htext.2 h] at hany
    exact ⟨nofun, fun h => absurd h.1 hnot⟩
  | false =>
    -- the members of the name are none, one or more
    have hnamed : ∀ m ∈ members.filter fun m => m.1 = some name, m.1 = some name := by simp
    rw [and_iff_right (htext.1 hany), if_neg Bool.false_ne_true]
    generalize (members.filter fun m => m.1 = some name) = named at hnamed ⊢
    match named, hnamed with
    | [], _ => cases part <;> simp
    | [m], hnamed =>
      obtain ⟨key, d⟩ := m
      obtain rfl : key = some name := by simpa using hnamed
      cases part <;> simp
    | _ :: _ :: _, _ => cases part <;> simp

theorem namedParts_iff {first second : String} {a b : Option Document} :
    NamedParts first second members a b ↔
      member? first members = some a ∧ member? second members = some b := by
  rw [member?_eq_some_iff, member?_eq_some_iff]
  constructor
  · rintro ⟨htext, ha, hb⟩
    exact ⟨⟨htext, ha⟩, htext, hb⟩
  · rintro ⟨⟨htext, ha⟩, -, hb⟩
    exact ⟨htext, ha, hb⟩

theorem values?_eq_some_iff {depth : ℕ} {items : List Document} : Document.values? depth items = some values ↔
    List.Forall₂ (fun d j => d.value? depth = some j) items values := by
  induction items generalizing values with
  | nil => cases values <;> simp [Document.values?]
  | cons item rest ih =>
    rw [Document.values?]
    cases values with
    | nil => split <;> simp
    | cons v vs =>
      rw [List.forall₂_cons, ← ih]
      split
      · rename_i j js hj hjs
        simp [hj, hjs]
      · rename_i hno
        refine ⟨nofun, fun h => absurd h.2 ?_⟩
        exact fun hvs => hno v vs h.1 hvs

theorem segment?_eq_some_iff {s : PathSegment} : segment? j = some s ↔ IsSegment j s := by
  cases j with
  | str name => exact ⟨fun h => by cases h; exact .field name, fun h => by cases h; rfl⟩
  | int n =>
    rw [segment?]
    split
    · rename_i hn
      exact ⟨fun h => by cases h; exact .index hn, fun h => by cases h; rfl⟩
    · rename_i hn
      exact ⟨nofun, fun h => by cases h with | index h => exact absurd h hn⟩
  | _ => exact ⟨nofun, nofun⟩

/-- **The steps that are kept.** -/
theorem segmentsOf_iff : values.filterMap segment? = path ↔ SegmentsOf values path := by
  constructor
  · rintro rfl
    induction values with
    | nil => exact .nil
    | cons j values ih =>
      cases hj : segment? j with
      | none =>
        rw [List.filterMap_cons_none hj]
        refine .skip (fun s hs => ?_) ih
        rw [segment?_eq_some_iff.2 hs] at hj
        simp at hj
      | some s =>
        rw [List.filterMap_cons_some hj]
        exact .keep (segment?_eq_some_iff.1 hj) ih
  · intro h
    induction h with
    | nil => rfl
    | keep hs _ ih => rw [List.filterMap_cons_some (segment?_eq_some_iff.2 hs), ih]
    | skip hj _ ih =>
      have hnone := Option.eq_none_iff_forall_ne_some.2 fun s hs => hj s (segment?_eq_some_iff.1 hs)
      rw [List.filterMap_cons_none hnone, ih]

/-- **The message that is read.** -/
theorem message_iff : (readMessage? part).map (·.getD unknownError) = some text ↔ MessageOf part text := by
  by_cases hblank : Blank part
  · have hread : readMessage? part = some none := by
      rcases hblank with rfl | rfl <;> rfl
    rw [hread]
    constructor
    · intro h
      obtain rfl := Option.some.inj h
      exact .unknown hblank
    · rintro (_ | _)
      · rfl
      · simp [Blank] at hblank
  · have hother : MessageOf part text ↔ part = some (.string (some text)) :=
      ⟨fun h => by cases h with
        | unknown h => exact absurd h hblank
        | text => rfl, fun h => h ▸ .text text⟩
    rw [hother]
    match part with
    | none | some .null => exact absurd (by simp [Blank]) hblank
    | some (.string none) | some (.bool _) | some (.number _) | some (.list _) | some (.record _) =>
      simp [readMessage?]
    | some (.string (some _)) => simp [readMessage?]

/-- **The path that is read.** -/
theorem path_iff : readPath? part = some path ↔ ∃ values, PathOf part values ∧ SegmentsOf values path := by
  by_cases hblank : Blank part
  · have hread : readPath? part = some [] := by
      rcases hblank with rfl | rfl <;> rfl
    rw [hread, Option.some.injEq]
    constructor
    · rintro rfl
      exact ⟨[], .none hblank, .nil⟩
    · rintro ⟨values, hvalues, hkept⟩
      cases hvalues with
      | none => cases hkept; rfl
      | list => simp [Blank] at hblank
  · match part with
    | none | some .null => exact absurd (by simp [Blank]) hblank
    | some (.list items) =>
      simp only [readPath?, Option.map_eq_some_iff, values?_eq_some_iff, segmentsOf_iff]
      constructor
      · rintro ⟨values, hvalues, hkept⟩
        exact ⟨values, .list hvalues, hkept⟩
      · rintro ⟨values, hvalues, hkept⟩
        cases hvalues with
        | none h => exact absurd h hblank
        | list h => exact ⟨values, h, hkept⟩
    | some (.string _) | some (.bool _) | some (.number _) | some (.record _) =>
      refine ⟨nofun, ?_⟩
      rintro ⟨values, hvalues, -⟩
      cases hvalues with
      | none h => exact absurd h hblank

/-- **The data that is read.** -/
theorem data_iff {given : Option Json} : readData? part = some given ↔ DataOf part given := by
  by_cases hblank : Blank part
  · have hread : readData? part = some none := by
      rcases hblank with rfl | rfl <;> rfl
    rw [hread, Option.some.injEq]
    constructor
    · rintro rfl
      exact .none hblank
    · rintro (_ | ⟨hd, -⟩)
      · rfl
      · rcases hblank with h | h <;> simp_all
  · cases part with
    | none => exact absurd (.inl rfl) hblank
    | some d =>
      have hd : d ≠ .null := fun h => hblank (.inr (congrArg some h))
      have hread : readData? (some d) = (d.value? (Document.maxDepth - 1)).map some := by
        cases d <;> first | rfl | exact absurd rfl hd
      rw [hread, Option.map_eq_some_iff]
      constructor
      · rintro ⟨j, hj, rfl⟩
        exact .some hd hj
      · rintro (h | ⟨-, hj⟩)
        · exact absurd h hblank
        · exact ⟨_, hj, rfl⟩

theorem makeError?_eq_some_iff {message path : Option Document} : makeError? message path = some e ↔
    ∃ values, MessageOf message e.message ∧ PathOf path values ∧ SegmentsOf values e.path := by
  have hpath : (∃ values, MessageOf message e.message ∧ PathOf path values ∧ SegmentsOf values e.path) ↔
      MessageOf message e.message ∧ readPath? path = some e.path := by
    rw [path_iff, exists_and_left]
  rw [hpath, ← message_iff]
  obtain ⟨text, segments⟩ := e
  unfold makeError?
  cases readMessage? message <;> cases readPath? path <;> simp

/-- **The error that is read.** -/
theorem readError?_eq_some_iff : readError? d = some e ↔ ErrorOf d e := by
  have hentry : ErrorOf d e ↔
      ∃ message path, ErrorParts d message path ∧ makeError? message path = some e := by
    simp only [makeError?_eq_some_iff]
    constructor
    · rintro ⟨hparts, hmessage, hpath, hkept⟩
      exact ⟨_, _, hparts, _, hmessage, hpath, hkept⟩
    · rintro ⟨message, path, hparts, values, hmessage, hpath, hkept⟩
      exact ⟨hparts, hmessage, hpath, hkept⟩
  rw [hentry]
  match d with
  | .record members =>
    have hparts : ∀ message path, ErrorParts (.record members) message path ↔
        member? "message" members = some message ∧ member? "path" members = some path := by
      intro message path
      rw [← namedParts_iff]
      exact ⟨fun h => by cases h with | record h => exact h, .record⟩
    simp only [hparts, readError?]
    cases member? "message" members <;> cases member? "path" members <;> simp
  | .list [message, path] =>
    constructor
    · exact fun h => ⟨_, _, .pair message path, h⟩
    · rintro ⟨_, _, ⟨⟩, h⟩
      exact h
  | .list [] | .list [_] | .list (_ :: _ :: _ :: _) | .null | .bool _ | .number _ | .string _ =>
    refine ⟨nofun, ?_⟩
    rintro ⟨_, _, ⟨⟩, -⟩

theorem readErrors?_eq_some_iff {es : List ResponseError} :
    readErrors? docs = some es ↔ List.Forall₂ ErrorOf docs es := by
  induction docs generalizing es with
  | nil => cases es <;> simp [readErrors?]
  | cons d docs ih =>
    rw [readErrors?]
    cases es with
    | nil => split <;> simp
    | cons e es =>
      rw [List.forall₂_cons, ← ih, ← readError?_eq_some_iff]
      cases readError? d <;> cases readErrors? docs <;> simp

/-- What is made of the two parts of a body. -/
theorem makeResult?_eq_some_iff : makeResult? data errors = some r ↔
    DataOf data r.data ∧ ∃ docs, ListOf errors docs ∧ List.Forall₂ ErrorOf docs r.errors := by
  have hlist : (∃ docs, ListOf errors docs ∧ List.Forall₂ ErrorOf docs r.errors) ↔
      readErrorList? errors = some r.errors := by
    match errors with
    | none =>
      show _ ↔ some [] = some r.errors
      constructor
      · rintro ⟨_, ⟨⟩, hentries⟩
        exact congrArg some (List.forall₂_nil_left_iff.1 hentries).symm
      · intro h
        exact ⟨[], .absent, List.forall₂_nil_left_iff.2 (Option.some.inj h).symm⟩
    | some (.list docs) =>
      show _ ↔ readErrors? docs = some r.errors
      rw [readErrors?_eq_some_iff]
      constructor
      · rintro ⟨_, ⟨⟩, hentries⟩
        exact hentries
      · exact fun hentries => ⟨docs, .list docs, hentries⟩
    | some .null | some (.string _) | some (.bool _) | some (.number _) | some (.record _) =>
      refine ⟨?_, nofun⟩
      rintro ⟨_, ⟨⟩, -⟩
  rw [hlist, ← data_iff]
  obtain ⟨given, es⟩ := r
  unfold makeResult?
  cases readData? data <;> cases readErrorList? errors <;> simp

/-- **What is made of a body** is what it says. -/
theorem readResult?_eq_some_iff : readResult? d = some r ↔
    ∃ docs, Says d r.data docs ∧ List.Forall₂ ErrorOf docs r.errors := by
  have hsaid : (∃ docs, Says d r.data docs ∧ List.Forall₂ ErrorOf docs r.errors) ↔
      ∃ data errors, BodyParts d data errors ∧ makeResult? data errors = some r := by
    simp only [makeResult?_eq_some_iff]
    constructor
    · rintro ⟨docs, ⟨hparts, hdata, hlist⟩, hentries⟩
      exact ⟨_, _, hparts, hdata, docs, hlist, hentries⟩
    · rintro ⟨data, errors, hparts, hdata, docs, hlist, hentries⟩
      exact ⟨docs, ⟨hparts, hdata, hlist⟩, hentries⟩
  rw [hsaid]
  match d with
  | .record members =>
    have hparts : ∀ data errors, BodyParts (.record members) data errors ↔
        member? "data" members = some data ∧ member? "errors" members = some errors := by
      intro data errors
      rw [← namedParts_iff]
      exact ⟨fun h => by cases h with | record h => exact h, .record⟩
    simp only [hparts, readResult?]
    cases member? "data" members <;> cases member? "errors" members <;> simp
  | .list [] =>
    have hempty : makeResult? none none = some {} := rfl
    constructor
    · exact fun h => ⟨_, _, .nothing, hempty.trans h⟩
    · rintro ⟨_, _, ⟨⟩, h⟩
      exact hempty.symm.trans h
  | .list [data] =>
    constructor
    · exact fun h => ⟨_, _, .data data, h⟩
    · rintro ⟨_, _, ⟨⟩, h⟩
      exact h
  | .list [data, errors] =>
    constructor
    · exact fun h => ⟨_, _, .both data errors, h⟩
    · rintro ⟨_, _, ⟨⟩, h⟩
      exact h
  | .list (_ :: _ :: _ :: _) | .null | .bool _ | .number _ | .string _ =>
    refine ⟨nofun, ?_⟩
    rintro ⟨_, _, ⟨⟩, -⟩

/-- A body says one thing. -/
theorem Says.unique {given given' : Option Json} {docs' : List Document} (h : Says d given docs)
    (h' : Says d given' docs') : given = given' ∧ docs = docs' := by
  obtain ⟨hparts, hdata, hlist⟩ := h
  obtain ⟨hparts', hdata', hlist'⟩ := h'
  have hsame : ∀ {data data' errors errors'}, BodyParts d data errors → BodyParts d data' errors' →
      data = data' ∧ errors = errors' := by
    rintro data data' errors errors' (h | _ | _ | _) (h' | _ | _ | _) <;> try exact ⟨rfl, rfl⟩
    obtain ⟨hd, he⟩ := namedParts_iff.1 h
    obtain ⟨hd', he'⟩ := namedParts_iff.1 h'
    exact ⟨Option.some.inj (hd.symm.trans hd'), Option.some.inj (he.symm.trans he')⟩
  obtain ⟨rfl, rfl⟩ := hsame hparts hparts'
  constructor
  · exact Option.some.inj ((data_iff.2 hdata).symm.trans (data_iff.2 hdata'))
  · cases hlist <;> cases hlist' <;> rfl

end Rest

/-! ## Listed errors are not swallowed -/

open Rest

variable {α : Type} {operation : String} {target : Target α} {body : Document} {r : OperationResult}

/-- **What somebody gets who wants a value of a type,** when the body of an answer can be read. -/
structure Unswallowed {α : Type} (operation : String) (target : Target α) (body : Document)
    (result : Except Error α) : Prop where
  read : ∃ data docs, Says body data docs
  /-- A value, just if no errors are listed and the data can be decoded; missing data is null. -/
  value : ∀ value, result = .ok value ↔
    ∃ data, Says body data [] ∧ target.decoder.run (data.getD .null) = .ok value
  /-- A failure that keeps the data and has an error for each that is listed, in their order, if any is. -/
  listed : ∀ data docs, Says body data docs → docs ≠ [] → ∃ e r, result = .error e ∧
    e.code = .operationFailed ∧ e.response? = some r ∧ r.data = data ∧ List.Forall₂ ErrorOf docs r.errors ∧
      e.message = operation ++ " failed: " ++ "; ".intercalate (r.errors.map ResponseError.text)

/-- **Decoding an answer swallows no error.** -/
theorem unswallowed_decodeResponse (h : readResult? body = some r) :
    Unswallowed operation target body (decodeResponse operation target r) := by
  obtain ⟨docs, hsaid, hentries⟩ := readResult?_eq_some_iff.1 h
  have hnone : r.errors = [] ↔ docs = [] := by
    constructor
    · intro hnil
      rw [hnil] at hentries
      exact List.forall₂_nil_right_iff.1 hentries
    · rintro rfl
      exact List.forall₂_nil_left_iff.1 hentries
  refine ⟨⟨_, _, hsaid⟩, fun value => ?_, fun data docs' hsaid' hne => ?_⟩
  · constructor
    · intro hvalue
      have hreads := reads_decodeResponse operation target r
      rw [hvalue] at hreads
      cases hreads with
      | value hclean hdecodes => exact ⟨r.data, hnone.1 hclean ▸ hsaid, hdecodes⟩
    · rintro ⟨data, hsaid', hdecodes⟩
      obtain ⟨rfl, rfl⟩ := hsaid.unique hsaid'
      unfold decodeResponse decodeData
      rw [if_neg (by simp [hasErrors_iff, hnone]), hdecodes]
  · obtain ⟨rfl, rfl⟩ := hsaid.unique hsaid'
    have herrors : r.hasErrors := hasErrors_iff.2 fun hnil => hne (hnone.1 hnil)
    exact ⟨.operationFailed operation r, r, if_pos herrors, rfl, rfl, rfl, hentries, rfl⟩

/-- **Listed errors are not swallowed** between the wire and a typed result. -/
structure ErrorsUnswallowed : Prop where
  query : ∀ {α : Type} (operation : String) (target : Target α) action url status bytes
    (o : NumberedOutcome), Success status → (readBody? bytes).isSome →
      o.value.result = interpret action url (.answered status bytes) →
      ∃ body, Document.read? bytes = some body ∧
        Unswallowed operation target body ((typedQuery operation target o).map (·.data))
  mutation : ∀ {α : Type} (operation : String) (target : Target α) action url status bytes
    (o : MutationOutcome), Success status → (readBody? bytes).isSome →
      o.map (·.data) = interpret action url (.answered status bytes) →
      ∃ body, Document.read? bytes = some body ∧
        Unswallowed operation target body ((typedMutation operation target o).map (·.data))

/-- **An answer whose body can be read is what its body says.** -/
theorem exists_body (action : Action) (url : Web.Url) {status : ℕ} {bytes : List UInt8}
    (hs : Success status) (hb : (readBody? bytes).isSome) :
    ∃ body r, Document.read? bytes = some body ∧ readResult? body = some r ∧
      interpret action url (.answered status bytes) = .ok r := by
  obtain ⟨r, hr⟩ := Option.isSome_iff_exists.1 hb
  obtain ⟨body, hbody, hread⟩ := Option.bind_eq_some_iff.1 hr
  exact ⟨body, r, hbody, hread, ((meaning action url _).ok r).2 ⟨status, bytes, rfl, hs, hr⟩⟩

/-- **No listed error is swallowed.** -/
theorem errors_unswallowed : ErrorsUnswallowed := by
  constructor
  · intro α operation target action url status bytes o hs hb ho
    obtain ⟨body, r, hbody, hread, hresult⟩ := exists_body action url hs hb
    refine ⟨body, hbody, ?_⟩
    have htyped : (typedQuery operation target o).map (·.data) = decodeResponse operation target r := by
      unfold typedQuery Outcome.update
      rw [ho, hresult]
      show (Except.map _ (decodeResponse operation target r)).map _ = _
      cases decodeResponse operation target r <;> rfl
    rw [htyped]
    exact unswallowed_decodeResponse hread
  · intro α operation target action url status bytes o hs hb ho
    obtain ⟨body, r, hbody, hread, hresult⟩ := exists_body action url hs hb
    refine ⟨body, hbody, ?_⟩
    have htyped : (typedMutation operation target o).map (·.data) = decodeResponse operation target r := by
      cases o with
      | error e => rw [hresult] at ho; cases ho
      | ok response =>
        obtain rfl : response.data = r := Except.ok.inj (ho.trans hresult)
        unfold typedMutation
        simp only [bind, Except.bind]
        cases decodeResponse operation target response.data <;> rfl
    rw [htyped]
    exact unswallowed_decodeResponse hread

/-- An error that says nothing, listed beside data. -/
example (target : Target Bool) :
    (readResult? (.record [(some "data", .bool true), (some "errors", .list [.record []])])).map
      (decodeResponse "Movies" target) = some (.error (.operationFailed "Movies"
        { data := some (.bool true), errors := [⟨"Unknown Data Connect error", []⟩] })) := by
  rfl

end QueryClient
