import QueryClient.Config.Basic
import QueryClient.Proofs.Codec.Image
import QueryClient.Proofs.Codec.Records

/-!
# The configuration types decode back

Connectors, options and settings are encoded as objects of their fields. They are read back from these
objects, whatever the order of the members and whatever else is among them, without the fields that are
none, and from the lists of their fields.

* `DecodesBack`: **the forms of a type,** those its values are encoded to and those they are read from.
* `DecodesBack.of_reads`: what has to be known of the fields of a record.
* `Connector.slots`, `Options.slots`, `Settings.slots`: the fields of the configuration types.
* `ConfigurationForms`, `configuration_forms`: **the configuration types decode back.**
-/

namespace QueryClient

/-! ## Forms of a type -/

/-- **The forms of a type.** Objects name no member twice. -/
structure DecodesBack {α : Type} (decoder : Decoder α) (toSerial : α → Serial) (slots : α → List Slot)
    (written : α → Struct) (required : List String) (least : ℕ) : Prop where
  encoded : ∀ typeName a, encodeVariables typeName (toSerial a) = .ok (written a)
  /-- What is encoded is decoded. -/
  decoded : ∀ typeName a, decodeData ⟨typeName, decoder⟩ (.obj (written a)) = .ok a
  /-- A value is decoded from its forms, and from nothing else. -/
  forms : ∀ typeName a j, j.WellFormed →
    (decodeData ⟨typeName, decoder⟩ j = .ok a ↔ RecordForm (slots a) j)
  /-- The members of an object may come in any order. -/
  reordered : ∀ typeName a (members others : Struct), (Json.obj members).WellFormed → members.Perm others →
    decodeData ⟨typeName, decoder⟩ (.obj members) = .ok a →
      decodeData ⟨typeName, decoder⟩ (.obj others) = .ok a
  /-- Unknown members may be among them. -/
  widened : ∀ typeName a (members : Struct) name j, (Json.obj ((name, j) :: members)).WellFormed →
    name ∉ (slots a).map (·.name) → decodeData ⟨typeName, decoder⟩ (.obj members) = .ok a →
      decodeData ⟨typeName, decoder⟩ (.obj ((name, j) :: members)) = .ok a
  /-- Those that are null may be left out. -/
  narrowed : ∀ typeName a (members : Struct) name, (Json.obj members).WellFormed →
    members.get? name = some .null → decodeData ⟨typeName, decoder⟩ (.obj members) = .ok a →
      decodeData ⟨typeName, decoder⟩ (.obj (members.filter fun m => m.1 ≠ name)) = .ok a
  /-- The fields may be listed in the order of their declaration. -/
  listed : ∀ typeName a (members : Struct) items, (Json.obj members).WellFormed →
    List.Forall₂ (fun s item => members.get? s.name = some item) (slots a) items →
      decodeData ⟨typeName, decoder⟩ (.obj members) = .ok a →
        decodeData ⟨typeName, decoder⟩ (.arr items) = .ok a
  /-- An object that lacks a required field is refused. -/
  lacking : ∀ typeName (members : Struct) name, (Json.obj members).WellFormed →
    name ∈ required → members.get? name = none →
      ∃ e, decodeData ⟨typeName, decoder⟩ (.obj members) = .error e ∧ e.code = .decode
  /-- So is a list that ends too early. -/
  short : ∀ typeName items, (Json.arr items).WellFormed → items.length < least →
    ∃ e, decodeData ⟨typeName, decoder⟩ (.arr items) = .error e ∧ e.code = .decode

variable {α : Type} {members others : Struct} {items : List Json} {j : Json} {name typeName : String}

theorem decodeData_eq_ok_iff {d : Decoder α} {a : α} :
    decodeData ⟨typeName, d⟩ j = .ok a ↔ d.run j = .ok a := by
  unfold decodeData
  cases d.run j <;> simp

/-- What is read as no value is refused as undecodable. -/
theorem decodeData_refused {d : Decoder α} (h : ∀ a, d.run j ≠ .ok a) :
    ∃ e, decodeData ⟨typeName, d⟩ j = .error e ∧ e.code = .decode := by
  unfold decodeData
  cases hrun : d.run j with
  | ok a => exact absurd hrun (h a)
  | error fault => exact ⟨_, rfl, rfl⟩

/-- **A record is encoded** as the object of its fields' images. -/
theorem encodeVariables_record (typeName : String) (fields : List (String × Serial)) (members : Struct)
    (hnames : members.names = fields.map (·.1))
    (hvalues : List.Forall₂ Serial.Image (fields.map (·.2)) (members.map (·.2))) :
    encodeVariables typeName (.record fields) = .ok members.sort := by
  have hkeys : List.Forall₂ Serial.KeyText ((Serial.keyed fields).map (·.1)) members.names := by
    rw [hnames, Serial.keyed, List.map_map, List.forall₂_map_left_iff, List.forall₂_map_right_iff]
    exact List.forall₂_same.2 fun field _ => .str field.1
  have hkeyed : (Serial.keyed fields).map (·.2) = fields.map (·.2) := by
    rw [Serial.keyed, List.map_map]
    rfl
  have himage : Serial.Image (.record fields) (.obj members.sort) := .record (.map hkeys (hkeyed ▸ hvalues))
  unfold encodeVariables
  rw [(Serial.toJson?_eq_ok_iff _ _).2 himage]

theorem wellFormed_obj : (Json.obj members).WellFormed ↔
    members.names.Nodup ∧ ∀ m ∈ members, m.2.WellFormed := by
  rw [Json.WellFormed, Json.wellFormedMembers_iff]
  rfl

theorem wellFormed_get? (h : (Json.obj members).WellFormed) (hget : members.get? name = some j) : j.WellFormed := by
  obtain ⟨hn, hm⟩ := wellFormed_obj.1 h
  exact hm _ ((Struct.get?_eq_some hn).1 hget)

/-- One member is left out. -/
theorem wellFormed_without (h : (Json.obj members).WellFormed) (name : String) :
    (Json.obj (members.filter fun m => m.1 ≠ name)).WellFormed := by
  obtain ⟨hn, hm⟩ := wellFormed_obj.1 h
  have hsub : (members.filter fun m => m.1 ≠ name).Sublist members := List.filter_sublist
  exact wellFormed_obj.2 ⟨hn.sublist (hsub.map _), fun m hmem => hm m (hsub.mem hmem)⟩

/-- **The forms of a record type** follow from what is known of its fields. -/
theorem DecodesBack.of_reads {fs : Fields α} {toSerial : α → Serial} {slots : α → List Slot}
    {written : α → Struct} {required : List String} {last : ℕ} (hr : fs.Reads slots)
    (hencoded : ∀ typeName a, encodeVariables typeName (toSerial a) = .ok (written a))
    (hwritten : ∀ a, (Json.obj (written a)).WellFormed ∧ RecordForm (slots a) (.obj (written a)))
    (hnull : ∀ a, ∀ s ∈ slots a, s.admits .null → s.optional)
    (hrequired : ∀ a, ∀ name ∈ required, ∃ s ∈ slots a, s.name = name ∧ ¬ s.optional)
    (hlast : ∀ a, ∃ s, (slots a)[last]? = some s ∧ s.trailing = false) :
    DecodesBack (.record name fs) toSerial slots written required (last + 1) := by
  have hforms : ∀ typeName a j, j.WellFormed →
      (decodeData ⟨typeName, .record name fs⟩ j = .ok a ↔ RecordForm (slots a) j) := by
    intro typeName a j hj
    rw [decodeData_eq_ok_iff, Decoder.record_eq_ok_iff hr hj]
  refine ⟨hencoded, ?_, hforms, ?_, ?_, ?_, ?_, ?_, ?_⟩
  · intro typeName a
    exact (hforms _ a _ (hwritten a).1).2 (hwritten a).2
  · intro typeName a members others hwf hperm hread
    obtain ⟨hn, hm⟩ := wellFormed_obj.1 hwf
    refine (hforms _ a _ ?_).2 (((hforms _ a _ hwf).1 hread).perm hn hperm)
    exact wellFormed_obj.2 ⟨(hperm.map _).nodup_iff.1 hn, fun m hmem => hm m (hperm.mem_iff.2 hmem)⟩
  · intro typeName a members key j hwf hkey hread
    obtain ⟨hn, hm⟩ := wellFormed_obj.1 hwf
    have hinner : (Json.obj members).WellFormed :=
      wellFormed_obj.2 ⟨(List.nodup_cons.1 hn).2, fun m hmem => hm m (List.mem_cons_of_mem _ hmem)⟩
    refine (hforms _ a _ hwf).2 (((hforms _ a _ hinner).1 hread).cons (fun s hs heq => hkey ?_) j)
    exact List.mem_map.2 ⟨s, hs, heq⟩
  · intro typeName a members key hwf hkey hread
    have hform := (hforms _ a _ hwf).1 hread
    exact (hforms _ a _ (wellFormed_without hwf key)).2 (hform.leave_out (hnull a) hkey)
  · intro typeName a members items hwf hitems hread
    refine (hforms _ a _ ?_).2 (((hforms _ a _ hwf).1 hread).listed hitems)
    rw [Json.WellFormed, Json.wellFormedItems_iff]
    intro item hitem
    -- each item is the value of a member
    obtain ⟨key, -, hget⟩ := Struct.exists_of_forall₂ hitems.flip hitem
    exact wellFormed_get? hwf hget
  · intro typeName members key hwf hkey hget
    refine decodeData_refused fun a hrun => ?_
    obtain ⟨s, hs, rfl, hopt⟩ := hrequired a key hkey
    have hgiven := ((Decoder.record_eq_ok_iff hr hwf).1 hrun).given hs hopt
    rw [hget] at hgiven
    simp at hgiven
  · intro typeName items hwf hlen
    refine decodeData_refused fun a hrun => ?_
    -- a list that is read reaches beyond the last field before which it may not end
    obtain ⟨s, hs, htrailing⟩ := hlast a
    have hlt := ((Decoder.record_eq_ok_iff hr hwf).1 hrun).length_lt hs htrailing
    omega

/-! ## Scalars -/

section

variable {value? : String → Option Json}

theorem string_eq_ok_iff (j : Json) (s : String) : Decoder.string.run j = .ok s ↔ j = .str s := by
  cases j <;> simp [Decoder.string]

theorem bool_eq_ok_iff (j : Json) (b : Bool) : Decoder.bool.run j = .ok b ↔ j = .bool b := by
  cases j <;> simp [Decoder.bool]

theorem uint16_eq_ok_iff (j : Json) (p : UInt16) : Decoder.uint16.run j = .ok p ↔ j = .int p.toNat := by
  cases j with
  | int n =>
    show ((if 0 ≤ n ∧ n ≤ 65535 then Except.ok n else .error (Fault.tooLarge n "u16")).map _) = _ ↔ _
    have hp := p.toNat_lt
    split
    · simp only [Except.map, Except.ok.injEq, Json.int.injEq]
      constructor
      · rintro rfl
        rw [UInt16.toNat_ofNat']
        omega
      · rintro rfl
        simp
    · simp only [Except.map, Json.int.injEq, reduceCtorEq, false_iff]
      omega
  | _ => simp [Decoder.uint16, Decoder.map, Decoder.int, Except.map]

/-- Null stands for a value only where it is none. -/
theorem optional_of_null {write : α → Json} {value : Option α} {trailing : Bool}
    (hnull : (Slot.maybe name write value trailing).admits .null) (hwrite : ∀ a, write a ≠ .null) :
    (Slot.maybe name write value trailing).optional := by
  cases value with
  | none => rfl
  | some a => exact absurd hnull.symm (hwrite a)

/-- A text that has to be given. -/
theorem found_text (name s : String) (given : Option Json) :
    Fields.ReadOr .string none given s ↔ (Slot.mandatory name (· = .str s)).Holds given :=
  Fields.found_mandatory fun j _ => string_eq_ok_iff j s

/-- A text that may be none. -/
theorem found_optionalText (name : String) (text : Option String) (given : Option Json) :
    Fields.ReadOr Decoder.string.option (some none) given text ↔
      (Slot.maybe name Json.str text true).Holds given :=
  Fields.found_maybe string_eq_ok_iff (fun _ => nofun) text true given

end

/-! ## The configuration types -/

namespace Connector

/-- The fields of a connector. -/
def fields : Fields Connector :=
  (Fields.pure Connector.mk)
    |>.required "location" .string
    |>.required "connector" .string
    |>.required "service" .string

/-- **The forms of a connector's fields.** -/
def slots (c : Connector) : List Slot :=
  [.mandatory "location" (· = .str c.location), .mandatory "connector" (· = .str c.connector),
    .mandatory "service" (· = .str c.service)]

/-- The object that a connector is encoded as. -/
def written (c : Connector) : Struct :=
  [("connector", .str c.connector), ("location", .str c.location), ("service", .str c.service)]

theorem reads : fields.Reads slots where
  sound := by
    unfold fields
    exact ((Fields.RefusesUnreadable.pure _).add _ _ _ _ |>.add _ _ _ _ |>.add _ _ _ _)
  nodup := by decide
  fields _ := rfl
  build value? c _ := by
    simp only [fields, Fields.required, Fields.build_add, slots, List.forall_mem_cons]
    constructor
    · rintro ⟨_, service, ⟨_, connector, ⟨_, location, hmk, hl, rfl⟩, hc, rfl⟩, hs, rfl⟩
      obtain rfl := Except.ok.inj hmk
      exact ⟨(found_text ..).1 hl, (found_text ..).1 hc, (found_text ..).1 hs, by simp⟩
    · rintro ⟨hl, hc, hs, -⟩
      exact ⟨_, _, ⟨_, _, ⟨_, _, rfl, (found_text ..).2 hl, rfl⟩, (found_text ..).2 hc, rfl⟩,
        (found_text ..).2 hs, rfl⟩

/-- What a connector is encoded as is one of its forms. -/
theorem holds_written (c : Connector) :
    (Json.obj c.written).WellFormed ∧ RecordForm c.slots (.obj c.written) := by
  constructor
  · simp [written, Json.WellFormed, Json.WellFormedMembers]
  · refine .object ?_
    simp [slots, written, Struct.get?_cons, Slot.Holds, Slot.mandatory]

theorem decodesBack : DecodesBack decoder toSerial slots written ["location", "connector", "service"] 3 := by
  refine .of_reads reads (fun typeName c => rfl) holds_written ?_ ?_ fun c => ⟨_, rfl, rfl⟩
  · simp [slots, Slot.mandatory]
  · simp [slots, Slot.mandatory]

end Connector

namespace Options

/-- The fields of options. -/
def fields : Fields Options :=
  (Fields.pure Options.mk)
    |>.required "connector" Connector.decoder
    |>.required "project_id" .string
    |>.withDefault "api_key" Decoder.string.option none
    |>.withDefault "app_id" Decoder.string.option none

/-- **The forms of the fields of options.** The connector may be given in any of its forms. -/
def slots (o : Options) : List Slot :=
  [.mandatory "connector" (RecordForm o.connector.slots), .mandatory "project_id" (· = .str o.projectId),
    .maybe "api_key" .str o.apiKey true, .maybe "app_id" .str o.appId true]

/-- The object that options are encoded as. -/
def written (o : Options) : Struct :=
  [("api_key", .ofOption .str o.apiKey), ("app_id", .ofOption .str o.appId),
    ("connector", .obj o.connector.written), ("project_id", .str o.projectId)]

theorem reads : fields.Reads slots where
  sound := by
    unfold fields
    exact ((Fields.RefusesUnreadable.pure _).add _ _ _ _ |>.add _ _ _ _ |>.add _ _ _ _ |>.add _ _ _ _)
  nodup := by decide
  fields _ := rfl
  build value? o hwf := by
    have hconnector : ∀ c, Fields.ReadOr Connector.decoder none (value? "connector") c ↔
        (Slot.mandatory "connector" (RecordForm c.slots)).Holds (value? "connector") :=
      fun c => Fields.found_mandatory fun j hj => Decoder.record_eq_ok_iff Connector.reads (hwf _ j hj)
    simp only [fields, Fields.required, Fields.withDefault, Fields.build_add, slots, List.forall_mem_cons]
    constructor
    · rintro ⟨_, appId, ⟨_, apiKey, ⟨_, projectId, ⟨_, connector, hmk, hc, rfl⟩, hp, rfl⟩, hk, rfl⟩, hi, rfl⟩
      obtain rfl := Except.ok.inj hmk
      exact ⟨(hconnector _).1 hc, (found_text ..).1 hp, (found_optionalText ..).1 hk,
        (found_optionalText ..).1 hi, by simp⟩
    · rintro ⟨hc, hp, hk, hi, -⟩
      exact ⟨_, _, ⟨_, _, ⟨_, _, ⟨_, _, rfl, (hconnector _).2 hc, rfl⟩, (found_text ..).2 hp, rfl⟩,
        (found_optionalText ..).2 hk, rfl⟩, (found_optionalText ..).2 hi, rfl⟩

theorem decodesBack : DecodesBack decoder toSerial slots written ["connector", "project_id"] 2 := by
  refine .of_reads reads (fun typeName o => ?_) (fun o => ⟨?_, .object ?_⟩) ?_ ?_ fun o => ⟨_, rfl, rfl⟩
  · obtain ⟨connector, projectId, _ | apiKey, _ | appId⟩ := o <;> rfl
  · have htext : ∀ text : Option String, (Json.ofOption .str text).WellFormed := by
      rintro (_ | text) <;> simp [Json.ofOption, Json.WellFormed]
    have hconnector := o.connector.holds_written.1
    rw [Json.WellFormed] at hconnector
    simp [written, Json.WellFormed, Json.WellFormedMembers, htext, hconnector]
  · have hconnector := o.connector.holds_written.2
    simp [slots, written, Struct.get?_cons, Slot.Holds, Slot.mandatory, Slot.maybe, hconnector]
  · intro o s hs hnull
    simp only [slots, List.mem_cons, List.not_mem_nil, or_false] at hs
    rcases hs with rfl | rfl | rfl | rfl
    · cases hnull
    · cases hnull
    · exact optional_of_null hnull (by simp)
    · exact optional_of_null hnull (by simp)
  · simp [slots, Slot.mandatory]

end Options

namespace Settings

/-- The fields of settings. -/
def fields : Fields Settings :=
  (Fields.pure Settings.mk)
    |>.required "host" .string
    |>.optional "port" .uint16
    |>.required "ssl_enabled" .bool

/-- A port as a JSON value. -/
def portJson (port : UInt16) : Json := .int port.toNat

/-- **The forms of the fields of settings.** -/
def slots (s : Settings) : List Slot :=
  [.mandatory "host" (· = .str s.host), .maybe "port" portJson s.port false,
    .mandatory "ssl_enabled" (· = .bool s.sslEnabled)]

/-- The object that settings are encoded as. -/
def written (s : Settings) : Struct :=
  [("host", .str s.host), ("port", .ofOption portJson s.port), ("ssl_enabled", .bool s.sslEnabled)]

theorem reads : fields.Reads slots where
  sound := by
    unfold fields
    exact ((Fields.RefusesUnreadable.pure _).add _ _ _ _ |>.add _ _ _ _ |>.add _ _ _ _)
  nodup := by decide
  fields _ := rfl
  build value? s _ := by
    have hport : ∀ port, Fields.ReadOr Decoder.uint16.option (some none) (value? "port") port ↔
        (Slot.maybe "port" portJson port false).Holds (value? "port") :=
      fun port => Fields.found_maybe uint16_eq_ok_iff (fun _ => nofun) port false _
    have hssl : ∀ b, Fields.ReadOr .bool none (value? "ssl_enabled") b ↔
        (Slot.mandatory "ssl_enabled" (· = .bool b)).Holds (value? "ssl_enabled") :=
      fun b => Fields.found_mandatory fun j _ => bool_eq_ok_iff j b
    simp only [fields, Fields.required, Fields.optional, Fields.build_add, slots, List.forall_mem_cons]
    constructor
    · rintro ⟨_, ssl, ⟨_, port, ⟨_, host, hmk, hh, rfl⟩, hp, rfl⟩, hs, rfl⟩
      obtain rfl := Except.ok.inj hmk
      exact ⟨(found_text ..).1 hh, (hport _).1 hp, (hssl _).1 hs, by simp⟩
    · rintro ⟨hh, hp, hs, -⟩
      exact ⟨_, _, ⟨_, _, ⟨_, _, rfl, (found_text ..).2 hh, rfl⟩, (hport _).2 hp, rfl⟩, (hssl _).2 hs, rfl⟩

theorem decodesBack : DecodesBack decoder toSerial slots written ["host", "ssl_enabled"] 3 := by
  refine .of_reads reads (fun typeName s => ?_) (fun s => ⟨?_, .object ?_⟩) ?_ ?_ fun s => ⟨_, rfl, rfl⟩
  · have hsorted : Struct.sort [("host", .str s.host), ("port", .ofOption portJson s.port),
        ("ssl_enabled", .bool s.sslEnabled)] = s.written := by
      simp only [Struct.sort, List.foldl_cons, List.foldl_nil]
      rfl
    rw [← hsorted]
    refine encodeVariables_record typeName _ _ rfl (.cons (.str _) (.cons ?_ (.cons (.bool _) .nil)))
    cases s.port with
    | none => exact .absent
    | some port =>
      have hp := port.toNat_lt
      refine .present (.int ?_)
      simp [Serial.intInRange]
      omega
  · have hport : ∀ port, (Json.ofOption portJson port).WellFormed := by
      rintro (_ | port) <;> simp [Json.ofOption, portJson, Json.WellFormed]
    simp [written, Json.WellFormed, Json.WellFormedMembers, hport]
  · simp [slots, written, Struct.get?_cons, Slot.Holds, Slot.mandatory, Slot.maybe]
  · intro s t ht hnull
    simp only [slots, List.mem_cons, List.not_mem_nil, or_false] at ht
    rcases ht with rfl | rfl | rfl
    · cases hnull
    · exact optional_of_null hnull (by simp [portJson])
    · cases hnull
  · simp [slots, Slot.mandatory]

end Settings

/-! ## The configuration types decode back -/

/-- **The forms of the configuration types.** -/
structure ConfigurationForms : Prop where
  connector : DecodesBack Connector.decoder Connector.toSerial Connector.slots Connector.written
    ["location", "connector", "service"] 3
  options : DecodesBack Options.decoder Options.toSerial Options.slots Options.written
    ["connector", "project_id"] 2
  settings : DecodesBack Settings.decoder Settings.toSerial Settings.slots Settings.written
    ["host", "ssl_enabled"] 3
  /-- The connector of options may be given in any of its forms, in an object -/
  nested : ∀ typeName other o j (members : Struct), (Json.obj members).WellFormed →
    decodeData ⟨typeName, Options.decoder⟩ (.obj members) = .ok o →
      j.WellFormed → decodeData ⟨other, Connector.decoder⟩ j = .ok o.connector →
        decodeData ⟨typeName, Options.decoder⟩
          (.obj (("connector", j) :: members.filter fun m => m.1 ≠ "connector")) = .ok o
  /-- and in a list. -/
  nestedItem : ∀ typeName other o i j items, (Json.arr (i :: items)).WellFormed →
    decodeData ⟨typeName, Options.decoder⟩ (.arr (i :: items)) = .ok o →
      j.WellFormed → decodeData ⟨other, Connector.decoder⟩ j = .ok o.connector →
        decodeData ⟨typeName, Options.decoder⟩ (.arr (j :: items)) = .ok o
  /-- Options whose connector is refused are refused. -/
  refused : ∀ typeName other j e, decodeData ⟨typeName, Connector.decoder⟩ j = .error e →
    ∀ members : Struct, (Json.obj members).WellFormed → members.get? "connector" = some j →
      ∃ e, decodeData ⟨other, Options.decoder⟩ (.obj members) = .error e ∧ e.code = .decode
  refusedItem : ∀ typeName other j e, decodeData ⟨typeName, Connector.decoder⟩ j = .error e →
    ∀ items, (Json.arr (j :: items)).WellFormed →
      ∃ e, decodeData ⟨other, Options.decoder⟩ (.arr (j :: items)) = .error e ∧ e.code = .decode

/-- A connector is read from its forms. -/
theorem Connector.decodeData_iff {c : Connector} (hj : j.WellFormed) :
    decodeData ⟨typeName, Connector.decoder⟩ j = .ok c ↔ RecordForm c.slots j :=
  Connector.decodesBack.forms typeName c j hj

/-- Options are read from their forms. -/
theorem Options.decodeData_iff {o : Options} (hj : j.WellFormed) :
    decodeData ⟨typeName, Options.decoder⟩ j = .ok o ↔ RecordForm o.slots j :=
  Options.decodesBack.forms typeName o j hj

/-- **The configuration types decode back.** -/
theorem configuration_forms : ConfigurationForms := by
  refine ⟨Connector.decodesBack, Options.decodesBack, Settings.decodesBack, ?_, ?_, ?_, ?_⟩
  · intro typeName other o j members hwf hread hj hconnector
    have hform := (Options.decodeData_iff hwf).1 hread
    -- the connector is taken out of the object and put back in its other form
    obtain ⟨hn, hm⟩ := wellFormed_obj.1 (wellFormed_without hwf "connector")
    refine (Options.decodeData_iff ?_).2 (hform.replace ?_ ((Connector.decodeData_iff hj).1 hconnector))
    · refine wellFormed_obj.2 ⟨List.nodup_cons.2 ⟨?_, hn⟩, List.forall_mem_cons.2 ⟨hj, hm⟩⟩
      simp
    · simp [Slot.mandatory, Slot.maybe]
  · intro typeName other o i j items hwf hread hj hconnector
    have hform := (Options.decodeData_iff hwf).1 hread
    rw [Json.WellFormed, Json.wellFormedItems_iff, List.forall_mem_cons] at hwf
    refine (Options.decodeData_iff ?_).2 ?_
    · rw [Json.WellFormed, Json.wellFormedItems_iff, List.forall_mem_cons]
      exact ⟨hj, hwf.2⟩
    · cases hform with
      | list h =>
        cases h with
        | item _ h => exact .list (.item ((Connector.decodeData_iff hj).1 hconnector) h)
  · intro typeName other j e hrefused members hwf hget
    refine decodeData_refused fun o hrun => ?_
    have hform := (Decoder.record_eq_ok_iff Options.reads hwf).1 hrun
    have hslot : (Slot.mandatory "connector" (RecordForm o.connector.slots)).Holds
        (members.get? "connector") := by
      cases hform with
      | object h => exact h _ List.mem_cons_self
    rw [hget] at hslot
    rw [(Connector.decodeData_iff (wellFormed_get? hwf hget)).2 hslot] at hrefused
    simp at hrefused
  · intro typeName other j e hrefused items hwf
    refine decodeData_refused fun o hrun => ?_
    have hform := (Decoder.record_eq_ok_iff Options.reads hwf).1 hrun
    rw [Json.WellFormed, Json.wellFormedItems_iff, List.forall_mem_cons] at hwf
    cases hform with
    | list h =>
      cases h with
      | item hslot _ =>
        rw [(Connector.decodeData_iff hwf.1).2 hslot] at hrefused
        simp at hrefused

/-- A connector among the fields of options, both listed, and the credentials left out. -/
example : decodeData ⟨"Options", Options.decoder⟩
      (.arr [.arr [.str "here", .str "movies", .str "films"], .str "demo"]) =
    .ok { connector := ⟨"here", "movies", "films"⟩, projectId := "demo" } := by
  rfl

end QueryClient
