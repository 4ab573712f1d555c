import Mathlib.Data.List.Basic
import QueryClient.Service.Directory

/-!
# Addresses of connectors

The address of a connector has its project, location, service and name with a word between any two. Any
text that is not blank may be each of them, and may have slashes and these words in it, so that an address
can have several readings. Two readings part at the first field that differs, where one goes on with the
word that follows the other.

* `Text.Continues`, `Text.Fork`: one text goes on from another with a word between slashes.
* `Text.fork_of_spliced`: the texts before a word are the same, or one goes on from the other.
* `Options.Clash`: two readings part; `Options.resourcePath_eq`: how an address is read.
* `Options.key_eq_or_clash`: **options of one address have one key, or clash.**
* `Options.key_eq_of_slashFree`: options without slashes share their address with no others.
-/

namespace QueryClient

/-! ## Words between slashes -/

namespace Text

variable {word x y r r' : String}

/-- The long text is the short one and the word as a part of its own, with or without more after it. -/
def Continues (word short long : String) : Prop :=
  long = short ++ "/" ++ word ∨ ∃ more, long = short ++ "/" ++ word ++ "/" ++ more

/-- One of two texts goes on from the other. -/
def Fork (word x y : String) : Prop := Continues word x y ∨ Continues word y x

/-- A word that is read in two places, one after the other: the text before the later one goes on from the
text before the earlier one. -/
theorem goesOn_of_spliced (xs : List Char) {zs rs rs' : List Char} (hword : '/' ∉ word.toList) (hne : zs ≠ [])
    (h : '/' :: word.toList ++ '/' :: rs = zs ++ ('/' :: word.toList ++ '/' :: rs')) :
    Continues word (String.ofList xs) (String.ofList (xs ++ zs)) := by
  obtain ⟨z, zs, rfl⟩ := List.exists_cons_of_ne_nil hne
  simp only [List.cons_append, List.cons.injEq] at h
  obtain ⟨rfl, h⟩ := h
  -- the word ends where the later reading begins, or before
  rcases List.append_eq_append_iff.1 h with ⟨as, rfl, has⟩ | ⟨bs, hbs, has⟩
  · cases as with
    | nil =>
      refine .inl ?_
      simp [← String.toList_inj]
    | cons a as =>
      obtain ⟨rfl, -⟩ := List.cons.inj has
      refine .inr ⟨String.ofList as, ?_⟩
      simp [← String.toList_inj]
  · cases bs with
    | nil =>
      rw [List.append_nil] at hbs
      refine .inl ?_
      simp [← String.toList_inj, hbs]
    | cons b bs =>
      -- the word has no slash
      obtain ⟨rfl, -⟩ := List.cons.inj has
      exact absurd (hbs ▸ List.mem_append_right zs List.mem_cons_self) hword

/-- **Where a text is spliced with a word in two ways,** the texts before the word are the same, or one goes
on from the other. -/
theorem fork_of_spliced (hword : '/' ∉ word.toList)
    (h : x ++ ("/" ++ word ++ "/") ++ r = y ++ ("/" ++ word ++ "/") ++ r') : x = y ∧ r = r' ∨ Fork word x y := by
  have hlist : x.toList ++ ('/' :: word.toList ++ '/' :: r.toList) =
      y.toList ++ ('/' :: word.toList ++ '/' :: r'.toList) := by
    simpa [← String.toList_inj] using h
  rcases List.append_eq_append_iff.1 hlist with ⟨zs, hy, hr⟩ | ⟨zs, hx, hr⟩
  · cases zs with
    | nil =>
      rw [List.append_nil] at hy
      exact .inl ⟨String.toList_inj.1 hy.symm, String.toList_inj.1 (by simpa using hr)⟩
    | cons z zs =>
      have hon := goesOn_of_spliced x.toList hword (List.cons_ne_nil z zs) hr
      rw [← hy, String.ofList_toList, String.ofList_toList] at hon
      exact .inr (.inl hon)
  · cases zs with
    | nil =>
      rw [List.append_nil] at hx
      exact .inl ⟨String.toList_inj.1 hx, String.toList_inj.1 (by simpa using hr.symm)⟩
    | cons z zs =>
      have hon := goesOn_of_spliced y.toList hword (List.cons_ne_nil z zs) hr
      rw [← hx, String.ofList_toList, String.ofList_toList] at hon
      exact .inr (.inr hon)

/-- What goes on has a slash. -/
theorem Continues.mem (h : Continues word x y) : '/' ∈ y.toList := by
  rcases h with rfl | ⟨more, rfl⟩ <;> simp

theorem Fork.mem (h : Fork word x y) : '/' ∈ x.toList ∨ '/' ∈ y.toList :=
  h.elim (fun h => .inr h.mem) fun h => .inl h.mem

end Text

/-! ## Readings of an address -/

namespace Options

variable {a b : Options}

/-- **Two readings of an address part:** in the first field that differs, one goes on with the word that
follows the other. -/
inductive Clash (a b : Options) : Prop where
  | project (h : Text.Fork "locations" a.projectId b.projectId)
  | location (project : a.projectId = b.projectId)
      (h : Text.Fork "services" a.connector.location b.connector.location)
  | service (project : a.projectId = b.projectId) (location : a.connector.location = b.connector.location)
      (h : Text.Fork "connectors" a.connector.service b.connector.service)

/-- An address is spliced of its fields, with a word between any two. -/
theorem resourcePath_eq (o : Options) : o.resourcePath =
    "projects/" ++ (o.projectId ++ ("/" ++ "locations" ++ "/") ++
      (o.connector.location ++ ("/" ++ "services" ++ "/") ++
        (o.connector.service ++ ("/" ++ "connectors" ++ "/") ++ o.connector.connector))) := by
  have hlocations : "/" ++ "locations" ++ "/" = "/locations/" := by decide
  have hservices : "/" ++ "services" ++ "/" = "/services/" := by decide
  have hconnectors : "/" ++ "connectors" ++ "/" = "/connectors/" := by decide
  rw [hlocations, hservices, hconnectors]
  show "projects/" ++ o.projectId ++ "/locations/" ++ o.connector.location ++ "/services/" ++
    o.connector.service ++ "/connectors/" ++ o.connector.connector = _
  simp only [String.append_assoc]

/-- **Options of one address have one key,** or clash. -/
theorem key_eq_or_clash (h : a.resourcePath = b.resourcePath) : a.serviceKey = b.serviceKey ∨ a.Clash b := by
  have hproject := h
  rw [resourcePath_eq, resourcePath_eq, String.append_right_inj] at hproject
  rcases Text.fork_of_spliced (by decide) hproject with ⟨hp, hlocation⟩ | hfork
  swap
  · exact .inr (.project hfork)
  rcases Text.fork_of_spliced (by decide) hlocation with ⟨hl, hservice⟩ | hfork
  swap
  · exact .inr (.location hp hfork)
  rcases Text.fork_of_spliced (by decide) hservice with ⟨hs, hc⟩ | hfork
  swap
  · exact .inr (.service hp hl hfork)
  obtain ⟨⟨l, c, s⟩, p, _, _⟩ := a
  obtain ⟨⟨l', c', s'⟩, p', _, _⟩ := b
  simp only at hp hl hs hc
  subst hp hl hs hc
  exact .inl rfl

/-- No field has a slash. -/
structure SlashFree (o : Options) : Prop where
  project : '/' ∉ o.projectId.toList
  location : '/' ∉ o.connector.location.toList
  service : '/' ∉ o.connector.service.toList
  connector : '/' ∉ o.connector.connector.toList

/-- An address has seven slashes, and those of its fields. -/
theorem count_resourcePath (o : Options) : o.resourcePath.toList.count '/' =
    7 + (o.projectId.toList.count '/' + o.connector.location.toList.count '/' +
      o.connector.service.toList.count '/' + o.connector.connector.toList.count '/') := by
  -- said of any words, so that their texts are not compared with one another
  have hcount : ∀ w₀ w₁ w₂ w₃ p l s c : String, w₀.toList.count '/' = 1 → w₁.toList.count '/' = 2 →
      w₂.toList.count '/' = 2 → w₃.toList.count '/' = 2 →
        (w₀ ++ p ++ w₁ ++ l ++ w₂ ++ s ++ w₃ ++ c).toList.count '/' =
          7 + (p.toList.count '/' + l.toList.count '/' + s.toList.count '/' + c.toList.count '/') := by
    intro w₀ w₁ w₂ w₃ p l s c h₀ h₁ h₂ h₃
    simp only [String.toList_append, List.count_append]
    omega
  exact hcount _ _ _ _ _ _ _ _ (by decide) (by decide) (by decide) (by decide)

/-- Options that have the address of others without slashes have none. -/
theorem SlashFree.of_resourcePath (ha : a.SlashFree) (h : a.resourcePath = b.resourcePath) : b.SlashFree := by
  have hcount := a.count_resourcePath.symm.trans
    ((congrArg (fun path : String => path.toList.count '/') h).trans b.count_resourcePath)
  rw [List.count_eq_zero_of_not_mem ha.project, List.count_eq_zero_of_not_mem ha.location,
    List.count_eq_zero_of_not_mem ha.service, List.count_eq_zero_of_not_mem ha.connector] at hcount
  constructor <;> refine List.count_eq_zero.1 ?_ <;> omega

/-- **Options without slashes** share their address with no others. -/
theorem key_eq_of_slashFree (ha : a.SlashFree) (h : a.resourcePath = b.resourcePath) :
    a.serviceKey = b.serviceKey := by
  have hb := ha.of_resourcePath h
  refine (key_eq_or_clash h).resolve_right fun hclash => ?_
  cases hclash with
  | project hfork => exact hfork.mem.elim ha.project hb.project
  | location _ hfork => exact hfork.mem.elim ha.location hb.location
  | service _ _ hfork => exact hfork.mem.elim ha.service hb.service

end Options

end QueryClient
