import QueryClient.Proofs.Json.Canonical
import QueryClient.Proofs.Text.Bytes
import QueryClient.Query.Key

/-!
# One key, one query

A key is the operation's name with a digest of the variables' canonical text. The text tells any two
values apart; whether the digest does is up to SHA-256.

* `QuerySpec.SameQuery`: the same operation with the same variables.
* `NoCollision`: SHA-256 tells the variables of the given queries apart.
* `key_eq_of_same`, `same_of_key_eq`: **one key, one query.**
-/

namespace QueryClient

variable {a b : QuerySpec} {specs : List QuerySpec}

/-- **The same query:** the same operation with the same variables. -/
def QuerySpec.SameQuery (a b : QuerySpec) : Prop :=
  a.operation = b.operation ∧ Json.Same (.obj a.vars) (.obj b.vars)

/-- The bytes that a query's key has the digest of. -/
def QuerySpec.encoding (a : QuerySpec) : List UInt8 := Utf8.bytes a.vars.canonical

/-- SHA-256 has no collision among the encodings of the given queries. -/
def NoCollision (specs : List QuerySpec) : Prop :=
  ∀ a ∈ specs, ∀ b ∈ specs, sha256 a.encoding = sha256 b.encoding → a.encoding = b.encoding

instance (specs : List QuerySpec) : Decidable (NoCollision specs) :=
  inferInstanceAs (Decidable (∀ a ∈ specs, ∀ b ∈ specs,
    sha256 a.encoding = sha256 b.encoding → a.encoding = b.encoding))

theorem encoding_eq_iff : a.encoding = b.encoding ↔ Json.Same (.obj a.vars) (.obj b.vars) := by
  rw [← Json.canonical_eq_iff]
  exact ⟨fun h => Utf8.bytes_injective h, congrArg Utf8.bytes⟩

/-- Queries of one key have one digest. -/
theorem key_eq_iff : a.key = b.key ↔ a.operation = b.operation ∧ sha256 a.encoding = sha256 b.encoding := by
  have hdigest : QueryKey.digestOf a.vars = QueryKey.digestOf b.vars ↔
      sha256 a.encoding = sha256 b.encoding := by
    constructor
    · intro h
      exact Base64Url.encode_injective (String.ofList_injective h)
    · intro h
      exact congrArg (fun bytes => String.ofList (Base64Url.encode bytes)) h
  unfold QuerySpec.key
  rw [QueryKey.mk.injEq, hdigest]

/-- **The same query has the same key.** -/
theorem key_eq_of_same (h : a.SameQuery b) : a.key = b.key :=
  key_eq_iff.2 ⟨h.1, congrArg sha256 (encoding_eq_iff.2 h.2)⟩

/-- **Queries of one key are the same,** if SHA-256 has no collision among them. -/
theorem same_of_key_eq (hno : NoCollision specs) (ha : a ∈ specs) (hb : b ∈ specs)
    (h : a.key = b.key) : a.SameQuery b := by
  obtain ⟨hop, hdigest⟩ := key_eq_iff.1 h
  exact ⟨hop, encoding_eq_iff.1 (hno a ha b hb hdigest)⟩

end QueryClient
