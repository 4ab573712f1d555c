import QueryClient.Digest.Sha256
import QueryClient.Json.Writer
import QueryClient.Text.Base64Url
import QueryClient.Text.Quoted
import QueryClient.Text.Utf8

/-!
# Queries and their keys

A query is an operation with its variables. Its key has the operation's name and a digest of the
variables' canonical text, so that two queries whose variables are the same value have one key, in
whatever order the members were written.

* `QuerySpec.key`: the key of a query.
* `QueryKey.display`, `QueryKey.describe`: a key in messages and for human readers.
* `DataSource`: whether a result was stored before its reader came.
-/

namespace QueryClient

/-- An operation and its variables. -/
structure QuerySpec where
  operation : String
  vars : Struct
  deriving Inhabited, Repr

/-- What tells one live query from another. -/
structure QueryKey where
  operation : String
  /-- The digest of the variables. -/
  digest : String
  deriving DecidableEq, Repr, Inhabited

namespace QueryKey

/-- The digest of variables: SHA-256 of their canonical text, in base 64. -/
def digestOf (vars : Struct) : String :=
  String.ofList (Base64Url.encode (sha256 (Utf8.bytes vars.canonical)))

/-- A key in messages. -/
def display (k : QueryKey) : String := k.operation ++ "(" ++ k.digest ++ ")"

/-- A key for human readers. -/
def describe (k : QueryKey) : String :=
  "QueryKey \x7b operation_name: " ++ Text.quoted k.operation ++ ", variables_hash: "
    ++ Text.quoted k.digest ++ " \x7d"

end QueryKey

namespace QuerySpec

/-- The key of a query. -/
def key (s : QuerySpec) : QueryKey := ⟨s.operation, QueryKey.digestOf s.vars⟩

/-- The same operation with the same variables; the two floating-point zeros are one value. -/
def agrees (a b : QuerySpec) : Bool :=
  a.operation == b.operation
    && (Json.obj a.vars.normalize).agrees (.obj b.vars.normalize)

end QuerySpec

/-- Where a result comes from. -/
inductive DataSource where
  /-- It was stored before the reader that gets it came. -/
  | cache
  | server
  deriving DecidableEq, Repr, Inhabited

namespace DataSource

/-- The source in capitals. -/
def name : DataSource → String
  | cache => "CACHE"
  | server => "SERVER"

end DataSource

end QueryClient
