import QueryClient.Json.Reader
import QueryClient.Response

/-!
# The body of an answer

A body is an object with the members `data` and `errors`, or a list of the two; both may be missing.
An error has a `message` and a `path`, by name or as a list of the two. Unknown members are ignored
and not even looked into; a known member that is named twice makes a body unreadable.

* `readBody?`: data and errors of a body, if it can be read.
* `readError?`: an error of the list.
-/

namespace QueryClient.Rest

/-- The text of an error that has none. -/
def unknownError : String := "Unknown Data Connect error"

/-- The member of the given name: `none` when a name is no text or the member is named twice. -/
def member? (name : String) (members : List (Option String × Document)) :
    Option (Option Document) :=
  if members.any (·.1.isNone) then none
  else
    match members.filter fun m => m.1 = some name with
    | [] => some none
    | [m] => some (some m.2)
    | _ => none

/-- The segments of a path: names and integers of 64 bits; anything else is left out. -/
def segment? : Json → Option PathSegment
  | .str name => some (.field name)
  | .int n => if -Int.pow 2 63 ≤ n ∧ n < Int.pow 2 63 then some (.index n) else none
  | _ => none

/-- A message: a text, or nothing. -/
def readMessage? : Option Document → Option (Option String)
  | none | some .null => some none
  | some (.string (some text)) => some (some text)
  | _ => none

/-- A path: a list of values, or nothing. Lists of errors and their paths are four levels deep. -/
def readPath? : Option Document → Option (List PathSegment)
  | none | some .null => some []
  | some (.list items) =>
    (Document.values? (Document.maxDepth - 4) items).map fun values => values.filterMap segment?
  | _ => none

/-- An error of its two parts. -/
def makeError? (message path : Option Document) : Option ResponseError :=
  match readMessage? message, readPath? path with
  | some message, some path => some ⟨message.getD unknownError, path⟩
  | _, _ => none

/-- An error of the list. -/
def readError? : Document → Option ResponseError
  | .record members =>
    match member? "message" members, member? "path" members with
    | some message, some path => makeError? message path
    | _, _ => none
  | .list [message, path] => makeError? (some message) (some path)
  | _ => none

/-- All errors, if each can be read. -/
def readErrors? : List Document → Option (List ResponseError)
  | [] => some []
  | d :: rest =>
    match readError? d, readErrors? rest with
    | some e, some es => some (e :: es)
    | _, _ => none

/-- The data of a body; null is none. -/
def readData? : Option Document → Option (Option Json)
  | none | some .null => some none
  | some d => (d.value? (Document.maxDepth - 1)).map some

/-- The list of errors of a body, which cannot be null. -/
def readErrorList? : Option Document → Option (List ResponseError)
  | none => some []
  | some (.list items) => readErrors? items
  | _ => none

/-- An answer of its two parts. -/
def makeResult? (data errors : Option Document) : Option OperationResult :=
  match readData? data, readErrorList? errors with
  | some data, some errors => some { data, errors }
  | _, _ => none

/-- The answer that a document stands for. -/
def readResult? : Document → Option OperationResult
  | .record members =>
    match member? "data" members, member? "errors" members with
    | some data, some errors => makeResult? data errors
    | _, _ => none
  | .list [] => some {}
  | .list [data] => makeResult? (some data) none
  | .list [data, errors] => makeResult? (some data) (some errors)
  | _ => none

/-- **The answer that a body stands for.** -/
def readBody? (body : List UInt8) : Option OperationResult :=
  (Document.read? body).bind readResult?

end QueryClient.Rest
