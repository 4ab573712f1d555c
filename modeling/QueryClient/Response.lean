import QueryClient.Json.Writer

/-!
# What the backend answers to an operation

An answer carries data, a list of errors, or both. An error of the list says where in the data it
belongs by a path of field names and list indices.

* `ResponseError.text`: the error on one line, path included.
* `OperationResult`: data and errors of one answer.
* `ErrorCode`: the kinds of failure an operation can end in.
-/

namespace QueryClient

/-- One step of a path into the data. -/
inductive PathSegment where
  | field (name : String)
  | index (position : Int)
  deriving DecidableEq, Repr

/-- An error the backend lists beside the data. -/
structure ResponseError where
  message : String
  path : List PathSegment
  deriving DecidableEq, Repr

namespace ResponseError

/-- The path with one more segment: a point stands between a field and what precedes it, an index
is in brackets. -/
def addSegment (path : String) : PathSegment → String
  | .field name => if path.isEmpty then name else path ++ "." ++ name
  | .index position => path ++ "[" ++ String.ofList (Json.writeInt position) ++ "]"

/-- The path on one line. -/
def pathText (path : List PathSegment) : String := path.foldl addSegment ""

/-- The message, followed by the path if there is one. -/
def text (e : ResponseError) : String :=
  if e.path.isEmpty then e.message else e.message ++ " at " ++ pathText e.path

end ResponseError

/-- Data and errors of one answer. Errors are part of the answer; they are no failure here. -/
structure OperationResult where
  /-- None when the answer has no data, or null for it. -/
  data : Option Json := none
  errors : List ResponseError := []
  deriving Inhabited, Repr

namespace OperationResult

/-- An answer with data and no errors. -/
def ofData (data : Json) : OperationResult := { data := some data }

/-- The answer lists an error. -/
def hasErrors (r : OperationResult) : Bool := !r.errors.isEmpty

end OperationResult

/-- The kinds of failure an operation can end in. -/
inductive ErrorCode where
  | invalidArgument
  | internal
  | unauthorized
  | network
  | operationFailed
  | encode
  | decode
  | auth
  | closed
  | cancelled
  deriving DecidableEq, Repr

namespace ErrorCode

/-- All codes. -/
def all : List ErrorCode :=
  [.invalidArgument, .internal, .unauthorized, .network, .operationFailed, .encode, .decode, .auth,
   .closed, .cancelled]

/-- The code in lower case, words joined by hyphens. -/
def shortName : ErrorCode → String
  | invalidArgument => "invalid-argument"
  | internal => "internal"
  | unauthorized => "unauthorized"
  | network => "network"
  | operationFailed => "operation-failed"
  | encode => "encode"
  | decode => "decode"
  | auth => "auth"
  | closed => "closed"
  | cancelled => "cancelled"

/-- The code as users see it. -/
def name (c : ErrorCode) : String := "data-connect/" ++ c.shortName

/-- The code with the given short name. -/
def ofShortName? (name : String) : Option ErrorCode := all.find? fun c => c.shortName = name

end ErrorCode

end QueryClient
