import QueryClient.Response

/-!
# Failures

A failure is its cause. The code that users match on and the message that they read are functions
of it.

* `Error`: the causes.
* `Error.code`, `Error.message`, `Error.response?`: what users see of a cause.
* `Error.display`: message and code on one line.
-/

namespace QueryClient

/-- The two actions of the backend. -/
inductive Action where
  | query
  | mutation
  deriving DecidableEq, Repr

/-- The name of an action in addresses and messages. -/
def Action.name : Action → String
  | .query => "executeQuery"
  | .mutation => "executeMutation"

/-- Why an operation failed. -/
inductive Error where
  /-- A mandatory field of the configuration is blank. -/
  | required (field : String)
  | unsupportedProtocol (protocol : String)
  | emulatorPort
  | emulatorHost
  /-- Variables whose encoding is no object. -/
  | notAStruct (typeName kind : String)
  /-- A setting was changed after the first operation. -/
  | frozen (operation : String)
  /-- An instance for the connector exists with other settings. -/
  | otherSettings (connector settings : String)
  | invalidUrl (reason : String)
  | invalidHeader
  | unauthorized
  | sendFailed (action : Action) (reason : String)
  | badStatus (status : String)
  | undecodableBody (action : Action)
  /-- The answer lists errors. -/
  | operationFailed (operation : String) (response : OperationResult)
  | unencodable (typeName reason : String)
  | undecodable (typeName reason : String)
  | tokenFailed (reason : String)
  | executorClosed
  | mutationsClosed
  | authClosed
  | instanceClosed
  | executionCancelled
  | executionDropped
  | mutationCancelled
  | tokenCancelled
  /-- A failure that a transport made up itself. -/
  | reported (code : ErrorCode) (message : String) (response : Option OperationResult)
  deriving Repr

namespace Error

/-- What an answer's errors say, in their order. -/
def errorTexts (response : OperationResult) : String :=
  "; ".intercalate (response.errors.map ResponseError.text)

/-- The kind of failure. -/
def code : Error → ErrorCode
  | required _ | unsupportedProtocol _ | emulatorPort | emulatorHost | notAStruct .. | frozen _
  | otherSettings .. => .invalidArgument
  | invalidUrl _ | invalidHeader => .internal
  | unauthorized => .unauthorized
  | sendFailed .. | badStatus _ => .network
  | undecodableBody _ | undecodable .. => .decode
  | operationFailed .. => .operationFailed
  | unencodable .. => .encode
  | tokenFailed _ => .auth
  | executorClosed | mutationsClosed | authClosed | instanceClosed => .closed
  | executionCancelled | executionDropped | mutationCancelled | tokenCancelled => .cancelled
  | reported code .. => code

/-- The text of a failure. -/
def message : Error → String
  | required field => field ++ " is required"
  | unsupportedProtocol protocol => "Unsupported protocol '" ++ protocol ++ "' in emulator host"
  | emulatorPort => "Port must be a number in emulator host declaration"
  | emulatorHost => "Host is required for emulator connections"
  | notAStruct typeName kind =>
    "variables of type " ++ typeName ++ " must encode to a struct, not " ++ kind
  | frozen operation => operation ++ " must be called before any operation is executed"
  | otherSettings connector settings =>
    "Data Connect instance for " ++ connector ++ " already exists with settings " ++ settings
  | invalidUrl reason => reason
  | invalidHeader => "failed to parse header value"
  | unauthorized => "Request unauthorized"
  | sendFailed action reason => action.name ++ " request failed: " ++ reason
  | badStatus status => "Data Connect request failed with status " ++ status
  | undecodableBody action =>
    "invalid " ++ action.name ++ " response: error decoding response body"
  | operationFailed operation response => operation ++ " failed: " ++ errorTexts response
  | unencodable typeName reason =>
    "unable to encode variables of type " ++ typeName ++ ": " ++ reason
  | undecodable typeName reason =>
    "unable to decode response data into " ++ typeName ++ ": " ++ reason
  | tokenFailed reason => "getAccessToken() failed: " ++ reason
  | executorClosed => "query executor has been closed"
  | mutationsClosed => "mutation manager has been closed"
  | authClosed => "DataConnectAuth has been closed"
  | instanceClosed => "Data Connect instance has been closed"
  | executionCancelled => "query execution cancelled by close()"
  | executionDropped => "query execution task was dropped"
  | mutationCancelled => "mutation cancelled by close()"
  | tokenCancelled => "getAccessToken() cancelled by close()"
  | reported _ message _ => message

/-- The answer that a failed operation got, partial data included. -/
def response? : Error → Option OperationResult
  | operationFailed _ response => some response
  | reported _ _ response => response
  | _ => none

/-- Message and code on one line. -/
def display (e : Error) : String := e.message ++ " (" ++ e.code.name ++ ")"

end Error

end QueryClient
