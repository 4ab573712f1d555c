import QueryClient.Auth.Realm
import QueryClient.Config.Basic
import QueryClient.Rest.Body
import QueryClient.Rest.Status
import QueryClient.Web.Url

/-!
# Calling the backend over the web

A call is one request. Its fixed headers are checked first, then a token is fetched, then the
request is completed and sent. What the answer means depends on its status and its body; an answer
that refuses the token makes the next fetch ask for a new one.

* `RestTransport.headers`, `RestTransport.request`: the request.
* `Rest.interpret`, `Rest.refusesToken`: what an answer means.
* `RestTransport.complete`: a call from its token to its end.
-/

namespace QueryClient

/-- Calls the backend over the web. -/
structure RestTransport where
  options : Options
  settings : Settings
  /-- The manager that has the tokens. -/
  manager : AuthId
  /-- The caller is generated code. -/
  generated : Bool := false

/-- What is sent. -/
structure HttpRequest where
  url : Web.Url
  headers : List (String × String)
  body : Json

/-- What comes back. -/
inductive HttpAnswer where
  /-- Nothing. -/
  | dropped
  | answered (status : Nat) (body : List UInt8)

/-- A call over the web that has come to its end. -/
structure CompletedCall where
  /-- What was sent, if anything was. -/
  sent : Option HttpRequest
  result : Except Error OperationResult
  /-- The backend refused the token. -/
  refused : Bool

namespace Rest

/-- A header may have this value: no control characters but tabs. -/
def isLegalHeader (value : String) : Bool := value.toList.all fun c => c == '\t' || !Web.isControl c

/-- The version of this client. -/
def clientVersion : String := "0.1.0"

/-- Names the client to the backend. -/
def clientHeader (generated : Bool) : String :=
  "gl-rs/ fire/" ++ clientVersion ++ if generated then " rs/gen" else ""

/-- A header, if its value is legal. -/
def header (name value : String) : Except Error (List (String × String)) :=
  if isLegalHeader value then .ok [(name, value)] else .error .invalidHeader

/-- A header that is left out when it has no value or an empty one. -/
def optionalHeader (name : String) : Option String → Except Error (List (String × String))
  | none => .ok []
  | some value => if value.isEmpty then .ok [] else header name value

/-- **What an answer means.** -/
def interpret (action : Action) (url : Web.Url) : HttpAnswer → Except Error OperationResult
  | .dropped =>
    .error (.sendFailed action ("error sending request for url (" ++ url.text ++ ")"))
  | .answered status body =>
    if status = 401 then .error .unauthorized
    else if !isAccepted status then .error (.badStatus (statusText status))
    else
      match readBody? body with
      | some result => .ok result
      | none => .error (.undecodableBody action)

/-- The answer refuses the token. -/
def refusesToken : HttpAnswer → Bool
  | .dropped => false
  | .answered status _ => status == 401

end Rest

namespace RestTransport

/-- The headers that are known before a token is fetched. -/
def headers (t : RestTransport) : Except Error (List (String × String)) := do
  let client ← Rest.header "x-goog-api-client" (Rest.clientHeader t.generated)
  let params ← Rest.header "x-goog-request-params"
    ("location=" ++ t.options.connector.location ++ "&frontend=data")
  let app ← Rest.optionalHeader "x-firebase-gmpid" t.options.appId
  return ("content-type", "application/json") :: (client ++ params ++ app)

/-- What the address is read from, without its protocol. -/
def addressText (t : RestTransport) (action : Action) : String :=
  "//" ++ t.settings.authority ++ "/v1/" ++ t.options.resourcePath ++ ":" ++ action.name

/-- The address of an action. -/
def url (t : RestTransport) (action : Action) : Except Error Web.Url :=
  match Web.Url.parse t.settings.sslEnabled (t.addressText action).toList with
  | .error e => .error (.invalidUrl e.message)
  | .ok u => .ok (t.options.apiKey.elim u (u.addPair "key"))

/-- What a request says. -/
def body (t : RestTransport) (operation : String) (vars : Struct) : Json :=
  .obj [("name", .str t.options.resourcePath), ("operationName", .str operation),
    ("variables", .obj vars)]

/-- **The request of a call,** once its token has been fetched. -/
def request (t : RestTransport) (action : Action) (operation : String) (vars : Struct)
    (token : Option String) : Except Error HttpRequest := do
  let fixed ← t.headers
  let auth ← Rest.optionalHeader "x-firebase-auth-token" token
  let url ← t.url action
  let url := url.anonymous
  if url.isSendable then
    return { url, headers := fixed ++ auth, body := t.body operation vars }
  else
    throw (.sendFailed action
      ("builder error for url (" ++ url.text ++ "): Parsed Url is not a valid Uri"))

/-- **The end of a call,** once its token has been fetched or could not be: what the network answers
to a request is up to `network`, and nothing is sent when there is no request. -/
def complete (t : RestTransport) (action : Action) (operation : String) (vars : Struct)
    (token : TokenOutcome) (network : HttpRequest → HttpAnswer) : CompletedCall :=
  match token.bind (t.request action operation vars) with
  | .error e => { sent := none, result := .error e, refused := false }
  | .ok request =>
    let answer := network request
    { sent := some request
      result := Rest.interpret action request.url answer
      refused := Rest.refusesToken answer }

end RestTransport

end QueryClient
