import QueryClient.Auth.TokenError
import QueryClient.Call
import QueryClient.Deferred

/-!
# Token managers and their provider

A provider of tokens may become available at any time, or never. Token managers wait for it, listen
to what it reports, and fetch tokens from it. Whenever the provider reports a change, a counter of
each manager moves; a fetch during which the counter moved is repeated, since its token may belong
to another user.

A manager is locked while it is read or changed, and no longer. A fetch locks it twice for each call of
the provider: to make out the call, and to look at the answer. Between its steps anything may happen, also
to the manager. Everything else that is done to one manager is done at once: its change listener is told
before anybody else locks the manager, so what reports, closes and installs listeners is taken to come one
after another.

* `AuthRealm.create`, `AuthRealm.provide`: managers, and the provider they wait for.
* `AuthRealm.notify`: the provider reports a change.
* `AuthRealm.listen`, `AuthRealm.forceRefresh`, `AuthRealm.close`: what the users of a manager do.
* `AuthRealm.moveFetch`: **one step of a fetch;** `AuthRealm.runFetch`: all steps until it has to wait.
* `AuthRealm.fetch`, `AuthRealm.answer`, `AuthRealm.poll`: fetching tokens.
-/

namespace QueryClient

/-- Names a token manager. -/
abbrev AuthId := Nat

/-- Names a fetch. -/
abbrev FetchId := Nat

/-- Is told who is signed in, at once and whenever that may have changed. -/
structure ChangeListener where
  label : String
  /-- It closes the manager when it is told. -/
  closes : Bool := false
  deriving DecidableEq, Repr

/-- Fetches tokens for its users. -/
structure TokenManager where
  /-- The provider is there and can be asked. -/
  attached : Bool := false
  /-- The provider accepted the manager as a listener. -/
  registered : Bool := false
  listener : Option ChangeListener := none
  /-- Moves with every change that the provider reports. It is taken to have room for all of them: a
  counter of 64 bits does not come round to a value that it had. -/
  counter : Nat := 0
  /-- The next call asks the provider for a new token. -/
  forceRefresh : Bool := false
  closed : Bool := false
  /-- How many hold the manager; a manager that nobody holds is not told of changes. -/
  holders : Nat := 1
  deriving Inhabited

/-- A provider of tokens. -/
structure Provider where
  uid : Option String := none
  /-- Listeners are refused. -/
  addError : Option TokenError := none
  /-- Listeners cannot leave. -/
  removeError : Option TokenError := none
  /-- The manager that is closed while a listener is being added. -/
  closedOnAdd : Option AuthId := none
  listeners : List AuthId := []
  deriving Inhabited

/-- What a provider answers: a token, or none. -/
abbrev TokenReply := Except TokenError (Option String)

/-- What a fetch returns. -/
abbrev TokenOutcome := Except Error (Option String)

/-- How far a fetch is. -/
inductive FetchStage where
  | arriving
  /-- A call of the provider has been made out, with the manager's counter and its force flag at that
  time. The provider does not have it yet. -/
  | calling (call counter : Nat) (forced : Bool)
  /-- The provider has the call, and has not answered. -/
  | fetching (call counter : Nat)
  /-- The answer is there and has not been looked at. -/
  | answered (call counter : Nat) (reply : TokenReply)
  /-- A change has overtaken the answer: the fetch begins anew. -/
  | overtaken
  | ended (ending : Ending TokenOutcome)

namespace FetchStage

/-- The fetch is between two steps, and waits for nothing: it cannot be given up there. -/
def isUnderway : FetchStage → Bool
  | .calling .. | .overtaken => true
  | _ => false

end FetchStage

/-- One who wants a token. -/
structure Fetch where
  manager : AuthId
  stage : FetchStage := .arriving

/-- What is seen of token managers from outside. -/
inductive AuthNote where
  /-- The change listener of a manager is told who is signed in. -/
  | reported (manager : AuthId) (label : String) (uid : Option String)
  /-- The provider is asked to take a manager as a listener, and does or refuses. -/
  | joined (manager : AuthId) (refusal : Option TokenError)
  /-- The provider is asked to let a listener go, and does or refuses. -/
  | left (manager : AuthId) (refusal : Option TokenError)
  | closed (manager : AuthId)
  | warned (text : String)
  /-- A call of the provider is made out for a fetch. -/
  | called (fetch : FetchId) (call : Nat) (forced : Bool)
  /-- The provider gets the call of a fetch. -/
  | reached (fetch : FetchId) (call : Nat) (forced : Bool)
  | ended (fetch : FetchId) (ending : Ending TokenOutcome)

/-- A provider, the managers that wait for it or use it, and their fetches. -/
structure AuthRealm where
  provider : Provider := {}
  available : Bool := false
  /-- The managers that wait for the provider, in the order of their creation. -/
  waiting : List AuthId := []
  /-- All managers there have been; a manager is named by its place. -/
  managers : List TokenManager := []
  /-- All fetches there have been; a fetch is named by its place. -/
  fetches : List Fetch := []
  /-- The fetches that can go on. -/
  queue : List FetchId := []
  /-- Which of the calls of the provider ask for a new token, in the order in which they were made out. -/
  calls : List Bool := []
  /-- What was seen from outside. -/
  journal : List AuthNote := []

namespace AuthRealm

/-- Something is seen from outside. -/
def note (r : AuthRealm) (n : AuthNote) : AuthRealm := { r with journal := r.journal ++ [n] }

/-- A manager changes. -/
def modifyManager (r : AuthRealm) (id : AuthId) (f : TokenManager → TokenManager) : AuthRealm :=
  { r with managers := r.managers.modify id f }

/-- The fetch has not ended. -/
def isOpen (f : Fetch) : Bool :=
  match f.stage with
  | .ended _ => false
  | _ => true

/-- Somebody holds the manager. -/
def isHeld (r : AuthRealm) (id : AuthId) : Bool :=
  (r.managers[id]?).any (fun m => 0 < m.holders)
    || r.fetches.any fun f => f.manager == id && isOpen f

/-- The manager has been closed. -/
def isClosed (r : AuthRealm) (id : AuthId) : Bool := (r.managers[id]?).any (·.closed)

/-- **Who is signed in,** as far as a manager knows. -/
def uid (r : AuthRealm) (id : AuthId) : Option String :=
  if (r.managers[id]?).any (·.attached) then r.provider.uid else none

/-! ## Fetches -/

/-- How far a fetch is. -/
def stage? (r : AuthRealm) (id : FetchId) : Option FetchStage := (r.fetches[id]?).map (·.stage)

/-- A fetch is at another stage. -/
def setStage (r : AuthRealm) (id : FetchId) (stage : FetchStage) : AuthRealm :=
  { r with fetches := r.fetches.modify id fun f => { f with stage } }

/-- A fetch ends. -/
def finish (r : AuthRealm) (id : FetchId) (ending : Ending TokenOutcome) : AuthRealm :=
  (r.setStage id (.ended ending)).note (.ended id ending)

/-- The fetch can go on. -/
def isReady (r : AuthRealm) (f : Fetch) : Bool :=
  match f.stage with
  | .fetching .. => r.isClosed f.manager
  | .ended _ => false
  | _ => true

/-- The fetch is queued if it can go on and is not queued yet. -/
def wakeFetch (r : AuthRealm) (id : FetchId) : AuthRealm :=
  if (r.fetches[id]?).any r.isReady && !r.queue.contains id then
    { r with queue := r.queue ++ [id] }
  else r

/-- Fetches that can go on are queued, older ones first. -/
def wake (r : AuthRealm) : AuthRealm := (List.range r.fetches.length).foldl wakeFetch r

/-- What a fetch returns for an answer of the provider. That nobody is signed in is no failure. -/
def outcome : TokenReply → TokenOutcome
  | .ok token => .ok token
  | .error e => if e.kind = .noSignedInUser then .ok none else .error (.tokenFailed e.message)

/-- What is said of an answer of the provider, if anything is. -/
def complaint? : TokenReply → Option String
  | .ok _ => none
  | .error e =>
    if e.kind = .noSignedInUser then none
    else some ("[rid=*] getAccessToken() failed: " ++ e.message)

/-- A fetch begins, or begins anew: it fails when the manager has been closed, has no token when the
provider is not there, and else makes out a call of the provider. The call takes the force flag with it,
and the counter is kept to be compared when the answer is there. -/
def makeCall (r : AuthRealm) (id : FetchId) (manager : AuthId) : AuthRealm :=
  match r.managers[manager]? with
  | none => r
  | some m =>
    if m.closed then r.finish id (.returned (.error .authClosed))
    else if !m.attached then r.finish id (.returned (.ok none))
    else
      let forced := m.forceRefresh
      ({ r with calls := r.calls ++ [forced] }.modifyManager manager
        fun m => { m with forceRefresh := false }).setStage id
          (.calling (r.calls.length + 1) m.counter forced)
        |>.note (.called id (r.calls.length + 1) forced)

/-- A fetch looks at its answer: it is cancelled when the manager has been closed, begins anew when a
change has overtaken the answer, and else returns it. What it returns is settled while it has the manager
locked, and it counts as having returned then. -/
def lookAtReply (r : AuthRealm) (id : FetchId) (manager : AuthId) (counter : Nat)
    (reply : TokenReply) : AuthRealm :=
  match r.managers[manager]? with
  | none => r
  | some m =>
    if m.closed then r.finish id (.returned (.error .tokenCancelled))
    else if m.counter ≠ counter then r.setStage id .overtaken
    else
      let r := (complaint? reply).elim r fun text => r.note (.warned text)
      r.finish id (.returned (outcome reply))

/-- **One step of a fetch.** The provider gets the call that was made out for it, unless the manager has
been closed since; that it is closed later ends the wait. -/
def moveFetch (r : AuthRealm) (id : FetchId) : AuthRealm :=
  match r.fetches[id]? with
  | none => r
  | some f =>
    match f.stage with
    | .arriving | .overtaken => r.makeCall id f.manager
    | .calling call counter forced =>
      if r.isClosed f.manager then r.finish id (.returned (.error .tokenCancelled))
      else (r.setStage id (.fetching call counter)).note (.reached id call forced)
    | .fetching .. =>
      if r.isClosed f.manager then r.finish id (.returned (.error .tokenCancelled)) else r
    | .answered _ counter reply => r.lookAtReply id f.manager counter reply
    | .ended _ => r

/-- A fetch goes on until it has to wait. Three steps are enough: it looks at its answer, makes out
another call, and the provider gets that. -/
def runFetch (r : AuthRealm) (id : FetchId) : AuthRealm :=
  ((r.moveFetch id).moveFetch id).moveFetch id

/-- **The first fetch of the queue goes on until it has to wait.** -/
def poll (r : AuthRealm) : AuthRealm :=
  match r.queue with
  | [] => r
  | id :: rest => { r with queue := rest }.runFetch id

/-- Somebody wants a token. -/
def fetch (r : AuthRealm) (manager : AuthId) : AuthRealm × FetchId :=
  ({ r with fetches := r.fetches ++ [{ manager }], queue := r.queue ++ [r.fetches.length] },
    r.fetches.length)

/-- Somebody wants a token, and goes on at once until it has to wait. -/
def fetchNow (r : AuthRealm) (manager : AuthId) : AuthRealm × FetchId :=
  let id := r.fetches.length
  let r : AuthRealm := { r with fetches := r.fetches ++ [{ manager }] }
  (r.runFetch id, id)

/-- The provider's answer to the call of a fetch. -/
def setReply (r : AuthRealm) (id : FetchId) (reply : TokenReply) : AuthRealm :=
  match r.stage? id with
  | some (.fetching call counter) => r.setStage id (.answered call counter reply)
  | _ => r

/-- The provider answers a fetch, which looks at the answer when it goes on. -/
def answer (r : AuthRealm) (id : FetchId) (reply : TokenReply) : AuthRealm :=
  (r.setReply id reply).wakeFetch id

/-- The provider answers a fetch at once. -/
def answerNow (r : AuthRealm) (id : FetchId) (reply : TokenReply) : AuthRealm :=
  (r.setReply id reply).runFetch id

/-- A fetch is abandoned. One that is underway is not: who abandons it has to wait until it waits. -/
def abort (r : AuthRealm) (id : FetchId) : AuthRealm :=
  match r.stage? id with
  | some (.ended _) | none => r
  | some stage => if stage.isUnderway then r else r.finish id .dropped

/-- The call of the provider that the fetch waits for. -/
def waitingCall? (f : Fetch) : Option Nat :=
  match f.stage with
  | .fetching call _ => some call
  | _ => none

/-- The calls of the provider that are waited for, in order. -/
def waitingCalls (r : AuthRealm) : List Nat :=
  (List.range r.calls.length).map (· + 1) |>.filter fun call =>
    r.fetches.any fun f => waitingCall? f == some call

/-- The fetch that waits for a call of the provider. -/
def fetchOf? (r : AuthRealm) (call : Nat) : Option FetchId :=
  r.fetches.findIdx? fun f => waitingCall? f == some call

/-! ## Managers -/

/-- A listener leaves the provider. -/
def removeListener (r : AuthRealm) (id : AuthId) : AuthRealm :=
  match r.provider.removeError with
  | none =>
    { r with provider := { r.provider with listeners := r.provider.listeners.erase id } }.note
      (.left id none)
  | some e =>
    let r := r.note (.left id (some e))
    if e.kind = .appDeleted then r
    else r.note (.warned ("removeIdTokenListener() failed: " ++ e.message))

/-- A manager is closed: its fetches end, and it leaves the provider. Closing again has no
effect. -/
def closeManager (r : AuthRealm) (id : AuthId) : AuthRealm :=
  match r.managers[id]? with
  | none => r
  | some m =>
    if m.closed then r
    else
      let r := r.modifyManager id fun m =>
        { m with closed := true, listener := none, attached := false, registered := false }
      let r := r.note (.closed id)
      if m.attached && m.registered then r.removeListener id else r

/-- The change listener is told who is signed in. -/
def tell (r : AuthRealm) (id : AuthId) (listener : ChangeListener) (uid : Option String) :
    AuthRealm :=
  let r := r.note (.reported id listener.label uid)
  if listener.closes then r.closeManager id else r

/-- The manager's change listener, if it has one, is told who is signed in. The manager is not locked
while it is told; that nothing else is done to the manager meanwhile, but by the listener, is assumed. -/
def tellListener (r : AuthRealm) (id : AuthId) (uid : Option String) : AuthRealm :=
  match (r.managers[id]?).bind (·.listener) with
  | none => r
  | some listener => r.tell id listener uid

/-- The provider reports a change to a manager: the counter moves, and the change listener is told. These
are one step here, so that two reports to one manager do not run into each other. -/
def changed (r : AuthRealm) (id : AuthId) : AuthRealm :=
  if r.isClosed id || !r.isHeld id then r
  else
    let r := r.modifyManager id fun m => { m with counter := m.counter + 1 }
    r.tellListener id (r.uid id)

/-- A manager becomes a listener of the provider. One that is closed meanwhile leaves again; one
that is refused does without the provider. -/
def register (r : AuthRealm) (id : AuthId) : AuthRealm :=
  let r := r.provider.closedOnAdd.elim r r.closeManager
  match r.provider.addError with
  | some e =>
    let r := r.note (.joined id (some e))
    let r :=
      if e.kind = .appDeleted then r
      else r.note (.warned
        ("addIdTokenListener() failed; auth treated as unavailable: " ++ e.message))
    r.modifyManager id fun m => { m with attached := false }
  | none =>
    let r := { r with provider := { r.provider with listeners := r.provider.listeners ++ [id] } }
    let r := r.note (.joined id none)
    if r.isClosed id then r.removeListener id
    else r.modifyManager id fun m => { m with registered := true }

/-- A manager finds the provider. -/
def arrived (r : AuthRealm) (id : AuthId) : AuthRealm :=
  if r.isClosed id || !r.isHeld id then r
  else
    let r := r.modifyManager id fun m => { m with attached := true, counter := m.counter + 1 }
    (r.tellListener id r.provider.uid).register id

/-! ## What happens from outside -/

/-- Somebody else is signed in, or nobody. The provider reports this separately. -/
def setUser (r : AuthRealm) (uid : Option String) : AuthRealm :=
  { r with provider := { r.provider with uid } }

/-- A new manager. With `unavailable` there is no provider for it. -/
def create (r : AuthRealm) (unavailable : Bool) : AuthRealm × AuthId :=
  let id := r.managers.length
  let r := { r with managers := r.managers ++ [{}] }
  if unavailable then (r, id)
  else if r.available then ((r.arrived id).wake, id)
  else ({ r with waiting := r.waiting ++ [id] }, id)

/-- The provider becomes available. Only the first time counts. -/
def provide (r : AuthRealm) : AuthRealm :=
  if r.available then r.note (.warned Deferred.ignoredText)
  else (r.waiting.foldl arrived { r with available := true, waiting := [] }).wake

/-- **The provider reports a change** to its listeners. -/
def notify (r : AuthRealm) : AuthRealm := (r.provider.listeners.foldl changed r).wake

/-- The next call of the manager asks for a new token. -/
def forceRefresh (r : AuthRealm) (id : AuthId) : AuthRealm :=
  r.modifyManager id fun m => { m with forceRefresh := true }

/-- Installs a change listener, and tells it who is signed in. A closed manager takes none. -/
def listen (r : AuthRealm) (id : AuthId) (listener : ChangeListener) : AuthRealm :=
  if r.isClosed id then r
  else
    let r := r.modifyManager id fun m => { m with listener := some listener }
    (r.tell id listener (r.uid id)).wake

/-- **Closes a manager.** -/
def close (r : AuthRealm) (id : AuthId) : AuthRealm := (r.closeManager id).wake

/-- One more holds the manager. -/
def hold (r : AuthRealm) (id : AuthId) : AuthRealm :=
  r.modifyManager id fun m => { m with holders := m.holders + 1 }

/-- One holder gives up the manager. -/
def letGo (r : AuthRealm) (id : AuthId) : AuthRealm :=
  r.modifyManager id fun m => { m with holders := m.holders - 1 }

end AuthRealm

end QueryClient
