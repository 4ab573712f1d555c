import QueryClient.Service.Basic

/-!
# The directory of services

A directory has all services there are, and remembers the one that was asked for by its project and
connector, so that asking again gives the same service until it is closed.

* `Directory.add`: a service that is not remembered.
* `Directory.obtain`: the service that is remembered for options, or a new one.
* `Directory.close`: closes a service, and forgets it if it is the one remembered.
-/

namespace QueryClient

/-- Names a service. -/
abbrev ServiceId := Nat

/-- What services are remembered by. -/
structure ServiceKey where
  projectId : String
  connector : Connector
  deriving DecidableEq, Repr, Inhabited

/-- The key of options. -/
def Options.serviceKey (o : Options) : ServiceKey := ⟨o.projectId, o.connector⟩

/-- All services, those that are remembered, and the realm that has their tokens. -/
structure Directory where
  realm : AuthRealm := {}
  /-- All services there have been; a service is named by its place. -/
  services : List Service := []
  remembered : List (ServiceKey × ServiceId) := []

namespace Directory

/-- The service that is remembered. -/
def find? (d : Directory) (key : ServiceKey) : Option ServiceId :=
  (d.remembered.find? fun e => e.1 = key).map (·.2)

/-- A service changes. -/
def set (d : Directory) (id : ServiceId) (s : Service) : Directory :=
  { d with services := d.services.set id s }

/-- A service that is not remembered. -/
def add (d : Directory) (s : Service) : Directory × ServiceId :=
  ({ d with services := d.services ++ [s] }, d.services.length)

/-- A service with a token manager of its own that never has a provider, on a given transport. -/
def addGiven (d : Directory) (options : Options) : Directory × ServiceId :=
  let (realm, auth) := d.realm.create true
  { d with realm }.add { options, settings := .production, auth, transport := some .given }

/-- A service that calls the backend over the web. -/
def addWeb (d : Directory) (options : Options) (settings : Settings) (auth : AuthId) :
    Directory × ServiceId :=
  d.add { options, settings, auth, transport := none }

/-- The settings of a new service: those that are asked for, else those that the environment
declares, else production. -/
def settingsFor (requested : Option Settings) (environment : Option (List Char)) :
    Except Error Settings :=
  match requested with
  | some settings => .ok settings
  | none => (Settings.fromEnvironment environment).map fun s => s.getD .production

/-- **The service for options:** the one that is remembered, unless other settings are asked for,
or else a new one, which is remembered from now on. -/
def obtain (d : Directory) (options : Options) (requested : Option Settings)
    (environment : Option (List Char)) : Except Error (Directory × ServiceId) :=
  match d.find? options.serviceKey with
  | some id =>
    match d.services[id]?, requested with
    | some s, some settings =>
      if settings = s.settings then .ok (d, id)
      else .error (.otherSettings options.connector.display s.settings.describe)
    | _, _ => .ok (d, id)
  | none => do
    let settings ← settingsFor requested environment
    let (realm, auth) := d.realm.create false
    let (d, id) := { d with realm }.addWeb options settings auth
    return ({ d with remembered := d.remembered ++ [(options.serviceKey, id)] }, id)

/-- **Closes a service:** all that goes on in it ends, its tokens are given up, and it is no longer
remembered. Closing again has no effect. -/
def close (d : Directory) (id : ServiceId) : Directory :=
  match d.services[id]? with
  | none => d
  | some s =>
    if s.closed then d
    else
      let d := { d.set id s.shut with realm := d.realm.close s.auth }
      { d with remembered := d.remembered.filter fun e =>
          ¬(e.1 = s.options.serviceKey ∧ e.2 = id) }

end Directory

end QueryClient
