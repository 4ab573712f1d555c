import QueryClient.Codec.Decode
import QueryClient.Codec.Encode
import QueryClient.Text.Blank

/-!
# Where operations are sent

A connector is a named set of operations of a service at a location. Options add the project and
the credentials of the application; settings say which host is spoken to.

* `Connector`, `Options`, `Settings`: the values, and `Connector.make?`, `Options.make?`, which
  refuse blank mandatory fields.
* `Options.resourcePath`: the address of the connector below the host.
* `Settings.baseUrl`: the address of the host.
* `Connector.decoder`, `Options.decoder`, `Settings.decoder` and the functions `toSerial`: the JSON
  forms.
-/

namespace QueryClient

/-- A set of operations. -/
structure Connector where
  location : String
  connector : String
  service : String
  deriving DecidableEq, Repr, Inhabited

namespace Connector

/-- The first mandatory field that is blank. -/
def validate (c : Connector) : Except Error Unit :=
  if Text.allBlank c.location.toList then .error (.required "location")
  else if Text.allBlank c.connector.toList then .error (.required "connector")
  else if Text.allBlank c.service.toList then .error (.required "service")
  else .ok ()

/-- A connector with no blank field. -/
def make? (location connector service : String) : Except Error Connector := do
  let c : Connector := ⟨location, connector, service⟩
  c.validate
  return c

/-- The connector on one line. -/
def display (c : Connector) : String := c.location ++ "/" ++ c.service ++ "/" ++ c.connector

/-- The connector as a value of a program. -/
def toSerial (c : Connector) : Serial :=
  .record [("location", .str c.location), ("connector", .str c.connector),
    ("service", .str c.service)]

/-- Reads a connector. -/
def decoder : Decoder Connector :=
  .record "ConnectorConfig" <|
    (Fields.pure Connector.mk)
      |>.required "location" .string
      |>.required "connector" .string
      |>.required "service" .string

end Connector

/-- A connector of a project, and the credentials of the application that uses it. -/
structure Options where
  connector : Connector
  projectId : String
  apiKey : Option String := none
  appId : Option String := none
  deriving DecidableEq, Repr, Inhabited

namespace Options

/-- Options with no blank mandatory field; the connector's fields come first. -/
def make? (connector : Connector) (projectId : String) : Except Error Options := do
  connector.validate
  if Text.allBlank projectId.toList then .error (.required "project_id")
  else return { connector, projectId }

/-- The address of the connector below the host. -/
def resourcePath (o : Options) : String :=
  "projects/" ++ o.projectId ++ "/locations/" ++ o.connector.location ++ "/services/"
    ++ o.connector.service ++ "/connectors/" ++ o.connector.connector

/-- An optional string as a value of a program. -/
def optionalText : Option String → Serial
  | none => .absent
  | some s => .present (.str s)

/-- The options as a value of a program. -/
def toSerial (o : Options) : Serial :=
  .record [("connector", o.connector.toSerial), ("project_id", .str o.projectId),
    ("api_key", optionalText o.apiKey), ("app_id", optionalText o.appId)]

/-- Reads options. -/
def decoder : Decoder Options :=
  .record "DataConnectOptions" <|
    (Fields.pure Options.mk)
      |>.required "connector" Connector.decoder
      |>.required "project_id" .string
      |>.withDefault "api_key" Decoder.string.option none
      |>.withDefault "app_id" Decoder.string.option none

end Options

/-- The host spoken to. -/
structure Settings where
  host : String
  port : Option UInt16
  sslEnabled : Bool
  deriving DecidableEq, Repr, Inhabited

namespace Settings

/-- The host of the production backend. -/
def productionHost : String := "firebasedataconnect.googleapis.com"

/-- The host of an emulator that is not named. -/
def emulatorHost : String := "127.0.0.1"

/-- The port of an emulator when none is given. -/
def emulatorPort : UInt16 := 9399

/-- The production backend. -/
def production : Settings := ⟨productionHost, none, true⟩

/-- A local emulator, spoken to in plain text. -/
def emulator (host : Option String) (port : Option UInt16) : Settings :=
  ⟨host.getD emulatorHost, some (port.getD emulatorPort), false⟩

/-- A port in base ten. -/
def portText (port : UInt16) : String := String.ofList (Nat.toDigits 10 port.toNat)

/-- The protocol. -/
def scheme (s : Settings) : String := if s.sslEnabled then "https" else "http"

/-- The host with its port. -/
def authority (s : Settings) : String :=
  match s.port with
  | some port => s.host ++ ":" ++ portText port
  | none => s.host

/-- The address of the host. -/
def baseUrl (s : Settings) : String := s.scheme ++ "://" ++ s.authority

/-- The settings as a value of a program. -/
def toSerial (s : Settings) : Serial :=
  .record [("host", .str s.host),
    ("port", match s.port with
      | none => .absent
      | some p => .present (.int p.toNat)),
    ("ssl_enabled", .bool s.sslEnabled)]

/-- Reads settings. -/
def decoder : Decoder Settings :=
  .record "DataConnectSettings" <|
    (Fields.pure Settings.mk)
      |>.required "host" .string
      |>.optional "port" .uint16
      |>.required "ssl_enabled" .bool

end Settings

end QueryClient
