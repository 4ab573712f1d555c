import QueryClient.Config.Basic

/-!
# Configuration on one line, for human readers

The name of a record, and its fields with their values between braces.

* `describeRecord`: the line for a record.
* `Connector.describe`, `Options.describe`, `Settings.describe`.
-/

namespace QueryClient

/-- A record of the given name with its fields' names and described values. -/
def describeRecord (name : String) (fields : List (String × String)) : String :=
  name ++ " \x7b " ++ ", ".intercalate (fields.map fun f => f.1 ++ ": " ++ f.2) ++ " \x7d"

/-- A truth value in words. -/
def describeBool (b : Bool) : String := if b then "true" else "false"

/-- A connector on one line. -/
def Connector.describe (c : Connector) : String :=
  describeRecord "ConnectorConfig" [("location", Text.quoted c.location),
    ("connector", Text.quoted c.connector), ("service", Text.quoted c.service)]

/-- Options on one line. -/
def Options.describe (o : Options) : String :=
  describeRecord "DataConnectOptions" [("connector", o.connector.describe),
    ("project_id", Text.quoted o.projectId), ("api_key", Text.quotedOption o.apiKey),
    ("app_id", Text.quotedOption o.appId)]

/-- Settings on one line. -/
def Settings.describe (s : Settings) : String :=
  describeRecord "DataConnectSettings" [("host", Text.quoted s.host),
    ("port", match s.port with
      | none => "None"
      | some p => "Some(" ++ Settings.portText p ++ ")"),
    ("ssl_enabled", describeBool s.sslEnabled)]

end QueryClient
