import QueryClient.Config.Basic
import QueryClient.Text.Split

/-!
# Where the emulator is

A declaration such as `http://127.0.0.1:9399` or `localhost:9399` names the emulator's host. The
protocol ends at the first `://` and defaults to plain text; the host ends at the first colon after
it, and what follows the colon is the port.

* `parsePort?`: a port number, in any decimal spelling.
* `parseEmulatorHost`: the settings that a declaration stands for.
* `Settings.fromEnvironment`: the same for the value of the environment variable, if it is set.
-/

namespace QueryClient

/-- The name of the environment variable that declares the emulator's host. -/
def emulatorVariable : String := "FIREBASE_DATA_CONNECT_EMULATOR_HOST"

/-- The number that digits stand for, continued from `n`. -/
def digitsValue? (n : Nat) : List Char → Option Nat
  | [] => some n
  | c :: rest => if c.isDigit then digitsValue? (10 * n + (c.toNat - '0'.toNat)) rest else none

/-- A port number: decimal digits, at least one, after an optional plus sign. -/
def parsePort? (cs : List Char) : Option UInt16 :=
  let digits := match cs with
    | '+' :: rest => rest
    | _ => cs
  if digits.isEmpty then none
  else (digitsValue? 0 digits).bind fun n => if n < 65536 then some (UInt16.ofNat n) else none

/-- Host and port of a declaration without its protocol. -/
def parseAuthority (ssl : Bool) (cs : List Char) : Except Error Settings :=
  let parts : Except Error (List Char × Option UInt16) :=
    match Text.splitOnce? [':'] cs with
    | none => .ok (cs, none)
    | some (host, port) =>
      match parsePort? port with
      | some port => .ok (host, some port)
      | none => .error .emulatorPort
  match parts with
  | .error e => .error e
  | .ok (host, port) =>
    if Text.allBlank host then .error .emulatorHost else .ok ⟨String.ofList host, port, ssl⟩

/-- **The settings that a declaration stands for.** A wrong port is reported before a blank
host. -/
def parseEmulatorHost (spec : String) : Except Error Settings :=
  let (protocol, rest) :=
    (Text.splitOnce? "://".toList spec.toList).getD ("http".toList, spec.toList)
  if protocol = "http".toList then parseAuthority false rest
  else if protocol = "https".toList then parseAuthority true rest
  else .error (.unsupportedProtocol (String.ofList protocol))

/-- The settings declared by the environment variable: none when it is unset, blank or no text. -/
def Settings.fromEnvironment (value : Option (List Char)) : Except Error (Option Settings) :=
  match value with
  | none => .ok none
  | some cs =>
    if Text.allBlank cs then .ok none
    else (parseEmulatorHost (String.ofList (Text.trim cs))).map some

end QueryClient
