import ZoneConsole.Api.Error
import ZoneConsole.Settings.Error

/-!
# Failures of commands

Why a command fails, in the words of whoever gave it: a text, a code, perhaps help,
and the exit code that tells classes of failures apart.

**`Failure.ofApi`** makes a failure of an error of the service, and
**`Failure.ofEntity`** one that names the entity which the server does not know.
-/

namespace ZoneConsole

/-- Why a command fails. -/
inductive Failure
  | connection (origin : String)
  | timeout (url : String)
  | notFound (noun id : String)
  | loadFailed (collection message : String)
  | rejected (status : Nat) (code message hint : String)
  | badResponse (message : String)
  | unhealthy (status : String)
  | invalid (field reason : String)
  | unknownProfile (name known : String)
  | settings (error : SettingsError)
  | unconfirmed (action : String)
  deriving DecidableEq, Repr

namespace Failure

/-- The exit code of a failure. -/
def exitCode : Failure → Nat
  | connection _ => 7
  | timeout _ => 8
  | notFound _ _ => 4
  | rejected status _ _ _ => if status = 409 then 6 else if status = 404 then 4 else 1
  | invalid _ _ | unknownProfile _ _ | unconfirmed _ => 2
  | loadFailed _ _ | badResponse _ | unhealthy _ | settings _ => 1

/-- The text of a failure. -/
def message : Failure → String
  | connection origin => "Could not connect to console at " ++ origin
  | timeout url => "Request to " ++ url ++ " timed out"
  | notFound noun id => noun ++ " '" ++ id ++ "' not found"
  | loadFailed collection message => "Could not load " ++ collection ++ ": " ++ message
  | rejected status code message _ => (ApiError.rejected status code message none).message
  | badResponse message => "Unexpected response from server: " ++ message
  | unhealthy status => "Server reports status '" ++ status ++ "'"
  | invalid field reason => "Invalid value for " ++ field ++ ": " ++ reason
  | unknownProfile name _ => "Profile '" ++ name ++ "' not found in configuration"
  | settings error => error.message
  | unconfirmed action => "Destructive operation '" ++ action ++ "' requires confirmation"

/-- The code of a failure. -/
def code : Failure → String
  | connection _ => "qubes_air::connection_failed"
  | timeout _ => "qubes_air::timeout"
  | notFound _ _ => "qubes_air::not_found"
  | loadFailed _ _ => "qubes_air::load_failed"
  | rejected _ _ _ _ => "qubes_air::api_error"
  | badResponse _ => "qubes_air::bad_response"
  | unhealthy _ => "qubes_air::unhealthy"
  | invalid _ _ => "qubes_air::validation"
  | unknownProfile _ _ => "qubes_air::profile_not_found"
  | settings _ => "qubes_air::config"
  | unconfirmed _ => "qubes_air::confirmation_required"

/-- What may help against a failure. -/
def help : Failure → Option String
  | connection origin =>
    some ("Check that the console server is running and reachable.\nURL: " ++ origin ++
      "\nTry: qubes-air health --server " ++ origin)
  | timeout _ => some "Increase timeout with --timeout or check server responsiveness."
  | notFound noun _ =>
    some ("Run: qubes-air " ++ noun ++ "s list to see available " ++ noun ++ "s")
  | loadFailed _ _ => some "Check the server with: qubes-air health"
  | rejected _ _ _ hint => some hint
  | badResponse _ =>
    some ("The server answered with a shape this client does not understand. " ++
      "Check that --api-base points at a compatible server.")
  | unknownProfile _ known =>
    some ("Available profiles: " ++ known ++ "\nCreate one with: qubes-air config init")
  | unconfirmed _ => some "Use --yes (-y) to skip confirmation in non-interactive contexts."
  | unhealthy _ | invalid _ _ | settings _ => none

/-- What the server said about single fields, one a line. -/
def hintOf : Option (List (String × String)) → String
  | none => "Re-run with -v for request details."
  | some details => "\n".intercalate (details.map fun (field, reason) => field ++ ": " ++ reason)

/-- The failure that an error of the service is. -/
def ofApi : ApiError → Failure
  | .transport .timeout url => timeout ((url.map Url.write).getD "")
  | .transport _ url => connection ((url.map Url.origin).getD "")
  | .rejected status code message details => rejected status code message (hintOf details)
  | .invalidUrl e => invalid "server" e.message
  | .undecodable message _ => badResponse message

/-- The failure that an error about one entity is. -/
def ofEntity (noun id : String) (e : ApiError) : Failure :=
  if e.isNotFound then notFound noun id else ofApi e

/-- The failure that an error of settings is. -/
def ofSettings : SettingsError → Failure
  | .invalid field reason => invalid field reason
  | e => settings e

end Failure

end ZoneConsole
