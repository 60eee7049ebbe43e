import ZoneConsole.Url.Host

/-!
# URLs

A URL by its parts, each in the encoded form in which it is written. The path is
a list of segments, or an opaque text that nothing can be resolved against.

* **`Url.write`** gives the text of a URL.
* **`Url.origin`** is the text of its scheme, host and port, for schemes that
  have an authority.
-/

namespace ZoneConsole

/-- The path of a URL. The list `[]` is the empty path and `[""]` is `/`. -/
inductive UrlPath
  | opaqueText (text : String)
  | segments (list : List String)
  deriving DecidableEq, Repr

/-- A URL by its parts. A URL without a host has no authority, and one with an empty
    name for a host has an empty one. -/
structure Url where
  scheme : String
  user : String
  password : Option String
  host : Option Host
  port : Option Nat
  path : UrlPath
  query : Option String
  fragment : Option String
  deriving DecidableEq, Repr

namespace Url

/-- The port that a scheme uses unless a URL says otherwise. -/
def defaultPort? (scheme : String) : Option Nat :=
  if scheme = "http" ∨ scheme = "ws" then some 80
  else if scheme = "https" ∨ scheme = "wss" then some 443
  else if scheme = "ftp" then some 21
  else none

/-- Is the scheme one of those whose URLs always have a path and, files apart, a
    host? -/
def isSpecial (scheme : String) : Bool := scheme = "file" || (defaultPort? scheme).isSome

/-- The user and the password before a host. -/
def writeUser (u : Url) : List Char :=
  match u.password with
  | some p => u.user.toList ++ ':' :: (p.toList ++ ['@'])
  | none => if u.user.isEmpty then [] else u.user.toList ++ ['@']

/-- A port after a colon. -/
def writePort : Option Nat → List Char
  | none => []
  | some p => ':' :: Text.decimal p

/-- The user, the host and the port after two slashes. -/
def writeAuthority (u : Url) : List Char :=
  match u.host with
  | some h => '/' :: '/' :: (u.writeUser ++ h.write ++ writePort u.port)
  | none => []

/-- Segments, each after a slash. -/
def writeSegments (segments : List String) : List Char :=
  segments.flatMap fun s => '/' :: s.toList

/-- The text of a path. -/
def writePath : UrlPath → List Char
  | .opaqueText text => text.toList
  | .segments list => writeSegments list

/-- The path after the authority; two slashes at its start do not look like one. -/
def writePathAfter (authority : List Char) (path : UrlPath) : List Char :=
  match authority, path with
  | [], .segments ("" :: s :: rest) => '/' :: '.' :: writeSegments ("" :: s :: rest)
  | _, path => writePath path

/-- A part after its mark, if the part is there. -/
def writePart (mark : Char) : Option String → List Char
  | none => []
  | some s => mark :: s.toList

/-- The text of a URL as a list of characters. -/
def writeChars (u : Url) : List Char :=
  u.scheme.toList ++ ':' :: (u.writeAuthority ++ writePathAfter u.writeAuthority u.path ++
    writePart '?' u.query ++ writePart '#' u.fragment)

/-- The text of a URL. -/
def write (u : Url) : String := String.ofList u.writeChars

/-- The URL without its fragment. -/
def withoutFragment (u : Url) : Url := { u with fragment := none }

/-- The text of scheme, host and port; a URL of another kind has no such origin. -/
def origin (u : Url) : String :=
  match defaultPort? u.scheme, u.host with
  | some _, some h =>
    String.ofList (u.scheme.toList ++ "://".toList ++ h.write ++ writePort u.port)
  | _, _ => "null"

end Url

end ZoneConsole
