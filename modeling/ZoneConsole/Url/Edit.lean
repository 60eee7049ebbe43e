import ZoneConsole.Url

/-!
# Changing URLs

* **`Url.withSlash`** makes the path end in exactly one slash.
* **`Url.push?`** appends segments to the path, each of them encoded as one.
* **`Url.appendPairs`** appends pairs to the query.
* **`Url.withoutUser`** takes out a user and a password that can be read.
-/

namespace ZoneConsole

namespace Url

/-- A list without empty texts at its end. -/
def dropEmptyEnd (segments : List String) : List String :=
  (segments.reverse.dropWhile (·.isEmpty)).reverse

/-- The path with one slash at its end. -/
def pathWithSlash : UrlPath → UrlPath
  | .segments list => .segments (dropEmptyEnd list ++ [""])
  | .opaqueText text =>
    let kept := (text.toList.reverse.dropWhile (· = '/')).reverse
    .opaqueText (if kept.isEmpty then "%2F" else String.ofList (kept ++ ['/']))

/-- The URL with one slash at the end of its path. -/
def withSlash (u : Url) : Url := { u with path := pathWithSlash u.path }

/-- Tabs and line breaks are dropped from segments. -/
def isDropped (c : Char) : Bool := c = '\t' || c = '\n' || c = '\r'

/-- The encoded form of a segment. -/
def encodeSegment (special : Bool) (s : String) : String :=
  let set := if special then specialSegmentSet else segmentSet
  String.ofList (percentEncode set (s.toList.filter (!isDropped ·)))

/-- Appends an encoded segment to a path. The path `/` has room for one. -/
def appendSegment (path : List String) (segment : String) : List String :=
  let dir := if path = [""] then [] else path
  if segment = ".." then dir.dropLast ++ [""]
  else if segment = "." then dir ++ [""]
  else dir ++ [segment]

/-- Appends segments to a path. Those that stand for a directory are left out. -/
def appendSegments (special : Bool) (path : List String) (segments : List String) :
    List String :=
  (segments.filter fun s => s ≠ "." && s ≠ "..").foldl
    (fun path s => appendSegment path (encodeSegment special s)) path

/-- A path without the slash it ends in, unless it is `/`. -/
def popEmpty (path : List String) : List String :=
  if path ≠ [""] ∧ path.getLast? = some "" then path.dropLast else path

/-- The URL with segments appended below its path, if it has segments at all. -/
def push? (u : Url) (segments : List String) : Option Url :=
  match u.path with
  | .opaqueText _ => none
  | .segments list =>
    some { u with path := .segments (appendSegments (isSpecial u.scheme) (popEmpty list) segments) }

/-- The URL with pairs appended to its query; without pairs it stays as it is. -/
def appendPairs (u : Url) (pairs : List (String × String)) : Url :=
  if pairs.isEmpty then u
  else
    let new := formPairs pairs
    let query := match u.query with
      | none => new
      | some q => if q.isEmpty then new else q.toList ++ '&' :: new
    { u with query := some (String.ofList query) }

/-- The URL without user and password, if the name of the user can be decoded and one
    of them is there. -/
def withoutUser (u : Url) : Url :=
  let readable (s : String) : Bool := Text.isUtf8 (percentDecode s.toList)
  let hasPassword := match u.password with
    | some p => readable p
    | none => false
  if u.host.isSome && readable u.user && (!u.user.isEmpty || hasPassword) then
    { u with user := "", password := none }
  else u

end Url

end ZoneConsole
