import ZoneConsole.Members
import ZoneConsole.Reading.Complaint

/-!
# Codecs

A `Codec` of a type writes its values as trees and reads them back from
readings. The two directions are kept in one value, so that a record, a list or
an optional value is described once for both.
-/

namespace ZoneConsole

/-- A way of writing the values of a type and of reading them. -/
structure Codec (α : Type) where
  encode : α → Data
  decode : Reading → Decoded α

namespace Codec

/-- Texts. -/
def text : Codec String where
  encode s := .str s
  decode
    | .str s => .ok s
    | r => r.wrongType "a string"

/-- Truth values. -/
def flag : Codec Bool where
  encode b := .bool b
  decode
    | .bool b => .ok b
    | r => r.wrongType "a boolean"

/-- Reads a natural number below a bound; `kind` names what is expected. -/
def decodeBelow (bound : Nat) (kind : String) : Reading → Decoded Nat
  | .num (.unsigned n) =>
    if n < bound then .ok n else complain (.wrongValue (.num (.unsigned n)) kind)
  | .num (.signed i) =>
    if 0 ≤ i ∧ i < bound then .ok i.toNat else complain (.wrongValue (.num (.signed i)) kind)
  | r => r.wrongType kind

/-- Counts of 32 bits. -/
def word32 : Codec UInt32 where
  encode n := .nat n.toNat
  decode r := (decodeBelow UInt32.size "u32" r).map UInt32.ofNat

/-- Counts of 64 bits. -/
def word64 : Codec UInt64 where
  encode n := .nat n.toNat
  decode r := (decodeBelow UInt64.size "u64" r).map UInt64.ofNat

/-- A value that may be absent, for which null stands. -/
def optional (c : Codec α) : Codec (Option α) where
  encode
    | none => .null
    | some a => c.encode a
  decode
    | .null => .ok none
    | .flawed .nullWord asked _ => complain (.fault asked)
    | r => (c.decode r).map some

/-- Reads items one after the other, each under its index. -/
def decodeItems (c : Codec α) (stop : SeqStop) : Nat → List Reading → Decoded (List α)
  | _, [] =>
    match stop.asked with
    | none => .ok []
    | some f => complain (.fault f)
  | i, item :: rest =>
    match (c.decode item).under (String.ofList (Text.decimal i)) with
    | .error e => .error e
    | .ok a =>
      match decodeItems c stop (i + 1) rest with
      | .error e => .error e
      | .ok as => .ok (a :: as)

/-- Lists. -/
def list (c : Codec α) : Codec (List α) where
  encode as := .seq (as.map c.encode)
  decode
    | .seq items stop => decodeItems c stop 0 items
    | r => r.wrongType "a sequence"

/-- Lists for which null may stand when they are empty; they are written in full. -/
def listOrNull (c : Codec α) : Codec (List α) where
  encode := (list c).encode
  decode r := ((optional (list c)).decode r).map (·.getD [])

/-- The complaint about a name of a member that is no text. -/
def memberName : Reading → Decoded String
  | .str s => .ok s
  | .flawed .text asked _ => complain (.fault asked)
  | _ => complain (.fault .nameNotText)

/-- Reads members one after the other into a collection sorted by name. -/
def decodeMembers (c : Codec α) (stop : MapStop) :
    List (String × α) → List (Reading × Reading) → Decoded (List (String × α))
  | acc, [] =>
    match stop.asked with
    | none => .ok acc
    | some f => complain (.fault f)
  | acc, (name, value) :: rest =>
    match memberName name with
    | .error e => .error e
    | .ok n =>
      match (c.decode value).under n with
      | .error e => .error e
      | .ok a => decodeMembers c stop (insertMember n a acc) rest

/-- Collections of values by name, sorted. -/
def dictionary (c : Codec α) : Codec (List (String × α)) where
  encode members := .map (members.map fun (n, a) => (n, c.encode a))
  decode
    | .map members stop => decodeMembers c stop [] members
    | r => r.wrongType "a map"

/-- Reads nothing at all: the value that may stand beside the name of a variant. -/
def decodeNothing : Reading → Decoded Unit
  | .null => .ok ()
  | r => r.wrongType "unit"

/-- The variant of a name. -/
def variantOf (values : List α) (name : α → String) (s : String) : Decoded α :=
  match values.find? (fun a => name a == s) with
  | some a => .ok a
  | none => complain (.unknownVariant s (values.map name))

/-- Reads one of the values by name: as a text, or as an object whose one member
    has that name and the value null. -/
def decodeVariant (type : String) (values : List α) (name : α → String) :
    Reading → Decoded α
  | .str s => variantOf values name s
  | .map [] .loose => complain (.wrongType .map "enum")
  | .map [] .cut => complain (.fault .endInValue)
  | .map [] _ => complain (.fault .expectedValue)
  | .map ((key, value) :: rest) stop =>
    match key with
    | .str s =>
      match variantOf values name s with
      | .error e => .error e
      | .ok a =>
        match (decodeNothing value).under s with
        | .error e => .error e
        | .ok () =>
          match stop, rest with
          | .loose, _ => .ok a
          | .closed, [] => .ok a
          | .cut, [] => complain (.fault .endInObject)
          | _, _ => complain (.fault .expectedValue)
    | key => key.wrongType "variant identifier"
  | .flawed .text asked _ | .flawed .nothing asked _ => complain (.fault asked)
  | r =>
    match r.found with
    | .ok found => complain (.notVariant found ("enum " ++ type))
    | .error _ => complain (.fault .expectedValue)

/-- One of finitely many values, written by name. -/
def variant (type : String) (values : List α) (name : α → String) : Codec α where
  encode a := .str (name a)
  decode := decodeVariant type values name

end Codec

end ZoneConsole
