import ZoneConsole.Codec

/-!
# Codecs of records

A `Record` describes the fields of a structure once for both directions: the
names under which they are written, what stands for an absent one, and when one
is left out. It is written as an object in the order of the fields, and read
from an object, whose members may come in any order, or from a sequence that
holds the fields in their order.

* Unknown members are passed over, a repeated one is a complaint, and a missing
  one is reported after all members have been read, in the order of the fields.
* Items of a sequence may be missing at its end where something stands for them.
-/

namespace ZoneConsole

/-- A field of a record: its name, other names it is read under, what stands for
    it when a member or an item is absent, and whether it is left out in writing. -/
structure Field (β : Type) where
  name : String
  aliases : List String
  codec : Codec β
  absentMember : Option β
  absentItem : Option β
  omitted : β → Bool

namespace Field

/-- A field that has to be there. -/
def required (name : String) (codec : Codec β) : Field β :=
  ⟨name, [], codec, none, none, fun _ => false⟩

/-- A field for which a value stands when it is absent. -/
def defaulted (name : String) (codec : Codec β) (value : β) : Field β :=
  ⟨name, [], codec, some value, some value, fun _ => false⟩

/-- A field that is left out when it has no value. -/
def omittable (name : String) (codec : Codec β) : Field (Option β) :=
  ⟨name, [], codec.optional, some none, some none, Option.isNone⟩

/-- A field that may be missing from an object, but not from a sequence, and is
    written as null when it has no value. -/
def nullable (name : String) (codec : Codec β) : Field (Option β) :=
  ⟨name, [], codec.optional, some none, none, fun _ => false⟩

/-- A field that is also read under another name. -/
def orNamed (field : Field β) (name : String) : Field β :=
  { field with aliases := name :: field.aliases }

/-- Is the field read under the name? -/
def answersTo (field : Field β) (name : String) : Bool :=
  field.name == name || field.aliases.contains name

end Field

/-- The fields of a record `γ`, in order, from which an `α` is built. -/
inductive Record (γ : Type) : Type → Type 1
  | done (a : α) : Record γ α
  | field (rest : Record γ (β → α)) (field : Field β) (get : γ → β) : Record γ α

namespace Record

/-- How many fields there are. -/
def size : Record γ α → Nat
  | done _ => 0
  | field rest _ _ => rest.size + 1

/-- The members that are written. -/
def members : Record γ α → γ → List (String × Data)
  | done _, _ => []
  | field rest f get, c =>
    members rest c ++ if f.omitted (get c) then [] else [(f.name, f.codec.encode (get c))]

/-- The field read under a name: its own name and the check of its value. -/
def known? : Record γ α → String → Option (String × (Reading → Decoded Unit))
  | done _, _ => none
  | field rest f _, name =>
    if f.answersTo name then some (f.name, fun r => (f.codec.decode r).map fun _ => ())
    else rest.known? name

/-- Checks the members in their order; `seen` holds the fields already met. -/
def checkMembers (fields : Record γ α) (stop : MapStop) :
    List String → List (Reading × Reading) → Decoded Unit
  | _, [] =>
    match stop.asked with
    | none => .ok ()
    | some f => complain (.fault f)
  | seen, (key, value) :: rest =>
    match Codec.memberName key with
    | .error e => .error e
    | .ok name =>
      match fields.known? name with
      | none =>
        match value.passOver with
        | some f => complain (.fault f)
        | none => checkMembers fields stop seen rest
      | some (own, check) =>
        if seen.contains own then complain (.duplicateField own)
        else
          match (check value).under name with
          | .error e => .error e
          | .ok () => checkMembers fields stop (own :: seen) rest

/-- The value of the first member whose name a field is read under. -/
def memberOf (f : Field β) : List (Reading × Reading) → Option Reading
  | [] => none
  | (.str name, value) :: rest => if f.answersTo name then some value else memberOf f rest
  | _ :: rest => memberOf f rest

/-- Builds the value from checked members. -/
def build : Record γ α → List (Reading × Reading) → Decoded α
  | done a, _ => .ok a
  | field rest f _, ms =>
    match rest.build ms with
    | .error e => .error e
    | .ok h =>
      match memberOf f ms with
      | some r => (f.codec.decode r).map h
      | none =>
        match f.absentMember with
        | some b => .ok (h b)
        | none => complain (.missingField f.name)

/-- Reads the fields from items, and answers the items left over. -/
def buildItems (expected : String) (stop : SeqStop) :
    Record γ α → List Reading → Decoded (α × List Reading)
  | done a, items => .ok (a, items)
  | field rest f _, items =>
    match rest.buildItems expected stop items with
    | .error e => .error e
    | .ok (h, item :: more) =>
      match (f.codec.decode item).under (String.ofList (Text.decimal rest.size)) with
      | .error e => .error e
      | .ok b => .ok (h b, more)
    | .ok (h, []) =>
      match stop.asked with
      | some fault => complain (.fault fault)
      | none =>
        match f.absentItem with
        | some b => .ok (h b, [])
        | none => complain (.wrongLength rest.size expected)

/-- The complaint about what follows the last field in a sequence. -/
def surplus (stop : SeqStop) : List Reading → Option Fault
  | [] => stop.ended
  | _ :: _ => if stop = .loose then none else some .trailingCharacters

/-- Reads a record; `type` is the name that complaints give it. -/
def decode (fields : Record γ α) (type : String) : Reading → Decoded α
  | .map members stop =>
    match fields.checkMembers stop [] members with
    | .error e => .error e
    | .ok () => fields.build members
  | .seq items stop =>
    let expected := "struct " ++ type ++ " with " ++ String.ofList (Text.decimal fields.size)
      ++ " element" ++ (if fields.size = 1 then "" else "s")
    match fields.buildItems expected stop items with
    | .error e => .error e
    | .ok (a, left) =>
      match surplus stop left with
      | some f => complain (.fault f)
      | none => .ok a
  | r => r.wrongType ("struct " ++ type)

/-- The codec of a record. -/
def codec (fields : Record γ γ) (type : String) : Codec γ where
  encode c := .map (fields.members c)
  decode := fields.decode type

end Record

end ZoneConsole
