import ZoneConsole.Url.Percent

/-!
# Options of lists

Which page of a collection is asked for, and which filters apply. Values that
are zero or empty count as absent and are never sent.
-/

namespace ZoneConsole

/-- Page and filters of a list. -/
structure ListOptions where
  page : Option UInt32
  pageSize : Option UInt32
  status : Option String
  type : Option String
  zoneId : Option String
  deriving DecidableEq, Repr

namespace ListOptions

/-- Options that ask for nothing in particular. -/
def empty : ListOptions := ⟨none, none, none, none, none⟩

/-- The pair of a number, unless it is zero. -/
def numberPair (key : String) : Option UInt32 → List (String × String)
  | some n => if n = 0 then [] else [(key, String.ofList (Text.decimal n.toNat))]
  | none => []

/-- The pair of a text, unless it is empty. -/
def textPair (key : String) : Option String → List (String × String)
  | some s => if s.isEmpty then [] else [(key, s)]
  | none => []

/-- The pairs of a query, in the order in which they are sent. -/
def pairs (o : ListOptions) : List (String × String) :=
  numberPair "page" o.page ++ numberPair "page_size" o.pageSize ++ textPair "status" o.status ++
    textPair "type" o.type ++ textPair "zone_id" o.zoneId

/-- The query with its mark, or nothing when no option is set. -/
def query (o : ListOptions) : String :=
  if o.pairs.isEmpty then "" else String.ofList ('?' :: Url.formPairs o.pairs)

end ListOptions

end ZoneConsole
