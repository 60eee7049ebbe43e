import ZoneConsole.Text.Blank
import ZoneConsole.Url.Percent
import ZoneConsole.Url.Punycode

/-!
# Hosts of URLs

A host is a name or an address of one of the two kinds. A name that ends in a
number is an address of four parts, which may be written in decimal, octal or
hexadecimal digits and with fewer parts. A host in brackets is an address of
eight pieces, of which one run of zeros may be left out.
-/

namespace ZoneConsole

/-- Why a text is no URL. -/
inductive UrlError
  | relativeWithoutBase | relativeToOpaque | emptyHost | invalidPort
  | invalidIpv4 | invalidIpv6 | invalidDomain | invalidDomainCharacter
  deriving DecidableEq, Repr

/-- The text of the complaint. -/
def UrlError.message : UrlError → String
  | relativeWithoutBase => "relative URL without a base"
  | relativeToOpaque => "relative URL with a cannot-be-a-base base"
  | emptyHost => "empty host"
  | invalidPort => "invalid port number"
  | invalidIpv4 => "invalid IPv4 address"
  | invalidIpv6 => "invalid IPv6 address"
  | invalidDomain => "invalid international domain name"
  | invalidDomainCharacter => "invalid domain character"

/-- The host of a URL. -/
inductive Host
  | domain (name : String)
  | ipv4 (address : Nat)
  | ipv6 (pieces : List Nat)
  deriving DecidableEq, Repr

namespace Host

/-- The four parts of an address. -/
def writeIpv4 (n : Nat) : List Char :=
  List.intercalate ['.']
    ([n / 0x1000000, n / 0x10000 % 256, n / 0x100 % 256, n % 256].map Text.decimal)

/-- How many zeros a list starts with. -/
def zeros (pieces : List Nat) : Nat := (pieces.takeWhile (· == 0)).length

/-- Where the first of the longest runs of zeros starts and how long it is. -/
def longestZeros : List Nat → Nat × Nat
  | [] => (0, 0)
  | p :: rest =>
    let here := zeros (p :: rest)
    let (start, length) := longestZeros rest
    if length ≤ here then (0, here) else (start + 1, length)

/-- Pieces in hexadecimal digits, parted by colons. -/
def writePieces (pieces : List Nat) : List Char :=
  List.intercalate [':'] (pieces.map (Nat.toDigits 16))

/-- The pieces of an address; the longest run of two or more zeros is left out. -/
def writeIpv6 (pieces : List Nat) : List Char :=
  let (start, length) := longestZeros pieces
  if length < 2 then writePieces pieces
  else writePieces (pieces.take start) ++ "::".toList ++ writePieces (pieces.drop (start + length))

/-- The text of a host. -/
def write : Host → List Char
  | domain name => name.toList
  | ipv4 n => writeIpv4 n
  | ipv6 pieces => '[' :: (writeIpv6 pieces ++ [']'])

/-- A part of an address of four parts. `none` stands for a text that is no number,
    and `some none` for a number of more than 32 bits. -/
def ipv4Number (cs : List Char) : Option (Option Nat) :=
  let (base, digits) := match cs with
    | '0' :: 'x' :: rest => (16, rest)
    | '0' :: 'X' :: rest => (16, rest)
    | '0' :: d :: rest => (8, d :: rest)
    | cs => (10, cs)
  if cs.isEmpty then none
  else
    let value := digits.foldl (fun acc c =>
      match acc, Text.hexValue? c with
      | some n, some d => if d < base then some (n * base + d) else none
      | _, _ => none) (some 0)
    value.map fun n => if n < UInt32.size then some n else none

/-- Does a name end in a number? A dot at its end does not count. -/
def endsInNumber (name : List Char) : Bool :=
  let parts := (Url.splitOn (· = '.') name).reverse
  let last := match parts with
    | [] :: p :: _ => p
    | [] :: [] => []
    | p :: _ => p
    | [] => []
  (!last.isEmpty && last.all Text.isDigit) || (ipv4Number last).isSome

/-- The address that a name of at most four parts writes. -/
def readIpv4 (name : List Char) : Except UrlError Nat :=
  let parts := Url.splitOn (· = '.') name
  let parts := if parts.getLast? = some [] then parts.dropLast else parts
  if 4 < parts.length then .error .invalidIpv4
  else
    match parts.mapM fun p => (ipv4Number p).join with
    | none => .error .invalidIpv4
    | some numbers =>
      let front := numbers.dropLast
      let last := numbers.getLast?.getD 0
      if Nat.pow 256 (4 - front.length) ≤ last || front.any (255 < ·) then .error .invalidIpv4
      else .ok (last + front.zipIdx.foldl (fun sum (n, i) => sum + n * Nat.pow 256 (3 - i)) 0)

/-- The four parts at the end of an address of eight pieces; each is at most 255 and
    has no leading zero. -/
def readQuad (cs : List Char) : Option (Nat × Nat) :=
  match (Url.splitOn (· = '.') cs).mapM part with
  | some [a, b, c, d] => some (a * 256 + b, c * 256 + d)
  | _ => none
where
  /-- One of the parts. -/
  part (ds : List Char) : Option Nat :=
    if ds.isEmpty || !ds.all Text.isDigit || (ds.head? == some '0' && 1 < ds.length) then none
    else if 3 < ds.length || 255 < Text.decimalValue ds then none
    else some (Text.decimalValue ds)

/-- Reads pieces from a text; `done` are the pieces read, `gap` how many of them
    stand before the run that is left out. -/
def readPieces : Nat → List Nat → Option Nat → List Char → Option (List Nat × Option Nat)
  | 0, _, _, _ => none
  | _, done, gap, [] => some (done, gap)
  | fuel + 1, done, gap, c :: rest =>
    let filled := done.length + (if gap.isSome then 1 else 0)
    if 8 ≤ filled then none
    else if c = ':' then
      if gap.isSome then none else readPieces fuel done (some done.length) rest
    else
      let digits := ((c :: rest).take 4).takeWhile fun d => (Text.hexValue? d).isSome
      let value := digits.foldl (fun n d => n * 16 + (Text.hexValue? d).getD 0) 0
      match (c :: rest).drop digits.length with
      | [] => some (done ++ [value], gap)
      | '.' :: _ =>
        if digits.isEmpty || 6 < filled then none
        else (readQuad (c :: rest)).map fun (a, b) => (done ++ [a, b], gap)
      | ':' :: more => if more.isEmpty then none else readPieces fuel (done ++ [value]) gap more
      | _ => none

/-- The address of eight pieces that a text writes. -/
def readIpv6 (cs : List Char) : Except UrlError (List Nat) :=
  let read := match cs with
    | ':' :: ':' :: rest => readPieces (cs.length + 1) [] (some 0) rest
    | ':' :: _ => none
    | cs => if cs.length < 2 then none else readPieces (cs.length + 1) [] none cs
  match read with
  | none => .error .invalidIpv6
  | some (pieces, none) => if pieces.length = 8 then .ok pieces else .error .invalidIpv6
  | some (pieces, some gap) =>
    .ok (pieces.take gap ++ List.replicate (8 - pieces.length) 0 ++ pieces.drop gap)

/-- May the character not stand in a name? -/
def isForbidden (c : Char) : Bool :=
  c.toNat ≤ 0x20 || c.toNat = 0x7f ||
    ['%', '#', '/', ':', '<', '>', '?', '@', '[', '\\', ']', '^', '|'].contains c

/-- May the character not stand in a host of a scheme that is not special? -/
def isForbiddenOpaque (c : Char) : Bool :=
  c.toNat = 0 || ['\t', '\n', '\r', ' ', '#', '/', ':', '<', '>', '?', '@', '[', '\\', ']', '^',
    '|'].contains c

/-- The address in brackets, if the text begins with one. -/
def bracketed (cs : List Char) : Option (Except UrlError Host) :=
  match cs with
  | '[' :: rest =>
    some (if rest.getLast? = some ']' then (readIpv6 rest.dropLast).map ipv6
      else .error .invalidIpv6)
  | _ => none

/-- May the character beyond ASCII not stand in a name? -/
def isUnnamed (c : Char) : Bool := 0x80 ≤ c.toNat && (c.toNat ≤ 0xa0 || Text.isBlank c)

/-- The ASCII form of a label with folded letters, which other characters force to be
    encoded. A label that looks encoded has to be so. -/
def asciiLabel (label : List Char) : Option (List Char) :=
  let encoded := label.take 4 == "xn--".toList
  let shown := if encoded then Punycode.shown? (label.drop 4) else some label
  match shown with
  | none => none
  | some shown =>
    if shown.any isUnnamed then none
    else if encoded || label.all (·.toNat < 0x80) then some label
    else some ("xn--".toList ++ Punycode.encode label)

/-- The ASCII form of a name: letters in lower case, and each label with other
    characters in its encoded form. -/
def asciiName (cs : List Char) : Option (List Char) :=
  ((Url.splitOn (· = '.') (foldName cs)).mapM asciiLabel).map (List.intercalate ['.'])

/-- The host that a name or an address writes, for a special scheme. -/
def readSpecial (cs : List Char) : Except UrlError Host :=
  match bracketed cs with
  | some r => r
  | none =>
    let bytes := Url.percentDecode cs
    match asciiName (Text.readUtf8 bytes) with
    | none => .error .invalidDomain
    | some name =>
      if !Text.isUtf8 bytes || name.any isForbidden then .error .invalidDomain
      else if name.isEmpty then .error .emptyHost
      else if endsInNumber name then (readIpv4 name).map ipv4
      else .ok (domain (String.ofList name))

/-- The host that a text writes, for a scheme that is not special. -/
def readOpaque (cs : List Char) : Except UrlError Host :=
  match bracketed cs with
  | some r => r
  | none =>
    if cs.any isForbiddenOpaque then .error .invalidDomainCharacter
    else .ok (domain (String.ofList (Url.percentEncode Url.controlSet cs)))

end Host

end ZoneConsole
