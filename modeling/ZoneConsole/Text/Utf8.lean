/-!
# UTF-8

Characters as bytes, and bytes as characters. Reading is total: the longest
start of a character that is cut short or goes wrong becomes one replacement
character, and every other stray byte one of its own.
-/

namespace ZoneConsole.Text

/-- The bytes of a character. -/
def utf8Char (c : Char) : List UInt8 :=
  let n := c.toNat
  if n < 0x80 then [n.toUInt8]
  else if n < 0x800 then [(0xc0 + n / 64).toUInt8, (0x80 + n % 64).toUInt8]
  else if n < 0x10000 then
    [(0xe0 + n / 4096).toUInt8, (0x80 + n / 64 % 64).toUInt8, (0x80 + n % 64).toUInt8]
  else
    [(0xf0 + n / 262144).toUInt8, (0x80 + n / 4096 % 64).toUInt8, (0x80 + n / 64 % 64).toUInt8,
      (0x80 + n % 64).toUInt8]

/-- The bytes of a text. -/
def utf8 (cs : List Char) : List UInt8 := cs.flatMap utf8Char

/-- What stands for bytes that are no character. -/
def replacement : Char := '\ufffd'

/-- Is the byte one that continues a character? -/
def isTail (b : UInt8) : Bool := 0x80 ≤ b && b ≤ 0xbf

/-- Does the second byte fit the first one of a character of three bytes? -/
def fitsThree (first second : UInt8) : Bool :=
  if first = 0xe0 then 0xa0 ≤ second && second ≤ 0xbf
  else if first = 0xed then 0x80 ≤ second && second ≤ 0x9f
  else isTail second

/-- Does the second byte fit the first one of a character of four bytes? -/
def fitsFour (first second : UInt8) : Bool :=
  if first = 0xf0 then 0x90 ≤ second && second ≤ 0xbf
  else if first = 0xf4 then 0x80 ≤ second && second ≤ 0x8f
  else isTail second

/-- The character of a code made of the low bits of its bytes. -/
def charOfBytes (first : Nat) (tails : List UInt8) : Char :=
  Char.ofNat (tails.foldl (fun n b => n * 64 + b.toNat % 64) first)

/-- The characters of a list of bytes. -/
def readUtf8 : List UInt8 → List Char
  | [] => []
  | a :: rest =>
    if a < 0x80 then Char.ofNat a.toNat :: readUtf8 rest
    else if 0xc2 ≤ a && a ≤ 0xdf then
      match rest with
      | b :: more =>
        if isTail b then charOfBytes (a.toNat % 32) [b] :: readUtf8 more
        else replacement :: readUtf8 (b :: more)
      | [] => [replacement]
    else if 0xe0 ≤ a && a ≤ 0xef then
      match rest with
      | b :: c :: more =>
        if fitsThree a b then
          if isTail c then charOfBytes (a.toNat % 16) [b, c] :: readUtf8 more
          else replacement :: readUtf8 (c :: more)
        else replacement :: readUtf8 (b :: c :: more)
      | [b] => if fitsThree a b then [replacement] else replacement :: readUtf8 [b]
      | [] => [replacement]
    else if 0xf0 ≤ a && a ≤ 0xf4 then
      match rest with
      | b :: c :: d :: more =>
        if fitsFour a b then
          if isTail c then
            if isTail d then charOfBytes (a.toNat % 8) [b, c, d] :: readUtf8 more
            else replacement :: readUtf8 (d :: more)
          else replacement :: readUtf8 (c :: d :: more)
        else replacement :: readUtf8 (b :: c :: d :: more)
      | [b, c] =>
        if fitsFour a b then
          if isTail c then [replacement] else replacement :: readUtf8 [c]
        else replacement :: readUtf8 [b, c]
      | [b] => if fitsFour a b then [replacement] else replacement :: readUtf8 [b]
      | [] => [replacement]
    else replacement :: readUtf8 rest
termination_by bytes => bytes.length

/-- Do the bytes write a text? -/
def isUtf8 (bytes : List UInt8) : Bool := utf8 (readUtf8 bytes) = bytes

end ZoneConsole.Text
