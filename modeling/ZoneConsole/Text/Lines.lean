/-!
# Lines

A text of several lines as the list of them, and lines put together again with a
line break between two of them. Each undoes the other.
-/

namespace ZoneConsole.Text

/-- The lines of a text; there is always one. -/
def splitLines : List Char → List (List Char)
  | [] => [[]]
  | c :: r =>
    if c = '\n' then [] :: splitLines r
    else
      match splitLines r with
      | [] => [[c]]
      | line :: rest => (c :: line) :: rest

/-- Lines with a line break between two of them. -/
def joinLines (lines : List (List Char)) : List Char := (lines.intersperse ['\n']).flatten

/-- Texts with a line break between two of them. -/
def joinTexts (texts : List String) : String := String.ofList (joinLines (texts.map (·.toList)))

end ZoneConsole.Text
