/-!
# Lines

A line ends with a line feed, and a carriage return right before the line feed belongs to the end of
the line.  The last line of a text may have no end.

## Main definitions

* `lines` — the lines of a text, without their ends.
* `joinLines` — the lines of a text with a space between them.
* `dropLineEnds` — a text without the carriage returns and line feeds at its end.
-/

namespace SmtCount.Text

/-- A line without the carriage return at its end, if there is one. -/
def dropReturn (line : List Char) : List Char :=
  if line.getLast? = some '\r' then line.dropLast else line

/-- The lines among the pieces of a text that lie between its line feeds.  The last piece is what
follows the last line feed: a line without an end, or nothing. -/
def linesOfPieces : List (List Char) → List (List Char)
  | [] => []
  | [last] => if last.isEmpty then [] else [last]
  | piece :: pieces => dropReturn piece :: linesOfPieces pieces

/-- The lines of a text, without their ends. -/
def lines (text : List Char) : List (List Char) :=
  linesOfPieces (text.splitOn '\n')

/-- The lines of a text in one line, with a space between them. -/
def joinLines (text : String) : String :=
  String.ofList (List.intercalate [' '] (lines text.toList))

/-- Is the character one of those that end lines? -/
def isLineEnd (c : Char) : Bool :=
  c == '\r' || c == '\n'

/-- A text without the carriage returns and line feeds at its end. -/
def dropLineEnds (text : String) : String :=
  String.ofList (text.toList.reverse.dropWhile isLineEnd).reverse

end SmtCount.Text
