/-
The text of a TOML document: blanks, comments, line ends, and strings.

Each reader takes what it reads off the front and gives the rest; a reader that
can fail gives nothing where the document is malformed. Control characters
other than the tab stand nowhere, and a carriage return only before a line
feed.
-/
import MetricStream.Text.Blank
import MetricStream.Text.Hex

namespace MetricStream.Toml

/-- What a reader gives: what it read, and the rest. -/
abbrev Read (α : Type) := Option (α × List Char)

/-- A blank within a line. -/
def isSpace (c : Char) : Bool := c == ' ' || c == '\t'

/-- A character that comments and strings may hold as it is. -/
def isShown (c : Char) : Bool := c == '\t' || (0x20 ≤ c.toNat && c.toNat ≠ 0x7F)

/-- The text after the blanks at its front. -/
def skipSpaces (cs : List Char) : List Char := cs.dropWhile isSpace

/-- The text after a line end at its front. -/
def lineEnd? : List Char → Option (List Char)
  | '\n' :: cs => some cs
  | '\r' :: '\n' :: cs => some cs
  | _ => none

/-- The text after a comment at its front, if there is one: up to the line
end. -/
def skipComment (cs : List Char) : List Char :=
  match cs with
  | '#' :: rest => rest.dropWhile isShown
  | _ => cs

/-- The text from the next line on; blanks and a comment may end this one. -/
def endLine? (cs : List Char) : Option (List Char) :=
  match skipComment (skipSpaces cs) with
  | [] => some []
  | rest => lineEnd? rest

/-- The text after blanks, comments and line ends, in at most `fuel` lines. -/
def skipLines : Nat → List Char → List Char
  | 0, cs => cs
  | fuel + 1, cs =>
    match lineEnd? (skipComment (skipSpaces cs)) with
    | some rest => skipLines fuel rest
    | none => skipComment (skipSpaces cs)

/-- The text after everything between values: blanks, comments and line ends. -/
def skipBetween (cs : List Char) : List Char := skipLines (cs.length + 1) cs

/-! ## Strings -/

/-- The value of exactly `count` hexadecimal digits at the front, after `n`. -/
def hexNumber? : Nat → Nat → List Char → Read Nat
  | 0, n, cs => some (n, cs)
  | _ + 1, _, [] => none
  | count + 1, n, c :: cs =>
    match Text.hexValue? c with
    | some d => hexNumber? count (n * 16 + d) cs
    | none => none

/-- The character of a code point; surrogates and numbers past the last one
have none. -/
def scalar? (n : Nat) : Option Char :=
  if n < 0xD800 || (0xDFFF < n && n ≤ 0x10FFFF) then some (Char.ofNat n) else none

/-- The character written with this many hexadecimal digits. -/
def hexEscape? (count : Nat) (cs : List Char) : Read Char :=
  match hexNumber? count 0 cs with
  | some (n, rest) => (scalar? n).map fun c => (c, rest)
  | none => none

/-- The character that an escape names, after its backslash. -/
def escape? : List Char → Read Char
  | 'b' :: cs => some (Char.ofNat 0x08, cs)
  | 't' :: cs => some ('\t', cs)
  | 'n' :: cs => some ('\n', cs)
  | 'f' :: cs => some (Char.ofNat 0x0C, cs)
  | 'r' :: cs => some ('\r', cs)
  | 'e' :: cs => some (Char.ofNat 0x1B, cs)
  | '"' :: cs => some ('"', cs)
  | '\\' :: cs => some ('\\', cs)
  | 'x' :: cs => hexEscape? 2 cs
  | 'u' :: cs => hexEscape? 4 cs
  | 'U' :: cs => hexEscape? 8 cs
  | _ => none

/-- The rest of a string on one line between double quotes; `read` has been
read, in reverse. -/
def basicRest? : Nat → List Char → List Char → Read (List Char)
  | 0, _, _ => none
  | fuel + 1, read, cs =>
    match cs with
    | '"' :: rest => some (read.reverse, rest)
    | '\\' :: rest =>
      match escape? rest with
      | some (c, rest) => basicRest? fuel (c :: read) rest
      | none => none
    | c :: rest => if isShown c then basicRest? fuel (c :: read) rest else none
    | [] => none

/-- The rest of a string on one line between single quotes. -/
def literalRest? (cs : List Char) : Read (List Char) :=
  let content := cs.takeWhile fun c => isShown c && c ≠ '\x27'
  match cs.drop content.length with
  | '\x27' :: rest => some (content, rest)
  | _ => none

/-- The text after the blanks and line ends at its front. -/
def skipBlankLines : List Char → List Char
  | '\r' :: '\n' :: cs => skipBlankLines cs
  | '\n' :: cs => skipBlankLines cs
  | c :: cs => if isSpace c then skipBlankLines cs else c :: cs
  | [] => []

/-- The text after a line end that a backslash takes away, and after all blanks
and line ends that follow it. Nothing but blanks may stand between the two. -/
def joinedLine? (cs : List Char) : Option (List Char) :=
  (lineEnd? (skipSpaces cs)).map skipBlankLines

/-- Takes the quotes at the end of a string over several lines: up to two of
them belong to the string, and then three close it. -/
def closingQuotes? (quote : Char) (cs : List Char) : Read Nat :=
  let run := (cs.takeWhile (· == quote)).length
  if run < 3 then none
  else
    let within := if run ≤ 5 then run - 3 else 2
    some (within, cs.drop (within + 3))

/-- The rest of a string over several lines; `read` has been read, in reverse.
Line ends within it stay as they are written. -/
def linesRest? (quote : Char) : Nat → List Char → List Char → Read (List Char)
  | 0, _, _ => none
  | fuel + 1, read, cs =>
    match closingQuotes? quote cs with
    | some (within, rest) => some (read.reverse ++ List.replicate within quote, rest)
    | none =>
      match cs with
      | [] => none
      | c :: rest =>
        if c = '\\' ∧ quote = '"' then
          match joinedLine? rest with
          | some rest => linesRest? quote fuel read rest
          | none =>
            match escape? rest with
            | some (c, rest) => linesRest? quote fuel (c :: read) rest
            | none => none
        else
          match cs with
          | '\r' :: '\n' :: rest => linesRest? quote fuel ('\n' :: '\r' :: read) rest
          | _ => if c = '\n' ∨ isShown c then linesRest? quote fuel (c :: read) rest else none

/-- A string over several lines, after its opening quotes; a line end right
after them does not count. -/
def lines? (quote : Char) (cs : List Char) : Read (List Char) :=
  let start := (lineEnd? cs).getD cs
  linesRest? quote (start.length + 1) [] start

/-- A string on one line, with its quotes. -/
def lineString? : List Char → Read (List Char)
  | '"' :: cs => basicRest? (cs.length + 1) [] cs
  | '\x27' :: cs => literalRest? cs
  | _ => none

/-- A string of any of the four forms. -/
def string? : List Char → Read String
  | '"' :: '"' :: '"' :: cs => (lines? '"' cs).map fun (s, rest) => (String.ofList s, rest)
  | '\x27' :: '\x27' :: '\x27' :: cs =>
    (lines? '\x27' cs).map fun (s, rest) => (String.ofList s, rest)
  | cs => (lineString? cs).map fun (s, rest) => (String.ofList s, rest)

/-! ## Keys -/

/-- A character of a key without quotes. -/
def isBare (c : Char) : Bool := c.isAlphanum || c == '_' || c == '-'

/-- One part of a key. -/
def keyPart? (cs : List Char) : Read String :=
  match cs.takeWhile isBare with
  | [] => (lineString? cs).map fun (s, rest) => (String.ofList s, rest)
  | name => some (String.ofList name, cs.drop name.length)

/-- A key of at most so many parts, joined by points with blanks around them;
the blanks after it are taken too. -/
def keyParts? : Nat → List Char → Read (List String)
  | 0, _ => none
  | count + 1, cs =>
    match keyPart? (skipSpaces cs) with
    | none => none
    | some (part, rest) =>
      match skipSpaces rest with
      | '.' :: rest => (keyParts? count rest).map fun (parts, rest) => (part :: parts, rest)
      | rest => some ([part], rest)

/-- How many parts a key may have. -/
def maxParts : Nat := 80

/-- A key. -/
def key? (cs : List Char) : Read (List String) := keyParts? maxParts cs

end MetricStream.Toml
