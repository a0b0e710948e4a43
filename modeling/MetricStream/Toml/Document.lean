/-
TOML documents: text to entries.

A document is read a line at a time. A line opens a table, opens one more table
of a list, or gives a key its value in the table that is open. Arrays and
inline tables may span lines and end with a comma; in an inline table a line may
also end on either side of the equals sign. A document that cannot be
read has no entries at all, not some of them.
-/
import MetricStream.Toml.Scalar
import MetricStream.Toml.Tree

namespace MetricStream.Toml

/-! ## Values -/

/-- The text after a comma at the front, or before a closing character: `none`
where neither stands. -/
def separator? (close : Char) (cs : List Char) : Option (List Char) :=
  match cs with
  | ',' :: rest => some (skipBetween rest)
  | c :: _ => if c = close then some cs else none
  | [] => none

/-- The items of an array up to its end, each read by `item`. -/
def items? (item : List Char → Read Value) : Nat → List Char → Read (List Value)
  | 0, _ => none
  | fuel + 1, cs =>
    match cs with
    | ']' :: rest => some ([], rest)
    | _ =>
      match item cs with
      | none => none
      | some (v, rest) =>
        match separator? ']' (skipBetween rest) with
        | none => none
        | some rest => (items? item fuel rest).map fun (vs, rest) => (v :: vs, rest)

/-- A key, the equals sign, and the value after it; `skip` takes what may stand
on either side of the sign. -/
def assignment? (skip : List Char → List Char) (item : List Char → Read Value)
    (cs : List Char) : Read (List String × Value) :=
  match key? cs with
  | none => none
  | some (path, rest) =>
    match skip rest with
    | '=' :: rest => (item (skip rest)).map fun (v, rest) => ((path, v), rest)
    | _ => none

/-- The entries of an inline table up to its end, after those in `tree`. -/
def fields? (item : List Char → Read Value) : Nat → Tree → List Char → Read Tree
  | 0, _, _ => none
  | fuel + 1, tree, cs =>
    match cs with
    | '\x7d' :: rest => some (tree, rest)
    | _ =>
      match assignment? skipBetween item cs with
      | none => none
      | some ((path, v), rest) =>
        match tree.assign v path, separator? '\x7d' (skipBetween rest) with
        | some tree, some rest => fields? item fuel tree rest
        | _, _ => none

/-- A value of one line's worth: no array and no inline table. -/
def simple? (cs : List Char) : Read Value :=
  match cs with
  | '"' :: _ => (string? cs).map fun (s, rest) => (.string s, rest)
  | '\x27' :: _ => (string? cs).map fun (s, rest) => (.string s, rest)
  | _ => scalar cs

/-- A value with at most so many arrays and inline tables around its inmost
values. -/
def value? : Nat → List Char → Read Value
  | 0, cs => simple? cs
  | depth + 1, cs =>
    match cs with
    | '[' :: rest =>
      (items? (value? depth) cs.length (skipBetween rest)).map fun (vs, rest) =>
        (.array vs, rest)
    | '\x7b' :: rest =>
      (fields? (value? depth) cs.length [] (skipBetween rest)).map fun (tree, rest) =>
        (.table (entriesOf tree), rest)
    | _ => simple? cs

/-- How deep values may be nested. -/
def maxDepth : Nat := 80

/-! ## Lines -/

/-- A document read in part: all tables, and the path of the open one. -/
structure Draft where
  root : Tree
  opened : List String

/-- Reads a line that is not blank, and everything that its value spans. -/
def line? (d : Draft) (cs : List Char) : Option (Draft × List Char) :=
  match cs with
  | '[' :: '[' :: rest =>
    match key? rest with
    | some (path, ']' :: ']' :: rest) =>
      match Tree.alterAt Tree.addRow path d.root, endLine? rest with
      | some root, some rest => some (⟨root, path⟩, rest)
      | _, _ => none
    | _ => none
  | '[' :: rest =>
    match key? rest with
    | some (path, ']' :: rest) =>
      match Tree.alterAt Tree.declare path d.root, endLine? rest with
      | some root, some rest => some (⟨root, path⟩, rest)
      | _, _ => none
    | _ => none
  | _ =>
    match assignment? skipSpaces (value? maxDepth) cs with
    | none => none
    | some ((path, v), rest) =>
      match Tree.within (Tree.assign v path) d.opened d.root, endLine? rest with
      | some root, some rest => some ({ d with root }, rest)
      | _, _ => none

/-- Reads all lines, at most `fuel` of them. -/
def lines : Nat → Draft → List Char → Option Draft
  | 0, _, _ => none
  | fuel + 1, d, cs =>
    match skipBetween cs with
    | [] => some d
    | rest =>
      match line? d rest with
      | some (d, rest) => lines fuel d rest
      | none => none

/-- The entries of a document, or nothing if it is malformed. A mark at its
front that it is in Unicode does not count. -/
def readDocument? (text : List Char) : Option Entries :=
  let body := match text with
    | '\uFEFF' :: rest => rest
    | _ => text
  (lines (body.length + 1) ⟨[], []⟩ body).map fun d => entriesOf d.root

end MetricStream.Toml
