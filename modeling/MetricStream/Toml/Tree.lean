/-
The tables of a TOML document while it is being read.

A table is declared by a header, implied by a header further down, or made by
the points of a dotted key, and which of these it was decides what may still be
added to it. A header declares a table once; it may turn an implied one into
its own. A list of tables grows at its end, and only its last table is open. A
dotted key makes and extends tables of its own, never one of a header's. What
stands as a value is closed.
-/
import MetricStream.Toml.Value

namespace MetricStream.Toml

/-- How a table came to be. -/
inductive Origin where
  | declared
  | implied
  | dotted
deriving DecidableEq

/-- What a key leads to. -/
inductive Node where
  | leaf (v : Value)
  | table (origin : Origin) (children : List (String × Node))
  /-- A list of tables; `last` is the open one. -/
  | rows (closed : List Value) (last : List (String × Node))

/-- A table that is open. -/
abbrev Tree := List (String × Node)

mutual

/-- The value of a node. -/
def Node.value : Node → Value
  | .leaf v => v
  | .table _ children => .table (entriesOf children)
  | .rows closed last => .array (closed ++ [.table (entriesOf last)])

/-- The entries of an open table. -/
def entriesOf : List (String × Node) → Entries
  | [] => []
  | (key, node) :: nodes => (key, node.value) :: entriesOf nodes

end

namespace Tree

/-- Puts what `change` makes of the node under a key in its place, or at the
end where there was none. -/
def alter (key : String) (change : Option Node → Option Node) : Tree → Option Tree
  | [] => (change none).map fun node => [(key, node)]
  | (k, node) :: nodes =>
    if k = key then (change (some node)).map fun node => (k, node) :: nodes
    else (alter key change nodes).map ((k, node) :: ·)

/-- Changes the open table that a node stands for. A header's path goes through
tables of every origin, and makes the missing ones. -/
def enter (change : Tree → Option Tree) : Option Node → Option Node
  | none => (change []).map (.table .implied)
  | some (.leaf _) => none
  | some (.table origin children) => (change children).map (.table origin)
  | some (.rows closed last) => (change last).map (.rows closed)

/-- Changes the node at a path from a header. -/
def alterAt (change : Option Node → Option Node) : List String → Tree → Option Tree
  | [] => fun _ => none
  | [key] => alter key change
  | key :: path => alter key (enter (alterAt change path))

/-- What a table's header makes of the node at its path. -/
def declare : Option Node → Option Node
  | none => some (.table .declared [])
  | some (.table .implied children) => some (.table .declared children)
  | _ => none

/-- What the header of one more table in a list makes of the node at its
path. -/
def addRow : Option Node → Option Node
  | none => some (.rows [] [])
  | some (.rows closed last) => some (.rows (closed ++ [.table (entriesOf last)]) [])
  | _ => none

/-- Changes the table that a header has opened. -/
def within (change : Tree → Option Tree) : List String → Tree → Option Tree
  | [] => change
  | key :: path => alter key (enter (within change path))

/-- Goes from a table to the one under a part of a dotted key. `isLast` says
that the value is to stand right there, in a table of dotted keys alone. -/
def enterDotted (isLast : Bool) (change : Tree → Option Tree) : Option Node → Option Node
  | none => (change []).map (.table .dotted)
  | some (.table .dotted children) => (change children).map (.table .dotted)
  | some (.table .implied children) =>
    if isLast then none else (change children).map (.table .implied)
  | some (.rows closed last) => if isLast then none else (change last).map (.rows closed)
  | some (.table .declared _) => none
  | some (.leaf _) => none

/-- Gives a new key its value. -/
def assign (v : Value) : List String → Tree → Option Tree
  | [] => fun _ => none
  | [key] => alter key fun
    | none => some (.leaf v)
    | some _ => none
  | key :: path => alter key (enterDotted (path.length == 1) (assign v path))

end Tree

end MetricStream.Toml
