/-
What decorates every metric of a run: the namespace before its name and the
tags beside it. Both are settled before the first command and only read after.
-/
import MetricStream.Text.Blank

namespace MetricStream

/-- What stands before a metric's own name: nothing, or text that ends with the
separator. -/
structure Namespace where
  text : String
  /-- A namespace that is not empty ends with the separator. -/
  separated : text.toList = [] ∨ text.toList.getLast? = some '.'
deriving DecidableEq

namespace Namespace

/-- What separates a namespace from a name. -/
def separator : Char := '.'

/-- The namespace that a text gives, with the separator added where it is
missing. -/
def ofText (raw : String) : Namespace :=
  if h : raw.toList = [] ∨ raw.toList.getLast? = some '.' then ⟨raw, h⟩
  else ⟨raw.push separator, by simp [separator]⟩

def empty : Namespace := ⟨"", .inl rfl⟩

/-- Nothing is put before names. -/
def isEmpty (ns : Namespace) : Bool := ns.text.isEmpty

/-- A metric's full name. -/
def qualify (ns : Namespace) (name : String) : String := ns.text ++ name

end Namespace

/-- Tags as typed: the parts between commas, without the blanks around them.
Order, repetition and empty parts stay, and an empty text has no tags. -/
def readTags (typed : String) : List String :=
  if typed.toList = [] then []
  else (Text.cut ',' typed.toList).map fun tag => String.ofList (Text.trim tag)

/-- What a run decorates its metrics with. -/
structure Context where
  scope : Namespace
  tags : List String
deriving DecidableEq

namespace Context

/-- No namespace and no tags. -/
def bare : Context := ⟨.empty, []⟩

/-- A metric's full name. -/
def qualify (ctx : Context) (name : String) : String := ctx.scope.qualify name

end Context

end MetricStream
