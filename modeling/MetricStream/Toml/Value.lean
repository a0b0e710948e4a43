/-
TOML values, as a document has them once it is read.

A table's entries keep the order in which they were written. An integer is
kept exactly; whether it fits a word is for the reader of the document to say.
-/
import MetricStream.Binary64

namespace MetricStream.Toml

/-- A TOML value. Dates and times are told apart from the other kinds, and
their text is kept. -/
inductive Value where
  | string (s : String)
  | integer (n : Int)
  | float (x : Binary64)
  /-- What is written as a number and stands for none: a float past the finite
  ones, or an integer that lacks digits of its base. -/
  | unreadable
  | boolean (b : Bool)
  | date (text : String)
  | array (items : List Value)
  | table (entries : List (String × Value))

/-- The entries of a table. -/
abbrev Entries := List (String × Value)

mutual

/-- The value holds no number that the format cannot express: no integer past
64 bits and none that is unreadable. -/
def Value.numbersFit : Value → Bool
  | .integer n => -9223372036854775808 ≤ n && n ≤ 9223372036854775807
  | .unreadable => false
  | .array items => itemsFit items
  | .table entries => entriesFit entries
  | _ => true

/-- No item holds such a number. -/
def itemsFit : List Value → Bool
  | [] => true
  | v :: vs => v.numbersFit && itemsFit vs

/-- No entry holds such a number. -/
def entriesFit : List (String × Value) → Bool
  | [] => true
  | (_, v) :: es => v.numbersFit && entriesFit es

end

mutual

/-- Whether two values are the same. -/
def Value.same : Value → Value → Bool
  | .string s, .string t => s == t
  | .integer m, .integer n => m == n
  | .float x, .float y => x == y
  | .unreadable, .unreadable => true
  | .boolean a, .boolean b => a == b
  | .date s, .date t => s == t
  | .array vs, .array ws => itemsSame vs ws
  | .table es, .table fs => entriesSame es fs
  | _, _ => false

/-- Whether two lists have the same items. -/
def itemsSame : List Value → List Value → Bool
  | [], [] => true
  | v :: vs, w :: ws => v.same w && itemsSame vs ws
  | _, _ => false

/-- Whether two tables have the same entries in the same order. -/
def entriesSame : List (String × Value) → List (String × Value) → Bool
  | [], [] => true
  | (k, v) :: es, (l, w) :: fs => k == l && v.same w && entriesSame es fs
  | _, _ => false

end

mutual

theorem Value.same_iff (v w : Value) : v.same w = true ↔ v = w := by
  cases v <;> cases w <;> simp [Value.same, itemsSame_iff, entriesSame_iff]

theorem itemsSame_iff (vs ws : List Value) : itemsSame vs ws = true ↔ vs = ws := by
  cases vs <;> cases ws <;> simp [itemsSame, Value.same_iff, itemsSame_iff]

theorem entriesSame_iff (es fs : List (String × Value)) :
    entriesSame es fs = true ↔ es = fs := by
  rcases es with _ | ⟨⟨k, v⟩, es⟩ <;> rcases fs with _ | ⟨⟨l, w⟩, fs⟩ <;>
    simp [entriesSame, Value.same_iff, entriesSame_iff]

end

instance : DecidableEq Value := fun v w => decidable_of_iff _ (v.same_iff w)

end MetricStream.Toml
