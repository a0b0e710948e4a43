/-
Powers of two and of ten: the scales of binary and of decimal numbers.
-/
namespace MetricStream

/-- Two to the power `n`. -/
def twoTo (n : Nat) : Nat := Nat.pow 2 n

/-- Ten to the power `n`. -/
def tenTo (n : Nat) : Nat := Nat.pow 10 n

end MetricStream
