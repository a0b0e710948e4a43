/-
The pieces of a text between separators.

There is one more than there are separators, none of them holds one, they are
what was joined (`cut_intercalate`), and joined they are the text
(`intercalate_cut`). Where a separator stands between two texts, each is cut for
itself (`cut_append`).
-/
import Mathlib.Data.List.Basic
import MetricStream.Text.Blank

namespace MetricStream.Text

theorem cut_eq_splitOn (separator : Char) (cs : List Char) :
    cut separator cs = cs.splitOn separator := by
  rw [List.splitOn_eq_splitOnP]
  induction cs with
  | nil => rfl
  | cons c cs ih =>
    rw [cut, ih, List.splitOnP_cons_eq_if_modifyHead]
    by_cases hc : c = separator
    · simp [hc]
    · rw [if_neg hc, if_neg (by simpa using hc)]
      obtain ⟨piece, pieces, hcut⟩ := List.exists_cons_of_ne_nil (List.splitOnP_ne_nil (· == separator) cs)
      rw [hcut]
      rfl

theorem cut_intercalate {separator : Char} {pieces : List (List Char)}
    (h : ∀ piece ∈ pieces, separator ∉ piece) (hne : pieces ≠ []) :
    cut separator ([separator].intercalate pieces) = pieces := by
  rw [cut_eq_splitOn, List.splitOn_intercalate separator h hne]

theorem intercalate_cut (separator : Char) (cs : List Char) :
    [separator].intercalate (cut separator cs) = cs := by
  rw [cut_eq_splitOn, List.intercalate_splitOn]

theorem length_cut (separator : Char) (cs : List Char) :
    (cut separator cs).length = cs.count separator + 1 := by
  fun_induction cut separator cs with
  | case1 => rfl
  | case2 cs ih => simp [ih]
  | case3 c cs hc hcut => exact absurd hcut (cut_ne_nil separator cs)
  | case4 c cs hc piece pieces hcut ih =>
    rw [hcut] at ih
    rw [List.count_cons_of_ne hc, ← ih]
    rfl

theorem notMem_of_mem_cut {separator : Char} {cs piece : List Char} (h : piece ∈ cut separator cs) :
    separator ∉ piece := by
  fun_induction cut separator cs generalizing piece with
  | case1 => simp_all
  | case2 cs ih =>
    rcases List.mem_cons.1 h with rfl | h
    · simp
    · exact ih h
  | case3 c cs hc hcut => exact absurd hcut (cut_ne_nil separator cs)
  | case4 c cs hc first pieces hcut ih =>
    rw [hcut] at ih
    rcases List.mem_cons.1 h with rfl | h
    · have hfirst := ih List.mem_cons_self
      simp [hfirst, Ne.symm hc]
    · exact ih (List.mem_cons_of_mem _ h)

theorem cut_append (separator : Char) (xs ys : List Char) :
    cut separator (xs ++ separator :: ys) = cut separator xs ++ cut separator ys := by
  induction xs with
  | nil => simp [cut]
  | cons c xs ih =>
    rw [List.cons_append, cut, cut, ih]
    by_cases hc : c = separator
    · simp [hc]
    · obtain ⟨piece, pieces, hcut⟩ := List.exists_cons_of_ne_nil (cut_ne_nil separator xs)
      simp [hc, hcut]

end MetricStream.Text
