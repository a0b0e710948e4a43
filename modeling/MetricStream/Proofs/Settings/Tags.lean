/-
Tags as they are typed, and as they are read.

A text is cut at its commas, and each piece loses the blanks at its ends. So
there is one tag more than there are commas, none of them holds a comma, and
trimming a tag again changes nothing. Tags that are joined by commas, whatever
blanks stand around them, are read back as they are; only one empty tag with
nothing around it cannot be told from no tags (`tags_are_pieces`).
-/
import Mathlib.Data.List.Basic
import Mathlib.Data.List.TakeWhile
import MetricStream.Context
import MetricStream.Proofs.Text.Cut

namespace MetricStream

namespace Text

/-! ## Blanks at the ends -/

/-- Nothing but blanks. -/
def Blank (cs : List Char) : Prop := ∀ c ∈ cs, isBlank c = true

instance (cs : List Char) : Decidable (Blank cs) := List.decidableBAll (fun c => isBlank c = true) cs

theorem trimEnd_append_blank {after : List Char} (h : Blank after) (cs : List Char) :
    trimEnd (cs ++ after) = trimEnd cs := by
  rw [trimEnd, List.reverse_append, List.dropWhile_append_of_pos, trimEnd]
  intro c hc
  exact h c (List.mem_reverse.1 hc)

theorem trim_blank {cs : List Char} (h : Blank cs) : trim cs = [] := by
  rw [trim, trimStart, List.dropWhile_eq_nil_iff.2 h]
  rfl

theorem trim_pad {before after : List Char} (hbefore : Blank before) (hafter : Blank after)
    (cs : List Char) : trim (before ++ cs ++ after) = trim cs := by
  by_cases hcs : Blank cs
  · have hall : Blank (before ++ cs ++ after) := by
      intro c hc
      rw [List.mem_append, List.mem_append] at hc
      rcases hc with (hc | hc) | hc
      · exact hbefore c hc
      · exact hcs c hc
      · exact hafter c hc
    rw [trim_blank hall, trim_blank hcs]
  · have hstart : ¬ (cs.dropWhile isBlank).isEmpty = true := fun h =>
      hcs (List.dropWhile_eq_nil_iff.1 (List.isEmpty_iff.1 h))
    have hrest : trimStart (before ++ cs ++ after) = trimStart cs ++ after := by
      rw [List.append_assoc, trimStart, List.dropWhile_append_of_pos hbefore, List.dropWhile_append,
        if_neg hstart, trimStart]
    rw [trim, hrest, trimEnd_append_blank hafter, trim]

theorem exists_pad (cs : List Char) :
    ∃ before after, Blank before ∧ Blank after ∧ cs = before ++ trim cs ++ after := by
  refine ⟨cs.takeWhile isBlank, ((trimStart cs).reverse.takeWhile isBlank).reverse, ?_, ?_, ?_⟩
  · intro c hc
    exact List.mem_takeWhile_imp hc
  · intro c hc
    exact List.mem_takeWhile_imp (List.mem_reverse.1 hc)
  · have hend : trim cs ++ ((trimStart cs).reverse.takeWhile isBlank).reverse = trimStart cs := by
      rw [trim, trimEnd, ← List.reverse_append, List.takeWhile_append_dropWhile, List.reverse_reverse]
    rw [List.append_assoc, hend, trimStart, List.takeWhile_append_dropWhile]

theorem trim_trim (cs : List Char) : trim (trim cs) = trim cs := by
  obtain ⟨before, after, hbefore, hafter, hcs⟩ := exists_pad cs
  calc trim (trim cs) = trim (before ++ trim cs ++ after) := (trim_pad hbefore hafter _).symm
    _ = trim cs := by rw [← hcs]

theorem mem_of_mem_trim {c : Char} {cs : List Char} (h : c ∈ trim cs) : c ∈ cs := by
  obtain ⟨before, after, -, -, hcs⟩ := exists_pad cs
  rw [hcs]
  exact List.mem_append_left _ (List.mem_append_right _ h)

end Text

/-! ## Tags -/

/-- A tag with blanks around it. It holds no comma, and no blank at its ends. -/
structure PaddedTag where
  before : String
  tag : String
  after : String
  before_blank : Text.Blank before.toList
  after_blank : Text.Blank after.toList
  tag_whole : ',' ∉ tag.toList
  tag_trimmed : Text.trim tag.toList = tag.toList

namespace PaddedTag

/-- The tag as it is typed. -/
def text (p : PaddedTag) : String := p.before ++ p.tag ++ p.after

theorem comma_notMem_text (p : PaddedTag) : ',' ∉ p.text.toList := by
  have hblank : Text.isBlank ',' = false := by decide
  have hnot {cs : List Char} (h : Text.Blank cs) : ',' ∉ cs := by
    intro hmem
    rw [h ',' hmem] at hblank
    cases hblank
  simp only [text, String.toList_append, List.mem_append, not_or]
  exact ⟨⟨hnot p.before_blank, p.tag_whole⟩, hnot p.after_blank⟩

theorem exists_text {piece : List Char} (h : ',' ∉ piece) :
    ∃ p : PaddedTag, p.text.toList = piece ∧ p.tag = String.ofList (Text.trim piece) := by
  obtain ⟨before, after, hbefore, hafter, hpiece⟩ := Text.exists_pad piece
  refine ⟨⟨.ofList before, .ofList (Text.trim piece), .ofList after, ?_, ?_, ?_, ?_⟩, ?_, rfl⟩
  · rwa [String.toList_ofList]
  · rwa [String.toList_ofList]
  · rw [String.toList_ofList]
    exact fun hmem => h (Text.mem_of_mem_trim hmem)
  · rw [String.toList_ofList, Text.trim_trim]
  · simpa [text] using hpiece.symm

theorem trim_text (p : PaddedTag) : Text.trim p.text.toList = p.tag.toList := by
  rw [text, String.toList_append, String.toList_append, Text.trim_pad p.before_blank p.after_blank,
    p.tag_trimmed]

end PaddedTag

theorem readTags_of_ne {typed : String} (h : typed ≠ "") :
    readTags typed = (Text.cut ',' typed.toList).map fun tag => String.ofList (Text.trim tag) := by
  rw [readTags, if_neg]
  intro hnil
  exact h (String.toList_eq_nil_iff.1 hnil)

theorem cut_joined {padded : List PaddedTag} (hne : padded ≠ []) :
    Text.cut ',' (",".intercalate (padded.map PaddedTag.text)).toList =
      padded.map (·.text.toList) := by
  rw [String.toList_intercalate, List.map_map]
  refine Text.cut_intercalate ?_ (by simpa using hne)
  intro piece hpiece
  obtain ⟨p, -, rfl⟩ := List.mem_map.1 hpiece
  exact p.comma_notMem_text

theorem readTags_joined {padded : List PaddedTag} (hne : padded ≠ [])
    (htext : padded.map PaddedTag.text ≠ [""]) :
    readTags (",".intercalate (padded.map PaddedTag.text)) = padded.map PaddedTag.tag := by
  have hpieces := cut_joined hne
  have hjoined : ",".intercalate (padded.map PaddedTag.text) ≠ "" := by
    intro hempty
    rw [hempty] at hpieces
    -- The empty text is a single piece, so it is the text of the only tag.
    have htexts : (padded.map PaddedTag.text).map String.toList = [""].map String.toList := by
      rw [List.map_map]
      exact hpieces.symm
    exact htext (List.map_injective_iff.2 (fun _ _ => String.toList_injective) htexts)
  rw [readTags_of_ne hjoined, hpieces, List.map_map]
  refine List.map_congr_left fun p _ => ?_
  rw [Function.comp_apply, p.trim_text, String.ofList_toList]

/-- Every text but the empty one is tags that are joined. -/
theorem exists_joined {typed : String} (h : typed ≠ "") :
    ∃ padded : List PaddedTag, padded ≠ [] ∧ typed = ",".intercalate (padded.map PaddedTag.text) ∧
      readTags typed = padded.map PaddedTag.tag := by
  have hpadded : ∀ pieces : List (List Char), (∀ piece ∈ pieces, ',' ∉ piece) →
      ∃ padded : List PaddedTag, padded.map (·.text.toList) = pieces ∧
        padded.map PaddedTag.tag = pieces.map fun tag => String.ofList (Text.trim tag) := by
    intro pieces hpieces
    induction pieces with
    | nil => exact ⟨[], rfl, rfl⟩
    | cons piece pieces ih =>
      rw [List.forall_mem_cons] at hpieces
      obtain ⟨p, htext, htag⟩ := PaddedTag.exists_text hpieces.1
      obtain ⟨padded, htexts, htags⟩ := ih hpieces.2
      exact ⟨p :: padded, by rw [List.map_cons, htext, htexts], by rw [List.map_cons, htag, htags]; rfl⟩
  obtain ⟨padded, htexts, htags⟩ := hpadded (Text.cut ',' typed.toList) fun _ => Text.notMem_of_mem_cut
  refine ⟨padded, ?_, String.toList_injective ?_, by rw [readTags_of_ne h, htags]⟩
  · rintro rfl
    exact Text.cut_ne_nil ',' typed.toList htexts.symm
  · rw [String.toList_intercalate, List.map_map]
    show _ = List.intercalate [','] (padded.map (·.text.toList))
    rw [htexts, Text.intercalate_cut]

/-- **Tags are the pieces between the commas**, trimmed. An empty text has no
tags, and any other has one more than it has commas; none holds a comma, or a
blank at an end. Tags that are joined are read back in their order, with those
that are empty or repeated, whatever blanks are put around each. Only one empty
tag without blanks is typed as no text at all. -/
theorem tags_are_pieces :
    (∀ typed, readTags typed = [] ↔ typed = "") ∧
    (∀ typed, typed ≠ "" → (readTags typed).length = typed.toList.count ',' + 1) ∧
    (∀ typed, ∀ tag ∈ readTags typed, ',' ∉ tag.toList ∧ Text.trim tag.toList = tag.toList) ∧
    (∀ padded : List PaddedTag, padded ≠ [] → padded.map PaddedTag.text ≠ [""] →
      readTags (",".intercalate (padded.map PaddedTag.text)) = padded.map PaddedTag.tag) := by
  refine ⟨fun typed => ?_, fun typed h => ?_, fun typed tag htag => ?_, fun padded => readTags_joined⟩
  · constructor
    · intro h
      by_contra hne
      rw [readTags_of_ne hne, List.map_eq_nil_iff] at h
      exact Text.cut_ne_nil _ _ h
    · rintro rfl
      rfl
  · rw [readTags_of_ne h, List.length_map, Text.length_cut]
  · have hne : typed ≠ "" := by
      rintro rfl
      cases htag
    rw [readTags_of_ne hne] at htag
    obtain ⟨piece, hpiece, rfl⟩ := List.mem_map.1 htag
    rw [String.toList_ofList]
    exact ⟨fun hmem => Text.notMem_of_mem_cut hpiece (Text.mem_of_mem_trim hmem), Text.trim_trim piece⟩

/-- A repeated tag, an empty one between blanks, one with a blank inside, and
blanks of more than one kind. -/
theorem tags_are_pieces_repeated :
    let padded : List PaddedTag :=
      [⟨" ", "env:prod", "", by decide, by decide, by decide, by decide⟩,
        ⟨"", "", "\t ", by decide, by decide, by decide, by decide⟩,
        ⟨"\u3000", "a b", "\u00a0", by decide, by decide, by decide, by decide⟩,
        ⟨"", "env:prod", "", by decide, by decide, by decide, by decide⟩]
    padded ≠ [] ∧ padded.map PaddedTag.text ≠ [""] ∧
    ",".intercalate (padded.map PaddedTag.text) = " env:prod,\t ,\u3000a b\u00a0,env:prod" ∧
    readTags " env:prod,\t ,\u3000a b\u00a0,env:prod" = ["env:prod", "", "a b", "env:prod"] ∧
    (readTags " env:prod,\t ,\u3000a b\u00a0,env:prod").length = 3 + 1 := by
  intro padded
  have hne : padded ≠ [] := by simp [padded]
  have htext : padded.map PaddedTag.text ≠ [""] := by decide
  have hjoined : ",".intercalate (padded.map PaddedTag.text) =
      " env:prod,\t ,\u3000a b\u00a0,env:prod" := by decide +kernel
  obtain ⟨-, hlength, -, hread⟩ := tags_are_pieces
  refine ⟨hne, htext, hjoined, ?_, hlength _ (by decide)⟩
  rw [← hjoined]
  exact hread padded hne htext

end MetricStream
