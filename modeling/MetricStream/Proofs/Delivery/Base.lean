/-
Addresses below a base.

A base address resolves, and can be built on: it has no fragment, in which what
is appended would be lost, and no blank at its end. Series are submitted below
one, and so to the same service, with a target that ends with their path
(`IsBase.exists_read?`).
-/
import Mathlib.Data.List.DropRight
import Mathlib.Data.List.TakeWhile
import MetricStream.Client.Series
import MetricStream.Proofs.Text.Cut

namespace MetricStream

namespace Delivery.Url

/-! ## Targets -/

theorem exists_follow (front back followed : List (List Char)) :
    ∃ followed', follow followed (front ++ back) = follow followed' back := by
  induction front generalizing followed with
  | nil => exact ⟨followed, rfl⟩
  | cons segment front ih => exact ih _

/-- Segments that lead nowhere else and need no encoding are kept. -/
theorem follow_plain {segments : List (List Char)}
    (h : ∀ segment ∈ segments, isUp segment = false ∧ isHere segment = false ∧
      segment.all inPath = true) (followed : List (List Char)) :
    follow followed segments = segments.reverse ++ followed := by
  induction segments generalizing followed with
  | nil => rfl
  | cons segment segments ih =>
    obtain ⟨⟨hup, hhere, hkept⟩, hrest⟩ := List.forall_mem_cons.1 h
    rw [follow, hup, hhere, Text.Percent.encode_kept (List.all_eq_true.1 hkept)]
    simpa using ih hrest (segment :: followed)

/-- The segments of the path of series. -/
def seriesSegments : List (List Char) := ["api".toList, "v1".toList, "series".toList]

theorem seriesPath_eq : SeriesClient.seriesPath.toList = seriesSegments.flatMap ('/' :: ·) := by
  decide +kernel

theorem cut_seriesPath (cs : List Char) :
    Text.cut '/' ((cs ++ SeriesClient.seriesPath.toList).map upright) =
      Text.cut '/' (cs.map upright) ++ seriesSegments := by
  have hpath : SeriesClient.seriesPath.toList.map upright = '/' :: "api/v1/series".toList := by
    decide +kernel
  have hcut : Text.cut '/' "api/v1/series".toList = seriesSegments := by decide +kernel
  rw [List.map_append, hpath, Text.cut_append, hcut]

theorem exists_path (cs : List Char) :
    ∃ before, path (cs ++ SeriesClient.seriesPath.toList) = before ++ SeriesClient.seriesPath.toList := by
  obtain ⟨front, hfront⟩ : ∃ front,
      path (cs ++ SeriesClient.seriesPath.toList) =
        (follow [] (front ++ seriesSegments)).reverse.flatMap ('/' :: ·) := by
    obtain ⟨piece, pieces, hcut⟩ :=
      List.exists_cons_of_ne_nil (Text.cut_ne_nil '/' (cs.map upright))
    rw [path, cut_seriesPath, hcut, List.cons_append]
    split
    · exact ⟨pieces, rfl⟩
    · exact ⟨piece :: pieces, rfl⟩
  obtain ⟨followed, hfollowed⟩ := exists_follow front seriesSegments []
  have hplain : ∀ segment ∈ seriesSegments, isUp segment = false ∧ isHere segment = false ∧
      segment.all inPath = true := by decide +kernel
  refine ⟨followed.reverse.flatMap ('/' :: ·), ?_⟩
  rw [hfront, hfollowed, follow_plain hplain, List.reverse_append, List.reverse_reverse,
    List.flatMap_append, seriesPath_eq]

/-- The path of series ends each target that it is appended to, unless that has
a fragment. -/
theorem exists_targetOf {cs : List Char} (hcs : '#' ∉ cs) :
    ∃ before, targetOf (cs ++ SeriesClient.seriesPath.toList) =
      before ++ SeriesClient.seriesPath.toList := by
  have hwhole : ∀ c ∈ cs ++ SeriesClient.seriesPath.toList, decide (c ≠ '#') = true := by
    have hpath : '#' ∉ SeriesClient.seriesPath.toList := by decide +kernel
    intro c hc
    rcases List.mem_append.1 hc with hc | hc
    · exact decide_eq_true fun he => hcs (he ▸ hc)
    · exact decide_eq_true fun he => hpath (he ▸ hc)
  have hpath : SeriesClient.seriesPath.toList.dropWhile (· ≠ '?') = [] := by decide +kernel
  rw [targetOf, List.takeWhile_eq_self_iff.2 hwhole, List.dropWhile_append]
  rcases cs.dropWhile (· ≠ '?') with _ | ⟨mark, query⟩
  · rw [List.isEmpty_nil, if_pos rfl, hpath]
    exact exists_path cs
  · have hkept : Text.Percent.encode inQuery SeriesClient.seriesPath.toList =
        SeriesClient.seriesPath.toList := by decide +kernel
    rw [List.isEmpty_cons, if_neg Bool.false_ne_true, List.cons_append]
    dsimp only
    rw [Text.Percent.encode_append, hkept, ← List.cons_append, ← List.append_assoc]
    exact ⟨_, rfl⟩

/-! ## Parts -/

theorem length_takeWhile_ne {α : Type} {p : α → Bool} {x : α} {xs ys : List α}
    (h : xs.dropWhile p = x :: ys) : (xs.takeWhile p).length ≠ xs.length := by
  have hwhole := congrArg List.length (List.takeWhile_append_dropWhile (p := p) (l := xs))
  rw [h, List.length_append, List.length_cons] at hwhole
  omega

/-- What is appended after an authority is part of the rest. -/
theorem parts?_append {cs ys : List Char} {p : Parts} (h : parts? cs = some p)
    (hp : p.authority ≠ []) (hys : ∀ c ∈ ys.head?, inAuthority c = false) :
    parts? (cs ++ ys) = some { p with rest := p.rest ++ ys } := by
  unfold parts? at h
  split at h
  · cases h
  next mark more hmore =>
  obtain rfl := Option.some.inj h
  obtain ⟨first, place, hplace⟩ : ∃ first place, more.dropWhile isSlash = first :: place :=
    List.exists_cons_of_ne_nil fun hnil => hp (by simp [hnil])
  have hrest : ys.takeWhile inAuthority = [] ∧ ys.dropWhile inAuthority = ys := by
    cases ys with
    | nil => exact ⟨rfl, rfl⟩
    | cons y ys => simp [hys y rfl]
  have hcolon : (cs ++ ys).dropWhile (· ≠ ':') = mark :: (more ++ ys) := by
    rw [List.dropWhile_append, hmore]
    rfl
  have hslash : (more ++ ys).dropWhile isSlash = first :: place ++ ys := by
    rw [List.dropWhile_append, hplace]
    rfl
  have hauthority : (first :: place ++ ys).takeWhile inAuthority =
      (first :: place).takeWhile inAuthority := by
    rw [List.takeWhile_append, hrest.1, List.append_nil]
    split
    · next hlength => exact ((List.takeWhile_prefix _).eq_of_length hlength).symm
    · rfl
  have hafter : (first :: place ++ ys).dropWhile inAuthority =
      (first :: place).dropWhile inAuthority ++ ys := by
    rw [List.dropWhile_append, hrest.2]
    split
    · next hnil => rw [List.isEmpty_iff.1 hnil, List.nil_append]
    · rfl
  rw [parts?, hcolon]
  dsimp only
  rw [hslash, hplace, hauthority, hafter, List.takeWhile_append, if_neg (length_takeWhile_ne hmore)]

theorem exists_parts? {cs ys : List Char} {p : Parts} (h : parts? (cs ++ ys) = some p)
    (hp : p.authority ≠ []) (hys : ∀ c ∈ ys, c = '/') :
    ∃ q, parts? cs = some q ∧ q.authority ≠ [] := by
  have hcolon : ys.dropWhile (· ≠ ':') = [] :=
    List.dropWhile_eq_nil_iff.2 fun c hc => by simp [hys c hc]
  have hslash : ys.dropWhile isSlash = [] :=
    List.dropWhile_eq_nil_iff.2 fun c hc => by simp [hys c hc, isSlash]
  rw [parts?, List.dropWhile_append] at h
  rcases hmore : cs.dropWhile (· ≠ ':') with _ | ⟨mark, more⟩
  · rw [hmore, List.isEmpty_nil, if_pos rfl, hcolon] at h
    cases h
  rw [parts?, hmore]
  refine ⟨_, rfl, fun hnil => hp ?_⟩
  rw [hmore] at h
  obtain rfl := Option.some.inj h
  show ((more ++ ys).dropWhile isSlash).takeWhile inAuthority = []
  dsimp only at hnil
  rw [List.dropWhile_append]
  -- Where the slashes hide an authority, it is there without them.
  rcases hplace : more.dropWhile isSlash with _ | ⟨first, place⟩
  · simp [hslash]
  · rw [hplace] at hnil
    have hfirst : inAuthority first = false := by
      by_contra hin
      simp [hin] at hnil
    simp [hfirst]

/-! ## Addresses -/

theorem ofParts?_rest (plainName : String → Option String) (p : Parts) (rest : List Char) :
    ofParts? plainName { p with rest } =
      (ofParts? plainName p).map fun url => { url with target := String.ofList (targetOf rest) } := by
  simp only [ofParts?, Option.bind_eq_bind, Option.map_bind, Function.comp_def, Option.map_some]

theorem authority_ne_nil {plainName : String → Option String} {p : Parts} {url : Url}
    (h : ofParts? plainName p = some url) : p.authority ≠ [] := by
  intro hnil
  have hspelled : Host.spelled? plainName [] = some [] := rfl
  have hhost : Host.read? plainName [] = none := by
    rw [Host.read?, Text.Percent.decode, Text.Octets.decodeLossy, hspelled]
    · rfl
    · intro rest hrest
      cases hrest
  rw [ofParts?, hnil] at h
  simp [splitUser, splitService, hhost] at h

/-- What is ignored where an address is not cut. -/
def isKept (c : Char) : Bool := c ≠ '\t' && c ≠ '\n' && c ≠ '\r'

/-- A text that does not end in a blank loses blanks at its front only. -/
theorem cleaned_append {cs ys : List Char} (hcs : cs.dropWhile isControlOrSpace ≠ [])
    (hlast : (cs ++ ys).getLast?.any isControlOrSpace = false) :
    cleaned (cs ++ ys) = (cs.dropWhile isControlOrSpace).filter isKept ++ ys.filter isKept := by
  have hstart : (cs ++ ys).dropWhile isControlOrSpace = cs.dropWhile isControlOrSpace ++ ys := by
    rw [List.dropWhile_append, if_neg (by simpa using hcs)]
  have hend : List.rdropWhile isControlOrSpace (cs.dropWhile isControlOrSpace ++ ys) =
      cs.dropWhile isControlOrSpace ++ ys := by
    refine List.rdropWhile_eq_self_iff.2 fun hne => ?_
    rw [Bool.not_eq_true]
    rwa [← List.takeWhile_append_dropWhile (p := isControlOrSpace) (l := cs ++ ys), hstart,
      List.getLast?_append_of_ne_nil _ hne, List.getLast?_eq_some_getLast hne, Option.any_some] at hlast
  rw [cleaned, hstart, ← List.filter_append]
  exact congrArg (List.filter isKept) hend

theorem mem_of_mem_cleaned {cs : List Char} {c : Char} (h : c ∈ cleaned cs) : c ∈ cs := by
  have hend := List.mem_reverse.1 (List.mem_filter.1 h).1
  have hstart := List.mem_reverse.1 ((List.dropWhile_sublist _).mem hend)
  exact (List.dropWhile_sublist _).mem hstart

theorem colon_mem {cs : List Char} {p : Parts} (h : parts? cs = some p) : ':' ∈ cs := by
  by_contra hnot
  have hnone : cs.dropWhile (· ≠ ':') = [] :=
    List.dropWhile_eq_nil_iff.2 fun c hc => decide_eq_true fun he => hnot (he ▸ hc)
  rw [parts?, hnone] at h
  cases h

theorem rest_subset {cs : List Char} {p : Parts} (h : parts? cs = some p) : p.rest ⊆ cs := by
  unfold parts? at h
  split at h
  · cases h
  next mark more hmore =>
  obtain rfl := Option.some.inj h
  intro c hc
  have hc := (List.dropWhile_sublist _).mem ((List.dropWhile_sublist _).mem hc)
  refine (List.dropWhile_sublist (p := (· ≠ ':'))).mem ?_
  rw [hmore]
  exact List.mem_cons_of_mem mark hc

/-- An address to build on: it resolves, it has no fragment, and no blank ends
it. -/
structure IsBase (plainName : String → Option String) (text : String) (url : Url) : Prop where
  read : read? plainName text = some url
  fragment : '#' ∉ text.toList
  ends : text.toList.getLast?.any isControlOrSpace = false

theorem exists_seriesAddress (text : String) :
    ∃ cs slashes, text.toList = cs ++ slashes ∧ (∀ c ∈ slashes, c = '/') ∧
      (SeriesClient.seriesAddress text).toList = cs ++ SeriesClient.seriesPath.toList := by
  refine ⟨(text.toList.reverse.dropWhile (· == '/')).reverse,
    (text.toList.reverse.takeWhile (· == '/')).reverse, ?_, ?_, ?_⟩
  · rw [← List.reverse_append, List.takeWhile_append_dropWhile, List.reverse_reverse]
  · exact fun c hc => by simpa using List.mem_takeWhile_imp (List.mem_reverse.1 hc)
  · rw [SeriesClient.seriesAddress, String.toList_append, String.toList_ofList]

/-- The slashes at the end of a base go; all else that counts of it stays in front
of the path. -/
theorem IsBase.exists_cleaned {plainName : String → Option String} {text : String} {url : Url}
    (h : IsBase plainName text url) :
    ∃ cs slashes, cleaned text.toList = cs ++ slashes ∧ (∀ c ∈ slashes, c = '/') ∧
      cleaned (SeriesClient.seriesAddress text).toList = cs ++ SeriesClient.seriesPath.toList ∧
      cs ⊆ text.toList := by
  obtain ⟨cs, slashes, htext, hslashes, haddress⟩ := exists_seriesAddress text
  have hcs : cs.dropWhile isControlOrSpace ≠ [] := by
    intro hnil
    obtain ⟨p, hp, -⟩ := Option.bind_eq_some_iff.1 h.read
    have hcolon := mem_of_mem_cleaned (colon_mem hp)
    rw [htext, List.mem_append] at hcolon
    rcases hcolon with hcolon | hcolon
    · exact absurd (List.dropWhile_eq_nil_iff.1 hnil ':' hcolon) (by decide)
    · exact absurd (hslashes ':' hcolon) (by decide)
  refine ⟨(cs.dropWhile isControlOrSpace).filter isKept, slashes, ?_, hslashes, ?_, ?_⟩
  · have hkept : slashes.filter isKept = slashes :=
      List.filter_eq_self.2 fun c hc => by rw [hslashes c hc]; rfl
    rw [htext, cleaned_append hcs (htext ▸ h.ends), hkept]
  · have hkept : SeriesClient.seriesPath.toList.filter isKept = SeriesClient.seriesPath.toList := by
      decide +kernel
    have hlast : SeriesClient.seriesPath.toList.getLast? = some 's' := by decide +kernel
    rw [haddress, cleaned_append hcs, hkept]
    rw [List.getLast?_append, hlast]
    rfl
  · intro c hc
    rw [htext]
    exact List.mem_append_left _ ((List.dropWhile_sublist _).mem (List.mem_filter.1 hc).1)

/-- **Series are submitted below the base**: to its host and service, with its
credentials, and with a target that ends with the path of series. -/
theorem IsBase.exists_read? {plainName : String → Option String} {text : String} {url : Url}
    (h : IsBase plainName text url) :
    ∃ before, read? plainName (SeriesClient.seriesAddress text) =
      some { url with target := before ++ SeriesClient.seriesPath } := by
  obtain ⟨cs, slashes, hbase, hslashes, hseries, hsub⟩ := h.exists_cleaned
  obtain ⟨q, hq, hurl⟩ := Option.bind_eq_some_iff.1 h.read
  rw [hbase] at hq
  obtain ⟨p, hp, hauthority⟩ := exists_parts? hq (authority_ne_nil hurl) hslashes
  have hq' : parts? (cs ++ slashes) = some { p with rest := p.rest ++ slashes } :=
    parts?_append hp hauthority fun c hc => by
      rw [hslashes c (List.mem_of_mem_head? hc)]
      rfl
  have hp' : parts? (cs ++ SeriesClient.seriesPath.toList) =
      some { p with rest := p.rest ++ SeriesClient.seriesPath.toList } := by
    have hhead : SeriesClient.seriesPath.toList.head? = some '/' := by decide +kernel
    refine parts?_append hp hauthority fun c hc => ?_
    obtain rfl := Option.some.inj (hhead.symm.trans hc)
    rfl
  rw [hq, Option.some.injEq] at hq'
  rw [hq', ofParts?_rest, Option.map_eq_some_iff] at hurl
  obtain ⟨url', hurl', rfl⟩ := hurl
  have hfragment : '#' ∉ p.rest := fun hmem => h.fragment (hsub (rest_subset hp hmem))
  obtain ⟨before, htarget⟩ := exists_targetOf hfragment
  refine ⟨String.ofList before, ?_⟩
  rw [read?, hseries, hp', Option.bind_some, ofParts?_rest, hurl', Option.map_some, htarget]
  simp [String.ofList_append]

/-- Where series are submitted, given a base: the address resolves to it, and it
is below the base, if that can be built on. -/
structure TakesSeries (plainName : String → Option String) (text : String) (url : Url) : Prop where
  resolves : read? plainName (SeriesClient.seriesAddress text) = some url
  below : ∀ base, IsBase plainName text base →
    ∃ before, url = { base with target := before ++ "/api/v1/series" }

theorem takesSeries_of_read? {plainName : String → Option String} {text : String} {url : Url}
    (h : read? plainName (SeriesClient.seriesAddress text) = some url) :
    TakesSeries plainName text url := by
  refine ⟨h, fun base hbase => ?_⟩
  obtain ⟨before, hread⟩ := hbase.exists_read?
  exact ⟨before, Option.some.inj (h.symm.trans hread)⟩

/-- A path in the base, and slashes at its end. -/
example : read? (fun _ => none) (SeriesClient.seriesAddress "http://h/p//") =
    some ⟨false, "h", 80, "/p/api/v1/series", none⟩ := by decide +kernel

end Delivery.Url

end MetricStream
