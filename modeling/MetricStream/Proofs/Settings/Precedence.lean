/-
Which source settles what.

Namespace, tags, host and address can come from several places, and each comes
from the highest-ranked one that gives it, an empty text included
(`highest_source_decides`). So a lower-ranked one may say anything, and a
value may be moved from the file to the command line where it stands alone. Only
the host may be given by none, where the machine's own name cannot be told, and
then there are no settings.
-/
import Mathlib.Data.Nat.Find
import MetricStream.Program
import MetricStream.Proofs.CommandLine.Insertion
import MetricStream.Proofs.Settings.Tags

namespace MetricStream

open CommandLine (Given)

namespace Settings

/-! ## Sources -/

/-- What several sources can settle. -/
inductive Field where
  | scope
  | tags
  | host
  | apiUrl
deriving DecidableEq

/-- A place that values come from, the highest-ranked first. -/
inductive Source where
  | option
  | environment
  | file
  | fallback
deriving DecidableEq

/-- How many sources rank higher. -/
def Source.rank : Source → Nat
  | .option => 0
  | .environment => 1
  | .file => 2
  | .fallback => 3

namespace Field

/-- The option that gives it. -/
def parameter : Field → CommandLine.Parameter
  | .scope => .scope
  | .tags => .tags
  | .host => .host
  | .apiUrl => .apiUrl

/-- The environment has the address only. -/
def inEnvironment (env : Environment) : Field → Option String
  | .apiUrl => env.apiUrl
  | _ => none

def inFile (file : Config) : Field → Option String
  | .scope => file.scope
  | .tags => file.tags
  | .host => file.host
  | .apiUrl => file.delivery.apiUrl

/-- What holds if nothing is given. The machine's own name may be none. -/
def fallback? (localHost : LocalHost) : Field → Option String
  | .scope => some ""
  | .tags => some ""
  | .host => localHost.read.toOption
  | .apiUrl => some DeliveryOptions.default.apiUrl

def putEnvironment (env : Environment) (v : Option String) : Field → Environment
  | .apiUrl => { env with apiUrl := v }
  | _ => env

def putFile (file : Config) (v : Option String) : Field → Config
  | .scope => { file with scope := v }
  | .tags => { file with tags := v }
  | .host => { file with host := v }
  | .apiUrl => { file with delivery := { file.delivery with apiUrl := v } }

/-- The settings have it from this text: the host and the address as they are,
the namespace closed by a separator, and the tags between the commas. -/
def Shows (t : Settings) (v : String) : Field → Prop
  | .scope => t.context.scope.text = if v = "" ∨ v.toList.getLast? = some '.' then v else v ++ "."
  | .tags =>
    if v = "" then t.context.tags = []
    else ∃ padded : List PaddedTag, padded ≠ [] ∧ v = ",".intercalate (padded.map PaddedTag.text) ∧
      t.context.tags = padded.map PaddedTag.tag
  | .host => t.host = v
  | .apiUrl => t.delivery.apiUrl = v

end Field

/-- All that settings are made of. -/
structure Sources where
  args : List String
  environment : Environment
  file : Option Config
  localHost : LocalHost

namespace Sources

/-- The settings that come of the sources, if the command line can be read and
the host told. -/
def settle (s : Sources) : Except (CommandLine.Stop ⊕ HostError) Settings :=
  match CommandLine.read s.environment s.args with
  | .error stop => .error (.inl stop)
  | .ok line => (resolve line (s.file.getD .empty) s.localHost).mapError .inr

/-- The source gives the field this value: the options that the command line
starts with, a variable, a key of the file, or the program itself. -/
def Gives (s : Sources) (f : Field) : Source → String → Prop
  | .option, v => ∃ (given : List Given) (rest : List String),
      s.args = given.flatMap Given.args ++ rest ∧ .parameter f.parameter v ∈ given.map Given.setting
  | .environment, v => f.inEnvironment s.environment = some v
  | .file, v => ∃ file, s.file = some file ∧ f.inFile file = some v
  | .fallback, v => f.fallback? s.localHost = some v

/-- It is the highest-ranked source that gives the field a value. -/
def Decides (s : Sources) (f : Field) (source : Source) (v : String) : Prop :=
  s.Gives f source v ∧ ∀ higher, higher.rank < source.rank → ∀ v', ¬ s.Gives f higher v'

/-- The sources with another value of the field in one of them, or with none.
The options stay, and so does what is part of the program. -/
def put (s : Sources) (f : Field) (v : Option String) : Source → Sources
  | .option => s
  | .environment => { s with environment := f.putEnvironment s.environment v }
  | .file => { s with file := some (f.putFile (s.file.getD .empty) v) }
  | .fallback =>
    if f = .host then { s with localHost := v.elim (.error "") fun name => .ok name.toUTF8.toList } else s

end Sources

/-! ## Of one command line -/

namespace Field

/-- What a line that was read has of the field, the environment's part included. -/
def inLine (line : CommandLine) : Field → Option String
  | .scope => line.scope
  | .tags => line.tags
  | .host => line.host
  | .apiUrl => line.apiUrl

def putLine (line : CommandLine) (v : String) : Field → CommandLine
  | .scope => { line with scope := some v }
  | .tags => { line with tags := some v }
  | .host => { line with host := some v }
  | .apiUrl => { line with apiUrl := some v }

variable {f : Field} {line : CommandLine} {file : Config} {localHost : LocalHost} {v : String}

theorem inLine_finish (f : Field) (d : CommandLine.Draft) (env : Environment) (commands : List String) :
    f.inLine (d.finish env commands) = (d.value? f.parameter).or (f.inEnvironment env) := by
  cases f <;> simp [inLine, CommandLine.Draft.finish, parameter, inEnvironment]

theorem shows_scope (v : String) :
    (Namespace.ofText v).text = if v = "" ∨ v.toList.getLast? = some '.' then v else v ++ "." := by
  rw [Namespace.ofText]
  simp only [String.toList_eq_nil_iff]
  split
  · rfl
  · exact String.toList_injective (by simp [Namespace.separator])

theorem shows_withHost (h : ((f.inLine line).or (f.inFile file)).or (f.fallback? localHost) = some v)
    {host : String} (hhost : (line.host.or file.host).or localHost.read.toOption = some host) :
    f.Shows (withHost line file host) v := by
  cases f with
  | scope =>
    obtain rfl : (line.scope.or file.scope).getD "" = v := by
      simpa [inLine, inFile, fallback?, Option.or_some] using h
    exact shows_scope _
  | tags =>
    obtain rfl : (line.tags.or file.tags).getD "" = v := by
      simpa [inLine, inFile, fallback?, Option.or_some] using h
    rw [Shows]
    split
    · next hempty => exact congrArg readTags hempty
    · next hne => exact exists_joined hne
  | host => exact Option.some.inj (hhost.symm.trans h)
  | apiUrl => simpa [inLine, inFile, fallback?, Option.or_some, Shows, withHost] using h

theorem resolve_eq_ok_iff {t : Settings} :
    resolve line file localHost = .ok t ↔
      ∃ host, (line.host.or file.host).or localHost.read.toOption = some host ∧
        withHost line file host = t := by
  unfold resolve
  rcases line.host.or file.host with _ | host
  · rcases localHost.read with cause | host <;> simp [Except.map, Except.toOption]
  · simp

theorem resolve_eq_error_iff {cause : HostError} :
    resolve line file localHost = .error cause ↔
      line.host.or file.host = none ∧ localHost.read = .error cause := by
  unfold resolve
  rcases line.host.or file.host with _ | host
  · rcases localHost.read with cause' | host <;> simp [Except.map]
  · simp

/-- What the environment has of an option that is given does not count. -/
theorem finish_putEnvironment {d : CommandLine.Draft} (h : d.value? f.parameter = some v)
    (env : Environment) (new : Option String) (commands : List String) :
    d.finish (f.putEnvironment env new) commands = d.finish env commands := by
  cases f with
  | apiUrl => simp [CommandLine.Draft.finish, putEnvironment, show d.value? .apiUrl = some v from h]
  | _ => rfl

theorem resolve_congr {line' : CommandLine} {file' : Config}
    (hhost : line'.host.or file'.host = line.host.or file.host)
    (hrest : ∀ host, withHost line' file' host = withHost line file host) :
    resolve line' file' localHost = resolve line file localHost := by
  rw [resolve, resolve, hhost, funext hrest]

/-- What the file says of a field that the line has does not count. -/
theorem resolve_putFile (h : (f.inLine line).isSome = true) (v : Option String) :
    resolve line (f.putFile file v) localHost = resolve line file localHost := by
  obtain ⟨w, hw⟩ := Option.isSome_iff_exists.1 h
  refine resolve_congr ?_ fun host => ?_ <;> cases f <;> simp_all [inLine, putFile, withHost]

theorem resolve_localHost (h : ((Field.host.inLine line).or (Field.host.inFile file)).isSome = true)
    (localHost' : LocalHost) : resolve line file localHost' = resolve line file localHost := by
  obtain ⟨w, hw⟩ := Option.isSome_iff_exists.1 h
  have hhost : line.host.or file.host = some w := hw
  simp only [resolve, hhost]

theorem resolve_putLine (hline : f.inLine line = none) (hfile : f.inFile file = some v) :
    resolve (f.putLine line v) (f.putFile file none) localHost = resolve line file localHost := by
  refine resolve_congr ?_ fun host => ?_ <;> cases f <;>
    simp_all [inLine, inFile, putLine, putFile, withHost]

theorem finish_isWith {r' r : CommandLine.Draft} (h : r'.IsWith r (.parameter f.parameter v))
    (hnew : r.value? f.parameter = none) (env : Environment) (commands : List String) :
    r'.finish env commands = f.putLine (r.finish env commands) v := by
  have hflag : ∀ g, g ∈ r'.flags ↔ g ∈ r.flags := by simp [h.flag]
  have hvalue : ∀ p, r'.value? p = if p = f.parameter then some v else r.value? p := by
    intro p
    refine Option.ext fun w => ?_
    rw [h.value]
    split
    · next hp =>
      subst hp
      simp [hnew]
    · next hp => simp [Ne.symm hp]
  cases f <;> simp [CommandLine.Draft.finish, putLine, hflag, hvalue, parameter]

end Field

namespace Sources

variable {s : Sources} {t : Settings} {f : Field} {v : String} {d : CommandLine.Draft}
  {commands : List String}

theorem settle_eq (hread : CommandLine.readFrom .empty s.args = .ok (d, commands)) :
    s.settle = (resolve (d.finish s.environment commands) (s.file.getD .empty) s.localHost).mapError
      .inr := by
  rw [settle, CommandLine.read_eq_ok_iff.2 ⟨d, commands, hread, rfl⟩]

/-- The settings of a run come of its sources in this way, and so does its failure
to tell the host. -/
theorem settle_of_configuration {world : Program.Surroundings} {args : List String}
    {line : CommandLine} {file : Config}
    (hline : CommandLine.read world.environment args = .ok line)
    (hfile : Program.configuration line world = .ok file) :
    let settled := settle ⟨args, world.environment, some file, world.localHost⟩
    (∀ t logger, Program.prepare line world = .ok (t, logger) → settled = .ok t) ∧
    ∀ cause, Program.prepare line world = .error (.host cause) ↔ settled = .error (.inr cause) := by
  intro settled
  have hsettled : settled = (resolve line file world.localHost).mapError .inr := by
    show settle _ = _
    rw [settle, hline]
    rfl
  rw [hsettled]
  simp only [Program.prepare, hfile]
  rcases resolve line file world.localHost with cause | t
  · simp [Except.mapError]
  · dsimp only
    split <;> simp +contextual [Except.mapError]

/-- What a source has of the field, with the options read. -/
def value? (s : Sources) (d : CommandLine.Draft) (f : Field) : Source → Option String
  | .option => d.value? f.parameter
  | .environment => f.inEnvironment s.environment
  | .file => f.inFile (s.file.getD .empty)
  | .fallback => f.fallback? s.localHost

theorem gives_option_iff (hread : CommandLine.readFrom .empty s.args = .ok (d, commands)) :
    s.Gives f .option v ↔ d.value? f.parameter = some v := by
  have hempty (p : CommandLine.Parameter) : CommandLine.Draft.empty.value? p = none := rfl
  constructor
  · intro ⟨given, rest, hargs, hmem⟩
    rw [hargs] at hread
    obtain ⟨d₁, hadd, hrest⟩ := CommandLine.settings_of_readFrom hread
    obtain ⟨options, hreads, -⟩ := CommandLine.readFrom_eq_ok_iff.1 hrest
    obtain ⟨more, -, hmore⟩ := hreads.exists_given
    rw [CommandLine.Draft.value?_addAll hmore, CommandLine.Draft.value?_addAll hadd]
    exact .inr (.inl hmem)
  · intro h
    obtain ⟨options, hreads, hargs⟩ := CommandLine.readFrom_eq_ok_iff.1 hread
    obtain ⟨given, rfl, hadd⟩ := hreads.exists_given
    rw [CommandLine.Draft.value?_addAll hadd, hempty] at h
    rcases hargs with ⟨hargs, -⟩ | hargs
    · exact ⟨given, _, hargs, h.resolve_right nofun⟩
    · exact ⟨given, _, hargs, h.resolve_right nofun⟩

theorem gives_iff (hread : CommandLine.readFrom .empty s.args = .ok (d, commands)) {source : Source} :
    s.Gives f source v ↔ s.value? d f source = some v := by
  cases source with
  | option => exact gives_option_iff hread
  | environment => exact .rfl
  | file =>
    rw [value?]
    cases hfile : s.file with
    | none => cases f <;> simp [Gives, hfile, Field.inFile, Config.empty, DeliverySection.empty]
    | some file => simp [Gives, hfile]
  | fallback => exact .rfl

theorem value?_of_decides (hread : CommandLine.readFrom .empty s.args = .ok (d, commands))
    {source : Source} (h : s.Decides f source v) :
    s.value? d f source = some v ∧
      ∀ higher : Source, higher.rank < source.rank → s.value? d f higher = none := by
  refine ⟨(gives_iff hread).1 h.1, fun higher hrank => ?_⟩
  exact Option.eq_none_iff_forall_ne_some.2 fun w hw => h.2 higher hrank w ((gives_iff hread).2 hw)

theorem value?_resolved (s : Sources) (d : CommandLine.Draft) (f : Field) (commands : List String) :
    ((f.inLine (d.finish s.environment commands)).or (f.inFile (s.file.getD .empty))).or
        (f.fallback? s.localHost) =
      (((s.value? d f .option).or (s.value? d f .environment)).or (s.value? d f .file)).or
        (s.value? d f .fallback) := by
  rw [Field.inLine_finish]
  rfl

theorem value?_first (hread : CommandLine.readFrom .empty s.args = .ok (d, commands))
    {source : Source} (h : s.Decides f source v) :
    (((s.value? d f .option).or (s.value? d f .environment)).or (s.value? d f .file)).or
      (s.value? d f .fallback) = some v := by
  obtain ⟨hvalue, hnone⟩ := value?_of_decides hread h
  cases source with
  | option => simp [hvalue]
  | environment => simp [hnone .option (by decide), hvalue]
  | file => simp [hnone .option (by decide), hnone .environment (by decide), hvalue]
  | fallback =>
    simp [hnone .option (by decide), hnone .environment (by decide), hnone .file (by decide), hvalue]

theorem shows_of_decides (hread : CommandLine.readFrom .empty s.args = .ok (d, commands))
    (h : s.settle = .ok t) {source : Source} (hdecides : s.Decides f source v) : f.Shows t v := by
  rw [settle_eq hread] at h
  rcases hresolve : resolve (d.finish s.environment commands) (s.file.getD .empty) s.localHost with
    cause | t'
  · rw [hresolve] at h
    cases h
  rw [hresolve] at h
  obtain rfl := Except.ok.inj h
  obtain ⟨host, hhost, rfl⟩ := Field.resolve_eq_ok_iff.1 hresolve
  refine Field.shows_withHost ?_ hhost
  rw [value?_resolved]
  exact value?_first hread hdecides

/-- Only the host may be given by no source, and where it is, there are settings. -/
theorem settle_eq_error_iff (hread : CommandLine.readFrom .empty s.args = .ok (d, commands))
    {cause : CommandLine.Stop ⊕ HostError} :
    s.settle = .error cause ↔ ∃ e, cause = .inr e ∧ s.localHost.read = .error e ∧
      ∀ source v, ¬ s.Gives .host source v := by
  have hnone : (∀ source v, ¬ s.Gives .host source v) ↔
      (d.finish s.environment commands).host.or (s.file.getD .empty).host = none ∧
        s.localHost.read.toOption = none := by
    have hvalue := value?_resolved s d .host commands
    have hgives (source : Source) : (∀ v, ¬ s.Gives .host source v) ↔ s.value? d .host source = none := by
      rw [Option.eq_none_iff_forall_ne_some]
      exact forall_congr' fun v => not_congr (gives_iff hread)
    change ((d.finish s.environment commands).host.or (s.file.getD .empty).host).or
      s.localHost.read.toOption = _ at hvalue
    rw [← Option.or_eq_none_iff, hvalue]
    simp only [Option.or_eq_none_iff, hgives]
    constructor
    · intro h
      exact ⟨⟨⟨h .option, h .environment⟩, h .file⟩, h .fallback⟩
    · rintro ⟨⟨⟨hoption, henvironment⟩, hfile⟩, hfallback⟩ source
      cases source with
      | option => exact hoption
      | environment => exact henvironment
      | file => exact hfile
      | fallback => exact hfallback
  rw [settle_eq hread, hnone]
  constructor
  · intro h
    rcases hresolve : resolve (d.finish s.environment commands) (s.file.getD .empty) s.localHost with
      e | t
    · rw [hresolve] at h
      obtain rfl := Except.error.inj h
      obtain ⟨hhost, hread⟩ := Field.resolve_eq_error_iff.1 hresolve
      exact ⟨e, rfl, hread, hhost, by rw [hread]; rfl⟩
    · rw [hresolve] at h
      cases h
  · rintro ⟨e, rfl, hread, hhost, -⟩
    rw [Field.resolve_eq_error_iff.2 ⟨hhost, hread⟩]
    rfl

theorem exists_decides (h : ∃ source v, s.Gives f source v) : ∃ source v, s.Decides f source v := by
  have hranked : ∃ n, ∃ source v, Source.rank source = n ∧ s.Gives f source v := by
    obtain ⟨source, v, hgives⟩ := h
    exact ⟨source.rank, source, v, rfl, hgives⟩
  classical
  obtain ⟨source, v, hrank, hgives⟩ := Nat.find_spec hranked
  refine ⟨source, v, hgives, fun higher hlt v' hgives' => ?_⟩
  exact Nat.find_min hranked (hrank ▸ hlt) ⟨higher, v', rfl, hgives'⟩

theorem exists_gives (hread : CommandLine.readFrom .empty s.args = .ok (d, commands))
    (h : s.settle = .ok t) (f : Field) : ∃ source v, s.Gives f source v := by
  cases f with
  | scope | tags | apiUrl => exact ⟨.fallback, _, rfl⟩
  | host =>
    by_contra hnone
    simp only [not_exists] at hnone
    rcases hname : s.localHost.read with e | name
    · rw [(settle_eq_error_iff hread).2 ⟨e, rfl, hname, hnone⟩] at h
      cases h
    · exact hnone .fallback name (by rw [Gives, Field.fallback?, hname]; rfl)

theorem gives_put {high low : Source} (hgives : s.Gives f high v) (hrank : high.rank < low.rank)
    (new : Option String) : (s.put f new low).Gives f high v := by
  cases low with
  | option => exact absurd hrank (Nat.not_lt_zero _)
  | environment =>
    cases high with
    | option => exact hgives
    | environment | file | fallback => exact absurd hrank (by decide)
  | file =>
    cases high with
    | option | environment => exact hgives
    | file | fallback => exact absurd hrank (by decide)
  | fallback =>
    rw [put]
    split
    · cases high with
      | option | environment | file => exact hgives
      | fallback => exact absurd hrank (by decide)
    · exact hgives

/-- What ranks lower than a source that gives the field does not count. -/
theorem settle_put (hread : CommandLine.readFrom .empty s.args = .ok (d, commands)) {high low : Source}
    (hgives : s.Gives f high v) (hrank : high.rank < low.rank) (new : Option String) :
    (s.put f new low).settle = s.settle := by
  have hvalue := (gives_iff hread).1 hgives
  have hline (hhigh : high.rank < Source.file.rank) :
      (f.inLine (d.finish s.environment commands)).isSome = true := by
    rw [Field.inLine_finish]
    cases high <;> simp_all [value?, Source.rank]
  rw [settle_eq hread]
  cases low with
  | option => exact absurd hrank (Nat.not_lt_zero _)
  | environment =>
    have hoption : d.value? f.parameter = some v := by
      cases high <;> simp_all [value?, Source.rank]
    rw [settle_eq hread (s := s.put f new .environment), put, Field.finish_putEnvironment hoption]
  | file =>
    rw [settle_eq hread (s := s.put f new .file)]
    exact congrArg _ (Field.resolve_putFile (hline hrank) new)
  | fallback =>
    rw [put]
    split
    · next hf =>
      subst hf
      have hnew := settle_eq (s := { s with
        localHost := new.elim (.error "") fun name => .ok name.toUTF8.toList }) hread
      refine hnew.trans (congrArg _ (Field.resolve_localHost ?_ _))
      cases high <;> simp_all [value?, Source.rank]
    · exact settle_eq hread

/-- A value that only the file gives may be given as an option. -/
theorem settle_moved (hread : CommandLine.readFrom .empty s.args = .ok (d, commands))
    (hdecides : s.Decides f .file v) {before : List Given} {rest : List String}
    (hargs : s.args = before.flatMap Given.args ++ rest) {g : Given} (hstands : g.Stands)
    (hsetting : g.setting = .parameter f.parameter v) :
    Sources.settle { s.put f none .file with
      args := before.flatMap Given.args ++ (g.args ++ rest) } = s.settle := by
  obtain ⟨hvalue, hnone⟩ := value?_of_decides hread hdecides
  have hnew : d.value? f.parameter = none := hnone .option (by decide)
  have hline : f.inLine (d.finish s.environment commands) = none := by
    rw [Field.inLine_finish, hnew, show f.inEnvironment s.environment = none from
      hnone .environment (by decide), Option.or_none]
  have hallowed : g.setting.Allowed := by
    rw [hsetting]
    cases f <;> rfl
  have hnothas : ¬ d.Has g.setting := by simp [hsetting, CommandLine.Draft.Has, hnew]
  rw [settle_eq hread]
  rw [hargs] at hread
  obtain ⟨d', hread', hwith⟩ := CommandLine.readFrom_insert hread hstands hallowed hnothas
  rw [hsetting] at hwith
  rw [settle_eq (s := { s.put f none .file with
    args := before.flatMap Given.args ++ (g.args ++ rest) }) hread', Field.finish_isWith hwith hnew]
  exact congrArg _ (Field.resolve_putLine hline hvalue)

end Sources

end Settings

/-! ## Namespaces -/

namespace Namespace

theorem ofText_text (ns : Namespace) : ofText ns.text = ns := by
  rw [ofText, dif_pos ns.separated]

/-- A separator that is typed is the one that would be added. -/
theorem ofText_separator {raw : String} (hne : raw ≠ "") (hlast : raw.toList.getLast? ≠ some '.') :
    ofText (raw ++ ".") = ofText raw := by
  have hopen : ¬ (raw.toList = [] ∨ raw.toList.getLast? = some '.') := by
    rw [not_or, String.toList_eq_nil_iff]
    exact ⟨hne, hlast⟩
  have hclosed : (raw ++ ".").toList = [] ∨ (raw ++ ".").toList.getLast? = some '.' := by
    simp [String.toList_append]
  rw [ofText, ofText, dif_pos hclosed, dif_neg hopen, mk.injEq]
  exact String.toList_injective (by simp [String.toList_append, separator])

end Namespace

namespace Settings

/-- **Settings go by the highest-ranked source.** There are none only where no
source gives the host, for the machine's own name cannot be told. Otherwise each
of namespace, tags, host and address is what the highest-ranked source that gives
it says, be it empty, and some source does. What a lower-ranked one says of it
makes no difference, and a value that only the file gives may be given as an
option instead, anywhere among the options and in either form. The namespace is
closed by a separator, once. -/
theorem highest_source_decides {s : Sources} {line : CommandLine}
    (h : CommandLine.read s.environment s.args = .ok line) :
    (∀ cause, s.settle = .error cause ↔ ∃ e, cause = .inr e ∧ s.localHost.read = .error e ∧
      ∀ source v, ¬ s.Gives .host source v) ∧
    (∀ t, s.settle = .ok t →
      (∀ f, ∃ source v, s.Decides f source v) ∧
      (∀ f source v, s.Decides f source v → f.Shows t v) ∧
      (t.context.scope.text = "" ∨ t.context.scope.text.toList.getLast? = some '.') ∧
      Namespace.ofText t.context.scope.text = t.context.scope) ∧
    (∀ f high low v, s.Gives f high v → high.rank < low.rank →
      ∀ new, (s.put f new low).Gives f high v ∧ (s.put f new low).settle = s.settle) ∧
    (∀ f v, s.Decides f .file v →
      ∀ (before : List Given) rest, s.args = before.flatMap Given.args ++ rest →
      ∀ g : Given, g.Stands → g.setting = .parameter f.parameter v →
      Sources.settle { s.put f none .file with
        args := before.flatMap Given.args ++ (g.args ++ rest) } = s.settle) ∧
    ∀ raw : String, raw ≠ "" → raw.toList.getLast? ≠ some '.' →
      Namespace.ofText (raw ++ ".") = Namespace.ofText raw := by
  obtain ⟨d, commands, hread, -⟩ := CommandLine.read_eq_ok_iff.1 h
  refine ⟨fun _ => Sources.settle_eq_error_iff hread, fun t ht => ⟨fun f => ?_, ?_, ?_, ?_⟩, ?_, ?_,
    fun _ => Namespace.ofText_separator⟩
  · exact Sources.exists_decides (Sources.exists_gives hread ht f)
  · exact fun _ _ _ => Sources.shows_of_decides hread ht
  · exact t.context.scope.separated.imp_left String.toList_eq_nil_iff.1
  · exact Namespace.ofText_text _
  · intro f high low v hgives hrank new
    exact ⟨Sources.gives_put hgives hrank new, Sources.settle_put hread hgives hrank new⟩
  · intro f v hdecides before rest hargs g hstands hsetting
    exact Sources.settle_moved hread hdecides hargs hstands hsetting

/-- An empty option hides the variable and the file, the namespace goes from the
file to the command line, and the file's host does for a machine without a name
of its own, which would else have no settings. -/
theorem highest_source_decides_empty_option :
    let file : Config := ⟨some "app", some "a, b", some "web", ⟨some "https://file", none⟩, .empty⟩
    let s : Sources := ⟨["--api-url=", "gauge", "x", "1"], ⟨none, some "https://variable", none⟩,
      some file, .error "no name"⟩
    ∃ t, s.settle = .ok t ∧ s.Gives .apiUrl .option "" ∧ t.delivery.apiUrl = "" ∧
      t.context.scope.text = "app." ∧ t.host = "web" ∧
      (s.put .apiUrl none .environment).settle = .ok t ∧
      s.Decides .scope .file "app" ∧
      Sources.settle { s with
        args := ["--api-url=", "--namespace", "app", "gauge", "x", "1"]
        file := some { file with scope := none } } = .ok t ∧
      (s.put .host none .file).settle = .error (.inr (.unavailable "no name")) := by
  intro file s
  let line : CommandLine := ⟨none, none, none, none, none, some "", false, false, ["gauge", "x", "1"]⟩
  have hline : CommandLine.read s.environment s.args = .ok line := by decide +kernel
  have hsettle : s.settle = .ok (withHost line file "web") := by decide +kernel
  let url : Given := .attached (.parameter .apiUrl "")
  let moved : Given := .separate .scope "app"
  have hargs : s.args = [url].flatMap Given.args ++ ["gauge", "x", "1"] := by decide +kernel
  have hread : CommandLine.readFrom .empty s.args =
      .ok (⟨[(.apiUrl, "")], []⟩, ["gauge", "x", "1"]) := by
    rw [hargs, List.flatMap_singleton, CommandLine.readFrom_given (g := url) trivial rfl rfl]
    exact CommandLine.readFrom_commands _ (CommandLine.opensCommands_of_word rfl _)
  have hargs' : [url].flatMap Given.args ++ (moved.args ++ ["gauge", "x", "1"]) =
      ["--api-url=", "--namespace", "app", "gauge", "x", "1"] := by decide +kernel
  have hurl : s.Gives .apiUrl .option "" := (Sources.gives_iff hread).2 rfl
  have hfile {f : Field} {v : String} (hgives : (Sources.value? s ⟨[(.apiUrl, "")], []⟩ f .file) = some v)
      (habove : f.parameter ≠ .apiUrl) : s.Decides f .file v := by
    refine ⟨(Sources.gives_iff hread).2 hgives, fun higher hrank v hgives => ?_⟩
    rw [Sources.gives_iff hread] at hgives
    cases higher with
    | option | environment => cases f <;> first | exact absurd rfl habove | cases hgives
    | file | fallback => exact absurd hrank (by decide)
  obtain ⟨-, hsettled, hput, hmoved, -⟩ := highest_source_decides hline
  obtain ⟨-, hshows, -⟩ := hsettled _ hsettle
  have hfirst : s.Decides .apiUrl .option "" := ⟨hurl, fun _ hrank => absurd hrank (Nat.not_lt_zero _)⟩
  have hscope : s.Decides .scope .file "app" := hfile rfl (by decide)
  refine ⟨_, hsettle, hurl, hshows .apiUrl .option "" hfirst,
    (hshows .scope .file "app" hscope).trans (by decide), hshows .host .file "web" (hfile rfl (by decide)),
    (hput .apiUrl .option .environment "" hurl (by decide) none).2.trans hsettle, hscope, ?_, ?_⟩
  · have hstands : moved.Stands := show CommandLine.Argument.ofText "app" = .word from rfl
    have hsame := hmoved .scope "app" hscope [url] _ hargs moved hstands rfl
    rw [hargs'] at hsame
    exact hsame.trans hsettle
  · have hnameless : CommandLine.read (s.put .host none .file).environment (s.put .host none .file).args =
        .ok line := hline
    refine ((highest_source_decides hnameless).1 _).2 ⟨_, rfl, rfl, fun source v hgives => ?_⟩
    rw [Sources.gives_iff (s := s.put .host none .file) hread] at hgives
    cases source <;> cases hgives

end Settings

end MetricStream
