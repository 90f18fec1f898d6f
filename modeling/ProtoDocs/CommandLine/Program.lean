import ProtoDocs.CommandLine.Arguments
import ProtoDocs.Site.Docs

/-!
# The program

The program shows the table of a type on its output. It ends with status 2 if the arguments ask for
nothing, with status 1 if the settings cannot be had or a message table has an error, and with 0
otherwise.

* `Exit`          status and output of a run;
* `chosenSite`    the site that the places in the arguments mean;
* `run`           the program on a file system;
* `consulted`     the paths at which a run looks.

`run_congr` says that a run does not depend on what is found anywhere else.
-/

namespace ProtoDocs

/-- The status of a run, its output, and the text of its failure. What is logged on the way is not
part of `errors`: neither the warning for an error that the output shows, nor the lines that are
there only with `--verbose`. -/
structure Exit where
  status : Nat
  output : Text
  errors : Text
  deriving DecidableEq, Repr

namespace Exit

def shows (t : Text) : Exit := ⟨0, t ++ ['\n'], []⟩

/-- a run that fails: what it was about, the error, and the error behind it -/
def fails (context message cause : Text) : Exit :=
  ⟨1, [], "error: ".toList ++ Text.join ": ".toList [context, message, cause] ++ ['\n']⟩

def misused (e : UsageError) : Exit :=
  ⟨2, [], "error: ".toList ++ e.message ++ ['\n']⟩

end Exit

/-- the settings file that is read if none is given and it is there -/
def usualSettings : Path := "mkdocs.yml".toList

/-- the settings file that counts: the one given, or the usual one if it is there -/
def chosenSettings (files : Files) (places : Places) : Option Path :=
  places.settings.or (if (files usualSettings).isThere then some usualSettings else none)

/-- the site that the chosen settings file describes, or the usual one -/
def configuredSite (files : Files) (places : Places) : Except (Path × Site.Error) Site :=
  match chosenSettings files places with
  | none => .ok Site.usual
  | some path => (Site.load files path).mapError fun e => (path, e)

/-- the site that is meant; a documents directory that is given counts instead of that of the
settings, which must be in order all the same -/
def chosenSite (files : Files) (places : Places) : Except (Path × Site.Error) Site :=
  (configuredSite files places).map fun site =>
    { site with docsDir := places.docsDir.getD site.docsDir }

def showQuery (files : Files) (site : Site) (q : Query) : Exit :=
  match q.kind with
  | .message => match site.messageTable files q.name q.file with
    | .ok t => .shows t
    | .error e => .fails ("Failed to render message ".toList ++ q.name) e.message e.cause
  | .enum => .shows (site.enumTable files q.name q.file)
  | .service => .shows (site.serviceTable files q.name q.file)

def versionText : Text := "proto-docs 0.1.0".toList

/-- an overview of the arguments; its wording is this model's own, not that of the program -/
def helpText : Text :=
  Text.join ['\n'] <| List.map String.toList
    ["Render .proto definitions as Markdown tables",
      "",
      "Usage: proto-docs [OPTIONS] message|enum|service NAME",
      "",
      "  -p, --proto FILE      proto file relative to the docs site root",
      "  -c, --config FILE     settings file to read docs_dir from",
      "      --docs-dir DIR    documents directory; proto paths resolve against its parent",
      "  -v, --verbose         more messages",
      "  -h, --help            this text",
      "  -V, --version         the version"]

/-- the program on a file system -/
def run (files : Files) (args : List Text) : Exit :=
  match Request.ofArguments args with
  | .error e => .misused e
  | .ok .version => .shows versionText
  | .ok .help => .shows helpText
  | .ok (.table q places) => match chosenSite files places with
    | .error (path, e) => .fails ("Failed to load ".toList ++ path) e.message e.cause
    | .ok site => showQuery files site q

/-- the paths at which a run looks: that of the settings file, and that of the schema file if the
settings are in order -/
def consulted (files : Files) (args : List Text) : List Path :=
  match Request.ofArguments args with
  | .ok (.table q places) =>
    places.settings.getD usualSettings ::
      match chosenSite files places with
      | .ok site => [site.resolve (site.chosen q.file)]
      | .error _ => []
  | _ => []

/-! ## what a run depends on -/

theorem chosenSite_congr {files files' : Files} {places : Places}
    (h : files (places.settings.getD usualSettings) = files' (places.settings.getD usualSettings)) :
    chosenSite files places = chosenSite files' places := by
  unfold chosenSite configuredSite chosenSettings
  cases hs : places.settings with
  | some p =>
    rw [hs, Option.getD_some] at h
    simp [Site.load, h]
  | none =>
    rw [hs, Option.getD_none] at h
    simp only [Option.none_or, h]
    split <;> simp_all [Site.load]

theorem showQuery_congr {files files' : Files} {site : Site} {q : Query}
    (h : files (site.resolve (site.chosen q.file)) = files' (site.resolve (site.chosen q.file))) :
    showQuery files site q = showQuery files' site q := by
  have he : site.elements files (site.chosen q.file) = site.elements files' (site.chosen q.file) := by
    simp only [Site.elements, readSchema, h]
  simp only [showQuery, Site.messageTable, Site.enumTable, Site.serviceTable, he]

/-- a run depends only on what is found at the paths it looks at -/
theorem run_congr {files files' : Files} {args : List Text}
    (h : ∀ p ∈ consulted files args, files p = files' p) : run files args = run files' args := by
  unfold consulted at h
  unfold run
  split <;> try rfl
  next q places hr =>
    simp only [hr, List.mem_cons, forall_eq_or_imp] at h
    rw [chosenSite_congr h.1] at h ⊢
    split
    · rfl
    · next site hsite =>
      rw [hsite] at h
      exact showQuery_congr (h.2 _ (List.mem_singleton.2 rfl))

end ProtoDocs
