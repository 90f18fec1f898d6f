import ProtoDocs.CommandLine.Program
import ProtoDocs.Proofs.Site.Policies

/-!
# How the program ends

A run that is asked for a table fails if the settings cannot be had, also where they would not have
mattered, and if a message is asked for and its schema file is there but is none.  Else it shows what
the site has, which may be a report of an error.

* `Request.ofArguments_written`   arguments that ask for a table;
* `Selects`, `Faulty`, `Describes`   the settings file that counts, and what it says;
* `Means`, `MeansFault`           the site that is meant, or why there is none;
* `Site.Renders`                  what a site has to show;
* `run_table`                     the status and the output of a run.
-/

namespace ProtoDocs

/-! ## arguments -/

namespace Arguments

/-- an option in its long form and its value, if it has one -/
def written (s : Switch) (value : Option Text) : List Text :=
  match value with
  | none => []
  | some v => [s.long, v]

def command : Kind → Text
  | .message => "message".toList
  | .enum => "enum".toList
  | .service => "service".toList

theorem longOption_long {side : CommandSide} {s : Switch} (hallowed : s ∈ Switch.allowed side)
    (htakes : s.takesValue = true) (g : Given) : longOption side g s.long = .ok (.awaits g s) := by
  cases s with
  | settings => cases side <;> rfl
  | docsDir => cases side <;> rfl
  | file =>
    cases side with
    | before => simp [Switch.allowed] at hallowed
    | after => rfl
  | verbose => cases htakes
  | help => cases htakes
  | version => cases htakes

/-- An option and its value are taken, and the arguments go on behind them. -/
theorem readArguments_option {side : CommandSide} {g g' : Given} {s : Switch} {v : Text}
    (hallowed : s ∈ Switch.allowed side) (htakes : s.takesValue = true) (hv : isOption v = false)
    (hset : g.set s v = .ok g') (rest : List Text) :
    readArguments side g (s.long :: v :: rest) = readArguments side g' rest := by
  have hlong := longOption_long hallowed htakes g
  obtain ⟨c, w, hw⟩ : ∃ c w, s.long = '-' :: '-' :: c :: w := by
    cases s <;> exact ⟨_, _, rfl⟩
  rw [hw] at hlong ⊢
  have harg : isOption ('-' :: '-' :: c :: w) = true := rfl
  cases side <;> simp [readArguments, harg, hlong, hv, hset, bind, Except.bind]

theorem readArguments_command {g : Given} {w : Text} (hw : isOption w = false) (rest : List Text) :
    readArguments .before g (w :: rest) = .ok (.command w g rest) := by
  rw [readArguments, hw]
  · rfl
  · rintro rfl
    cases hw

theorem readArguments_name {g : Given} {w : Text} (hw : isOption w = false) (hg : g.name = none)
    (rest : List Text) :
    readArguments .after g (w :: rest) = readArguments .after { g with name := some w } rest := by
  rw [readArguments, hw, hg]
  · rfl
  · rintro rfl
    cases hw

/-- a value that can stand as an argument of its own, and is not empty -/
def IsPlace (v : Text) : Prop := isOption v = false ∧ v ≠ []

section
variable {q : Query} {places : Places}

theorem readArguments_settings (h : ∀ v ∈ places.settings, IsPlace v) (rest : List Text) :
    readArguments .before {} (written .settings places.settings ++ rest) =
      readArguments .before { settings := places.settings } rest := by
  cases hv : places.settings with
  | none => rfl
  | some v =>
    obtain ⟨hplain, hne⟩ := h v hv
    refine readArguments_option (by decide) rfl hplain ?_ rest
    simp [Given.set, hne]

theorem readArguments_docsDir (h : ∀ v ∈ places.docsDir, IsPlace v) (rest : List Text) :
    readArguments .before { settings := places.settings } (written .docsDir places.docsDir ++ rest) =
      readArguments .before { settings := places.settings, docsDir := places.docsDir } rest := by
  cases hv : places.docsDir with
  | none => rfl
  | some v =>
    obtain ⟨hplain, hne⟩ := h v hv
    refine readArguments_option (by decide) rfl hplain ?_ rest
    simp [Given.set, hne]

theorem readArguments_file (h : ∀ v ∈ q.file, isOption v = false) :
    readArguments .after { name := some q.name } (written .file q.file) =
      .ok (.ended { name := some q.name, file := q.file }) := by
  cases hv : q.file with
  | none => rfl
  | some v => exact readArguments_option (by decide) rfl (h v hv) rfl []

end

end Arguments

open Arguments

/-- **Every table can be asked for**, from every schema file and with every settings file and documents
directory, whose names could not be taken for options. -/
theorem Request.ofArguments_written {q : Query} {places : Places} (hname : isOption q.name = false)
    (hfile : ∀ v ∈ q.file, isOption v = false) (hsettings : ∀ v ∈ places.settings, IsPlace v)
    (hdocsDir : ∀ v ∈ places.docsDir, IsPlace v) :
    Request.ofArguments (written .settings places.settings ++ (written .docsDir places.docsDir ++
      command q.kind :: q.name :: written .file q.file)) = .ok (.table q places) := by
  have hcommand : isOption (command q.kind) = false := by cases q.kind <;> decide
  have hkind : kindOfCommand? (command q.kind) = some q.kind := by cases q.kind <;> rfl
  have hbefore := (readArguments_settings hsettings _).trans ((readArguments_docsDir hdocsDir _).trans
    (readArguments_command hcommand (q.name :: written .file q.file)))
  have hafter := (readArguments_name (g := {}) hname rfl _).trans (readArguments_file hfile)
  rw [Request.ofArguments, hbefore]
  simp [bind, Except.bind, hkind, hafter, pure, Except.pure]

/-! ## the settings -/

/-- the settings file that counts, if any: the one given, or else the usual one if it is there -/
inductive Selects (files : Files) (places : Places) : Option Path → Prop
  | given {path : Path} : places.settings = some path → Selects files places (some path)
  | usual : places.settings = none → ¬ (files usualSettings).Absent →
      Selects files places (some usualSettings)
  | nothing : places.settings = none → (files usualSettings).Absent → Selects files places none

/-- the settings file cannot be read, or is none -/
inductive Faulty (files : Files) (path : Path) : Site.Error → Prop
  | unreadable {r : FileError} : (files path).Unreadable r → Faulty files path (.unreadable path r)
  | invalid {t : Text} {r : SettingsError} : files path = .file t.utf8Encode →
      SettingsFile.docsDir? t = .error r → Faulty files path (.invalid path r)

/-- the site that the settings describe; without any, it is the usual one -/
inductive Describes (files : Files) : Option Path → Site → Prop
  | nothing : Describes files none Site.usual
  | settings {path : Path} {t : Text} {docsDir : Option Path} : files path = .file t.utf8Encode →
      SettingsFile.docsDir? t = .ok docsDir →
      Describes files (some path) (.ofDocsDir (path.parent.join (docsDir.getD Site.usualDocsDir)))

/-- the site is that of the settings, with the documents directory that is given, if one is -/
def Means (files : Files) (places : Places) (s : Site) : Prop :=
  ∃ selected site, Selects files places selected ∧ Describes files selected site ∧
    s = ⟨places.docsDir.getD site.docsDir, site.defaultFile⟩

def MeansFault (files : Files) (places : Places) (path : Path) (e : Site.Error) : Prop :=
  Selects files places (some path) ∧ Faulty files path e

section
variable {files : Files} {places : Places}

theorem exists_selects (files : Files) (places : Places) :
    ∃ selected, Selects files places selected := by
  cases h : places.settings with
  | some path => exact ⟨_, .given h⟩
  | none =>
    by_cases habsent : (files usualSettings).Absent
    · exact ⟨_, .nothing h habsent⟩
    · exact ⟨_, .usual h habsent⟩

theorem Selects.chosenSettings_eq {selected : Option Path} (h : Selects files places selected) :
    chosenSettings files places = selected := by
  cases h with
  | given h => rw [chosenSettings, h, Option.some_or]
  | usual h hthere => rw [chosenSettings, h, Option.none_or, if_pos (Entry.isThere_iff.2 hthere)]
  | nothing h habsent =>
    rw [chosenSettings, h, Option.none_or, if_neg fun hthere => Entry.isThere_iff.1 hthere habsent]

theorem Faulty.load_eq {path : Path} {e : Site.Error} (h : Faulty files path e) :
    Site.load files path = .error e := by
  cases h with
  | unreadable h => rw [Site.load, h.text_eq]
  | invalid hfile h =>
    rw [Site.load, hfile, Entry.text_utf8Encode]
    simp only [h]

theorem Describes.load_eq {path : Path} {site : Site} (h : Describes files (some path) site) :
    Site.load files path = .ok site := by
  cases h with
  | settings hfile h =>
    rw [Site.load, hfile, Entry.text_utf8Encode]
    simp only [h]

theorem faulty_or_describes (files : Files) (selected : Option Path) :
    (∃ path e, selected = some path ∧ Faulty files path e) ∨ ∃ site, Describes files selected site := by
  cases selected with
  | none => exact .inr ⟨_, .nothing⟩
  | some path =>
    rcases (files path).unreadable_or_text with ⟨r, hr⟩ | ⟨t, ht⟩
    · exact .inl ⟨path, _, rfl, .unreadable hr⟩
    · cases h : SettingsFile.docsDir? t with
      | error r => exact .inl ⟨path, _, rfl, .invalid ht h⟩
      | ok docsDir => exact .inr ⟨_, .settings ht h⟩

theorem MeansFault.chosenSite_eq {path : Path} {e : Site.Error}
    (h : MeansFault files places path e) : chosenSite files places = .error (path, e) := by
  rw [chosenSite, configuredSite, h.1.chosenSettings_eq]
  simp only [h.2.load_eq]
  rfl

theorem Means.chosenSite_eq {s : Site} (h : Means files places s) :
    chosenSite files places = .ok s := by
  obtain ⟨selected, site, hselected, hsite, rfl⟩ := h
  rw [chosenSite, configuredSite, hselected.chosenSettings_eq]
  cases selected with
  | none =>
    cases hsite
    rfl
  | some path =>
    simp only [hsite.load_eq]
    rfl

theorem meansFault_or_means (files : Files) (places : Places) :
    (∃ path e, MeansFault files places path e) ∨ ∃ s, Means files places s := by
  obtain ⟨selected, hselected⟩ := exists_selects files places
  rcases faulty_or_describes files selected with ⟨path, e, rfl, he⟩ | ⟨site, hsite⟩
  · exact .inl ⟨path, e, hselected, he⟩
  · exact .inr ⟨_, selected, site, hselected, hsite, rfl⟩

end

/-! ## the run -/

inductive Site.Renders (s : Site) (files : Files) : Query → Text → Prop
  | message {name : Text} {file : Option Path} {t : Text} :
      s.messageTable files name file = .ok t → Renders s files ⟨.message, name, file⟩ t
  | enum (name : Text) (file : Option Path) :
      Renders s files ⟨.enum, name, file⟩ (s.enumTable files name file)
  | service (name : Text) (file : Option Path) :
      Renders s files ⟨.service, name, file⟩ (s.serviceTable files name file)

/-- a message is asked for, and its schema file is there but is none -/
def Site.Refuses (s : Site) (files : Files) (q : Query) (f : FileFault) : Prop :=
  q.kind = .message ∧ (files (s.resolve (q.file.getD s.defaultFile))).Broken f

section
variable {files : Files} {s : Site} {q : Query}

theorem Site.Refuses.showQuery_eq {f : FileFault} (h : s.Refuses files q f) :
    showQuery files s q =
      ⟨1, [], "error: ".toList ++ Text.join ": ".toList
        ["Failed to render message ".toList ++ q.name, f.message, f.cause] ++ ['\n']⟩ := by
  obtain ⟨kind, name, file⟩ := q
  obtain ⟨rfl, hbroken⟩ := h
  simp only [showQuery, Site.messageTable_eq_error.2 hbroken]
  rfl

theorem Site.exists_renders (h : ¬ ∃ f, s.Refuses files q f) :
    ∃ t, s.Renders files q t ∧ showQuery files s q = ⟨0, t ++ ['\n'], []⟩ := by
  obtain ⟨kind, name, file⟩ := q
  cases kind with
  | message =>
    cases ht : s.messageTable files name file with
    | error f => exact absurd ⟨f, rfl, Site.messageTable_eq_error.1 ht⟩ h
    | ok t =>
      refine ⟨t, .message ht, ?_⟩
      simp only [showQuery, ht]
      rfl
  | enum => exact ⟨_, .enum name file, rfl⟩
  | service => exact ⟨_, .service name file, rfl⟩

end

/-- **How a run ends that is asked for a table.**  It fails if the settings that count cannot be used
and if a message is asked for whose schema file is there but is none; then there is no output, and what
it was about is written to the errors with the error and the error behind it.  In all other cases the
output is what the site has to show, and a line end. -/
theorem run_table {args : List Text} {q : Query} {places : Places}
    (hargs : Request.ofArguments args = .ok (.table q places)) (files : Files) :
    (∀ path e, MeansFault files places path e → run files args =
      ⟨1, [], "error: ".toList ++ Text.join ": ".toList
        ["Failed to load ".toList ++ path, e.message, e.cause] ++ ['\n']⟩) ∧
    (∀ s, Means files places s →
      (∀ f, s.Refuses files q f → run files args =
        ⟨1, [], "error: ".toList ++ Text.join ": ".toList
          ["Failed to render message ".toList ++ q.name, f.message, f.cause] ++ ['\n']⟩) ∧
      ((¬ ∃ f, s.Refuses files q f) →
        ∃ t, s.Renders files q t ∧ run files args = ⟨0, t ++ ['\n'], []⟩)) ∧
    ((∃ path e, MeansFault files places path e) ∨ ∃ s, Means files places s) ∧
    ((run files args).status = 1 ↔ (∃ path e, MeansFault files places path e) ∨
      ∃ s f, Means files places s ∧ s.Refuses files q f) ∧
    ((run files args).status = 0 ∨ (run files args).status = 1) := by
  have hfault {path : Path} {e : Site.Error} (h : MeansFault files places path e) :
      run files args = ⟨1, [], "error: ".toList ++ Text.join ": ".toList
        ["Failed to load ".toList ++ path, e.message, e.cause] ++ ['\n']⟩ := by
    rw [run, hargs]
    simp only [h.chosenSite_eq]
    rfl
  have hmeans {s : Site} (h : Means files places s) : run files args = showQuery files s q := by
    rw [run, hargs]
    simp only [h.chosenSite_eq]
  have hsite (s : Site) (h : Means files places s) :
      (∀ f, s.Refuses files q f → run files args =
        ⟨1, [], "error: ".toList ++ Text.join ": ".toList
          ["Failed to render message ".toList ++ q.name, f.message, f.cause] ++ ['\n']⟩) ∧
      ((¬ ∃ f, s.Refuses files q f) →
        ∃ t, s.Renders files q t ∧ run files args = ⟨0, t ++ ['\n'], []⟩) := by
    rw [hmeans h]
    exact ⟨fun f hf => hf.showQuery_eq, Site.exists_renders⟩
  have hends : (∃ path e, MeansFault files places path e) ∨
      (∃ s f, Means files places s ∧ s.Refuses files q f) ∨
      ∃ t, run files args = ⟨0, t ++ ['\n'], []⟩ := by
    rcases meansFault_or_means files places with h | ⟨s, hs⟩
    · exact .inl h
    · by_cases hrefuses : ∃ f, s.Refuses files q f
      · obtain ⟨f, hf⟩ := hrefuses
        exact .inr (.inl ⟨s, f, hs, hf⟩)
      · obtain ⟨t, -, hrun⟩ := (hsite s hs).2 hrefuses
        exact .inr (.inr ⟨t, hrun⟩)
  refine ⟨fun path e => hfault, hsite, meansFault_or_means files places, ?_, ?_⟩
  · constructor
    · intro hstatus
      rcases hends with h | ⟨s, f, h⟩ | ⟨t, hrun⟩
      · exact .inl h
      · exact .inr ⟨s, f, h⟩
      · rw [hrun] at hstatus
        cases hstatus
    · rintro (⟨path, e, h⟩ | ⟨s, f, hs, hf⟩)
      · rw [hfault h]
      · rw [(hsite s hs).1 f hf]
  · rcases hends with ⟨path, e, h⟩ | ⟨s, f, hs, hf⟩ | ⟨t, hrun⟩
    · exact .inr (by rw [hfault h])
    · exact .inr (by rw [(hsite s hs).1 f hf])
    · exact .inl (by rw [hrun])

/-- a tree in which a directory has the name of the usual settings file -/
def settingsTree : FileTree := (FileTree.empty ["w".toList]).makeDirectory usualSettings

theorem run_table_settingsTree :
    Request.ofArguments ["enum".toList, ['E'], "--docs-dir".toList, ['d']] =
        .ok (.table ⟨.enum, ['E'], none⟩ ⟨none, some ['d']⟩) ∧
      MeansFault settingsTree.entry ⟨none, some ['d']⟩ usualSettings
        (.unreadable usualSettings .isDirectory) ∧
      run settingsTree.entry ["enum".toList, ['E'], "--docs-dir".toList, ['d']] =
        ⟨1, [], ("error: Failed to load mkdocs.yml: Failed to read config mkdocs.yml: " ++
          "Is a directory (os error 21): Is a directory (os error 21)\n").toList⟩ := by
  have hargs : Request.ofArguments ["enum".toList, ['E'], "--docs-dir".toList, ['d']] =
      .ok (.table ⟨.enum, ['E'], none⟩ ⟨none, some ['d']⟩) := by decide +kernel
  have hfault : MeansFault settingsTree.entry ⟨none, some ['d']⟩ usualSettings
      (.unreadable usualSettings .isDirectory) :=
    ⟨.usual rfl (Entry.isThere_iff.1 rfl), .unreadable .directory⟩
  refine ⟨hargs, hfault, ((run_table hargs settingsTree.entry).1 _ _ hfault).trans ?_⟩
  decide +kernel

end ProtoDocs
