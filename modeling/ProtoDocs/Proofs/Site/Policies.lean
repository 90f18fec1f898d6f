import ProtoDocs.Files.Tree
import ProtoDocs.Proofs.Grammar.Block
import ProtoDocs.Site.Docs

/-!
# What becomes of errors

A schema file that is not there is reported on the page by all three tables.  One that is there but
cannot be read, or is no schema file, is an error of the message table and is reported on the page by
the other two.  In every other case there is a page, and a type that is not declared is reported on it.

* `Entry.Unreadable`     why no text is found at a path;
* `Entry.Absent`, `Entry.Broken`, `Entry.Holds`   what is found at the path of a schema file;
* `Declared`             a type is declared in a file or inside its messages;
* `Site.error_policies`  the tables of a site in each of these cases.
-/

namespace ProtoDocs

/-! ## what is found at a path -/

/-- the path leads to nothing, perhaps because it goes on behind a file -/
inductive Entry.Absent : Entry → Prop
  | missing : Absent .missing
  | beyondFile : Absent .beyondFile

inductive Entry.Unreadable : Entry → FileError → Prop
  | missing : Unreadable .missing .notFound
  | beyondFile : Unreadable .beyondFile .notDirectory
  | directory : Unreadable .directory .isDirectory
  | closed (reason : Text) : Unreadable (.closed reason) (.other reason)
  | undecodable {content : ByteArray} : ¬ content.IsValidUTF8 → Unreadable (.file content) .notUtf8

inductive Entry.Broken : Entry → FileFault → Prop
  | unreadable {e : Entry} {r : FileError} : ¬ e.Absent → e.Unreadable r → Broken e (.file r)
  | malformed {t : Text} {r : SyntaxError} : parse t = .error r →
      Broken (.file t.utf8Encode) (.grammar r)

inductive Entry.Holds : Entry → List Element → Prop
  | schema {t : Text} {es : List Element} : parse t = .ok es → Holds (.file t.utf8Encode) es

namespace Entry

theorem isThere_iff {e : Entry} : e.isThere = true ↔ ¬ e.Absent := by
  cases e with
  | missing => simp [isThere, Absent.missing]
  | beyondFile => simp [isThere, Absent.beyondFile]
  | _ => exact ⟨fun _ => by rintro ⟨⟩, fun _ => rfl⟩

theorem text_utf8Encode (t : Text) : (Entry.file t.utf8Encode).text = .ok t := by
  have hdecode : String.fromUTF8? t.utf8Encode = some (String.ofList t) := dif_pos ⟨t, rfl⟩
  rw [text, hdecode]
  exact congrArg Except.ok String.toList_ofList

theorem Unreadable.text_eq {e : Entry} {r : FileError} (h : e.Unreadable r) :
    e.text = .error r := by
  cases h with
  | @undecodable content h =>
    have hdecode : String.fromUTF8? content = none := dif_neg h
    rw [text, hdecode]
  | _ => rfl

theorem unreadable_or_text (e : Entry) :
    (∃ r, e.Unreadable r) ∨ ∃ t : Text, e = .file t.utf8Encode := by
  cases e with
  | missing => exact .inl ⟨_, .missing⟩
  | beyondFile => exact .inl ⟨_, .beyondFile⟩
  | directory => exact .inl ⟨_, .directory⟩
  | closed reason => exact .inl ⟨_, .closed reason⟩
  | file content =>
    by_cases hvalid : content.IsValidUTF8
    · obtain ⟨t, rfl⟩ := hvalid
      exact .inr ⟨t, rfl⟩
    · exact .inl ⟨_, .undecodable hvalid⟩

/-- There is nothing at a path, or no schema file, or a schema file. -/
theorem absent_or_broken_or_holds (e : Entry) :
    e.Absent ∨ (∃ f, e.Broken f) ∨ ∃ es, e.Holds es := by
  by_cases habsent : e.Absent
  · exact .inl habsent
  rcases e.unreadable_or_text with ⟨r, hr⟩ | ⟨t, rfl⟩
  · exact .inr (.inl ⟨_, .unreadable habsent hr⟩)
  · cases h : parse t with
    | error r => exact .inr (.inl ⟨_, .malformed h⟩)
    | ok es => exact .inr (.inr ⟨_, .schema h⟩)

end Entry

/-! ## loading -/

section
variable {files : Files} {path : Path}

theorem readSchema_of_broken {f : FileFault} (h : (files path).Broken f) :
    (files path).isThere = true ∧ readSchema files path = .error f := by
  unfold readSchema
  generalize files path = e at h
  cases h with
  | unreadable hthere hr => exact ⟨Entry.isThere_iff.2 hthere, by rw [hr.text_eq]⟩
  | malformed h =>
    refine ⟨rfl, ?_⟩
    rw [Entry.text_utf8Encode]
    simp only [h]

theorem readSchema_of_holds {es : List Element} (h : (files path).Holds es) :
    (files path).isThere = true ∧ readSchema files path = .ok es := by
  unfold readSchema
  generalize files path = e at h
  cases h with
  | schema h =>
    refine ⟨rfl, ?_⟩
    rw [Entry.text_utf8Encode]
    simp only [h]

end

namespace Site

variable {s : Site} {files : Files} {file : Path}

theorem elements_of_absent (h : (files (s.resolve file)).Absent) :
    s.elements files file = .error (.notThere file) := by
  unfold elements
  generalize files (s.resolve file) = e at h
  cases h <;> rfl

theorem elements_of_broken {f : FileFault} (h : (files (s.resolve file)).Broken f) :
    s.elements files file = .error (.fault f) := by
  obtain ⟨hthere, hread⟩ := readSchema_of_broken h
  rw [elements, hthere, hread]
  rfl

theorem elements_of_holds {es : List Element} (h : (files (s.resolve file)).Holds es) :
    s.elements files file = .ok (attach es) := by
  obtain ⟨hthere, hread⟩ := readSchema_of_holds h
  rw [elements, hthere, hread]
  rfl

end Site

/-! ## types that are declared -/

/-- a type of this kind and name is declared among the elements or inside the messages there -/
inductive Declared (kind : Kind) (name : Text) : List Element → Prop
  | here {e : Element} {es : List Element} : e ∈ es → e.declares kind name = true →
      Declared kind name es
  | inside {cs : List Text} {message : Text} {body es : List Element} :
      .block cs (.message message) body ∈ es → Declared kind name body → Declared kind name es

theorem Declared.mono {kind : Kind} {name : Text} {es es' : List Element}
    (h : Declared kind name es) (hsub : es ⊆ es') : Declared kind name es' := by
  cases h with
  | here hmem hdeclares => exact .here (hsub hmem) hdeclares
  | inside hmem hbody => exact .inside (hsub hmem) hbody

mutual

theorem find?_of_not_declared {kind : Kind} {name : Text} :
    ∀ {es : List Element}, ¬ Declared kind name es → find? kind name es = none
  | [], _ => rfl
  | e :: es, h => by
    have hhead : ¬ Declared kind name [e] := fun hd => h (hd.mono (by simp))
    have htail : ¬ Declared kind name es := fun hd => h (hd.mono (List.subset_cons_self e es))
    rw [find?, e.find?_of_not_declared hhead, find?_of_not_declared htail]
    rfl

theorem Element.find?_of_not_declared {kind : Kind} {name : Text} :
    ∀ (e : Element), ¬ Declared kind name [e] → e.find? kind name = none
  | .comment _, h => by
    rw [Element.find?.eq_def, if_neg fun hd => h (.here (List.mem_singleton.2 rfl) hd)]
  | .statement _ _, h => by
    rw [Element.find?.eq_def, if_neg fun hd => h (.here (List.mem_singleton.2 rfl) hd)]
  | .block cs hd body, h => by
    rw [Element.find?.eq_def, if_neg fun hd => h (.here (List.mem_singleton.2 rfl) hd)]
    cases hd with
    | message message =>
      exact ProtoDocs.find?_of_not_declared fun hbody =>
        h (.inside (List.mem_singleton.2 rfl) hbody)
    | _ => rfl

end

theorem Page.notFound_eq (name : Text) :
    (Page.notFound .message name =
      "**Error:** Message \x60".toList ++ name ++ "\x60 not found.".toList) ∧
    (Page.notFound .enum name =
      "**Error:** Enum \x60".toList ++ name ++ "\x60 not found.".toList) ∧
    Page.notFound .service name =
      "**Error:** Service \x60".toList ++ name ++ "\x60 not found.".toList := by
  have happend (a b c d e : Text) : a ++ (b ++ c ++ (d ++ name ++ d) ++ e) =
      a ++ (b ++ (c ++ d)) ++ name ++ (d ++ e) := by
    simp only [List.append_assoc]
  have hjoin {kind : Kind} {front back : Text}
      (hfront : front = "**Error:** ".toList ++ (kind.name ++ (" ".toList ++ "\x60".toList)))
      (hback : back = "\x60".toList ++ " not found.".toList) :
      Page.notFound kind name = front ++ name ++ back := by
    subst hfront hback
    exact happend "**Error:** ".toList kind.name " ".toList "\x60".toList " not found.".toList
  exact ⟨hjoin (by decide +kernel) (by decide +kernel), hjoin (by decide +kernel) (by decide +kernel),
    hjoin (by decide +kernel) (by decide +kernel)⟩

/-! ## the tables -/

namespace Site

variable {s : Site} {files : Files} {file : Option Path} (name : Text)

theorem tables_of_absent (h : (files (s.resolve (s.chosen file))).Absent) :
    let report := "**Error:** Proto not found: ".toList ++ s.chosen file
    s.messageTable files name file = .ok report ∧ s.enumTable files name file = report ∧
      s.serviceTable files name file = report := by
  rw [messageTable, enumTable, serviceTable, elements_of_absent h]
  exact ⟨rfl, rfl, rfl⟩

theorem tables_of_broken {f : FileFault} (h : (files (s.resolve (s.chosen file))).Broken f) :
    s.messageTable files name file = .error f ∧
    s.enumTable files name file = "**Error:** ".toList ++ f.message ∧
    s.serviceTable files name file = "**Error:** ".toList ++ f.message := by
  rw [messageTable, enumTable, serviceTable, elements_of_broken h]
  exact ⟨rfl, rfl, rfl⟩

theorem tables_of_holds {es : List Element} (h : (files (s.resolve (s.chosen file))).Holds es) :
    s.messageTable files name file = .ok (Page.messageTable (attach es) name) ∧
    s.enumTable files name file = Page.enumTable (attach es) name ∧
    s.serviceTable files name file = Page.serviceTable (attach es) name := by
  rw [messageTable, enumTable, serviceTable, elements_of_holds h]
  exact ⟨rfl, rfl, rfl⟩

theorem messageTable_eq_error {name : Text} {f : FileFault} :
    s.messageTable files name file = .error f ↔ (files (s.resolve (s.chosen file))).Broken f := by
  refine ⟨fun h => ?_, fun h => (tables_of_broken name h).1⟩
  rcases (files (s.resolve (s.chosen file))).absent_or_broken_or_holds with
    habsent | ⟨f', hbroken⟩ | ⟨es, hholds⟩
  · rw [(tables_of_absent name habsent).1] at h
    cases h
  · rw [(tables_of_broken name hbroken).1] at h
    cases h
    exact hbroken
  · rw [(tables_of_holds name hholds).1] at h
    cases h

/-- **What becomes of errors.**  If there is nothing at the path of the schema file, all tables say so,
and the file is named as it was asked for.  If there is no schema file, that is the error of the
message table, and the other two report it.  Else there are tables, also of types that are not there.
So the message table has an error in the second case only. -/
theorem error_policies (s : Site) (files : Files) (name : Text) (file : Option Path) :
    let entry := files (s.resolve (file.getD s.defaultFile))
    (entry.Absent →
      let report := "**Error:** Proto not found: ".toList ++ file.getD s.defaultFile
      s.messageTable files name file = .ok report ∧ s.enumTable files name file = report ∧
        s.serviceTable files name file = report) ∧
    (∀ f, entry.Broken f →
      s.messageTable files name file = .error f ∧
      s.enumTable files name file = "**Error:** ".toList ++ f.message ∧
      s.serviceTable files name file = "**Error:** ".toList ++ f.message) ∧
    (∀ es, entry.Holds es →
      s.messageTable files name file = .ok (Page.messageTable (attach es) name) ∧
      s.enumTable files name file = Page.enumTable (attach es) name ∧
      s.serviceTable files name file = Page.serviceTable (attach es) name ∧
      (¬ Declared .message name (attach es) → Page.messageTable (attach es) name =
        "**Error:** Message \x60".toList ++ name ++ "\x60 not found.".toList) ∧
      (¬ Declared .enum name (attach es) → Page.enumTable (attach es) name =
        "**Error:** Enum \x60".toList ++ name ++ "\x60 not found.".toList) ∧
      (¬ Declared .service name (attach es) → Page.serviceTable (attach es) name =
        "**Error:** Service \x60".toList ++ name ++ "\x60 not found.".toList)) ∧
    (entry.Absent ∨ (∃ f, entry.Broken f) ∨ ∃ es, entry.Holds es) ∧
    ∀ f, s.messageTable files name file = .error f ↔ entry.Broken f := by
  intro entry
  refine ⟨tables_of_absent name, fun f => tables_of_broken name, fun es hes => ?_,
    entry.absent_or_broken_or_holds, fun f => messageTable_eq_error⟩
  obtain ⟨hmessage, henum, hservice⟩ := tables_of_holds name hes
  obtain ⟨hnoMessage, hnoEnum, hnoService⟩ := Page.notFound_eq name
  refine ⟨hmessage, henum, hservice, fun h => ?_, fun h => ?_, fun h => ?_⟩
  · rw [Page.messageTable, find?_of_not_declared h, hnoMessage]
  · rw [Page.enumTable, find?_of_not_declared h, hnoEnum]
  · rw [Page.serviceTable, find?_of_not_declared h, hnoService]

theorem usual_resolve (file : Path) : usual.resolve file = file := by
  have hparent : usual.docsDir.parent = [] := by decide +kernel
  rw [resolve, hparent, Path.join]
  split <;> rfl

/-- a tree with a directory at the usual path of the schema file, and a schema file beside it -/
def sampleTree : FileTree :=
  ((FileTree.empty ["w".toList]).makeDirectory usualFile).write "e.proto".toList
    "enum E\x7bA=0;\x7d".toUTF8

def sampleEnum : List Element :=
  [.block [] (.enum ['E']) [.statement [] (.enumValue ⟨['A'], 0, []⟩)]]

theorem error_policies_sampleTree :
    (sampleTree.entry (usual.resolve "m.proto".toList)).Absent ∧
      usual.messageTable sampleTree.entry ['E'] (some "m.proto".toList) =
        .ok ("**Error:** Proto not found: ".toList ++ "m.proto".toList) ∧
    (sampleTree.entry (usual.resolve usualFile)).Broken (.file .isDirectory) ∧
      usual.messageTable sampleTree.entry ['E'] none = .error (.file .isDirectory) ∧
    (sampleTree.entry (usual.resolve "e.proto".toList)).Holds sampleEnum ∧
      ¬ Declared .enum ['F'] (attach sampleEnum) ∧
      usual.enumTable sampleTree.entry ['F'] (some "e.proto".toList) =
        "**Error:** Enum \x60".toList ++ ['F'] ++ "\x60 not found.".toList := by
  have habsent : (sampleTree.entry (usual.resolve "m.proto".toList)).Absent := by
    rw [usual_resolve]
    exact .missing
  have hbroken : (sampleTree.entry (usual.resolve usualFile)).Broken (.file .isDirectory) := by
    rw [usual_resolve]
    exact .unreadable (Entry.isThere_iff.1 rfl) .directory
  have hcontent : sampleTree.entry (usual.resolve "e.proto".toList) =
      .file "enum E\x7bA=0;\x7d".toList.utf8Encode := by
    rw [usual_resolve, String.utf8Encode_toList]
    rfl
  have hholds : (sampleTree.entry (usual.resolve "e.proto".toList)).Holds sampleEnum := by
    rw [hcontent]
    exact .schema (parse_eq_ok.2 (by decide +kernel))
  have hunknown : ¬ Declared .enum ['F'] (attach sampleEnum) := by
    intro h
    cases h with
    | here hmem hdeclares =>
      obtain rfl := List.mem_singleton.1 hmem
      exact absurd hdeclares (by decide)
    | inside hmem _ =>
      cases List.mem_singleton.1 hmem
  obtain ⟨-, henum, -, -, hreport, -⟩ := (error_policies usual sampleTree.entry ['F']
    (some "e.proto".toList)).2.2.1 sampleEnum hholds
  exact ⟨habsent, ((error_policies usual sampleTree.entry ['E'] (some "m.proto".toList)).1 habsent).1,
    hbroken, ((error_policies usual sampleTree.entry ['E'] none).2.1 _ hbroken).1,
    hholds, hunknown, henum.trans (hreport hunknown)⟩

end Site
end ProtoDocs
