import ProtoDocs.Proofs.Files.Path
import ProtoDocs.Proofs.Site.Policies

/-!
# Where schema files are looked for

Schema files are named from the directory above the documents.  That is so if the last component of
the documents directory is an ordinary name.  Of any other documents directory the last component is
cut off all the same, though the place above it is another one.  The settings file names the
documents directory from its own directory, and with a single component there, schema files are
looked for beside the settings file.

* `Path.HasPlainEnd`     the last component can be cut off in place of going up;
* `Site.resolve_beside`  when a site looks for schema files above its documents;
* `Site.resolve_load`    the site of a settings file looks for them beside that file.
-/

namespace ProtoDocs

/-! ## above the documents -/

/-- The last component is an ordinary one, or leads nowhere from the root. -/
def Path.HasPlainEnd (d : Path) : Prop :=
  ∃ cs c, d.components = cs ++ [c] ∧ (c ≠ up ∨ d.isAbsolute = true ∧ walk true cs = [])

namespace Site

open ProtoDocs.Path

variable {d f : Path}

theorem components_beside (d f : Path) :
    components (d ++ "/../".toList ++ f) = d.components ++ up :: f.components := by
  have happend : d ++ "/../".toList ++ f = d ++ '/' :: (up ++ '/' :: f) := by simp [up]
  rw [happend, components_append, components_append]
  rfl

theorem normal_beside (hd : d ≠ []) (f : Path) :
    normal (d ++ "/../".toList ++ f) =
      (d.isAbsolute, walk d.isAbsolute (d.components ++ up :: f.components)) := by
  rw [normal, components_beside, List.append_assoc, isAbsolute_append hd]

theorem normal_resolve (d : Path) (hf : f.isAbsolute = false) :
    normal ((ofDocsDir d).resolve f) =
      (d.parent.isAbsolute, walk d.parent.isAbsolute (d.components.dropLast ++ f.components)) := by
  show normal (d.parent.join f) = _
  rw [normal, components_join _ hf, components_parent, isAbsolute_join _ hf]

/-- **Schema files are looked for above the documents.**  An absolute path stands for itself.  Every
relative path names the same place as behind the documents directory and a step up, exactly if the
documents directory has a plain end. -/
theorem resolve_beside (hd : d ≠ []) :
    (∀ f : Path, f.isAbsolute = true → (ofDocsDir d).resolve f = f) ∧
      ((∀ f : Path, f ≠ [] → f.isAbsolute = false →
        normal ((ofDocsDir d).resolve f) = normal (d ++ "/../".toList ++ f)) ↔ d.HasPlainEnd) := by
  refine ⟨fun f => join_absolute _, ?_, ?_⟩
  · -- one name is enough to tell the places apart
    intro h
    have hx := h ['x'] (by simp) rfl
    rw [normal_beside hd, normal_resolve d rfl, Prod.mk.injEq] at hx
    obtain ⟨habs, hwalk⟩ := hx
    rw [habs] at hwalk
    rcases List.eq_nil_or_concat d.components with hnil | ⟨cs, c, hcs⟩
    · rw [parent_eq_nil hnil] at habs
      rw [← habs, hnil] at hwalk
      exact absurd hwalk (by decide)
    · rw [List.concat_eq_append] at hcs
      refine ⟨cs, c, hcs, ?_⟩
      by_cases hc : c = up
      · have hx : components ['x'] = [['x']] := rfl
        rw [hcs, List.dropLast_concat, hx, hc, walk_concat, step_ordinary (by decide), walk_append,
          walk_concat, step_up, List.foldl_cons, step_up, List.foldl_cons,
          step_ordinary (by decide), List.foldl_nil] at hwalk
        obtain ⟨hroot, hcs⟩ := stepUp_twice_iff.1 (List.cons.inj hwalk).2.symm
        exact .inr ⟨hroot, hroot ▸ hcs⟩
      · exact .inl hc
  · rintro ⟨cs, c, hcs, hc⟩ f - hf
    have hne : d.components ≠ [] := by simp [hcs]
    rw [normal_beside hd, normal_resolve d hf, isAbsolute_parent hne, hcs, List.dropLast_concat,
      List.append_cons, walk_append, walk_append, walk_concat, walk_concat, step_up]
    rcases hc with hc | ⟨habs, hroot⟩
    · rw [step_ordinary hc, stepUp_ordinary hc]
    · by_cases hc : c = up
      · rw [hc, step_up, habs, stepUp_twice_iff.2 ⟨rfl, hroot⟩]
      · rw [step_ordinary hc, stepUp_ordinary hc]

theorem resolve_beside_docs :
    "docs".toList ≠ [] ∧ HasPlainEnd "docs".toList ∧
      normal ((ofDocsDir "docs".toList).resolve "a.proto".toList) =
        normal ("docs".toList ++ "/../".toList ++ "a.proto".toList) := by
  have hdocs : "docs".toList ≠ [] := by decide
  have hplain : HasPlainEnd "docs".toList := ⟨[], "docs".toList, by decide, .inl (by decide)⟩
  exact ⟨hdocs, hplain, (resolve_beside hdocs).2.2 hplain _ (by decide) (by decide)⟩

/-- Schema files are not always looked for above the documents: not if those are above the working
directory. -/
theorem not_forall_resolve_beside :
    ¬∀ d f : Path, d ≠ [] → f ≠ [] → f.isAbsolute = false →
      normal ((ofDocsDir d).resolve f) = normal (d ++ "/../".toList ++ f) := by
  intro hall
  have hup := hall "..".toList "a.proto".toList (by decide) (by decide) (by decide)
  rw [normal_beside (by decide), normal_resolve _ (by decide), isAbsolute_parent (by decide)] at hup
  exact absurd hup (by decide)

/-! ## beside the settings file -/

/-- **Schema files are looked for beside the settings file**, whatever way its path is written, if that
file names no documents directory or one of a single component. -/
theorem resolve_load {files : Files} {p : Path} {text : Text} {docsDir : Option Path}
    (htext : (files p).text = .ok text) (hdir : SettingsFile.docsDir? text = .ok docsDir)
    (hone : ∀ d ∈ docsDir, d.start = [] ∧ d.components.length = 1) :
    ∃ s, load files p = .ok s ∧ ∀ f : Path, s.resolve f = p.parent.join f := by
  refine ⟨ofDocsDir (p.parent.join (docsDir.getD usualDocsDir)), ?_, fun f => ?_⟩
  · rw [load, htext]
    simp only [hdir]
  · obtain ⟨hstart, hlength⟩ : (docsDir.getD usualDocsDir).start = [] ∧
        (docsDir.getD usualDocsDir).components.length = 1 := by
      cases docsDir with
      | none => exact ⟨rfl, by decide⟩
      | some d => exact hone d rfl
    obtain ⟨c, hc⟩ := List.length_eq_one_iff.1 hlength
    show (p.parent.join (docsDir.getD usualDocsDir)).parent.join f = p.parent.join f
    rw [parent_join p hstart hc]

/-- files of which only the settings are there, in a directory of their own -/
def pagesFiles : Files := fun path =>
  if path = "./site//mkdocs.yml".toList then .file "docs_dir: pages\n".toUTF8
  else .missing

theorem resolve_load_pagesFiles :
    (pagesFiles "./site//mkdocs.yml".toList).text = .ok "docs_dir: pages\n".toList ∧
      SettingsFile.docsDir? "docs_dir: pages\n".toList = .ok (some "pages".toList) ∧
      start "pages".toList = [] ∧ (components "pages".toList).length = 1 ∧
      ∃ s, load pagesFiles "./site//mkdocs.yml".toList = .ok s ∧
        ∀ f : Path, s.resolve f = (parent "./site//mkdocs.yml".toList).join f := by
  have htext : (pagesFiles "./site//mkdocs.yml".toList).text = .ok "docs_dir: pages\n".toList := by
    have htext := Entry.text_utf8Encode "docs_dir: pages\n".toList
    rw [String.utf8Encode_toList] at htext
    rw [pagesFiles, if_pos rfl]
    exact htext
  have hdir : SettingsFile.docsDir? "docs_dir: pages\n".toList = .ok (some "pages".toList) := by
    decide +kernel
  have hone : start "pages".toList = [] ∧ (components "pages".toList).length = 1 := by decide
  refine ⟨htext, hdir, hone.1, hone.2, resolve_load htext hdir ?_⟩
  rintro d ⟨⟩
  exact hone

end Site
end ProtoDocs
