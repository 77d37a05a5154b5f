import HouseStyle.Proofs.Files.InputOrder
import HouseStyle.Proofs.Glob.Patterns

/-!
# What the default settings leave out

Without any settings, a scan leaves out what is in some folders wherever they are, what has a name
that begins with a dot, and what is in some folders at the top.

* `mem_scan_default`: the files to check when nothing is said.
* `default_topExcludes`: **folders at the top are left out by their exact names**, which for a pattern
  with a wildcard is not what it matches.
-/

namespace HouseStyle

open Glob (foldersOf belowFolders IsRelative)

variable {t : FileTree} {inputs : List Place} {file : Place} {path : List Char}

/-- The folders that are left out wherever they are. -/
def hiddenFolders : List (List Char) :=
  ["__pycache__", ".git", ".venv", "venv", "env", "node_modules"].map String.toList

/-- The patterns of folders that are left out at the top. -/
def topExcludes : List (List Char) :=
  ["build", "dist", "*.egg-info"].map String.toList

/-- The suffixes, without their dots, of the files that are checked. -/
def knownSuffixes : List (List Char) :=
  ["css", "scss", "py"].map String.toList

/-- The text of a file that the patterns are matched against. -/
def subjectOf (t : FileTree) (inputs : List Place) (file : Place) : List Char :=
  Glob.subject { root := "/", parts := baseOf t inputs file } { root := "/", parts := file }

/-- The default patterns of what to leave out, by their shapes. -/
theorem defaultExcludes_perm :
    (Settings.defaultExcludes.map String.toList).Perm
      (hiddenFolders.map (fun name => belowFolders [name]) ++ "**/.*".toList ::
        topExcludes.map (· ++ "/**".toList)) := by
  decide +kernel

theorem defaultIncludes_eq :
    Settings.defaultIncludes.map String.toList = knownSuffixes.map ("**/*.".toList ++ ·) := by
  decide

theorem any_texts (patterns : List String) (path : List Char) :
    (patterns.any fun p => Glob.isMatch p.toList path) =
      (patterns.map String.toList).any (Glob.isMatch · path) := by
  rw [List.any_map]
  rfl

theorem any_defaultExcludes (path : List Char) :
    (Settings.defaultExcludes.any fun p => Glob.isMatch p.toList path) = true ↔
      (∃ name ∈ hiddenFolders, name ∈ foldersOf path) ∨ (∃ comp ∈ piecesOf '/' path, comp.head? = some '.') ∨
        ∃ name ∈ topExcludes, (foldersOf path).head? = some name ∨ path = name := by
  have hfolder : ∀ name ∈ hiddenFolders,
      (Glob.isMatch (belowFolders [name]) path = true ↔ name ∈ foldersOf path) := by
    intro name hname
    have hplain : ∀ name ∈ hiddenFolders, Glob.isPlainName name = true := by decide
    rw [Glob.isMatch_belowFolders (by simp) (by simpa using hplain name hname)]
    simp [List.singleton_infix_iff]
  have htop : ∀ name ∈ topExcludes,
      (Glob.isMatch (name ++ "/**".toList) path = true ↔ (foldersOf path).head? = some name ∨ path = name) := by
    intro name hname
    have hplain : ∀ name ∈ topExcludes, occursIn "**".toList name = false ∧ '/' ∉ name := by decide
    exact Glob.isMatch_within (hplain name hname).1 (hplain name hname).2 path
  rw [any_texts, List.any_eq_true]
  simp only [defaultExcludes_perm.mem_iff, List.mem_append, List.mem_cons, List.mem_map]
  constructor
  · rintro ⟨_, ⟨name, hname, rfl⟩ | rfl | ⟨name, hname, rfl⟩, h⟩
    · exact .inl ⟨name, hname, (hfolder name hname).1 h⟩
    · exact .inr (.inl ((Glob.isMatch_dotted path).1 h))
    · exact .inr (.inr ⟨name, hname, (htop name hname).1 h⟩)
  · rintro (⟨name, hname, h⟩ | h | ⟨name, hname, h⟩)
    · exact ⟨_, .inl ⟨name, hname, rfl⟩, (hfolder name hname).2 h⟩
    · exact ⟨_, .inr (.inl rfl), (Glob.isMatch_dotted path).2 h⟩
    · exact ⟨_, .inr (.inr ⟨name, hname, rfl⟩), (htop name hname).2 h⟩

theorem any_defaultIncludes (path : List Char) :
    (Settings.defaultIncludes.any fun p => Glob.isMatch p.toList path) = true ↔
      ∃ suffix ∈ knownSuffixes, ('.' :: suffix) <:+ path := by
  have hplain : ∀ suffix ∈ knownSuffixes, Glob.isPlainName suffix = true := by decide
  rw [any_texts, defaultIncludes_eq, List.any_map, List.any_eq_true]
  refine exists_congr fun suffix => and_congr_right fun hsuffix => ?_
  rw [Function.comp_apply, Glob.isMatch_suffix (hplain suffix hsuffix), List.isSuffixOf_iff_suffix]

/-- **The files to check when nothing is said**: those of a known suffix on whose path no component
begins with a dot, no folder has a name that is left out everywhere, and the top folder none that is left
out there. -/
theorem mem_scan_default (t : FileTree) (inputs : List Place) (file : Place) :
    file ∈ scan t .default inputs ↔
      file ∈ candidates t inputs ∧ (∃ suffix ∈ knownSuffixes, ('.' :: suffix) <:+ subjectOf t inputs file) ∧
        (∀ comp ∈ piecesOf '/' (subjectOf t inputs file), comp.head? ≠ some '.') ∧
        (∀ name ∈ hiddenFolders, name ∉ foldersOf (subjectOf t inputs file)) ∧
        ∀ name ∈ topExcludes, (foldersOf (subjectOf t inputs file)).head? ≠ some name := by
  have hwanted : isWanted t .default inputs file = true ↔
      ¬ (Settings.defaultExcludes.any fun p => Glob.isMatch p.toList (subjectOf t inputs file)) = true ∧
        (Settings.defaultIncludes.any fun p => Glob.isMatch p.toList (subjectOf t inputs file)) = true := by
    rw [Bool.not_eq_true, ← Bool.not_eq_true']
    exact Bool.and_eq_true_iff
  have hnames : ∀ name ∈ topExcludes, ∀ suffix ∈ knownSuffixes, ¬ ('.' :: suffix) <:+ name := by decide
  rw [mem_scan, hwanted, any_defaultExcludes, any_defaultIncludes]
  refine and_congr_right fun _ => ?_
  generalize subjectOf t inputs file = path
  constructor
  · rintro ⟨hout, hin⟩
    simp only [not_or, not_exists, not_and] at hout
    exact ⟨hin, hout.2.1, hout.1, fun name hname => (hout.2.2 name hname).1⟩
  · rintro ⟨⟨suffix, hsuffix, hin⟩, hdots, hhidden, htop⟩
    refine ⟨?_, suffix, hsuffix, hin⟩
    rintro (⟨name, hname, h⟩ | ⟨comp, hcomp, h⟩ | ⟨name, hname, h | rfl⟩)
    · exact hhidden name hname h
    · exact hdots comp hcomp h
    · exact htop name hname h
    · -- no file of a known suffix has one of these names
      exact hnames _ hname suffix hsuffix hin

/-- **Folders at the top are left out by their exact names.** A pattern of a folder and a doubled star
matches what is below a top folder of exactly that name, so that it is matched as a pattern exactly
where it is a literal one; and a scan with the default settings leaves out the top folders with exactly
the names of its patterns. -/
theorem default_topExcludes {pattern : List Char} (hstars : occursIn "**".toList pattern = false)
    (hslash : '/' ∉ pattern) :
    (∀ path top, (foldersOf path).head? = some top →
        (Glob.isMatch (pattern ++ "/**".toList) path = true ↔ top = pattern)) ∧
      ((∀ path top, IsRelative path → (foldersOf path).head? = some top →
          (Glob.isMatch (pattern ++ "/**".toList) path = true ↔ Wildcard.isMatch pattern top = true)) ↔
        Wildcard.IsLiteral pattern) ∧
      ∀ t inputs file, file ∈ scan t .default inputs ↔
        file ∈ candidates t inputs ∧ (∃ suffix ∈ knownSuffixes, ('.' :: suffix) <:+ subjectOf t inputs file) ∧
          (∀ comp ∈ piecesOf '/' (subjectOf t inputs file), comp.head? ≠ some '.') ∧
          (∀ name ∈ hiddenFolders, name ∉ foldersOf (subjectOf t inputs file)) ∧
          ∀ name ∈ topExcludes, (foldersOf (subjectOf t inputs file)).head? ≠ some name :=
  ⟨Glob.isMatch_within_top hstars hslash, Glob.within_matches_iff hstars hslash, mem_scan_default⟩

theorem default_topExcludes_build :
    Glob.isMatch ("build".toList ++ "/**".toList) "build/a.css".toList = true :=
  ((default_topExcludes (by decide) (by decide)).1 _ _ (by decide)).2 rfl

/-- A project with a module in a folder of package metadata. -/
def packagedProject : FileTree :=
  { rootName := "", files := [(["x.egg-info", "a.py"], [])], folders := [] }

/-- What is below a folder that one of the default patterns matches is not left out. -/
theorem scan_packaged :
    "*.egg-info".toList ∈ topExcludes ∧ Wildcard.isMatch "*.egg-info".toList "x.egg-info".toList = true ∧
      IsRelative "x.egg-info/a.py".toList ∧ (foldersOf "x.egg-info/a.py".toList).head? = some "x.egg-info".toList ∧
      Glob.isMatch ("*.egg-info".toList ++ "/**".toList) "x.egg-info/a.py".toList = false ∧
      ["x.egg-info", "a.py"] ∈ scan packagedProject .default [[]] := by
  refine ⟨by decide, by cbv, by decide, by decide, by decide, ?_⟩
  have hsubject : subjectOf packagedProject [[]] ["x.egg-info", "a.py"] = "x.egg-info/a.py".toList := by
    decide +kernel
  rw [mem_scan_default, hsubject]
  exact ⟨by decide +kernel, by decide, by decide, by decide, by decide⟩

end HouseStyle
