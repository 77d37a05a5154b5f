import HouseStyle.Output.Listing
import HouseStyle.Proofs.Rule.Messages

/-!
# The lines of a listing

A listing joins one text for each violation at line feeds. Such a text is one line where the path, the name of
the rule and the message are, so whether violations and lines match is up to the messages.

* `LinePerViolation`: a listing has one line for each violation, in the order of the paths, and each of them
  begins with the place of the violation and how grave it is.
* `piecesOf_text`: the lines of a listing are those of the texts about the violations.
* `linePerViolation_iff`: there is one line for each violation where each message stands on one line.
* `linted_lines`: **among linted files there is, unless a message quotes a text of a stylesheet that does not
  stand on one line.**
-/

namespace HouseStyle

namespace Listing

variable {reports : List FileReport} {path : String} {v : Violation}

/-! ### One line for each violation -/

/-- The violations of some reports, each with the path of its file. -/
def entries (reports : List FileReport) : List (String × Violation) :=
  reports.flatMap fun r => r.report.violations.map fun v => (r.path, v)

/-- The place of a violation, and how grave it is. -/
def place (path : String) (v : Violation) : String :=
  s!"{path}:{v.location.start.line}:{v.location.start.column} [{v.severity.name}]"

/-- Without violations a listing is empty, and otherwise it has one line for each violation, file by file in
the order of the paths, which begins with the place of the violation and how grave it is. -/
structure LinePerViolation (reports : List FileReport) : Prop where
  empty : text reports = "" ↔ ∀ r ∈ reports, r.report.violations = []
  lines : text reports ≠ "" → ∃ arranged : List FileReport, arranged.Perm reports ∧
    arranged.Pairwise (fun a b => a.path ≤ b.path) ∧
    List.Forall₂ (fun line e => (place e.1 e.2).toList <+: line)
      (piecesOf '\n' (text reports).toList) (entries arranged)

theorem mem_entries : (path, v) ∈ entries reports ↔ ∃ r ∈ reports, r.path = path ∧ v ∈ r.report.violations := by
  rw [entries, List.mem_flatMap]
  refine exists_congr fun r => and_congr_right fun _ => ?_
  rw [List.mem_map]
  constructor
  · rintro ⟨w, hw, heq⟩
    cases heq
    exact ⟨rfl, hw⟩
  · rintro ⟨rfl, hv⟩
    exact ⟨v, hv, rfl⟩

theorem sorted_perm (reports : List FileReport) : (sorted reports).Perm reports :=
  List.mergeSort_perm _ _

theorem sorted_pairwise (reports : List FileReport) : (sorted reports).Pairwise fun a b => a.path ≤ b.path := by
  have htrans (a b c : FileReport) (hab : decide (a.path ≤ b.path) = true) (hbc : decide (b.path ≤ c.path) = true) :
      decide (a.path ≤ c.path) = true :=
    decide_eq_true (le_trans (of_decide_eq_true hab) (of_decide_eq_true hbc))
  have htotal (a b : FileReport) : (decide (a.path ≤ b.path) || decide (b.path ≤ a.path)) = true := by
    rw [Bool.or_eq_true, decide_eq_true_eq, decide_eq_true_eq]
    exact le_total a.path b.path
  exact (List.pairwise_mergeSort htrans htotal reports).imp of_decide_eq_true

theorem entries_eq_nil_iff : entries reports = [] ↔ ∀ r ∈ reports, r.report.violations = [] := by
  simp only [entries, List.flatMap_eq_nil_iff, List.map_eq_nil_iff]

/-! ### The texts about violations -/

theorem line_eq (path : String) (v : Violation) :
    line path v = place path v ++ (" " ++ v.rule ++ " " ++ v.message) := by
  simp only [line, place, String.append_assoc]
  rfl

/-- The text about a violation begins with its place. -/
theorem place_prefix (path : String) (v : Violation) : (place path v).toList <+: (line path v).toList := by
  rw [line_eq, String.toList_append]
  exact List.prefix_append _ _

theorem oneLine_place (hpath : OneLine path) (v : Violation) : OneLine (place path v) := by
  have hseverity : OneLine v.severity.name := by
    cases v.severity <;> decide
  unfold place
  simp only [oneLine_append, oneLine_toString, oneLine_nat, hpath, hseverity]
  decide

theorem oneLine_line (hpath : OneLine path) (hrule : OneLine v.rule) : OneLine (line path v) ↔ OneLine v.message := by
  rw [line_eq, oneLine_append, oneLine_append, oneLine_append, oneLine_append]
  exact ⟨fun h => h.2.2, fun h => ⟨oneLine_place hpath v, ⟨⟨by decide, hrule⟩, by decide⟩, h⟩⟩

/-- The texts about the violations, as they are listed. -/
def lines (reports : List FileReport) : List (List Char) :=
  (entries (sorted reports)).map fun e => (line e.1 e.2).toList

theorem toList_text (reports : List FileReport) : (text reports).toList = ['\n'].intercalate (lines reports) := by
  have hlines : ((sorted reports).flatMap fun r => r.report.violations.map (line r.path)) =
      (entries (sorted reports)).map fun e => line e.1 e.2 := by
    simp only [entries, List.map_flatMap, List.map_map]
    rfl
  rw [text, hlines, String.toList_intercalate, List.map_map]
  rfl

/-- **The lines of a listing are those of the texts about the violations.** -/
theorem piecesOf_text (h : entries (sorted reports) ≠ []) :
    piecesOf '\n' (text reports).toList = (lines reports).flatMap (piecesOf '\n') := by
  rw [toList_text]
  exact piecesOf_joined fun hnil => h (List.map_eq_nil_iff.1 hnil)

theorem entries_perm {arranged : List FileReport} (h : arranged.Perm reports) :
    (entries arranged).Perm (entries reports) :=
  h.flatMap_right _

/-- A listing is empty where there are no violations. -/
theorem text_eq_empty_iff : text reports = "" ↔ entries (sorted reports) = [] := by
  rw [← String.toList_inj, toList_text, lines]
  cases entries (sorted reports) with
  | nil => simp
  | cons e rest =>
    have hline : (line e.1 e.2).toList ≠ [] := by
      rw [line_eq, String.toList_append, String.toList_append, String.toList_append]
      simp
    cases rest <;> simp [hline]

theorem entries_sorted_eq_nil_iff : entries (sorted reports) = [] ↔ ∀ r ∈ reports, r.report.violations = [] := by
  rw [entries_eq_nil_iff]
  exact forall_congr' fun _ => imp_congr_left (sorted_perm reports).mem_iff

/-- The texts about violations are lines where the messages are. -/
theorem forall_lines_iff (hpaths : ∀ r ∈ reports, OneLine r.path)
    (hrules : ∀ r ∈ reports, ∀ v ∈ r.report.violations, OneLine v.rule) :
    (∀ cs ∈ lines reports, '\n' ∉ cs) ↔ ∀ r ∈ reports, ∀ v ∈ r.report.violations, OneLine v.message := by
  have hlines : (∀ cs ∈ lines reports, '\n' ∉ cs) ↔ ∀ e ∈ entries (sorted reports), OneLine (line e.1 e.2) :=
    List.forall_mem_map
  rw [hlines]
  constructor
  · intro h r hr v hv
    have hmem : (r.path, v) ∈ entries (sorted reports) :=
      mem_entries.2 ⟨r, (sorted_perm reports).mem_iff.2 hr, rfl, hv⟩
    exact (oneLine_line (hpaths r hr) (hrules r hr v hv)).1 (h (r.path, v) hmem)
  · rintro h ⟨path, v⟩ he
    obtain ⟨r, hr, rfl, hv⟩ := mem_entries.1 he
    have hr := (sorted_perm reports).mem_iff.1 hr
    exact (oneLine_line (hpaths r hr) (hrules r hr v hv)).2 (h r hr v hv)

/-- **There is one line for each violation** where each message stands on one line: a text of several lines makes
the lines outnumber the violations. -/
theorem linePerViolation_iff (hpaths : ∀ r ∈ reports, OneLine r.path)
    (hrules : ∀ r ∈ reports, ∀ v ∈ r.report.violations, OneLine v.rule) :
    LinePerViolation reports ↔ ∀ r ∈ reports, ∀ v ∈ r.report.violations, OneLine v.message := by
  rw [← forall_lines_iff hpaths hrules]
  constructor
  · intro h
    by_cases hempty : entries (sorted reports) = []
    · rw [lines, hempty]
      exact List.forall_mem_nil _
    · obtain ⟨arranged, hperm, -, hmatched⟩ := h.lines fun htext => hempty (text_eq_empty_iff.1 htext)
      have hlength := hmatched.length_eq
      rw [piecesOf_text hempty, (entries_perm (hperm.trans (sorted_perm reports).symm)).length_eq] at hlength
      exact length_flatMap_piecesOf_eq_iff.1 (hlength.trans (List.length_map _).symm)
  · intro h
    refine ⟨text_eq_empty_iff.trans entries_sorted_eq_nil_iff, fun htext => ?_⟩
    refine ⟨sorted reports, sorted_perm reports, sorted_pairwise reports, ?_⟩
    have hne : lines reports ≠ [] := fun hnil => htext (text_eq_empty_iff.2 (List.map_eq_nil_iff.1 hnil))
    rw [toList_text, piecesOf_intercalate hne h, lines, List.forall₂_map_left_iff]
    exact List.forall₂_same.2 fun e _ => place_prefix e.1 e.2

end Listing

/-! ### Linted files -/

/-- A file that was parsed and checked with the rules that its settings turn on. -/
structure LintedFile where
  path : String
  parsed : Parsed
  settings : Settings
  checked : Checked
  isParsed : IsParsed parsed
  checks : checkParsed parsed (enabledRules settings) settings = .ok checked

/-- The report about a linted file. -/
def LintedFile.report (f : LintedFile) : FileReport :=
  { path := f.path, report := f.checked.report }

/-- Each text that can be parsed is one of a linted file, whatever the settings. -/
theorem exists_lintedFile {p : Parsed} (hp : IsParsed p) (path : String) (settings : Settings) :
    ∃ f : LintedFile, f.path = path ∧ f.parsed = p ∧ f.settings = settings := by
  obtain ⟨checked, hchecked, -⟩ := (separate_enabledRules settings).reports p settings
  exact ⟨⟨path, p, settings, checked, hp, hchecked⟩, rfl, rfl, rfl⟩

/-- The check of a file is what its text and the settings make it. -/
theorem LintedFile.checked_of_any (f : LintedFile) {q : Checked → Bool}
    (h : (checkParsed f.parsed (enabledRules f.settings) f.settings).toOption.any q = true) : q f.checked = true := by
  rw [f.checks] at h
  exact h

/-- **The lines of a listing of linted files.** The listing is empty exactly when there are no violations. It has
one line for each violation exactly when no message quotes a text of a stylesheet that has a line break: a
selector, the selectors of a block, the name of a property, what follows `@extend`, or a zero length. Messages
about modules, and about files that could not be parsed, never do. -/
theorem linted_lines (files : List LintedFile) (hpaths : ∀ f ∈ files, OneLine f.path) :
    (Listing.text (files.map LintedFile.report) = "" ↔ ∀ f ∈ files, f.checked.report.violations = []) ∧
      (Listing.LinePerViolation (files.map LintedFile.report) ↔
        ∀ f ∈ files, ∀ v ∈ f.checked.report.violations, ¬ BreaksMessage f.parsed f.settings v) := by
  have hpaths : ∀ r ∈ files.map LintedFile.report, OneLine r.path := List.forall_mem_map.2 hpaths
  have hrules : ∀ r ∈ files.map LintedFile.report, ∀ v ∈ r.report.violations, OneLine v.rule :=
    List.forall_mem_map.2 fun f _ v hv => oneLine_rule f.checks hv
  constructor
  · rw [Listing.text_eq_empty_iff, Listing.entries_sorted_eq_nil_iff, List.forall_mem_map]
    rfl
  · rw [Listing.linePerViolation_iff hpaths hrules, List.forall_mem_map]
    exact forall₂_congr fun f _ => forall₂_congr fun v hv => oneLine_message_iff f.isParsed f.checks hv

/-- A single violation, whose message stands on one line. -/
def Checked.isLine (c : Checked) : Bool :=
  c.report.violations.length == 1 && c.report.violations.all fun v => decide (OneLine v.message)

theorem LintedFile.quiet_of_isLine (f : LintedFile)
    (h : (checkParsed f.parsed (enabledRules f.settings) f.settings).toOption.any Checked.isLine = true) :
    f.checked.report.violations.length = 1 ∧
      ∀ v ∈ f.checked.report.violations, ¬ BreaksMessage f.parsed f.settings v := by
  have hline := f.checked_of_any h
  rw [Checked.isLine, Bool.and_eq_true, beq_iff_eq, List.all_eq_true] at hline
  exact ⟨hline.1, fun v hv => (oneLine_message_iff f.isParsed f.checks hv).1 (of_decide_eq_true (hline.2 v hv))⟩

/-- A module and a stylesheet with a violation each, which take a line each. -/
theorem linted_lines_apart : ∃ files : List LintedFile, files.map LintedFile.path = ["b.py", "a.css"] ∧
    (∀ f ∈ files, OneLine f.path) ∧
      (∀ f ∈ files, ∀ v ∈ f.checked.report.violations, ¬ BreaksMessage f.parsed f.settings v) ∧
      (Listing.entries (files.map LintedFile.report)).length = 2 ∧
      Listing.LinePerViolation (files.map LintedFile.report) := by
  have hmodule : ((parse .python (.ofString "class a: pass\n")).toOption.any fun p =>
      (checkParsed p (enabledRules .default) .default).toOption.any Checked.isLine) = true := by
    decide +kernel
  obtain ⟨p, hp, hmodule⟩ := (Option.any_eq_true _ _).1 hmodule
  obtain ⟨f, hfpath, rfl, hfsettings⟩ :=
    exists_lintedFile (.inl ⟨.python, _, toOption_eq_some.1 hp⟩) "b.py" .default
  obtain ⟨g, hgpath, hgparsed, hgsettings⟩ :=
    exists_lintedFile (.inl ⟨.css, .ofString "#a,\n.b \x7b \x7d", rfl⟩) "a.css" .default
  obtain ⟨hf, hfquiet⟩ := f.quiet_of_isLine (by rw [hfsettings]; exact hmodule)
  obtain ⟨hg, hgquiet⟩ := g.quiet_of_isLine (by rw [hgparsed, hgsettings]; decide +kernel)
  have hpaths : ∀ x ∈ [f, g], OneLine x.path := by
    rw [List.forall_mem_cons, List.forall_mem_singleton, hfpath, hgpath]
    decide
  have hquiet : ∀ x ∈ [f, g], ∀ v ∈ x.checked.report.violations, ¬ BreaksMessage x.parsed x.settings v :=
    List.forall_mem_cons.2 ⟨hfquiet, List.forall_mem_singleton.2 hgquiet⟩
  refine ⟨[f, g], by rw [List.map_cons, List.map_singleton, hfpath, hgpath], hpaths, hquiet, ?_,
    (linted_lines [f, g] hpaths).2.2 hquiet⟩
  simp [Listing.entries, LintedFile.report, hf, hg]

/-- The message about a list after `@extend` quotes its lines, so that one violation takes two. -/
theorem linted_lines_extend : ∃ f : LintedFile, f.path = "a.scss" ∧
    parse .scss (.ofString ".a \x7b\n  @extend .b,\n    .c;\n\x7d\n") = .ok f.parsed ∧ f.settings = .default ∧
      f.checked.report.violations.length = 1 ∧
      Listing.text [f.report] =
        "a.scss:2:3 [error] css.no-extend @extend .b,\n    .c is not allowed; use a mixin" ∧
      ¬ Listing.LinePerViolation [f.report] := by
  obtain ⟨f, hpath, hparsed, hsettings⟩ := exists_lintedFile
    (.inl ⟨.scss, .ofString ".a \x7b\n  @extend .b,\n    .c;\n\x7d\n", rfl⟩) "a.scss" .default
  have hlines : f.checked.report.violations.map (Listing.line "a.scss") =
      ["a.scss:2:3 [error] css.no-extend @extend .b,\n    .c is not allowed; use a mixin"] := by
    refine beq_iff_eq.1 (f.checked_of_any (q := fun c => c.report.violations.map (Listing.line "a.scss") ==
      ["a.scss:2:3 [error] css.no-extend @extend .b,\n    .c is not allowed; use a mixin"]) ?_)
    rw [hparsed, hsettings]
    decide +kernel
  have hcount : f.checked.report.violations.length = 1 := by
    rw [← List.length_map, hlines]
    rfl
  have htext : Listing.text [f.report] =
      "a.scss:2:3 [error] css.no-extend @extend .b,\n    .c is not allowed; use a mixin" := by
    have hsorted : Listing.sorted [f.report] = [f.report] := List.mergeSort_singleton f.report
    rw [Listing.text, hsorted, List.flatMap_singleton, LintedFile.report, hpath, hlines]
    rfl
  refine ⟨f, hpath, congrArg Except.ok hparsed.symm, hsettings, hcount, htext, fun h => ?_⟩
  obtain ⟨arranged, hperm, -, hmatched⟩ := h.lines (by rw [htext]; decide)
  have hentries : (Listing.entries [f.report]).length = 1 := by
    rw [Listing.entries, List.flatMap_singleton, List.length_map]
    exact hcount
  have hlength := hmatched.length_eq
  rw [(Listing.entries_perm hperm).length_eq, hentries, htext] at hlength
  revert hlength
  decide +kernel

end HouseStyle
