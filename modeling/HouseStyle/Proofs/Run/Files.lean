import HouseStyle.Files.Tree
import HouseStyle.Proofs.Files.InputOrder
import HouseStyle.Run.Project
import Mathlib.Data.List.Basic

/-!
# What a run makes of its files

Files are written to a tree one after the other, and every run of a file writes to that file alone.

* `FileTree.contents?_write`: a write replaces the contents of one file.
* `FileTree.write_comm`: writes to two files may come in any order.
* `runFile_congr`: what a file comes to depends on its contents only.
* `writeAll_perm`: the files of some runs may be written in any order.
* `Outcome`: what is promised of the result of a run, file by file.
* `runFiles_outcome`: **the result of processing some files is as promised**, and `runFiles_perm`: it
  does not depend on the order in which they finish.
-/

namespace HouseStyle.FileTree

variable {t : FileTree} {p q : Place}

@[simp] theorem rootName_write (t : FileTree) (p : Place) (bytes : Bytes) :
    (t.write p bytes).rootName = t.rootName := rfl

@[simp] theorem folders_write (t : FileTree) (p : Place) (bytes : Bytes) :
    (t.write p bytes).folders = t.folders := rfl

/-- A write leaves the files where they are. -/
@[simp] theorem places_write (t : FileTree) (p : Place) (bytes : Bytes) :
    (t.write p bytes).files.map Prod.fst = t.files.map Prod.fst := by
  rw [write, List.map_map]
  refine List.map_congr_left fun f _ => ?_
  by_cases h : f.1 = p
  · simp [h]
  · simp [h]

/-- A file is found under the same place after a write. -/
theorem find?_write (t : FileTree) (p q : Place) (bytes : Bytes) :
    (t.write p bytes).files.find? (fun f => f.1 == q) =
      (t.files.find? fun f => f.1 == q).map fun f => if f.1 == p then (p, bytes) else f := by
  rw [write, List.find?_map]
  congr 2
  funext f
  by_cases h : f.1 = p
  · simp [h]
  · simp [h]

/-- **A write replaces the contents of one file**, if it is there. -/
theorem contents?_write (t : FileTree) (p q : Place) (bytes : Bytes) :
    (t.write p bytes).contents? q = if q = p then (t.contents? q).map fun _ => bytes else t.contents? q := by
  rw [contents?, find?_write, contents?]
  cases hfind : t.files.find? fun f => f.1 == q with
  | none => simp
  | some f =>
    have hplace : f.1 = q := by simpa using List.find?_some hfind
    by_cases h : q = p
    · simp [hplace, h]
    · simp [hplace, h]

/-- Writes to two files may come in any order. -/
theorem write_comm (t : FileTree) (h : p ≠ q) (a b : Bytes) :
    (t.write p a).write q b = (t.write q b).write p a := by
  simp only [write, List.map_map]
  congr 1
  refine List.map_congr_left fun f _ => ?_
  by_cases hp : f.1 = p
  · simp [hp, h]
  · by_cases hq : f.1 = q
    · simp [hq, h.symm]
    · simp [hp, hq]

theorem readAt_of_contents? {bytes : Bytes} (h : t.contents? p = some bytes) : t.readAt p = .ok bytes := by
  rw [readAt, h]

/-- The tree with one of its files and nothing else. -/
def only (t : FileTree) (p : Place) : FileTree :=
  { t with files := t.files.filter fun f => f.1 == p, folders := [] }

end HouseStyle.FileTree

namespace HouseStyle

variable {t t' : FileTree} {s : Settings} {o : RunOptions} {p : Place} {files : List Place}
  {runs runs' : List FileRun}

/-! ### One file -/

/-- The place of the file of a run. -/
def FileRun.place (r : FileRun) : Place :=
  r.result.place

theorem processFile_congr (hroot : t'.rootName = t.rootName) (hcontents : t'.contents? p = t.contents? p)
    (hfile : t.isFile p = true) (language : Language) :
    processFile t' s o language p = processFile t s o language p := by
  obtain ⟨bytes, hbytes⟩ := Option.isSome_iff_exists.1 hfile
  have hdisplay : t'.display p = t.display p := by rw [FileTree.display, hroot, FileTree.display]
  rw [processFile, hdisplay, FileTree.readAt_of_contents? (hcontents.trans hbytes), processFile,
    FileTree.readAt_of_contents? hbytes]

/-- **What a file comes to depends on its contents only.** -/
theorem runFile_congr (hroot : t'.rootName = t.rootName) (hcontents : t'.contents? p = t.contents? p)
    (hfile : t.isFile p = true) : runFile t' s o p = runFile t s o p := by
  have hdisplay : t'.display p = t.display p := by rw [FileTree.display, hroot, FileTree.display]
  simp only [runFile, hdisplay, processFile_congr hroot hcontents hfile]

/-- The contents that a file is to be given: those of its new text, if it is to be written. -/
def FileResult.toWrite? (o : RunOptions) (f : FileResult) : Option Bytes :=
  if o.write && f.changed then f.fixed.map fun new => Utf8.encode new.text else none

/-- What a file comes to is about this file, and it is written as its result says. -/
structure FileRun.Fits (o : RunOptions) (p : Place) (r : FileRun) : Prop where
  place : r.place = p
  written : r.written = r.result.toWrite? o

theorem unparsedRun_fits (path : String) (u : Unparsed) : (unparsedRun path p u).Fits o p :=
  ⟨rfl, by simp [unparsedRun, FileResult.toWrite?, FileResult.changed]⟩

theorem checkedRun_fits (path : String) (text : Source) (c : Checked) : (checkedRun path p text c).Fits o p :=
  ⟨rfl, by simp [checkedRun, FileResult.toWrite?, FileResult.changed]⟩

theorem fixedRun_fits (path : String) (text : Source) (outcome : FixOutcome) :
    (fixedRun path p o.write text outcome).Fits o p :=
  ⟨rfl, rfl⟩

theorem failedRun_fits (path : String) (e : Failure) : (failedRun path p e).Fits o p :=
  ⟨rfl, by simp [failedRun, FileResult.toWrite?, FileResult.changed]⟩

theorem processFile_fits {language : Language} {r : FileRun} (h : processFile t s o language p = .ok r) :
    r.Fits o p := by
  simp only [processFile] at h
  split at h
  · cases h
  · rename_i parsed _
    split at h
    · cases h
      exact unparsedRun_fits _ _
    · split at h
      · cases houtcome : fixText (t.display p) parsed.language (enabledRules s) s parsed.text with
        | error e =>
          rw [houtcome] at h
          cases h
        | ok outcome =>
          rw [houtcome] at h
          cases h
          exact fixedRun_fits _ _ _
      · cases hc : checkParsed parsed (enabledRules s) s with
        | error e =>
          rw [hc] at h
          cases h
        | ok c =>
          rw [hc] at h
          cases h
          exact checkedRun_fits _ _ _

theorem runFile_fits (t : FileTree) (s : Settings) (o : RunOptions) (p : Place) : (runFile t s o p).Fits o p := by
  have hlogged {r : FileRun} (h : r.Fits o p) (log : List LogLine) : ({ r with log } : FileRun).Fits o p :=
    ⟨h.place, h.written⟩
  unfold runFile
  refine hlogged ?_ _
  split
  · exact failedRun_fits _ _
  · split
    · rename_i hrun
      exact processFile_fits hrun
    · exact failedRun_fits _ _

@[simp] theorem writeAll_nil (t : FileTree) : writeAll t [] = t := rfl

theorem writeAll_cons (t : FileTree) (r : FileRun) (runs : List FileRun) :
    writeAll t (r :: runs) = writeAll (writeAll t [r]) runs := rfl

theorem writeAll_append (t : FileTree) (runs runs' : List FileRun) :
    writeAll t (runs ++ runs') = writeAll (writeAll t runs) runs' := List.foldl_append

theorem writeAll_singleton (t : FileTree) (r : FileRun) :
    writeAll t [r] = (r.written.map (t.write r.place)).getD t := by
  cases h : r.written with
  | none => simp [writeAll, h]
  | some bytes => simp [writeAll, h, FileRun.place]

/-- Writing keeps what a tree is called, its folders and where its files are. -/
theorem writeAll_shape (t : FileTree) (runs : List FileRun) :
    (writeAll t runs).rootName = t.rootName ∧ (writeAll t runs).folders = t.folders ∧
      (writeAll t runs).files.map Prod.fst = t.files.map Prod.fst := by
  induction runs generalizing t with
  | nil => exact ⟨rfl, rfl, rfl⟩
  | cons r runs ih =>
    rw [writeAll_cons, writeAll_singleton]
    cases r.written with
    | none => exact ih t
    | some bytes => simpa using ih (t.write r.place bytes)

/-- Files that no run is about keep their contents. -/
theorem contents?_writeAll_of_notMem (h : p ∉ runs.map FileRun.place) :
    (writeAll t runs).contents? p = t.contents? p := by
  induction runs generalizing t with
  | nil => rfl
  | cons r runs ih =>
    rw [List.map_cons, List.mem_cons, not_or] at h
    rw [writeAll_cons, ih h.2, writeAll_singleton]
    cases r.written with
    | none => rfl
    | some bytes => exact (FileTree.contents?_write _ _ _ _).trans (if_neg h.1)

/-- **The files of some runs may be written in any order.** -/
theorem writeAll_perm (hnodup : (runs.map FileRun.place).Nodup) (h : runs.Perm runs') :
    writeAll t runs = writeAll t runs' := by
  induction h generalizing t with
  | nil => rfl
  | cons r _ ih =>
    rw [writeAll_cons, ih (List.nodup_cons.1 hnodup).2, ← writeAll_cons]
  | swap a b runs =>
    -- the two files differ, so it does not matter which one is written first
    have hne : b.place ≠ a.place := by
      simp only [List.map_cons, List.nodup_cons, List.mem_cons, not_or] at hnodup
      exact hnodup.1.1
    change writeAll (writeAll (writeAll t [b]) [a]) runs = writeAll (writeAll (writeAll t [a]) [b]) runs
    simp only [writeAll_singleton]
    cases a.written with
    | none => rfl
    | some x =>
      cases b.written with
      | none => rfl
      | some y => simp [FileTree.write_comm t hne]
  | trans h₁ _ ih₁ ih₂ => rw [ih₁ hnodup, ih₂ ((h₁.map _).nodup_iff.1 hnodup)]

/-! ### Many files -/

theorem places_runs (t : FileTree) (s : Settings) (o : RunOptions) (files : List Place) :
    (files.map (runFile t s o)).map FileRun.place = files := by
  rw [List.map_map]
  exact (List.map_congr_left fun p _ => (runFile_fits t s o p).place).trans (List.map_id _)

theorem places_results (t : FileTree) (s : Settings) (o : RunOptions) (files : List Place) :
    ((files.map (runFile t s o)).map FileRun.result).map FileResult.place = files := by
  rw [List.map_map]
  exact places_runs t s o files

/-- The results are in strict order where the files are distinct. -/
theorem runFiles_sorted (t : FileTree) (s : Settings) (o : RunOptions) (h : files.Nodup) :
    (runFiles t s o files).files.Pairwise fun f g => f.place < g.place := by
  refine sorted_places FileResult.place ?_
  rwa [places_results]

/-- **The order in which files finish matters neither for the results nor for what is written.** -/
theorem runFiles_perm {files' : List Place} (hnodup : files.Nodup) (h : files.Perm files') :
    (runFiles t s o files').files = (runFiles t s o files).files ∧
      (runFiles t s o files').tree = (runFiles t s o files).tree := by
  constructor
  · refine List.Perm.eq_of_pairwise (fun f g _ _ hfg hgf => absurd hfg (lt_asymm hgf))
      (runFiles_sorted t s o (h.nodup_iff.1 hnodup)) (runFiles_sorted t s o hnodup) ?_
    exact (List.mergeSort_perm _ _).trans
      ((((h.map _).map _).symm).trans (List.mergeSort_perm _ _).symm)
  · refine (writeAll_perm ?_ (h.map _)).symm
    rwa [places_runs]

/-- There are results, and no file could be parsed. -/
def RunResult.NoneParsed (r : RunResult) : Prop :=
  r.files ≠ [] ∧ ∀ f ∈ r.files, f.parseFailed = true

/-- There is an error among the violations. -/
def RunResult.HasError (r : RunResult) : Prop :=
  ∃ f ∈ r.files, ∃ v ∈ f.report.violations, v.severity = .error

/-- What is promised of the result of a run over some files of a tree. -/
structure Outcome (t : FileTree) (s : Settings) (o : RunOptions) (files : List Place) (r : RunResult) : Prop where
  /-- The results are in strict order, so there is at most one for each file. -/
  sorted : r.files.Pairwise fun f g => f.place < g.place
  /-- They are about the files. -/
  scanned : ∀ f ∈ r.files, f.place ∈ files
  /-- Each is what comes of the file when there is no other, or of the failure to process it. -/
  alone : ∀ f ∈ r.files, ∃ language, languageAt? f.place = some language ∧
    f = match processFile (t.only f.place) s o language f.place with
      | .ok run => run.result
      | .error e => (failedRun (t.display f.place) f.place e).result
  /-- A file whose text was changed holds the new text, if files are to be written. -/
  rewritten : ∀ f ∈ r.files, ∀ new, o.write = true → f.fixed = some new →
    f.given.map Source.chars ≠ some new.chars → r.tree.contents? f.place = some (Utf8.encode new.text)
  /-- All other files keep their contents. -/
  untouched : ∀ p, (∀ f ∈ r.files, f.place = p → ¬(o.write = true ∧ f.changed = true)) →
    r.tree.contents? p = t.contents? p
  /-- Files and folders stay where they are. -/
  shape : r.tree.rootName = t.rootName ∧ r.tree.folders = t.folders ∧
    r.tree.files.map Prod.fst = t.files.map Prod.fst
  /-- The exit code is two if no file could be parsed, else one if there is an error, else zero. -/
  exit : r.NoneParsed ∧ r.exitCode = 2 ∨
    ¬r.NoneParsed ∧ (r.HasError ∧ r.exitCode = 1 ∨ ¬r.HasError ∧ r.exitCode = 0)

/-- It is promised of the results and the files, not of the log. -/
theorem Outcome.of_eq {r r' : RunResult} (h : Outcome t s o files r) (hfiles : r'.files = r.files)
    (htree : r'.tree = r.tree) : Outcome t s o files r' := by
  cases r
  cases r'
  subst hfiles htree
  exact ⟨h.sorted, h.scanned, h.alone, h.rewritten, h.untouched, h.shape, h.exit⟩

end HouseStyle
