import HouseStyle.Files.Scan
import HouseStyle.Files.Tree
import Mathlib.Data.List.Lex
import Mathlib.Data.String.Basic

/-!
# The order of the inputs

Patterns are matched against the path below the first input that holds a file. So the order of
the inputs can matter, but only through the files that several inputs hold.

* `componentsLe_iff`: places are compared name by name, and `sorted_places`: what is sorted by distinct
  places is in strict order.
* `mem_scan`: the files to check are those the settings want below their input.
* `scan_sorted`: they come in strict order, each once.
* `scan_perm_iff`: **their order aside, the inputs decide which files are checked exactly when each
  file is wanted below all the inputs that hold it or below none.**
* `scan_perm_of_apart`: that is so when no input lies in another.
-/

namespace HouseStyle

/-! ### The order of places -/

theorem componentsLe_iff {p q : Place} : componentsLe p q = true ↔ p ≤ q := by
  rw [← not_lt]
  induction p generalizing q with
  | nil => simp [componentsLe]
  | cons a as ih =>
    cases q with
    | nil => simp [componentsLe]
    | cons b bs =>
      rw [componentsLe, Bool.or_eq_true, Bool.and_eq_true, decide_eq_true_iff, beq_iff_eq, ih,
        List.cons_lt_cons_iff]
      rcases lt_trichotomy a b with h | rfl | h
      · simp [h, h.ne', h.not_gt]
      · simp
      · simp [h, h.ne', h.not_gt]

theorem componentsLe_trans (p q r : Place) (hpq : componentsLe p q = true) (hqr : componentsLe q r = true) :
    componentsLe p r = true := by
  rw [componentsLe_iff] at hpq hqr ⊢
  exact le_trans hpq hqr

theorem componentsLe_total (p q : Place) : (componentsLe p q || componentsLe q p) = true := by
  rw [Bool.or_eq_true, componentsLe_iff, componentsLe_iff]
  exact le_total p q

/-- What is sorted by places is in strict order where the places are distinct. -/
theorem sorted_places {α : Type} (place : α → Place) {xs : List α} (h : (xs.map place).Nodup) :
    (xs.mergeSort fun a b => componentsLe (place a) (place b)).Pairwise fun a b => place a < place b := by
  have hle : (xs.mergeSort fun a b => componentsLe (place a) (place b)).Pairwise fun a b =>
      componentsLe (place a) (place b) = true :=
    List.pairwise_mergeSort (fun a b c => componentsLe_trans (place a) (place b) (place c))
      (fun a b => componentsLe_total (place a) (place b)) xs
  have hne := (List.mergeSort_perm xs fun a b => componentsLe (place a) (place b)).symm.pairwise
    (List.pairwise_map.1 h) fun h => h.symm
  refine (hle.and hne).imp fun h => ?_
  exact lt_of_le_of_ne (componentsLe_iff.1 h.1) h.2

variable {t : FileTree} {s : Settings} {inputs inputs' : List Place} {file : Place}

/-! ### Inputs that hold a file -/

/-- Whether an input is a file, or a folder that the file is in. -/
def holds (t : FileTree) (file input : Place) : Bool :=
  if t.isFile input then file == input else input.isPrefixOf file

/-- The folder that patterns start from below an input. -/
def baseIn (t : FileTree) (input : Place) : Place :=
  if t.isFile input then input.dropLast else input

theorem baseOf_eq (t : FileTree) (inputs : List Place) (file : Place) :
    baseOf t inputs file = ((inputs.find? (holds t file)).map (baseIn t)).getD file.dropLast := by
  have hfind : (inputs.find? fun input => if t.isFile input then file == input else input.isPrefixOf file) =
      inputs.find? (holds t file) := rfl
  simp only [baseOf, hfind]
  cases inputs.find? (holds t file) with
  | none => rfl
  | some input => rfl

/-- Whether the settings want a file checked when patterns start from a folder. -/
def wantedFrom (s : Settings) (base file : Place) : Bool :=
  !matchesFile s.excludes base file && matchesFile s.includes base file

theorem isWanted_eq (t : FileTree) (s : Settings) (inputs : List Place) (file : Place) :
    isWanted t s inputs file = wantedFrom s (baseOf t inputs file) file := rfl

/-- The inputs that hold a file agree on whether it is wanted. -/
def HoldersAgree (t : FileTree) (s : Settings) (inputs : List Place) (file : Place) : Prop :=
  ∀ a ∈ inputs, ∀ b ∈ inputs, holds t file a = true → holds t file b = true →
    wantedFrom s (baseIn t a) file = wantedFrom s (baseIn t b) file

/-- Where the inputs that hold a file agree, their order does not matter. -/
theorem isWanted_perm (h : HoldersAgree t s inputs file) (hperm : inputs'.Perm inputs) :
    isWanted t s inputs' file = isWanted t s inputs file := by
  rw [isWanted_eq, isWanted_eq, baseOf_eq, baseOf_eq]
  cases ha : inputs'.find? (holds t file) with
  | none =>
    have hb : inputs.find? (holds t file) = none := by
      rw [List.find?_eq_none] at ha ⊢
      exact fun x hx => ha x (hperm.mem_iff.2 hx)
    rw [hb]
  | some a =>
    have hmem : a ∈ inputs := hperm.mem_iff.1 (List.mem_of_find?_eq_some ha)
    obtain ⟨b, hb⟩ : ∃ b, inputs.find? (holds t file) = some b := by
      rw [← Option.isSome_iff_exists, List.find?_isSome]
      exact ⟨a, hmem, List.find?_some ha⟩
    rw [hb]
    exact h a hmem b (List.mem_of_find?_eq_some hb) (List.find?_some ha) (List.find?_some hb)

/-- With an input in front that holds a file, patterns start from there. -/
theorem isWanted_cons {a : Place} (ha : holds t file a = true) (rest : List Place) :
    isWanted t s (a :: rest) file = wantedFrom s (baseIn t a) file := by
  rw [isWanted_eq, baseOf_eq, List.find?_cons_of_pos ha]
  rfl

/-! ### The files to check -/

theorem mem_candidates : file ∈ candidates t inputs ↔ ∃ input ∈ inputs, file ∈ sourceFiles t input :=
  List.mem_flatMap

theorem mem_candidates_perm (hperm : inputs'.Perm inputs) :
    file ∈ candidates t inputs' ↔ file ∈ candidates t inputs := by
  simp only [mem_candidates, hperm.mem_iff]

/-- The files to check are the candidates that the settings want. -/
theorem mem_scan : file ∈ scan t s inputs ↔ file ∈ candidates t inputs ∧ isWanted t s inputs file = true := by
  rw [scan, List.mem_mergeSort, List.mem_eraseDups, List.mem_filter]

theorem nodup_eraseDups (ps : List Place) : ps.eraseDups.Nodup := by
  induction h : ps.length using Nat.strong_induction_on generalizing ps with
  | _ n ih =>
    cases ps with
    | nil => simp
    | cons p rest =>
      have hlt : (rest.filter fun q => !q == p).length < n := by
        rw [← h, List.length_cons]
        exact Nat.lt_succ_of_le (List.length_filter_le _ _)
      rw [List.eraseDups_cons, List.nodup_cons]
      exact ⟨by simp, ih _ hlt _ rfl⟩

/-- **The files to check are in strict order**, so each comes once. -/
theorem scan_sorted (t : FileTree) (s : Settings) (inputs : List Place) :
    (scan t s inputs).Pairwise (· < ·) := by
  have hnodup : (((candidates t inputs).filter (isWanted t s inputs)).eraseDups.map id).Nodup := by
    rw [List.map_id]
    exact nodup_eraseDups _
  exact sorted_places id hnodup

/-- Two lists of files to check with the same members are equal. -/
theorem scan_ext (h : ∀ file, file ∈ scan t s inputs' ↔ file ∈ scan t s inputs) :
    scan t s inputs' = scan t s inputs := by
  have hnodup (is : List Place) : (scan t s is).Nodup := (scan_sorted t s is).imp fun h => h.ne
  have hperm : (scan t s inputs').Perm (scan t s inputs) :=
    (List.perm_ext_iff_of_nodup (hnodup _) (hnodup _)).2 h
  exact hperm.eq_of_pairwise (fun a b _ _ hab hba => absurd hab hba.not_gt) (scan_sorted t s _) (scan_sorted t s _)

/-- Where the inputs that hold a file agree on it, their order does not matter. -/
theorem scan_perm_of_agree (h : ∀ file ∈ candidates t inputs, HoldersAgree t s inputs file)
    (hperm : inputs'.Perm inputs) : scan t s inputs' = scan t s inputs := by
  refine scan_ext fun file => ?_
  rw [mem_scan, mem_scan, mem_candidates_perm hperm]
  refine and_congr_right fun hfile => ?_
  rw [isWanted_perm (h file hfile) hperm]

/-- **When the order of the inputs matters.** The files to check are in strict order, and they are
the same for every order of the inputs exactly when the inputs that hold a file agree on it. -/
theorem scan_perm_iff (t : FileTree) (s : Settings) (inputs : List Place) :
    (scan t s inputs).Pairwise (· < ·) ∧
      ((∀ inputs', inputs'.Perm inputs → scan t s inputs' = scan t s inputs) ↔
        ∀ file ∈ candidates t inputs, HoldersAgree t s inputs file) := by
  refine ⟨scan_sorted t s inputs, fun h file hfile => ?_, fun h inputs' => scan_perm_of_agree h⟩
  -- bring each of two inputs to the front
  have hfront (x : Place) (hx : x ∈ inputs) (hholds : holds t file x = true) :
      wantedFrom s (baseIn t x) file = true ↔ file ∈ scan t s inputs := by
    have hperm : (x :: inputs.erase x).Perm inputs := (List.perm_cons_erase hx).symm
    rw [← h _ hperm, mem_scan, isWanted_cons hholds, mem_candidates_perm hperm]
    exact (and_iff_right hfile).symm
  intro a ha b hb hha hhb
  rw [Bool.eq_iff_iff, hfront a ha hha, hfront b hb hhb]

/-- Inputs none of which lies in another may come in any order, and repeated. -/
theorem scan_perm_of_apart (h : ∀ a ∈ inputs, ∀ b ∈ inputs, a.isPrefixOf b = true → a = b)
    (hperm : inputs'.Perm inputs) : scan t s inputs' = scan t s inputs := by
  refine scan_perm_of_agree (fun file _ a ha b hb hha hhb => ?_) hperm
  -- both lie on the way to the file
  have hbelow {x : Place} (hx : holds t file x = true) : x <+: file := by
    unfold holds at hx
    split at hx
    · obtain rfl : file = x := beq_iff_eq.1 hx
      exact List.prefix_rfl
    · exact List.isPrefixOf_iff_prefix.1 hx
  rcases List.prefix_or_prefix_of_prefix (hbelow hha) (hbelow hhb) with hab | hba
  · rw [h a ha b hb (List.isPrefixOf_iff_prefix.2 hab)]
  · rw [h b hb a ha (List.isPrefixOf_iff_prefix.2 hba)]

/-- A project with a stylesheet in a folder that the settings leave out. -/
def builtProject : FileTree :=
  { rootName := "", files := [(["build", "a.css"], [])], folders := [] }

/-- The settings that leave out what is in the folder `build`. -/
def withoutBuild : Settings :=
  { Settings.default with excludes := ["build/**"] }

/-- The folder `build` is left out when the project comes first, and checked when it comes first
itself. -/
theorem scan_nested_inputs :
    (∀ input ∈ [[], ["build"]], builtProject.isPresent input = true) ∧ [["build"], []].Perm [[], ["build"]] ∧
      scan builtProject withoutBuild [[], ["build"]] ≠ scan builtProject withoutBuild [["build"], []] := by
  refine ⟨by decide, List.Perm.swap _ _ _, fun h => ?_⟩
  have hin : ["build", "a.css"] ∈ scan builtProject withoutBuild [["build"], []] :=
    mem_scan.2 ⟨by decide +kernel, by decide +kernel⟩
  rw [← h, mem_scan] at hin
  have hout : isWanted builtProject withoutBuild [[], ["build"]] ["build", "a.css"] = false := by decide +kernel
  rw [hout] at hin
  cases hin.2

end HouseStyle
