import HouseStyle.Parse.Parsed
import Mathlib.Tactic.Common

/-!
# Parsed texts

* `parse_text`: what is parsed is the text.
* `parse_lostLine`, `parse_stylesheet`: how parsing fails.
* `parseStylesheet_tree`: the tree of a stylesheet.
-/

namespace HouseStyle

variable {language : Language} {d : Stylesheet.Dialect} {t : Source}

theorem toOption_eq_some {ε α : Type} {r : Except ε α} {a : α} : r.toOption = some a ↔ r = .ok a := by
  cases r with
  | error e => exact ⟨(nomatch ·), (nomatch ·)⟩
  | ok b => exact ⟨fun h => congrArg Except.ok (Option.some.inj h), fun h => by cases h; rfl⟩

theorem parseStylesheet_text (language : Language) (d : Stylesheet.Dialect) (t : Source) :
    (parseStylesheet language d t).text = t := by
  unfold parseStylesheet
  split <;> rfl

theorem parseStylesheet_language (language : Language) (d : Stylesheet.Dialect) (t : Source) :
    (parseStylesheet language d t).language = language := by
  unfold parseStylesheet
  split <;> rfl

theorem parseStylesheet_tree {language : Language} {tree : Node} :
    (parseStylesheet language d t).tree? = some tree ↔ Stylesheet.parse d t.chars = .ok tree := by
  unfold parseStylesheet Parsed.tree?
  rw [toOption_eq_some]
  split
  · rename_i h
    rw [h]
    exact ⟨fun heq => by cases heq; rfl, fun heq => by cases heq; rfl⟩
  · rename_i h
    rw [h]
    exact ⟨(nomatch ·), (nomatch ·)⟩

theorem fault?_of_tree? {p : Parsed} {tree : Node} (h : p.tree? = some tree) : p.fault? = none := by
  rw [Parsed.fault?, toOption_eq_some.1 h]

/-- A text without a fault has a tree. -/
theorem exists_tree {p : Parsed} (h : p.fault? = none) : ∃ tree, p.tree? = some tree := by
  unfold Parsed.fault? at h
  split at h
  · rename_i tree htree
    exact ⟨tree, toOption_eq_some.2 htree⟩
  · cases h

theorem parse_text {p : Parsed} (h : parse language t = .ok p) : p.text = t := by
  cases language with
  | css => cases h; exact parseStylesheet_text _ _ _
  | scss => cases h; exact parseStylesheet_text _ _ _
  | python =>
    simp only [parse, parseModule] at h
    split at h <;> cases h <;> rfl

theorem parse_language {p : Parsed} (h : parse language t = .ok p) : p.language = language := by
  cases language with
  | css => cases h; exact parseStylesheet_language _ _ _
  | scss => cases h; exact parseStylesheet_language _ _ _
  | python =>
    simp only [parse, parseModule] at h
    split at h <;> cases h <;> rfl

/-- Parsing fails only by losing a line. -/
theorem parse_lostLine {f : Failure} (h : parse language t = .error f) : f = .lostLine := by
  cases language with
  | css => cases h
  | scss => cases h
  | python =>
    simp only [parse, parseModule] at h
    split at h <;> cases h
    rfl

/-- A language of stylesheets has a dialect. -/
theorem exists_dialect (h : language ≠ .python) :
    ∃ d, ∀ t, parse language t = .ok (parseStylesheet language d t) := by
  cases language with
  | css => exact ⟨.css, fun _ => rfl⟩
  | scss => exact ⟨.scss, fun _ => rfl⟩
  | python => exact absurd rfl h

theorem parse_stylesheet (h : language ≠ .python) : ∃ p, parse language t = .ok p := by
  obtain ⟨d, hd⟩ := exists_dialect h
  exact ⟨_, hd t⟩

end HouseStyle
