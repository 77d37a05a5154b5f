import HouseStyle.Files.Path
import HouseStyle.Text.Casing

/-!
# Languages

The languages that can be parsed and how file names tell them.

* `Language.ofPath?` reads the language off a file's suffix.
-/

namespace HouseStyle

/-- The languages that can be parsed. -/
inductive Language where
  | css
  | scss
  | python
  deriving DecidableEq

namespace Language

/-- The name of a language. -/
def name : Language → String
  | .css => "css"
  | .scss => "scss"
  | .python => "python"

/-- The language of a name. -/
def ofName? : String → Option Language
  | "css" => some .css
  | "scss" => some .scss
  | "python" => some .python
  | _ => none

/-- The language of files with a suffix. -/
def ofSuffix? : String → Option Language
  | ".css" => some .css
  | ".scss" => some .scss
  | ".py" => some .python
  | _ => none

/-- The language of a file, by its suffix in any case. -/
def ofPath? (path : Path) : Option Language :=
  ofSuffix? (lower path.suffix)

end Language

end HouseStyle
