/-!
# Words of a command line

The words that follow a command are options, which begin with a hyphen, values of
options, and words that stand for themselves. A doubled hyphen ends the options.

* `OptionInfo` describes an option that a command knows.
* `Words.read?` sorts the words; a word that looks like an option has to be one.
-/

namespace HouseStyle.Command

/-- An option of a command. -/
structure OptionInfo where
  /-- Its name with the hyphens. -/
  name : String
  /-- What its value is called, where it takes one. -/
  value : Option String
  description : String

/-- Words that are sorted. -/
structure Words where
  /-- The options in the order in which they are given, with their values. -/
  options : List (String × String)
  /-- The words that stand for themselves. -/
  plain : List String

namespace Words

/-- Adds an option in front. -/
def withOption (w : Words) (name value : String) : Words :=
  { w with options := (name, value) :: w.options }

/-- Adds a plain word in front. -/
def withPlain (w : Words) (word : String) : Words :=
  { w with plain := word :: w.plain }

/-- Whether a word looks like an option. -/
def looksLikeOption (word : String) : Bool :=
  match word.toList with
  | '-' :: _ :: _ => true
  | _ => false

/-- The name of an option and the value that is attached to it behind an equals
sign. -/
def attached (word : String) : String × Option String :=
  let cs := word.toList
  let name := String.ofList (cs.takeWhile (· != '='))
  match cs.dropWhile (· != '=') with
  | _ :: value => (name, some (String.ofList value))
  | [] => (name, none)

/-- Sorts words. Options end at the first plain word where `plainEnds` says so, and
else may stand anywhere. -/
def read? (known : List OptionInfo) (plainEnds : Bool) : List String → Option Words
  | [] => some { options := [], plain := [] }
  | word :: rest =>
    if word = "--" then some { options := [], plain := rest }
    else if looksLikeOption word then
      let (name, value) := attached word
      match known.find? fun o => o.name == name with
      | none => none
      | some o =>
        match o.value, value, rest with
        | none, none, rest => (read? known plainEnds rest).map (·.withOption name "")
        | none, some _, _ => none
        | some _, some value, rest =>
          (read? known plainEnds rest).map (·.withOption name value)
        | some _, none, value :: rest =>
          (read? known plainEnds rest).map (·.withOption name value)
        | some _, none, [] => none
    else if plainEnds then some { options := [], plain := word :: rest }
    else (read? known plainEnds rest).map (·.withPlain word)

/-- Whether an option is given. -/
def has (w : Words) (name : String) : Bool :=
  w.options.any fun o => o.1 == name

/-- The value of an option; the last one counts where there are several. -/
def value? (w : Words) (name : String) : Option String :=
  (w.options.reverse.find? fun o => o.1 == name).map Prod.snd

end Words

end HouseStyle.Command
