import HouseStyle.Failure
import HouseStyle.Parse.Language
import HouseStyle.Python.Module
import HouseStyle.Stylesheet.Parser

/-!
# Parsing a text

The parser of each language under one roof: a text becomes a tree, or the
description of the fault that prevents it.

* `parse` fails only when a Python text loses a position.
-/

namespace HouseStyle

/-- A text in a language, with its tree or the fault that prevents one. -/
structure Parsed where
  language : Language
  text : Source
  result : Except Unparsed Node

namespace Parsed

/-- The tree, if the text was parsed. -/
def tree? (p : Parsed) : Option Node :=
  p.result.toOption

/-- The fault, if the text was not parsed. -/
def fault? (p : Parsed) : Option Unparsed :=
  match p.result with
  | .ok _ => none
  | .error u => some u

end Parsed

/-- Parses a stylesheet. -/
def parseStylesheet (language : Language) (d : Stylesheet.Dialect) (t : Source) : Parsed :=
  match Stylesheet.parse d t.chars with
  | .ok tree => { language, text := t, result := .ok tree }
  | .error e => { language, text := t, result := .error (.inText t e) }

/-- Parses a Python module. -/
def parseModule (t : Source) : Except Failure Parsed :=
  match Python.parse t with
  | .ok tree => .ok { language := .python, text := t, result := .ok tree }
  | .error (.fault e) => .ok { language := .python, text := t, result := .error (.inText t e) }
  | .error .lostPosition => .error .lostLine

/-- Parses a text in a language. -/
def parse (language : Language) (t : Source) : Except Failure Parsed :=
  match language with
  | .css => .ok (parseStylesheet .css .css t)
  | .scss => .ok (parseStylesheet .scss .scss t)
  | .python => parseModule t

end HouseStyle
