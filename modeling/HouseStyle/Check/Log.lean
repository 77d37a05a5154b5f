import HouseStyle.Check.Walk
import HouseStyle.Log

/-!
# The log of a check

* `checkLog` is what is said about the findings in a file.
-/

namespace HouseStyle

/-- Whether a finding is about a rule that misbehaved. -/
def Finding.isCrash (f : Finding) : Bool :=
  f.violation.rule == ruleCrashId

/-- What is said about the findings in a file. -/
def checkLog (path : String) (findings : List Finding) : List LogLine :=
  (findings.filter Finding.isCrash).map
      (fun f => ⟨.warning, .checker, s!"{path}: {f.violation.message}"⟩) ++
    [⟨.debug, .checker, s!"{path}: {findings.length} findings"⟩]

end HouseStyle
