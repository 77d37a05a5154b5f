import HouseStyle.Command.Words

/-!
# Commands

The commands of the program, with the options that each of them knows.

* `CommandName.info` describes a command, `programInfo` the program.
-/

namespace HouseStyle.Command

/-- The name under which the program is called. -/
def programName : String := "styleguard"

/-- The version of the program. -/
def programVersion : String := "0.1.0"

/-- The commands, in the order of their names. -/
inductive CommandName where
  | config
  | explain
  | lint
  deriving DecidableEq

namespace CommandName

/-- All commands. -/
def all : List CommandName :=
  [.config, .explain, .lint]

/-- The word for a command. -/
def name : CommandName → String
  | .config => "config"
  | .explain => "explain"
  | .lint => "lint"

/-- The command of a word. -/
def ofName? (s : String) : Option CommandName :=
  all.find? fun c => c.name == s

theorem ofName?_name (c : CommandName) : ofName? c.name = some c := by
  cases c <;> rfl

end CommandName

/-- What is known about a command or the program. -/
structure CommandInfo where
  /-- The words that may follow. -/
  usage : String
  summary : String
  options : List OptionInfo

/-- The option that asks for help. -/
def helpOption : OptionInfo :=
  { name := "--help", value := none, description := "Show this message and exit." }

/-- The program. -/
def programInfo : CommandInfo :=
  { usage := "[OPTIONS] COMMAND [ARGS]..."
    summary := "styleguard - conformance checks for CSS/SCSS and Python/Django code."
    options :=
      [{ name := "--version", value := none, description := "Show the version and exit." },
        { name := "--config", value := some "PATH"
          description :=
            "Path to a TOML config file (default: search upward from current directory)" },
        { name := "--verbose", value := none, description := "Show progress and timing" },
        { name := "--debug", value := none, description := "Show detailed trace" },
        helpOption] }

/-- The command that shows the settings. -/
def configInfo : CommandInfo :=
  { usage := "[OPTIONS]"
    summary := "Show or validate configuration."
    options :=
      [{ name := "--validate", value := none
         description := "Only validate configuration, don't print" },
        { name := "--json", value := none, description := "Output configuration as JSON" },
        helpOption] }

/-- The command that documents rules. -/
def explainInfo : CommandInfo :=
  { usage := "[OPTIONS] [RULE_ID]"
    summary := "Show rule documentation and examples."
    options :=
      [{ name := "--all", value := none, description := "List all rules with summaries" },
        helpOption] }

/-- The command that checks files. -/
def lintInfo : CommandInfo :=
  { usage := "[OPTIONS] [PATHS]..."
    summary := "Check CSS, SCSS and Python files against the style guide."
    options :=
      [{ name := "--fix", value := none, description := "Apply autofixes in place" },
        { name := "--diff", value := none, description := "Print unified diff of fixes" },
        { name := "--format", value := some "[text|json]"
          description := "Output format (overrides config)" },
        { name := "--config", value := some "PATH"
          description := "Config file for this run (overrides the global option)" },
        { name := "--rules", value := some "TEXT"
          description := "Comma-separated rule ids to run" },
        { name := "--jobs", value := some "INTEGER RANGE"
          description := "Worker threads  [x>=1]" },
        helpOption] }

/-- What is known about a command. -/
def CommandName.info : CommandName → CommandInfo
  | .config => configInfo
  | .explain => explainInfo
  | .lint => lintInfo

end HouseStyle.Command
