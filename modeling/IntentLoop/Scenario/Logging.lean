import IntentLoop.Reporter
/-!
# What scenarios log about reports

Two logs are common to several scenarios: what the reporters were given, and what the program wrote
into its own log.
-/

namespace IntentLoop.Scenario

/-- What a reporter was given. -/
structure Report where
  sink : String
  component : String
  message : String

inductive Level where
  | warning
  | error

/-- A line of the program's own log. -/
structure LogLine where
  level : Level
  message : String
  error : String
  component : Option String := none

/-- What a component's report comes to: a line of the log, or something for a sink. -/
def report (reporter : Reporter) (component message : String) : List Report × List LogLine :=
  match reporter with
  | .log =>
    ([], [{ level := .error, message := "reported error", error := message
            component := some component }])
  | .sink sink => ([{ sink, component, message }], [])

/-- What a component writes when a caller is blocked. -/
def blockedLine (text : String) : LogLine :=
  { level := .warning, message := "request blocked by IP", error := text }

/-- What an engine writes when it halts. -/
def haltedLine (text : String) : LogLine :=
  { level := .error, message := "engine halted", error := text }

end IntentLoop.Scenario
