import Bourse.Error.Basic

/-! # Logging

What is logged and in which form, for the three situations that have a preset. One log can be
installed in a run. -/

namespace Bourse

/-- How much is logged. -/
inductive LogLevel where
  | trace
  | debug
  | info
  | warn
  | error
  deriving DecidableEq, Repr

/-- The form of log lines. -/
inductive LogFormat where
  | pretty
  | compact
  | json
  deriving DecidableEq, Repr

namespace LogLevel

/-- The name of a level. -/
def name : LogLevel → String
  | .trace => "trace"
  | .debug => "debug"
  | .info => "info"
  | .warn => "warn"
  | .error => "error"

/-- The level with a name. -/
def ofName? (name : String) : Option LogLevel :=
  [trace, debug, info, warn, error].find? fun l => l.name == name

end LogLevel

namespace LogFormat

/-- The name of a form. -/
def name : LogFormat → String
  | .pretty => "Pretty"
  | .compact => "Compact"
  | .json => "Json"

/-- The form with a name. -/
def ofName? (name : String) : Option LogFormat :=
  [pretty, compact, json].find? fun f => f.name == name

end LogFormat

/-- The configuration of a log. -/
structure LogConfig where
  level : LogLevel := .info
  format : LogFormat := .pretty
  showTime : Bool := true
  showThreadIds : Bool := false
  showTarget : Bool := true
  showSpanEvents : Bool := false

namespace LogConfig

/-- For development: more is logged, and the spans of operations as well. -/
def development : LogConfig := { level := .debug, showSpanEvents := true }

/-- For production: lines for machines. -/
def production : LogConfig := { format := .json, showThreadIds := true }

/-- For tests: little and short. -/
def test : LogConfig :=
  { level := .warn, format := .compact, showTime := false, showTarget := false }

/-- The components whose events are logged. -/
def targets : List String := ["unicex", "unicex_core", "unicex_exchanges"]

/-- The filter of a configuration. -/
def directive (c : LogConfig) : String :=
  ",".intercalate (targets.map fun t => t ++ "=" ++ c.level.name)

/-- Installs a log where none is installed yet. -/
def install (_ : LogConfig) (installed : Bool) : Result Bool :=
  if installed then .error (.internal "Failed to install log subscriber") else .ok true

end LogConfig

end Bourse
