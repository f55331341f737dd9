/-
# Messages

Values that were adjusted and records that were skipped are reported to the
caller as messages; they never stop the work.
-/

import LaserCut.Decimal.Layout

namespace LaserCut

/-- How serious a message is. -/
inductive Level
  | info
  | warning
  | error
  deriving DecidableEq

/-- The word for a level. -/
def Level.name : Level → String
  | .info => "info"
  | .warning => "warning"
  | .error => "error"

/-- All levels, least serious first. -/
def Level.all : List Level :=
  [.info, .warning, .error]

/-- A report to the caller. -/
structure Message where
  level : Level
  text : String
  deriving DecidableEq

namespace Message

/-- The text of a message with its level in front. -/
def render (message : Message) : String :=
  "[" ++ message.level.name ++ "] " ++ message.text

/-- The messages of one level. -/
def ofLevel (level : Level) (messages : List Message) : List Message :=
  messages.filter fun message => message.level = level

end Message

/-- What a machine limits. -/
inductive Quantity
  | feedrate
  | intensity
  deriving DecidableEq

/-- A value that was out of range, and the limit that took its place. -/
structure Constrained where
  quantity : Quantity
  requested : Float
  clamped : Float
  deriving DecidableEq

/-- The text of the warning about a limited value. -/
def Constrained.text (warning : Constrained) : String :=
  match warning.quantity with
  | .feedrate => "Feedrate constrained to " ++ Decimal.display warning.clamped
  | .intensity => "Intensity constrained to " ++ Decimal.display warning.clamped

/-- The warning about a limited value. -/
def Constrained.message (warning : Constrained) : Message :=
  ⟨.warning, warning.text⟩

end LaserCut
