/-
# Passes

A pass machines its colors in the listed order at one feedrate and intensity.
-/

import LaserCut.Settings.Basic

namespace LaserCut

/-- One group of colors that is machined alike. -/
structure Pass where
  colors : List String
  /-- In mm/min. -/
  feedrate : Float
  /-- In percent. -/
  intensity : Float
  deriving DecidableEq

/-- The pass about which nothing is said. -/
def Pass.default : Pass :=
  ⟨[], defaultFeedrate, defaultIntensity⟩

/-- Whether the values of a pass are numbers. -/
def Pass.isFinite (pass : Pass) : Bool :=
  pass.feedrate.isFinite && pass.intensity.isFinite

end LaserCut
