import SetupCatalog.Text.Basic

/-!
# Scan options

How far the rules look around a spot, and which scope a winget installation has when none is given.
A negative distance is allowed: it moves the bound of a window to the other side of the spot.
-/

namespace SetupCatalog

/-- The distances and the default scope that a scan uses. -/
structure ScanOptions where
  /-- Characters read from the start of a consuming pipeline on. -/
  loopLookahead : Int := 500
  /-- Characters read before a sideload for the announcement of its name. -/
  nameLookback : Int := 500
  /-- Characters read before a sideload for its download address. -/
  urlBefore : Int := 300
  /-- Characters read from a sideload on for its download address. -/
  urlAfter : Int := 300
  /-- The scope of a winget installation that names none. -/
  defaultScope : Text := "machine".toList

end SetupCatalog
