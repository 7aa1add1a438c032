import CommandGrammar.Scanner.Basic

/-!
# `Position` — places on a plane

A position is written as two coordinates with a separator between them. A coordinate is a number,
or a tilde with an optional number behind it: then it counts from where the source stands.

## Contents

* `Point`, `Coordinate`, `Position` — the types; `resolve` turns a position into a point;
* `Coordinate.read`, `Position.read` — reading them.
-/

namespace CommandGrammar

/-- A place on the plane. -/
structure Point where
  /-- The first number. -/
  x : Float
  /-- The second number. -/
  y : Float

/-- A number that may count from an origin. -/
structure Coordinate where
  /-- Whether it counts from the origin. -/
  relative : Bool
  /-- The number itself. -/
  value : Float
deriving BEq

/-- Two coordinates. -/
structure Position where
  /-- The first coordinate. -/
  x : Coordinate
  /-- The second coordinate. -/
  y : Coordinate

/-! ## Resolving -/

/-- The number that a coordinate stands for, seen from an origin. -/
def Coordinate.resolve (c : Coordinate) (origin : Float) : Float :=
  if c.relative then origin + c.value else c.value

/-- The place that a position stands for, seen from an origin. -/
def Position.resolve (p : Position) (origin : Point) : Point :=
  ⟨p.x.resolve origin.x, p.y.resolve origin.y⟩

/-- Whether a position depends on the origin. -/
def Position.isRelative (p : Position) : Bool := p.x.relative || p.y.relative

/-! ## Reading -/

/-- The mark of a relative coordinate. -/
def Coordinate.mark : Char := '~'

/-- Reads a coordinate. A mark alone stands for the origin itself. -/
def Coordinate.read (s : Scanner) : Scanned Coordinate :=
  if !s.canRead then .error (s.error (.incompleteArgument "missing coordinate")) s
  else
    let relative := s.nextIs mark
    let s := if relative then s.skip else s
    if relative && s.atBreak then .ok ⟨true, 0⟩ s
    else match s.readDouble with
      | .ok value t => .ok ⟨relative, value⟩ t
      | .error e t => .error e t

/-- Reads two coordinates with a separator between them. -/
def Position.read (s : Scanner) : Scanned Position :=
  match Coordinate.read s with
  | .error e t => .error e t
  | .ok x t =>
    if t.nextIs Scanner.separator then
      match Coordinate.read t.skip with
      | .ok y u => .ok ⟨x, y⟩ u
      | .error e u => .error e u
    else .error (s.error (.incompleteArgument "expected two coordinates")) s

theorem Coordinate.precedes_read (s : Scanner) : s.Precedes (Coordinate.read s).scanner := by
  unfold Coordinate.read
  split
  · exact .refl s
  · have hstart : s.Precedes (if s.nextIs mark then s.skip else s) := by
      split
      · exact s.precedes_skip
      · exact .refl s
    dsimp only
    generalize (if s.nextIs mark then s.skip else s) = t at hstart ⊢
    split
    · exact hstart
    · have hread : t.Precedes t.readDouble.scanner := Scanner.precedes_readNumber _ _ t
      split
      · next h => exact hstart.trans (by rwa [h] at hread)
      · next h => exact hstart.trans (by rwa [h] at hread)

theorem Position.precedes_read (s : Scanner) : s.Precedes (Position.read s).scanner := by
  have hx := Coordinate.precedes_read s
  unfold Position.read
  split
  · next h => rwa [h] at hx
  · next t h =>
    rw [h] at hx
    split
    · have hy := Coordinate.precedes_read t.skip
      have hskip := hx.trans t.precedes_skip
      split
      · next h' => exact hskip.trans (by rwa [h'] at hy)
      · next h' => exact hskip.trans (by rwa [h'] at hy)
    · exact .refl s

end CommandGrammar
