import CommandGrammar.Fault

/-!
# `Range` — spans of a text

A range is a span of a text by byte offsets, from `start` up to `stop`.

## Contents

* `Range.between`, `Range.point` — making a range; a start beyond the end is a fault;
* `Range.hull` — the smallest range that covers two;
* `Range.contains` — whether a position lies in the range, either end included;
* `Range.text` — the part of a text that the range covers.
-/

namespace CommandGrammar

/-- A span of a text, by byte offsets. -/
structure Range where
  /-- Where the span starts. -/
  start : Nat
  /-- Where the span stops. -/
  stop : Nat
  /-- A span never stops before it starts. -/
  start_le_stop : start ≤ stop
deriving DecidableEq, Repr

namespace Range

@[ext] theorem ext {a b : Range} (hstart : a.start = b.start) (hstop : a.stop = b.stop) : a = b := by
  cases a
  cases b
  simp_all

/-! ## Making ranges -/

/-- The range between two offsets. -/
def between (start stop : Nat) : Except Fault Range :=
  if h : start ≤ stop then .ok ⟨start, stop, h⟩ else .error .invertedRange

/-- The empty range at an offset. -/
def point (offset : Nat) : Range := ⟨offset, offset, Nat.le_refl offset⟩

/-- The smallest range that covers both. -/
def hull (a b : Range) : Range :=
  ⟨min a.start b.start, max a.stop b.stop,
    Nat.le_trans (Nat.min_le_left _ _) (Nat.le_trans a.start_le_stop (Nat.le_max_left _ _))⟩

instance : Inhabited Range := ⟨Range.point 0⟩

@[simp] theorem start_point (n : Nat) : (Range.point n).start = n := rfl

@[simp] theorem stop_point (n : Nat) : (Range.point n).stop = n := rfl

@[simp] theorem start_hull (a b : Range) : (hull a b).start = min a.start b.start := rfl

@[simp] theorem stop_hull (a b : Range) : (hull a b).stop = max a.stop b.stop := rfl

/-- A range can be made exactly when it does not stop before it starts. -/
theorem between_eq_ok_iff {start stop : Nat} {range : Range} :
    between start stop = .ok range ↔ range.start = start ∧ range.stop = stop := by
  unfold between
  constructor
  · intro h
    split at h
    · cases h; exact ⟨rfl, rfl⟩
    · cases h
  · rintro ⟨rfl, rfl⟩
    rw [dif_pos range.start_le_stop]

/-! ## Reading ranges -/

/-- The number of bytes covered. -/
def size (range : Range) : Nat := range.stop - range.start

/-- Whether nothing is covered. -/
def isEmpty (range : Range) : Bool := range.start == range.stop

/-- Whether an offset lies in the range, either end included. -/
def contains (range : Range) (offset : Nat) : Bool :=
  range.start ≤ offset && offset ≤ range.stop

/-- The part of a text that the range covers. -/
def text (range : Range) (input : String) : Except Fault String :=
  Fault.slice input range.start range.stop

/-- How a range is shown. -/
def render (range : Range) : String :=
  "[" ++ toString range.start ++ ", " ++ toString range.stop ++ ")"

end Range

end CommandGrammar
