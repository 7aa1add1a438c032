import CommandGrammar.Argument
import CommandGrammar.Proofs.Path

/-!
# `Proofs.Placed` — errors point into the text

An error says where it was found, and an editor will show that place. A reader that fails may do so where it
started, where it stopped, or anywhere in between; it never points in front of where it started, outside the text
or inside a character.

* `Error.PlacedFrom.exists_place` — what it says about the place itself that it can be reached by reading on;
* `Scanned.Placed.mono`, `Scanned.Placed.map` — an outcome stays placed when reading started earlier, and when the
  value is changed;
* `Scanner.placed_readNumber`, …, `ArgumentType.placed_read` — the readers, up to arguments of any type.
-/

namespace CommandGrammar

variable {α β : Type}

/-! ## Places that reading on can reach -/

namespace Error.PlacedFrom

variable {s t : Scanner} {e : Error}

theorem here (s : Scanner) (kind : Error.Kind) : (s.error kind).PlacedFrom s := ⟨s, kind, .refl s, rfl⟩

theorem mono (hst : s.Precedes t) (h : e.PlacedFrom t) : e.PlacedFrom s := by
  obtain ⟨u, kind, htu, rfl⟩ := h
  exact ⟨u, kind, hst.trans htu, rfl⟩

/-- **The place of an error lies in the text**, between two characters, and not in front of the scanner. -/
theorem exists_place (h : e.PlacedFrom s) :
    ∃ place, e.place = some place ∧ place.input = s.text ∧ Text.IsBoundary s.text place.cursor ∧
      s.cursor ≤ place.cursor ∧ place.cursor ≤ Text.byteSize s.text := by
  obtain ⟨u, kind, hprecedes, rfl⟩ := h
  have htext : u.text = s.text := hprecedes.text_eq
  refine ⟨u.place, rfl, htext, ?_, hprecedes.cursor_le, ?_⟩
  · rw [← htext]
    exact u.isBoundary_cursor
  · show u.cursor ≤ _
    rw [← htext, Text.byteSize, Scanner.toList_text, Text.size_append]
    exact Nat.le_add_right _ _

end Error.PlacedFrom

namespace Scanned.Placed

variable {s t : Scanner} {r : Scanned α}

theorem mono (hst : s.Precedes t) (h : r.Placed t) : r.Placed s := by
  cases r with
  | ok value u => trivial
  | error e u => exact Error.PlacedFrom.mono hst h

theorem map (f : α → β) (h : r.Placed s) : (r.map f).Placed s := by
  cases r with
  | ok value u => trivial
  | error e u => exact h

end Scanned.Placed

/-! ## Readers -/

namespace Scanner

theorem placed_readNumber (kind : NumberKind) (read? : List Char → Option α) (s : Scanner) :
    (s.readNumber kind read?).Placed s := by
  unfold readNumber
  dsimp only
  split
  · exact .here s _
  · split
    · trivial
    · exact .here s _

theorem placed_readUntil (terminator : Char) (s : Scanner) : (s.readUntil terminator).Placed s := by
  have hprecedes := s.precedes_readUntil terminator
  unfold readUntil at hprecedes ⊢
  -- Both errors are found where the scanner stops: at the character that may not be escaped, or at the end.
  split
  · trivial
  · next hread =>
    rw [hread] at hprecedes
    exact ⟨_, _, hprecedes, rfl⟩
  · next hread =>
    rw [hread] at hprecedes
    exact ⟨_, _, hprecedes, rfl⟩

theorem placed_readString (s : Scanner) : s.readString.Placed s := by
  unfold readString
  split
  · trivial
  · split
    · exact (placed_readUntil _ _).mono s.precedes_skip
    · trivial

theorem placed_readBool (s : Scanner) : s.readBool.Placed s := by
  have hplaced := s.placed_readString
  have hprecedes := s.precedes_readString
  unfold readBool
  cases hread : s.readString with
  | error e t =>
    rw [hread] at hplaced
    exact hplaced
  | ok value t =>
    rw [hread] at hprecedes
    dsimp only
    -- Nothing is reported missing behind the quotes, but a wrong word in front of them.
    split
    · exact ⟨t, _, hprecedes, rfl⟩
    · split
      · trivial
      · split
        · trivial
        · exact .here s _

end Scanner

/-! ## Arguments -/

theorem Bounds.placed_read [LT α] [DecidableLT α] (bounds : Bounds α) (kind : NumberKind) (render : α → String)
    (read? : List Char → Option α) (s : Scanner) : (bounds.read kind render read? s).Placed s := by
  have hplaced := s.placed_readNumber kind read?
  unfold Bounds.read
  cases hread : s.readNumber kind read? with
  | error e t =>
    rw [hread] at hplaced
    exact hplaced
  | ok value t =>
    unfold Bounds.check
    dsimp only
    split
    · exact .here s _
    · split
      · exact .here s _
      · trivial

theorem Coordinate.placed_read (s : Scanner) : (Coordinate.read s).Placed s := by
  unfold Coordinate.read
  split
  · exact .here s _
  · have hstart : s.Precedes (if s.nextIs mark then s.skip else s) := by
      split
      · exact s.precedes_skip
      · exact .refl s
    dsimp only
    generalize (if s.nextIs mark then s.skip else s) = t at hstart ⊢
    split
    · trivial
    · have hplaced : t.readDouble.Placed t := t.placed_readNumber _ _
      split
      · trivial
      · next hread =>
        rw [hread] at hplaced
        exact Error.PlacedFrom.mono hstart hplaced

theorem Position.placed_read (s : Scanner) : (Position.read s).Placed s := by
  have hprecedes := Coordinate.precedes_read s
  have hplaced := Coordinate.placed_read s
  unfold Position.read
  cases hx : Coordinate.read s with
  | error e t =>
    rw [hx] at hplaced
    exact hplaced
  | ok x t =>
    rw [hx] at hprecedes
    dsimp only
    split
    · have hsecond := Coordinate.placed_read t.skip
      split
      · trivial
      · next hy =>
        rw [hy] at hsecond
        exact Error.PlacedFrom.mono (hprecedes.trans t.precedes_skip) hsecond
    · exact .here s _

/-- **An argument that is refused is refused at a place of the text**, where reading started or behind it. -/
theorem ArgumentType.placed_read (type : ArgumentType) (s : Scanner) : (type.read s).Placed s := by
  cases type with
  | bool => exact s.placed_readBool.map _
  | int bounds => exact (bounds.placed_read _ _ _ s).map _
  | long bounds => exact (bounds.placed_read _ _ _ s).map _
  | double bounds => exact (bounds.placed_read _ _ _ s).map _
  | single bounds => exact (bounds.placed_read _ _ _ s).map _
  | word => trivial
  | string => exact s.placed_readString.map _
  | greedy => trivial
  | position candidates => exact (Position.placed_read s).map _
  | custom type => exact type.placed s

end CommandGrammar
