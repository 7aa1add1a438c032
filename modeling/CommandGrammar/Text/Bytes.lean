/-!
# `Text.Bytes` — byte offsets into a text

Positions in a line are counted in bytes of its UTF-8 form, while the line itself is a list of
characters. An offset is therefore only meaningful where it does not fall inside a character.

## Contents

* `Text.size` — how many bytes a list of characters takes;
* `Text.cut` — the two sides of a byte offset, when the offset lies between two characters;
* `Text.IsBoundary` — the offsets of a string at which it can be cut;
* `Text.maxOffset` — the greatest offset there is.

The one fact the rest of the library needs is `cut_eq_some_iff`: a cut succeeds exactly when the
two sides make up the text and the left one has the requested size.
-/

namespace CommandGrammar.Text

/-! ## Sizes -/

/-- The number of bytes of the UTF-8 form of `cs`. -/
def size : List Char → Nat
  | [] => 0
  | c :: cs => c.utf8Size + size cs

/-- The number of bytes of the UTF-8 form of a string. -/
def byteSize (text : String) : Nat := size text.toList

@[simp] theorem size_nil : size [] = 0 := rfl

@[simp] theorem size_cons (c : Char) (cs : List Char) : size (c :: cs) = c.utf8Size + size cs := rfl

@[simp] theorem size_append (xs ys : List Char) : size (xs ++ ys) = size xs + size ys := by
  induction xs with
  | nil => simp
  | cons c xs ih => simp [ih, Nat.add_assoc]

theorem size_eq_zero {cs : List Char} : size cs = 0 ↔ cs = [] := by
  cases cs with
  | nil => simp
  | cons c cs => simpa using fun h => absurd h (Nat.ne_of_gt c.utf8Size_pos)

@[simp] theorem byteSize_append (a b : String) : byteSize (a ++ b) = byteSize a + byteSize b := by
  simp [byteSize]

@[simp] theorem byteSize_ofList (cs : List Char) : byteSize (String.ofList cs) = size cs := by
  simp [byteSize]

/-! ## Cuts -/

/-- The characters before and after byte offset `n`, when `n` lies between two characters (or at
    either end) of the text. -/
def cut : Nat → List Char → Option (List Char × List Char)
  | 0, cs => some ([], cs)
  | _ + 1, [] => none
  | n + 1, c :: cs =>
    if c.utf8Size ≤ n + 1 then
      (cut (n + 1 - c.utf8Size) cs).map fun sides => (c :: sides.1, sides.2)
    else none

@[simp] theorem cut_zero (cs : List Char) : cut 0 cs = some ([], cs) := by
  cases cs <;> rfl

theorem cut_cons {n : Nat} {c : Char} {cs : List Char} (h : c.utf8Size ≤ n) :
    cut n (c :: cs) = (cut (n - c.utf8Size) cs).map fun sides => (c :: sides.1, sides.2) := by
  cases n with
  | zero => exact absurd h (Nat.not_le.2 c.utf8Size_pos)
  | succ n => simp [cut, h]

/-- Cutting after the bytes of `before` takes a text apart where `before` ends. -/
@[simp] theorem cut_size_append (before rest : List Char) :
    cut (size before) (before ++ rest) = some (before, rest) := by
  induction before with
  | nil => simp
  | cons c before ih =>
    rw [List.cons_append, cut_cons (by simp)]
    simp [ih]

/-- The two sides of a cut make up the text, and the left one has the requested size. -/
theorem append_of_cut {n : Nat} {cs before rest : List Char} (h : cut n cs = some (before, rest)) :
    before ++ rest = cs ∧ size before = n := by
  induction cs generalizing n before with
  | nil =>
    cases n with
    | zero => simp_all
    | succ n => simp [cut] at h
  | cons c cs ih =>
    cases n with
    | zero => simp_all
    | succ n =>
      by_cases hc : c.utf8Size ≤ n + 1
      · rw [cut_cons hc, Option.map_eq_some_iff] at h
        obtain ⟨⟨left, right⟩, hcut, heq⟩ := h
        obtain ⟨rfl, rfl⟩ := Prod.mk.inj heq
        obtain ⟨happ, hsize⟩ := ih hcut
        exact ⟨by simp [happ], by simp [hsize]; omega⟩
      · simp [cut, hc] at h

/-- A cut succeeds exactly at the ends of the text's initial segments. -/
theorem cut_eq_some_iff {n : Nat} {cs before rest : List Char} :
    cut n cs = some (before, rest) ↔ before ++ rest = cs ∧ size before = n :=
  ⟨append_of_cut, fun ⟨happ, hsize⟩ => by rw [← happ, ← hsize, cut_size_append]⟩

/-! ## Boundaries of strings -/

/-- The greatest offset: offsets are counted in words of 64 bits. -/
def maxOffset : Nat := 0xFFFFFFFFFFFFFFFF

/-- Whether `n` lies between two characters, or at either end, of `text`. -/
def IsBoundary (text : String) (n : Nat) : Prop :=
  ∃ before rest : List Char, before ++ rest = text.toList ∧ size before = n

theorem isBoundary_iff {text : String} {n : Nat} :
    IsBoundary text n ↔ (cut n text.toList).isSome := by
  constructor
  · rintro ⟨before, rest, happ, hsize⟩
    rw [cut_eq_some_iff.2 ⟨happ, hsize⟩]
    rfl
  · intro h
    obtain ⟨⟨before, rest⟩, hcut⟩ := Option.isSome_iff_exists.1 h
    exact ⟨before, rest, append_of_cut hcut⟩

instance (text : String) (n : Nat) : Decidable (IsBoundary text n) :=
  decidable_of_iff _ isBoundary_iff.symm

end CommandGrammar.Text
