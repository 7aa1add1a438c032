/-!
# `Number` — numbers as they are stored and as they are written

The floating-point numbers of one width are told apart by the natural number their bits spell. Without the sign bit
these codes enumerate the non-negative values in order, so rounding a fraction is a matter of counting codes and needs
only exact arithmetic on natural numbers. A finite value is written with as few decimal digits as still round to that
same value: the grids of multiples of `10 ^ k` are tried from coarse to fine; on each one only the value's two
neighbours can be the closest decimal, so only these are tested, by rounding them back.

Whole numbers are an optional minus sign and digits. Fractional numbers may also have one decimal point, before, between
or after the digits, and are always written positionally: no exponent, no point after a whole value.

## Contents

* `Layout`, `double`, `single` — the widths of the two fields below the sign bit;
* `Layout.significand`, `Layout.scale` — the value `significand * 2 ^ scale` that a code stands for;
* `Layout.nearest` — the code of the value nearest to a fraction, an even code on a tie;
* `Decimal`, `Layout.shortest` — the decimal on the coarsest grid that has one which reads back. Where both neighbours
  read back the nearer one is taken, and the upper one of a tie;
* `value`, `int?` — the number that a list of digits spells, and reading a whole number;
* `Layout.read?`, `Layout.text` — reading and writing a number of a given width;
* `readDouble?`, `readSingle?`, `doubleText`, `singleText` — the same for the two machine types.
-/

namespace CommandGrammar.Number

/-! ## Binary layouts -/

/-- The powers of two. -/
def twoTo (n : Nat) : Nat := Nat.pow 2 n

/-- The powers of ten. -/
def tenTo (n : Nat) : Nat := Nat.pow 10 n

/-- The field widths of a binary floating-point number. -/
structure Layout where
  /-- The number of bits of the fraction. -/
  fractionBits : Nat
  /-- The number of bits of the exponent. -/
  exponentBits : Nat

/-- Numbers of 64 bits. -/
def double : Layout := ⟨52, 11⟩

/-- Numbers of 32 bits. -/
def single : Layout := ⟨23, 8⟩

namespace Layout

/-! ## Codes and what they stand for -/

/-- The code of infinity: all values below it are finite, all codes above it stand for no number. -/
def infinity (layout : Layout) : Nat := (twoTo layout.exponentBits - 1) * twoTo layout.fractionBits

/-- The code of a result that is no number. -/
def notANumber (layout : Layout) : Nat := layout.infinity + twoTo (layout.fractionBits - 1)

/-- The weight of the sign bit. -/
def signWeight (layout : Layout) : Nat := twoTo (layout.exponentBits + layout.fractionBits)

/-- The power of two by which the smallest non-zero value is scaled. -/
def leastScale (layout : Layout) : Int :=
  2 - twoTo (layout.exponentBits - 1) - layout.fractionBits

/-- The whole number that a finite code scales. -/
def significand (layout : Layout) (code : Nat) : Nat :=
  if code / twoTo layout.fractionBits = 0 then code
  else twoTo layout.fractionBits + code % twoTo layout.fractionBits

/-- The power of two by which a finite code's significand is scaled. -/
def scale (layout : Layout) (code : Nat) : Int :=
  layout.leastScale + (code / twoTo layout.fractionBits - 1 : Nat)

/-! ## Rounding -/

/-- The whole number nearest to `num / den`, the even one on a tie. -/
def roundQuotient (num den : Nat) : Nat :=
  let below := num / den
  let twiceRest := 2 * (num % den)
  if den < twiceRest || (den == twiceRest && below % 2 == 1) then below + 1 else below

/-- The numerator and denominator of `(num / den) / 2 ^ scale`. -/
def unscale (num den : Nat) (scale : Int) : Nat × Nat :=
  (num * twoTo (-scale).toNat, den * twoTo scale.toNat)

/-- The scale at which `num / den` has a significand of full width, or the least scale. -/
def scaleOf (layout : Layout) (num den : Nat) : Int :=
  let guess : Int := num.log2 - den.log2 - layout.fractionBits
  let (n, d) := unscale num den guess
  max layout.leastScale (if n / d < twoTo layout.fractionBits then guess - 1 else guess)

/-- The code of the value nearest to `num / den`, of the even code on a tie. Fractions beyond the
    finite values give infinity. A significand that rounds up to the next power of two carries into
    the exponent, which is the right code. -/
def nearest (layout : Layout) (num den : Nat) : Nat :=
  if num = 0 then 0
  else
    let scale := layout.scaleOf num den
    let (n, d) := unscale num den scale
    let steps := (scale - layout.leastScale).toNat
    min layout.infinity (steps * twoTo layout.fractionBits + roundQuotient n d)

end Layout

/-! ## The fewest digits that read back -/

/-- The value `digits * 10 ^ power`. -/
structure Decimal where
  /-- The digits, as a whole number. -/
  digits : Nat
  /-- The power of ten that the last digit counts. -/
  power : Int
deriving DecidableEq, Repr

namespace Layout

/-- The code of the value nearest to a decimal. -/
def ofDecimal (layout : Layout) (d : Decimal) : Nat :=
  layout.nearest (d.digits * tenTo d.power.toNat) (tenTo (-d.power).toNat)

/-- The numerator and denominator of a finite code's value, counted in units of `10 ^ power`. -/
def fraction (layout : Layout) (code : Nat) (power : Int) : Nat × Nat :=
  (layout.significand code * twoTo (layout.scale code).toNat * tenTo (-power).toNat,
   twoTo (-layout.scale code).toNat * tenTo power.toNat)

/-- The multiple of `10 ^ power` next to the value that reads back as it: the nearer one of two,
    the upper one of a tie. -/
def onGrid (layout : Layout) (code : Nat) (power : Int) : Option Decimal :=
  let (num, den) := layout.fraction code power
  let lower : Decimal := ⟨num / den, power⟩
  let upper : Decimal := ⟨num / den + 1, power⟩
  match layout.ofDecimal lower == code, layout.ofDecimal upper == code with
  | true, true => some (if den ≤ 2 * (num % den) then upper else lower)
  | true, false => some lower
  | false, true => some upper
  | false, false => none

/-- The powers of ten worth trying, from one beyond the whole part down to the exact value's last
    digit. -/
def grids (layout : Layout) (code : Nat) : List Int :=
  let (num, den) := layout.fraction code 0
  let top := (Nat.toDigits 10 (num / den)).length
  (List.range (top + (-layout.scale code).toNat + 1)).map fun (i : Nat) => (top : Int) - i

/-- The decimal with the fewest digits that reads back as a finite code. -/
def shortest (layout : Layout) (code : Nat) : Decimal :=
  ((layout.grids code).findSome? (layout.onGrid code)).getD ⟨0, 0⟩

end Layout

/-! ## Whole numbers -/

/-- The number that a list of decimal digits spells. -/
def value (digits : List Char) : Nat :=
  digits.foldl (fun n c => 10 * n + (c.toNat - '0'.toNat)) 0

/-- Reads a non-empty list of digits. -/
def nat? (cs : List Char) : Option Nat :=
  if cs ≠ [] ∧ cs.all Char.isDigit then some (value cs) else none

/-- Reads digits with an optional minus sign in front. -/
def int? : List Char → Option Int
  | '-' :: cs => (nat? cs).map fun n => -(n : Int)
  | cs => (nat? cs).map fun n => (n : Int)

/-- Writes a whole number. -/
def intText (n : Int) : String :=
  if n < 0 then "-" ++ Nat.repr n.natAbs else Nat.repr n.natAbs

/-! ## Fractional numbers -/

/-- Reads digits with at most one decimal point among them and at least one digit. -/
def decimal? (cs : List Char) : Option Decimal :=
  let whole := cs.takeWhile Char.isDigit
  match cs.dropWhile Char.isDigit with
  | [] => if whole = [] then none else some ⟨value whole, 0⟩
  | '.' :: places =>
    if places.all Char.isDigit ∧ whole ++ places ≠ [] then
      some ⟨value (whole ++ places), -places.length⟩
    else none
  | _ :: _ => none

namespace Layout

/-- Reads the code of a number without a sign. -/
def readMagnitude? (layout : Layout) (cs : List Char) : Option Nat :=
  if cs = "inf".toList then some layout.infinity
  else if cs = "NaN".toList then some layout.notANumber
  else (decimal? cs).map layout.ofDecimal

/-- Reads the code of a number with an optional minus sign in front. -/
def read? (layout : Layout) : List Char → Option Nat
  | '-' :: cs => (layout.readMagnitude? cs).map (layout.signWeight + ·)
  | cs => layout.readMagnitude? cs

end Layout

/-- Writes a decimal positionally: zeros after whole digits, or a point among or before them. -/
def Decimal.text (d : Decimal) : String :=
  let digits := Nat.toDigits 10 d.digits
  let places := (-d.power).toNat
  if places = 0 then
    String.ofList (digits ++ List.replicate (if d.digits = 0 then 0 else d.power.toNat) '0')
  else
    let padded := List.replicate (places + 1 - digits.length) '0' ++ digits
    let whole := padded.length - places
    String.ofList (padded.take whole ++ '.' :: padded.drop whole)

/-- Writes the number with a given code: the fewest digits that read back, `-` in front when the
    sign bit is set, `inf` for infinity and `NaN` for no number. -/
def Layout.text (layout : Layout) (code : Nat) : String :=
  let magnitude := code % layout.signWeight
  if layout.infinity < magnitude then "NaN"
  else
    let sign := if layout.signWeight ≤ code then "-" else ""
    if magnitude = layout.infinity then sign ++ "inf"
    else if magnitude = 0 then sign ++ "0"
    else sign ++ (layout.shortest magnitude).text

/-! ## Machine types -/

/-- Reads a 64-bit number. -/
def readDouble? (cs : List Char) : Option Float :=
  (double.read? cs).map fun code => Float.ofBits (UInt64.ofNat code)

/-- Reads a 32-bit number. -/
def readSingle? (cs : List Char) : Option Float32 :=
  (single.read? cs).map fun code => Float32.ofBits (UInt32.ofNat code)

/-- Writes a 64-bit number. -/
def doubleText (x : Float) : String := double.text x.toBits.toNat

/-- Writes a 32-bit number. -/
def singleText (x : Float32) : String := single.text x.toBits.toNat

end CommandGrammar.Number
