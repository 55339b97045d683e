-- SUMMARY: Binary64 numbers as decimal text: the shortest that reads back, and one place.
import BytecodeCoverage.Decimal.Binary64

/-!
# Decimal text of binary64 numbers

The shortest text of a number has the fewest digits that still read back as the number, and of
those the nearest. On each grid of decimal points only the two neighbours of the number have to
be looked at: if any point of the grid reads back, one of them does.

Rounding to places looks at the exact binary value, and a tie goes to the even digit.
-/

namespace BytecodeCoverage

/-- Digits `d₁d₂…` for the value `0.d₁d₂… × 10 ^ point`. -/
structure DecimalDigits where
  digits : Nat
  point : Int
  deriving Repr, DecidableEq

namespace Binary64

/-- Whether a quotient reads back as the number with this significand and exponent: it lies
between the midpoints to the neighbours, which count only for an even significand. -/
def readsBack (significand : Nat) (exponent : Int) (num den : Nat) : Bool :=
  let lower := if significand = 1 <<< 52 ∧ -1074 < exponent then 4 * significand - 1
    else 4 * significand - 2
  let upper := 4 * significand + 2
  -- four times the quotient, in units of the last binary digit
  let (n, d) := scaleByTwo (4 * num) den (-exponent)
  if significand % 2 = 0 then lower * d ≤ n && n ≤ upper * d
  else lower * d < n && n < upper * d

/-- How many decimal digits stand before the point of a positive quotient. It is negative if
zeros follow the point. -/
def pointOf (num den : Nat) : Int :=
  let before := (Nat.toDigits 10 (num / den)).length
  if den ≤ num then before
  else
    -- the quotient is below one: count the zeros after the point
    let shift := (Nat.toDigits 10 (den / num)).length
    if den ≤ num * Nat.pow 10 (shift - 1) then 2 - (shift : Int) else 1 - (shift : Int)

/-- The neighbours on the grid of so many digits that read back, the nearer first. -/
def onGrid (significand : Nat) (exponent : Int) (num den : Nat) (point : Int) (count : Nat) :
    List Nat :=
  let shift := (count : Int) - point
  let n := num * Nat.pow 10 shift.toNat
  let d := den * Nat.pow 10 (-shift).toNat
  let below := n / d
  let near := roundDiv n d
  let far := if near = below then below + 1 else below
  [near, far].filter fun digits =>
    readsBack significand exponent (digits * Nat.pow 10 (-shift).toNat) (Nat.pow 10 shift.toNat)

/-- The digits of the shortest text of a positive number. -/
def shortestDigits (significand : Nat) (exponent : Int) : DecimalDigits :=
  let (num, den) := scaleByTwo significand 1 exponent
  let point := pointOf num den
  let found := (List.range 17).findSome? fun k =>
    ((onGrid significand exponent num den point (k + 1)).head?).map (·, k + 1)
  let (digits, count) := found.getD (0, 1)
  -- a neighbour may have rounded up to the next power of ten
  ⟨digits, point + ((Nat.toDigits 10 digits).length - (count : Int))⟩

def dropZeros (digits : List Char) : List Char := (digits.reverse.dropWhile (· = '0')).reverse

/-- The shortest text. It has an exponent from `1e16` on and below `1e-4`, and otherwise a digit on
each side of the point. -/
def shortest : Binary64 → String
  | .nan => "nan"
  | .infinity negative => if negative then "-inf" else "inf"
  | .finite negative m e =>
    let sign := if negative then "-" else ""
    if m = 0 then sign ++ "0.0"
    else
      let ⟨digits, point⟩ := shortestDigits m e
      let ds := dropZeros (Nat.toDigits 10 digits)
      if point ≤ -4 ∨ 16 < point then
        let mantissa := match ds with
          | [d] => String.ofList [d]
          | d :: rest => String.ofList (d :: '.' :: rest)
          | [] => ""
        let exponent := (point - 1).natAbs
        let digits := if exponent < 10 then "0" ++ toString exponent else toString exponent
        sign ++ mantissa ++ "e" ++ (if point - 1 < 0 then "-" else "+") ++ digits
      else if point ≤ 0 then
        sign ++ "0." ++ String.ofList (List.replicate (-point).toNat '0' ++ ds)
      else
        let whole := ds.take point.toNat
        let zeros := List.replicate (point.toNat - ds.length) '0'
        let fraction := ds.drop point.toNat
        sign ++ String.ofList (whole ++ zeros) ++ "." ++
          (if fraction = [] then "0" else String.ofList fraction)

/-- The text with one digit after the point. -/
def onePlace : Binary64 → String
  | .nan => "nan"
  | .infinity negative => if negative then "-inf" else "inf"
  | .finite negative m e =>
    let (n, d) := scaleByTwo (10 * m) 1 e
    let tenths := roundDiv n d
    (if negative then "-" else "") ++ toString (tenths / 10) ++ "." ++ toString (tenths % 10)

end Binary64

end BytecodeCoverage
