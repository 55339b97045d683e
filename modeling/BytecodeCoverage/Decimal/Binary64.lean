-- SUMMARY: Binary floating point numbers of 64 bits, as exact values with correct rounding.

/-!
# Binary64

A finite number is a significand times a power of two, kept as whole numbers, so that every
operation is an exact computation followed by one rounding to nearest, ties to the even
significand. The least exponent is −1074. Any significand above it has 53 binary digits.
-/

namespace BytecodeCoverage

inductive Binary64 where
  | finite (negative : Bool) (significand : Nat) (exponent : Int)
  | infinity (negative : Bool)
  | nan
  deriving Repr, DecidableEq

/-- The nearest whole number to a quotient, the even one of two that are equally near. -/
def roundDiv (num den : Nat) : Nat :=
  let q := num / den
  let r := num % den
  if 2 * r < den then q
  else if 2 * r = den then q + q % 2
  else q + 1

theorem roundDiv_of_dvd {num den : Nat} (hden : 0 < den) (h : den ∣ num) :
    roundDiv num den = num / den := by
  simp [roundDiv, Nat.mod_eq_zero_of_dvd h, hden]

/-- No whole number is nearer to the quotient than half a unit away from the rounded one. -/
theorem roundDiv_near {num den : Nat} (hden : 0 < den) :
    2 * num ≤ (2 * roundDiv num den + 1) * den ∧ (2 * roundDiv num den) * den ≤ 2 * num + den := by
  have hq := Nat.div_add_mod num den
  have hr := Nat.mod_lt num hden
  generalize hqv : num / den = q at *
  generalize hrv : num % den = r at *
  have hmod : q % 2 = 0 ∨ q % 2 = 1 := by omega
  simp only [roundDiv, hqv, hrv]
  have expand : ∀ a : Nat, (2 * a + 1) * den = 2 * (den * a) + den := fun a => by
    rw [Nat.add_mul, Nat.mul_assoc, Nat.mul_comm a den, Nat.one_mul]
  have expand' : ∀ a : Nat, (2 * a) * den = 2 * (den * a) := fun a => by
    rw [Nat.mul_assoc, Nat.mul_comm a den]
  split
  · rw [expand, expand']; omega
  · split
    · rcases hmod with h | h <;> rw [h, expand, expand'] <;> simp only [Nat.mul_add] <;> omega
    · rw [expand, expand', Nat.mul_add]; omega

/-- The quotient of two numbers when the dividend is moved by a power of two. -/
def scaleByTwo (num den : Nat) (exponent : Int) : Nat × Nat :=
  (num <<< exponent.toNat, den <<< (-exponent).toNat)

namespace Binary64

def zero : Binary64 := .finite false 0 (-1074)

/-- The exponent at which a positive quotient has a significand of 53 digits, or the least. -/
def exponentOf (num den : Nat) : Int :=
  let guess : Int := (num.log2 : Int) - den.log2 - 52
  let (n, d) := scaleByTwo num den (-guess)
  max (if n < d <<< 52 then guess - 1 else guess) (-1074)

/-- The nearest number to a quotient. -/
def ofRatio (negative : Bool) (num den : Nat) : Binary64 :=
  if num = 0 then .finite negative 0 (-1074)
  else
    let e := exponentOf num den
    let (n, d) := scaleByTwo num den (-e)
    let m := roundDiv n d
    let (m, e) := if m = 1 <<< 53 then (1 <<< 52, e + 1) else (m, e)
    if 971 < e then .infinity negative else .finite negative m e

/-- The nearest number to a significand moved by a power of two. -/
def ofScaled (negative : Bool) (significand : Nat) (exponent : Int) : Binary64 :=
  let (n, d) := scaleByTwo significand 1 exponent
  ofRatio negative n d

/-- The nearest number to a whole number. -/
def ofInt (n : Int) : Binary64 := ofRatio (n < 0) n.natAbs 1

/-- The nearest number to digits moved by a power of ten, where the first of the digits is not zero.
Numbers far out of range are told by their size alone. -/
def ofDecimal (negative : Bool) (digits : Nat) (digitCount : Nat) (exponent : Int) : Binary64 :=
  if digits = 0 then .finite negative 0 (-1074)
  else if 400 < exponent + digitCount then .infinity negative
  else if exponent + digitCount < -400 then .finite negative 0 (-1074)
  else ofRatio negative (digits * Nat.pow 10 exponent.toNat) (Nat.pow 10 (-exponent).toNat)

def mul : Binary64 → Binary64 → Binary64
  | .finite s m e, .finite s' m' e' => ofScaled (s != s') (m * m') (e + e')
  | .infinity s, .finite s' m _ => if m = 0 then .nan else .infinity (s != s')
  | .finite s m _, .infinity s' => if m = 0 then .nan else .infinity (s != s')
  | .infinity s, .infinity s' => .infinity (s != s')
  | _, _ => .nan

def div : Binary64 → Binary64 → Binary64
  | .finite s m e, .finite s' m' e' =>
    if m' = 0 then (if m = 0 then .nan else .infinity (s != s'))
    else
      let (n, d) := scaleByTwo m m' (e - e')
      ofRatio (s != s') n d
  | .infinity s, .finite s' _ _ => .infinity (s != s')
  | .finite s _ _, .infinity s' => .finite (s != s') 0 (-1074)
  | _, _ => .nan

/-- The whole number that is left when the fraction is cut off. -/
def truncate? : Binary64 → Option Int
  | .finite s m e =>
    let n : Nat := (m <<< e.toNat) >>> (-e).toNat
    some (if s then -n else n)
  | _ => none

/-- The 64 bits as a number: the sign, eleven bits of exponent, the significand without its
leading digit. -/
def bits : Binary64 → Nat
  | .finite s m e =>
    let sign := if s then 1 <<< 63 else 0
    sign + if m < 1 <<< 52 then m else ((e + 1075).toNat <<< 52) + (m - (1 <<< 52))
  | .infinity s => (if s then 1 <<< 63 else 0) + (2047 <<< 52)
  | .nan => 4095 <<< 51

end Binary64

end BytecodeCoverage
