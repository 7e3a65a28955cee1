/-!
# The double nearest a decimal

`nearestDouble digits exp` is the double nearest to `digits · 10^exp`, a tie going to the even
mantissa, with the gradual underflow of subnormal doubles and infinity beyond the largest
double. The arithmetic is exact, on `Nat`: the quotient of the decimal by a power of two is
taken with its remainder, which decides the rounding.
-/

namespace BlockPlan.Decimal

/-- `num / (den · 2^q)` for an integer `q`, as quotient and whether the remainder is more, the
same, or less than half the divisor. -/
def scaledQuotient (num den : Nat) (q : Int) : Nat × Ordering :=
  let n := num * Nat.pow 2 (-q).toNat
  let d := den * Nat.pow 2 q.toNat
  (n / d, compare (2 * (n % d)) d)

/-- The scale `2^q` at which `num / den` is rounded (`num > 0`, `den > 0`): the quotient has 53
bits, or fewer at the least exponent `-1074` of subnormal doubles. -/
def nearestScale (num den : Nat) : Int :=
  let guess : Int := (num.log2 : Int) - den.log2 - 52
  let fits (q : Int) := (scaledQuotient num den q).1 < Nat.pow 2 53
  let wide (q : Int) := Nat.pow 2 52 ≤ (scaledQuotient num den q).1
  let q1 := if fits guess then guess else guess + 1
  let q2 := if fits q1 then q1 else q1 + 1
  let q3 := if wide q2 then q2 else q2 - 1
  if q3 < -1074 then -1074 else q3

/-- A quotient rounded by its remainder: up when the remainder is more than half the divisor,
or exactly half and the quotient odd. -/
def roundHalfEven : Nat × Ordering → Nat
  | (m, rest) => if rest == .gt || (rest == .eq && m % 2 = 1) then m + 1 else m

/-- The bits of the double `m · 2^q` for a mantissa `m ≤ 2^53` at an exponent `q ≥ -1074`: a
mantissa of `2^53` carries into the next exponent, one below `2^52` is subnormal, and an
exponent beyond the largest double gives infinity. -/
def packBits (m : Nat) (q : Int) : Nat :=
  let (m, q) := if m = Nat.pow 2 53 then (Nat.pow 2 52, q + 1) else (m, q)
  if m < Nat.pow 2 52 then m
  else if q + 1075 ≥ 2047 then 0x7FF0000000000000
  else (q + 1075).toNat * Nat.pow 2 52 + (m - Nat.pow 2 52)

/-- The bits of the double nearest `num / den` (`num > 0`, `den > 0`). -/
def nearestBits (num den : Nat) : Nat :=
  let q := nearestScale num den
  packBits (roundHalfEven (scaledQuotient num den q)) q

/-- The double nearest `digits · 10^exp`, with the given sign. A number of more than 400
decimal places before the point is beyond every double, and one whose first digit lies more than
400 places after the point is below half the least double, so neither needs its power of ten. -/
def nearestDouble (neg : Bool) (digits : Nat) (exp : Int) : Float :=
  let places : Int := exp + (Nat.toDigits 10 digits).length
  let bits :=
    if digits = 0 then 0
    else if places > 400 then 0x7FF0000000000000
    else if places < -400 then 0
    else if exp ≥ 0 then nearestBits (digits * Nat.pow 10 exp.toNat) 1
    else nearestBits digits (Nat.pow 10 (-exp).toNat)
  Float.ofBits (bits + if neg then Nat.pow 2 63 else 0).toUInt64

end BlockPlan.Decimal
