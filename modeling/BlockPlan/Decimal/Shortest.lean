/-!
# Shortest decimal digits of a double

A finite double is `±m · 2^e`. Reading a decimal back rounds it to the nearest double, a tie
going to the even mantissa, so the decimals that read back as the double fill an interval
around it whose ends count iff `m` is even. `Binary.shortest` finds the fewest significant
digits with a decimal in that interval, and of two such decimals on one grid the nearer.

All arithmetic is exact, on `Nat`: a quantity `x · 2^a · 10^b` is compared with another after
both are multiplied by the powers that clear the negative exponents.
-/

namespace BlockPlan.Decimal

/-- A finite double as sign, mantissa and binary exponent (`±mant · 2^exp`); `narrow` is set
when the gap to the double below is half the gap above (the least mantissa of a binade). -/
structure Binary where
  neg : Bool
  mant : Nat
  exp : Int
  narrow : Bool
  deriving Inhabited

/-- What the 64 bits of a double hold. -/
inductive Kind where
  | finite (b : Binary)
  | infinite (neg : Bool)
  | nan

/-- Splits the bits of a double. -/
def classify (bits : UInt64) : Kind :=
  let n : Nat := bits.toNat
  let neg := n / Nat.pow 2 63 % 2 = 1
  let biased : Nat := n / Nat.pow 2 52 % Nat.pow 2 11
  let frac : Nat := n % Nat.pow 2 52
  if biased = 0x7FF then (if frac = 0 then .infinite neg else .nan)
  else if biased = 0 then .finite ⟨neg, frac, -1074, false⟩
  else .finite ⟨neg, frac + Nat.pow 2 52, Int.ofNat biased - 1075, frac = 0 && biased > 1⟩

/-- `2^a · 10^b` split into the factor for the left side and the factor for the right side of
a comparison, so that both sides are whole numbers. -/
def clear (a b : Int) : Nat × Nat :=
  (Nat.pow 2 a.toNat * Nat.pow 10 b.toNat, Nat.pow 2 (-a).toNat * Nat.pow 10 (-b).toNat)

/-- The number of decimal digits of a positive number. -/
def digitCount (n : Nat) : Nat := (Nat.toDigits 10 n).length

/-- The exponent of the leading decimal digit: `10^k ≤ mant · 2^exp < 10^(k+1)` (`mant > 0`). -/
def Binary.leadExponent (b : Binary) : Int :=
  if b.exp ≥ 0 then (digitCount (b.mant * Nat.pow 2 b.exp.toNat) : Int) - 1
  else (digitCount (b.mant * Nat.pow 5 (-b.exp).toNat) : Int) - 1 + b.exp

/-- The candidates with `n` significant digits: the value's two neighbours `d · 10^k` on that
grid that lie in the rounding interval, the nearer first. -/
def Binary.onGrid (b : Binary) (n : Nat) : Option (Nat × Int) :=
  let k : Int := b.leadExponent + 1 - n
  -- quantities in units of `2^(exp-2)`: the value is `4m`, its interval `[lo, hi]`
  let e := b.exp - 2
  let center := 4 * b.mant
  let hi := 4 * b.mant + 2
  let lo := if b.narrow then 4 * b.mant - 1 else 4 * b.mant - 2
  -- a unit of the binary side is `2^e`, of the decimal side `10^k`; clear both
  let (binL, binR) := clear e 0
  let (decL, decR) := clear 0 k
  -- binary quantity x is x * binL * decR, decimal digit count d is d * decL * binR
  let bin (x : Nat) := x * binL * decR
  let dec (d : Nat) := d * decL * binR
  let inside (d : Nat) :=
    if b.mant % 2 = 0 then bin lo ≤ dec d && dec d ≤ bin hi
    else bin lo < dec d && dec d < bin hi
  let below := bin center / (decL * binR)
  let above := below + 1
  let dist (d : Nat) := if dec d ≤ bin center then bin center - dec d else dec d - bin center
  match inside below, inside above with
  | true, true =>
    if dist below < dist above then some (below, k)
    else if dist above < dist below then some (above, k)
    else if below % 2 = 0 then some (below, k) else some (above, k)
  | true, false => some (below, k)
  | false, true => some (above, k)
  | false, false => none

/-- Drops trailing zeros of the digits, raising the exponent. -/
def trimZeros (d : Nat) (k : Int) : Nat × Int :=
  (List.range (digitCount d)).foldl
    (fun (d, k) _ => if d % 10 = 0 && d ≠ 0 then (d / 10, k + 1) else (d, k)) (d, k)

/-- The fewest significant digits `d` and exponent `k` such that `d · 10^k` reads back as the
value (`mant > 0`); seventeen digits always suffice. -/
def Binary.shortest (b : Binary) : Nat × Int :=
  let hit := (List.range 17).findSome? fun i => b.onGrid (i + 1)
  let (d, k) := hit.getD (b.mant, 0)
  trimZeros d k

/-- Where the digits of a double are placed. -/
structure Layout where
  /-- Digits are written positionally when the decimal point position `p` (value
  `0.d₁d₂… · 10^p`) satisfies `lowest < p ≤ highest`, else with an exponent. -/
  lowest : Int
  highest : Int
  /-- The least number of exponent digits. -/
  expDigits : Nat
  /-- Text for a value that is not a number, and for infinity. -/
  nan : String
  infinity : String

/-- Decimal digits of a natural number as a string. -/
def natText (n : Nat) : String := String.ofList (Nat.toDigits 10 n)

/-- The text of a double under a layout: the shortest digits that read back, positional with
at least one digit on each side of the point, or one digit, the other digits after a point and
a signed exponent. -/
def Layout.render (l : Layout) (x : Float) : String :=
  match classify x.toBits with
  | .nan => l.nan
  | .infinite neg => (if neg then "-" else "") ++ l.infinity
  | .finite b =>
    let sign := if b.neg then "-" else ""
    if b.mant = 0 then sign ++ "0.0"
    else
      let (d, k) := b.shortest
      let ds := Nat.toDigits 10 d
      let n := ds.length
      let p : Int := k + n
      if l.lowest < p ∧ p ≤ l.highest then
        if p ≤ 0 then
          sign ++ "0." ++ String.ofList (List.replicate (-p).toNat '0') ++ String.ofList ds
        else if p ≥ n then
          sign ++ String.ofList ds ++ String.ofList (List.replicate (p.toNat - n) '0') ++ ".0"
        else
          sign ++ String.ofList (ds.take p.toNat) ++ "." ++ String.ofList (ds.drop p.toNat)
      else
        let e := p - 1
        let mantissa := match ds with
          | [] => "0"
          | [c] => String.ofList [c]
          | c :: rest => String.ofList (c :: '.' :: rest)
        let digits := Nat.toDigits 10 e.natAbs
        let padded := List.replicate (l.expDigits - digits.length) '0' ++ digits
        sign ++ mantissa ++ "e" ++ (if e < 0 then "-" else "+") ++ String.ofList padded

/-- The repr of a double: positional from `1e-4` up to below `1e16`, two exponent digits at
least, `nan` and `inf` for the values that are no number. -/
def Layout.repr : Layout := ⟨-4, 16, 2, "nan", "inf"⟩

/-- Numbers in JSON text: as `repr`, with `NaN` and `Infinity`. -/
def Layout.json : Layout := ⟨-4, 16, 2, "NaN", "Infinity"⟩

end BlockPlan.Decimal
