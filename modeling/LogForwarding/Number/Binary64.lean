/-!
Binary floating point numbers of 64 bits, held as their bit pattern so that equality is decidable.
Rounding works on exact fractions of natural numbers; the shortest text is found by testing the
two neighbours of a value on each decimal grid, from the coarsest grid on.
-/

namespace LogForwarding

/-- A number in the IEEE 754 binary64 interchange format. -/
structure Binary64 where
  bits : UInt64
deriving DecidableEq, Repr, Inhabited

namespace Binary64

/-- The leading bit of a normal mantissa, which stands above the 52 stored ones. -/
def leadingBit : Nat :=
  Nat.pow 2 52

def signBit : Nat :=
  Nat.pow 2 63

def exponentField (x : Binary64) : Nat :=
  x.bits.toNat / leadingBit % 2048

/-- The stored 52 bits below the leading bit. -/
def fractionField (x : Binary64) : Nat :=
  x.bits.toNat % leadingBit

/-- Whether the sign bit is set, as it is also on a negative zero. -/
def isNegative (x : Binary64) : Bool :=
  signBit ≤ x.bits.toNat

def isFinite (x : Binary64) : Bool :=
  x.exponentField ≠ 2047

def isZero (x : Binary64) : Bool :=
  x.exponentField = 0 ∧ x.fractionField = 0

/-- A finite number with an implicit leading bit: neither zero nor subnormal. -/
def isNormal (x : Binary64) : Bool :=
  x.isFinite ∧ x.exponentField ≠ 0

/-- A finite magnitude is `mantissa * 2 ^ (shift - 1074)`. -/
def mantissa (x : Binary64) : Nat :=
  if x.exponentField = 0 then x.fractionField else x.fractionField + leadingBit

/-- The power of two above the smallest one, see `mantissa`. -/
def shift (x : Binary64) : Nat :=
  x.exponentField - 1

/-- The pattern of a sign and a magnitude field. -/
def ofFields (negative : Bool) (magnitude : Nat) : Binary64 :=
  ⟨UInt64.ofNat ((if negative then signBit else 0) + magnitude)⟩

def infinity (negative : Bool) : Binary64 :=
  ofFields negative (2047 * leadingBit)

/-- The quotient rounded to the nearest natural number, a half going to the even one. -/
def roundHalfEven (num den : Nat) : Nat :=
  let q := num / den
  let r := num % den
  if 2 * r < den then q
  else if den < 2 * r then q + 1
  else if q % 2 = 0 then q else q + 1

/-- The exponent of the greatest power of two that is not above `num / den`. -/
def floorLog (num den : Nat) : Int :=
  -- `2 ^ e ≤ num / den < 2 ^ (e + 1)` holds for `e` or for the `e` one below it
  let guess : Int := (Nat.log2 num : Int) - (Nat.log2 den : Int)
  let below := if 0 ≤ guess then num < den * Nat.pow 2 guess.toNat
               else num * Nat.pow 2 (-guess).toNat < den
  if below then guess - 1 else guess

/-- The multiple of `2 ^ u` nearest to `num / den`, ties to even. -/
def roundAt (num den : Nat) (u : Int) : Nat :=
  if 0 ≤ u then roundHalfEven num (den * Nat.pow 2 u.toNat)
  else roundHalfEven (num * Nat.pow 2 (-u).toNat) den

/-- The number nearest to `num / den`, ties to even. Too large a quotient becomes infinite. -/
def ofFraction (negative : Bool) (num den : Nat) : Binary64 :=
  if num = 0 ∨ den = 0 then ofFields negative 0
  else
    -- the unit in the last place is `2 ^ u`
    let u := max (floorLog num den - 52) (-1074)
    let m := roundAt num den u
    -- a mantissa that rounded up to the next power of two carries into the exponent by itself
    let field := if m < leadingBit then m else m - leadingBit + (u + 1075).toNat * leadingBit
    if 2047 * leadingBit ≤ field then infinity negative else ofFields negative field

/-- The number of decimal digits, zero having none. -/
def digitCount (n : Nat) : Nat :=
  if n = 0 then 0 else (Nat.toDigits 10 n).length

/-- The number nearest to `digits * 10 ^ exponent`. -/
def ofDecimal (negative : Bool) (digits : Nat) (exponent : Int) : Binary64 :=
  let size : Int := digitCount digits + exponent
  if digits = 0 ∨ size < -400 then ofFields negative 0
  else if 400 < size then infinity negative
  else if 0 ≤ exponent then ofFraction negative (digits * Nat.pow 10 exponent.toNat) 1
  else ofFraction negative digits (Nat.pow 10 (-exponent).toNat)

/-- The magnitude of a finite number as a fraction. -/
def toFraction (x : Binary64) : Nat × Nat :=
  if 1074 ≤ x.shift then (x.mantissa * Nat.pow 2 (x.shift - 1074), 1)
  else (x.mantissa, Nat.pow 2 (1074 - x.shift))

def ofInt (n : Int) : Binary64 :=
  ofFraction (n < 0) n.natAbs 1

/-- Four times the mantissa and the ends of the interval of reals that round to the number, in
quarters of its last unit. The lower half is narrower just above a power of two. -/
def quarters (x : Binary64) : Nat × Nat × Nat :=
  let m := 4 * x.mantissa
  let below := if x.fractionField = 0 ∧ 1 < x.exponentField then 1 else 2
  (m - below, m, m + 2)

/-- Whether `a / b` lies between two bounds, the bounds included when `closed`. -/
def within (closed : Bool) (low a high : Nat) : Bool :=
  if closed then low ≤ a ∧ a ≤ high else low < a ∧ a < high

/-- A quarter of the last unit is `scale / unit` multiples of `10 ^ k`. -/
def scale (x : Binary64) (k : Int) : Nat :=
  Nat.pow 2 ((x.shift : Int) - 1076).toNat * Nat.pow 10 (-k).toNat

@[inherit_doc scale]
def unit (x : Binary64) (k : Int) : Nat :=
  Nat.pow 2 (1076 - (x.shift : Int)).toNat * Nat.pow 10 k.toNat

/-- Whether `n * 10 ^ k` reads back as the number. -/
def readsBack (x : Binary64) (k : Int) (n : Nat) : Bool :=
  let (low, _, high) := x.quarters
  within (x.mantissa % 2 = 0) (low * x.scale k) (n * x.unit k) (high * x.scale k)

/-- The neighbours of a positive value on the grid of multiples of `10 ^ k`: the nearer of those
that read back as the number, the even one on a tie. -/
def gridPoint (x : Binary64) (k : Int) : Option Nat :=
  let mid := x.quarters.2.1 * x.scale k
  let d := mid / x.unit k
  let down := mid - d * x.unit k
  let up := (d + 1) * x.unit k - mid
  match decide (d ≠ 0) && x.readsBack k d, x.readsBack k (d + 1) with
  | true, true => some (if down < up then d else if up < down then d + 1
                        else if d % 2 = 0 then d else d + 1)
  | true, false => some d
  | false, true => some (d + 1)
  | false, false => none

/-- The exponent of the leading decimal digit of a positive value. -/
def leadingExponent (x : Binary64) : Int :=
  let (num, den) := x.toFraction
  let whole := num / den
  if whole ≠ 0 then (digitCount whole : Int) - 1
  else
    -- a value below one: count digits of it scaled by `10 ^ 400`
    (digitCount (num * Nat.pow 10 400 / den) : Int) - 401

/-- The first grid with a point that reads back, from `count` digits on, `fuel` grids at most. -/
def searchGrids (x : Binary64) (lead : Int) : (fuel count : Nat) → Nat × Int
  | 0, _ => (0, 0)
  | fuel + 1, count =>
      let k := lead - count + 1
      match x.gridPoint k with
      | some d => (d, k)
      | none => searchGrids x lead fuel (count + 1)

/-- Removes trailing zeros, at most `fuel` of them. -/
def dropZeros : (fuel d : Nat) → Int → Nat × Int
  | 0, d, k => (d, k)
  | fuel + 1, d, k => if d ≠ 0 ∧ d % 10 = 0 then dropZeros fuel (d / 10) (k + 1) else (d, k)

/-- The fewest decimal digits that read back as the number, and their exponent. -/
def shortest (x : Binary64) : Nat × Int :=
  if x.isZero then (0, 0)
  else
    let (d, k) := searchGrids x (leadingExponent x) 18 1
    dropZeros 20 d k

/-- Text of a finite number: positional from `1e-5` up to below `1e16` and with at least one
decimal, else a mantissa with a signed exponent. -/
def toText (x : Binary64) : String :=
  let sign := if x.isNegative then "-" else ""
  if x.isZero then sign ++ "0.0"
  else
    let (d, k) := x.shortest
    let digits := Nat.toDigits 10 d
    let count := digits.length
    let lead : Int := count + k - 1
    let body : List Char :=
      if lead < -5 ∨ 15 < lead then
        let fraction := if count = 1 then [] else '.' :: digits.drop 1
        let exponent := (if lead < 0 then "e-" else "e+").toList ++ Nat.toDigits 10 lead.natAbs
        digits.take 1 ++ fraction ++ exponent
      else if lead < 0 then
        ['0', '.'] ++ List.replicate (lead.natAbs - 1) '0' ++ digits
      else
        let whole := lead.toNat + 1
        if count ≤ whole then digits ++ List.replicate (whole - count) '0' ++ ['.', '0']
        else digits.take whole ++ '.' :: digits.drop whole
    sign ++ String.ofList body

end Binary64

end LogForwarding
