import PlatformRoutes.Number.Binary64

namespace PlatformRoutes.Number

/-- The positive decimal `digits * 10 ^ exponent`. -/
structure Decimal where
  digits : Nat
  exponent : Int

/-- A positive fraction times `10 ^ shift`. -/
def scale (num den : Nat) (shift : Int) : Nat × Nat :=
  if shift < 0 then (num, den * Nat.pow 10 shift.natAbs) else (num * Nat.pow 10 shift.natAbs, den)

/-- The number of digits before the point of a positive fraction `num / den`, counted below zero
for the zeros after the point: the only `k` with `10 ^ (k - 1) ≤ num / den < 10 ^ k`. -/
def magnitude (num den : Nat) : Int :=
  let k : Int := (num.repr.length : Int) - den.repr.length
  let (n, d) := scale num den (-k)
  if d ≤ n then k + 1 else k

def dropZeros : Nat → Decimal → Decimal
  | 0, d => d
  | fuel + 1, d =>
    if d.digits % 10 == 0 && d.digits != 0 then dropZeros fuel ⟨d.digits / 10, d.exponent + 1⟩
    else d

/-- No zero stands at the end of the digits. -/
def Decimal.normal (d : Decimal) : Decimal :=
  dropZeros d.digits.repr.length d

/-- A positive fraction to `count` significant digits; a half goes to the even neighbour. -/
def significant (count num den : Nat) : Decimal :=
  let shift := (count : Int) - magnitude num den
  let (n, d) := scale num den shift
  Decimal.normal ⟨roundDiv n d, -shift⟩

/-- The bounds of the reals that round to `mantissa * 2 ^ exponent`, in quarters of the last
place. Below a power of two the doubles lie twice as close. -/
def roundingBounds (mantissa : Nat) (exponent : Int) : Nat × Nat :=
  if mantissa == Nat.pow 2 52 && exponent > -1074 then (4 * mantissa - 1, 4 * mantissa + 2)
  else (4 * mantissa - 2, 4 * mantissa + 2)

/-- Whether `digits * 10 ^ exponent10` rounds to the double; both ends belong to an even one. -/
def roundsTo (mantissa : Nat) (exponent : Int) (digits : Nat) (exponent10 : Int) : Bool :=
  let (lo, hi) := roundingBounds mantissa exponent
  let (n, d) := scale digits 1 exponent10
  let binary := exponent - 2
  let num := if binary < 0 then n * Nat.pow 2 binary.natAbs else n
  let den := if binary < 0 then d else d * Nat.pow 2 binary.natAbs
  if mantissa % 2 == 0 then lo * den ≤ num && num ≤ hi * den
  else lo * den < num && num < hi * den

/-- On the decimal grid of `count` digits, the neighbour of the double that rounds to it, the
nearer one if both do. -/
def onGrid (mantissa : Nat) (exponent : Int) (num den count : Nat) : Option Decimal :=
  let shift := (count : Int) - magnitude num den
  let (n, d) := scale num den shift
  let low := n / d
  let lowFits := roundsTo mantissa exponent low (-shift)
  let highFits := roundsTo mantissa exponent (low + 1) (-shift)
  if lowFits && highFits then some ⟨roundDiv n d, -shift⟩
  else if lowFits then some ⟨low, -shift⟩
  else if highFits then some ⟨low + 1, -shift⟩
  else none

/-- A positive double as a fraction. -/
def fraction (mantissa : Nat) (exponent : Int) : Nat × Nat :=
  if exponent < 0 then (mantissa, Nat.pow 2 exponent.natAbs)
  else (mantissa * Nat.pow 2 exponent.natAbs, 1)

/-- The fewest digits that read back as the given positive double; seventeen always do. -/
def shortest (mantissa : Nat) (exponent : Int) : Decimal :=
  let (num, den) := fraction mantissa exponent
  match (List.range 17).findSome? fun i => onGrid mantissa exponent num den (i + 1) with
  | some d => d.normal
  | none => significant 17 num den

/-- How a decimal is laid out: which powers of ten are written with an exponent, and whether a
whole number keeps a zero after the point. -/
structure Layout where
  lowest : Int
  highest : Int
  keepPoint : Bool

def signed (negative : Bool) (s : String) : String :=
  if negative then "-" ++ s else s

/-- At least two digits follow the sign of an exponent. -/
def exponentText (e : Int) : String :=
  let digits := e.natAbs.repr
  (if e < 0 then "e-" else "e+") ++ (if digits.length < 2 then "0" ++ digits else digits)

def zeros (n : Nat) : String := String.ofList (List.replicate n '0')

def Layout.write (layout : Layout) (d : Decimal) : String :=
  let digits := d.digits.repr
  let leading : Int := digits.length + d.exponent - 1
  if leading < layout.lowest || layout.highest ≤ leading then
    let rest := String.ofList (digits.toList.drop 1)
    String.ofList (digits.toList.take 1) ++ (if rest.isEmpty then "" else "." ++ rest) ++
      exponentText leading
  else if d.exponent ≥ 0 then
    digits ++ zeros d.exponent.natAbs ++ (if layout.keepPoint then ".0" else "")
  else if leading < 0 then
    "0." ++ zeros (-leading - 1).natAbs ++ digits
  else
    let whole := leading.natAbs + 1
    String.ofList (digits.toList.take whole) ++ "." ++ String.ofList (digits.toList.drop whole)

/-- Numbers in running text: powers of ten from -4 to 15 are positional and a whole number ends
in `.0`. -/
def plainLayout : Layout := ⟨-4, 16, true⟩

/-- Durations in messages: six digits, powers of ten from -4 to 5 positional, no trailing point. -/
def durationLayout : Layout := ⟨-4, 6, false⟩

/-- The shortest text that reads back as the double. -/
def floatText (x : Float) : String :=
  match Binary64.ofFloat x with
  | .nan => "nan"
  | .infinite negative => signed negative "inf"
  | .finite negative 0 _ => signed negative "0.0"
  | .finite negative mantissa exponent =>
    signed negative (plainLayout.write (shortest mantissa exponent))

/-- A duration in seconds to six significant digits. -/
def secondsText (x : Float) : String :=
  match Binary64.ofFloat x with
  | .nan => "nan"
  | .infinite negative => signed negative "inf"
  | .finite negative 0 _ => signed negative "0"
  | .finite negative mantissa exponent =>
    let (num, den) := fraction mantissa exponent
    signed negative (durationLayout.write (significant 6 num den))

end PlatformRoutes.Number
