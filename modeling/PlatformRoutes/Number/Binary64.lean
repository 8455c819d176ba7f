namespace PlatformRoutes.Number

/-- What the sixty-four bits of a double stand for. A finite one is `mantissa * 2 ^ exponent`. -/
inductive Binary64 where
  | nan
  | infinite (negative : Bool)
  | finite (negative : Bool) (mantissa : Nat) (exponent : Int)

/-- The mantissa of a normal double carries a hidden leading bit; the smallest exponent is shared
by the subnormal doubles and the first binade. -/
def Binary64.ofBits (bits : Nat) : Binary64 :=
  let negative := bits / Nat.pow 2 63 % 2 == 1
  let biased := bits / Nat.pow 2 52 % Nat.pow 2 11
  let fraction := bits % Nat.pow 2 52
  if biased == 2047 then
    if fraction == 0 then .infinite negative else .nan
  else if biased == 0 then .finite negative fraction (-1074)
  else .finite negative (fraction + Nat.pow 2 52) (Int.ofNat biased - 1075)

def Binary64.ofFloat (x : Float) : Binary64 :=
  .ofBits x.toBits.toNat

def hexDigit (n : Nat) : Char :=
  if n < 10 then Char.ofNat (48 + n) else Char.ofNat (87 + n)

/-- The low `width` hexadecimal digits of a number, in small letters. -/
def hex (width n : Nat) : String :=
  String.ofList ((List.range width).reverse.map fun i => hexDigit (n / Nat.pow 16 i % 16))

/-- The sixteen hexadecimal digits of a double, or `nan` for each of the values that are no
number. -/
def bitText (x : Float) : String :=
  if x.isNaN then "nan" else hex 16 x.toBits.toNat

/-- The quotient to the nearest whole number; a half goes to the even neighbour. -/
def roundDiv (num den : Nat) : Nat :=
  let low := num / den
  let twice := 2 * (num % den)
  if twice > den || (twice == den && low % 2 == 1) then low + 1 else low

def bitLength (n : Nat) : Nat := if n == 0 then 0 else n.log2 + 1

/-- The bits of the double nearest to the fraction `num / den`. The last place is 53 bits below the
leading one, but never below that of the subnormal doubles. -/
def nearestBits (num den : Nat) : Nat :=
  let rough : Int := (bitLength num : Int) - bitLength den
  let scaled (e : Int) : Nat × Nat :=
    if e < 0 then (num * Nat.pow 2 e.natAbs, den) else (num, den * Nat.pow 2 e.natAbs)
  let (n, d) := scaled rough
  let leading := if d ≤ n then rough else rough - 1
  let place := max (leading - 52) (-1074)
  let (n, d) := scaled place
  let m := roundDiv n d
  let (m, place) := if m == Nat.pow 2 53 then (Nat.pow 2 52, place + 1) else (m, place)
  if m < Nat.pow 2 52 then m
  else if place > 971 then 2047 * Nat.pow 2 52
  else (place + 1075).toNat * Nat.pow 2 52 + (m - Nat.pow 2 52)

def ofFraction (negative : Bool) (num den : Nat) : Float :=
  let bits := if num == 0 then 0 else nearestBits num den
  Float.ofBits (UInt64.ofNat (if negative then bits + Nat.pow 2 63 else bits))

def ofInt (n : Int) : Float :=
  ofFraction (n < 0) n.natAbs 1

/-- The double nearest to a whole number, unless it lies beyond all of them. -/
def ofNat? (n : Nat) : Option Float :=
  if nearestBits n 1 == 2047 * Nat.pow 2 52 then none else some (ofInt n)

/-- The double nearest to `mantissa * 10 ^ exponent`. Exponents beyond the reach of any double are
settled without computing the power. -/
def ofDecimal (negative : Bool) (mantissa : Nat) (exponent : Int) : Float :=
  let size : Int := mantissa.repr.length + exponent
  if mantissa == 0 || size < -400 then ofFraction negative 0 1
  else if size > 400 then ofFraction negative (Nat.pow 10 400) 1
  else if exponent < 0 then ofFraction negative mantissa (Nat.pow 10 exponent.natAbs)
  else ofFraction negative (mantissa * Nat.pow 10 exponent.natAbs) 1

end PlatformRoutes.Number
