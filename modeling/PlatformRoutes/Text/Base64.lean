namespace PlatformRoutes.Text

def base64Digit (n : Nat) : Char :=
  if n < 26 then Char.ofNat (65 + n)
  else if n < 52 then Char.ofNat (71 + n)
  else if n < 62 then Char.ofNat (n - 4)
  else if n == 62 then '+' else '/'

/-- Three bytes make four digits; the end is filled with equals signs. -/
def base64 : List Nat → List Char
  | a :: b :: c :: rest =>
    base64Digit (a / 4) :: base64Digit (a % 4 * 16 + b / 16) :: base64Digit (b % 16 * 4 + c / 64) ::
      base64Digit (c % 64) :: base64 rest
  | [a, b] =>
    [base64Digit (a / 4), base64Digit (a % 4 * 16 + b / 16), base64Digit (b % 16 * 4), '=']
  | [a] => [base64Digit (a / 4), base64Digit (a % 4 * 16), '=', '=']
  | [] => []

/-- The value of a digit of base 64. -/
def base64Value? (c : Char) : Option Nat :=
  (List.range 64).find? fun n => base64Digit n == c

/-- The bits read since the last whole group of four digits: none, or one to three digits of which
`rest` has not become a byte yet. -/
structure Base64Group where
  digits : Nat
  rest : Nat
  pads : Nat

/-- Characters that are no digits are passed over. Equals signs that fill a group up end the text;
a group that is left open makes it unreadable. -/
def readBase64 (g : Base64Group) : List Char → Option (List UInt8)
  | [] => if g.digits == 0 then some [] else none
  | '=' :: cs =>
    if 2 ≤ g.digits && 4 ≤ g.digits + (g.pads + 1) then some []
    else readBase64 { g with pads := if 2 ≤ g.digits then g.pads + 1 else g.pads } cs
  | c :: cs =>
    match base64Value? c with
    | none => readBase64 g cs
    | some n =>
      match g.digits with
      | 0 => readBase64 ⟨1, n, 0⟩ cs
      | 1 => (readBase64 ⟨2, n % 16, 0⟩ cs).map (UInt8.ofNat (g.rest * 4 + n / 16) :: ·)
      | 2 => (readBase64 ⟨3, n % 4, 0⟩ cs).map (UInt8.ofNat (g.rest * 16 + n / 4) :: ·)
      | _ => (readBase64 ⟨0, 0, 0⟩ cs).map (UInt8.ofNat (g.rest * 64 + n) :: ·)

def fromBase64? (cs : List Char) : Option (List UInt8) := readBase64 ⟨0, 0, 0⟩ cs

end PlatformRoutes.Text
