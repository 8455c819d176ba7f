import PlatformRoutes.Failure
import PlatformRoutes.Json.Reader
import PlatformRoutes.Text.Percent

namespace PlatformRoutes.Http

/-- The width of the units in which the bytes of a body spell characters. -/
inductive Encoding where
  | bytes
  | pairs (bigEndian : Bool)
  | quads (bigEndian : Bool)
  deriving DecidableEq

/-- A JSON text starts with two ASCII characters, so the zeros among the first bytes tell its
encoding. -/
def Encoding.detect : List Nat → Encoding
  | [a, b] => if a == 0 then .pairs true else if b == 0 then .pairs false else .bytes
  | a :: b :: c :: d :: _ =>
    if a == 0 then (if b == 0 then .quads true else .pairs true)
    else if b == 0 then (if c == 0 && d == 0 then .quads false else .pairs false)
    else .bytes
  | _ => .bytes

def units2 (bigEndian : Bool) : List Nat → Option (List Nat)
  | [] => some []
  | a :: b :: rest => (units2 bigEndian rest).map ((if bigEndian then a * 256 + b else b * 256 + a) :: ·)
  | _ => none

def units4 (bigEndian : Bool) : List Nat → Option (List Nat)
  | [] => some []
  | a :: b :: c :: d :: rest =>
    (units4 bigEndian rest).map
      ((if bigEndian then ((a * 256 + b) * 256 + c) * 256 + d
        else ((d * 256 + c) * 256 + b) * 256 + a) :: ·)
  | _ => none

/-- Joins pairs of units; half a pair on its own becomes the replacement character. -/
def ofUnits : List Nat → List Char
  | [] => []
  | n :: m :: rest =>
    if Json.isHighUnit n && Json.isLowUnit m then
      Char.ofNat (0x10000 + (n - 0xD800) * 1024 + (m - 0xDC00)) :: ofUnits rest
    else
      (if Json.isHighUnit n || Json.isLowUnit n then '\uFFFD' else Char.ofNat n) ::
        ofUnits (m :: rest)
  | [n] => [if Json.isHighUnit n || Json.isLowUnit n then '\uFFFD' else Char.ofNat n]

def scalar (n : Nat) : Char :=
  if Json.isHighUnit n || Json.isLowUnit n then '\uFFFD' else Char.ofNat n

/-- The characters that a body's bytes spell. A byte order mark in front is passed over. -/
def decode (body : String) : Option (List Char) :=
  match body.toList with
  | '\uFEFF' :: rest => some rest
  | cs =>
    let bytes := cs.flatMap Text.octets
    match Encoding.detect bytes with
    | .bytes => some cs
    | .pairs bigEndian => (units2 bigEndian bytes).map ofUnits
    | .quads bigEndian =>
      (units4 bigEndian bytes).bind fun ns =>
        if ns.all (· < 0x110000) then some (ns.map scalar) else none

/-- Reads a body as JSON. -/
def readBody (body : String) : Except (Failure τ) Json :=
  match decode body with
  | none => .error .undecodable
  | some cs =>
    match Json.read cs with
    | .ok v => .ok v
    | .error .malformed => .error .malformed
    | .error .tooLong => .error (.badArgument .unreadable)

end PlatformRoutes.Http
