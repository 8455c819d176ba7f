import PlatformRoutes.Json.Value
import PlatformRoutes.Number.Binary64

namespace PlatformRoutes.Json

def sameNumber : Int ⊕ Float → Int ⊕ Float → Bool
  | .inl m, .inl n => m == n
  | .inr x, .inr y => x == y
  | .inl n, .inr x | .inr x, .inl n =>
    match Number.Binary64.ofFloat x with
    | .finite negative mantissa exponent =>
      let m : Int := if negative then -(mantissa : Int) else mantissa
      if exponent < 0 then n * Int.pow 2 exponent.natAbs == m
      else n == m * Int.pow 2 exponent.natAbs
    | _ => false

mutual
/-- Numbers are the same if they have the same value, objects if they have the same fields in any
order. -/
def same : Json → Json → Bool
  | null, null => true
  | text s, text t => s == t
  | list xs, list ys => sameItems xs ys
  | object fs, object gs => fs.length == gs.length && sameFields fs gs
  | v, w =>
    match v.number?, w.number? with
    | some m, some n => sameNumber m n
    | _, _ => false

def sameItems : List Json → List Json → Bool
  | [], [] => true
  | x :: xs, y :: ys => same x y && sameItems xs ys
  | _, _ => false

def sameFields : List (String × Json) → Fields → Bool
  | [], _ => true
  | (name, v) :: rest, gs =>
    match Fields.get? gs name with
    | some w => same v w && sameFields rest gs
    | none => false
end

end PlatformRoutes.Json
