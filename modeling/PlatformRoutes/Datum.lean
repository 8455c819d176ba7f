import PlatformRoutes.Fault
import PlatformRoutes.Json.Value
import PlatformRoutes.Number.Numeral
import PlatformRoutes.Number.Binary64

namespace PlatformRoutes

/-- A value as it is given for a field, before the field's type has its say. -/
inductive Datum where
  | null
  | flag (b : Bool)
  | int (n : Int)
  | real (x : Float)
  | text (s : String)
  | octets (bytes : ByteArray)
  | other

namespace Datum

def ofJson : Json → Datum
  | .null => .null
  | .bool b => .flag b
  | .int n => .int n
  | .real x => .real x
  | .text s => .text s
  | .list _ => .other
  | .object _ => .other

def asText : Datum → Checked String
  | text s => .ok s
  | octets bytes =>
    match String.fromUTF8? bytes with
    | some s => .ok s
    | none => .fault .undecodableText
  | _ => .fault .notText

/-- Bytes are read as the text they spell; bytes that spell none are no number. -/
def spelled? : Datum → Option String
  | text s => some s
  | octets bytes => some ((String.fromUTF8? bytes).getD "")
  | _ => none

/-- The whole number a double stands for. -/
def wholeNumber (x : Float) : Checked Int :=
  match Number.Binary64.ofFloat x with
  | .finite negative mantissa exponent =>
    if exponent ≥ 0 then .ok (Number.signedInt negative (mantissa * Nat.pow 2 exponent.natAbs))
    else if mantissa % Nat.pow 2 exponent.natAbs == 0 then
      .ok (Number.signedInt negative (mantissa / Nat.pow 2 exponent.natAbs))
    else .fault .fractionalInteger
  | _ => .fault .infiniteInteger

def asInt (d : Datum) : Checked Int :=
  match d with
  | flag b => .ok (if b then 1 else 0)
  | int n => .ok n
  | real x => wholeNumber x
  | d =>
    match d.spelled? with
    | none => .fault .notInteger
    | some s =>
      match Number.looseInt? s with
      | some n => .ok n
      | none => .fault .unreadableInteger

/-- A whole number too large for any double is none. -/
def asFloat (d : Datum) : Checked Float :=
  match d with
  | flag b => .ok (if b then 1 else 0)
  | int n =>
    let x := Number.ofInt n
    if x.isInf then .fault .notNumber else .ok x
  | real x => .ok x
  | d =>
    match d.spelled? with
    | none => .fault .notNumber
    | some s =>
      match Number.looseFloat? s with
      | some x => .ok x
      | none => .fault .unreadableNumber

def trueWords : List String := ["1", "on", "t", "true", "y", "yes"]

def falseWords : List String := ["0", "off", "f", "false", "n", "no"]

def flagOfInt (n : Int) : Checked Bool :=
  if n == 1 then .ok true else if n == 0 then .ok false else .fault .unreadableFlag

def asFlag (d : Datum) : Checked Bool :=
  match d with
  | flag b => .ok b
  | int n => flagOfInt n
  | real x =>
    match wholeNumber x with
    | .ok n => flagOfInt n
    | _ => .fault .notFlag
  | d =>
    match d.spelled? with
    | none => .fault .notFlag
    | some s =>
      let word := String.ofList (s.toList.map Char.toLower)
      if trueWords.contains word then .ok true
      else if falseWords.contains word then .ok false
      else .fault .unreadableFlag

def orNull (read : Datum → Checked α) : Datum → Checked (Option α)
  | null => .ok none
  | d => (read d).map some

end Datum

namespace Checked

def atLeast (bound : Int) (n : Int) : Checked Int :=
  if n < bound then fault .tooSmall else ok n

def atMost (bound : Int) (n : Int) : Checked Int :=
  if bound < n then fault .tooLarge else ok n

/-- What is no number is not above zero either. -/
def positive (x : Float) : Checked Float :=
  if 0 < x then ok x else fault .notAbove

def nonEmpty (s : String) : Checked String :=
  if s.isEmpty then fault .emptyText else ok s

end Checked

end PlatformRoutes
