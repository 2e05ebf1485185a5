import ImmutableLedger.Json.Write
import ImmutableLedger.Json.Read

/-! An interpreter whose floats have one decimal place. -/

set_option autoImplicit false

namespace ImmutableLedger.Python

inductive Tenths where
  | number (tenths : Int)
  | nonFinite (constant : NonFinite)
  deriving DecidableEq

namespace Tenths

def text : Tenths → Str
  | .number tenths =>
    (if tenths < 0 then str "-" else []) ++ Json.decimal (tenths.natAbs / 10) ++ str "." ++
      Json.decimal (tenths.natAbs % 10)
  | .nonFinite .nan => str "nan"
  | .nonFinite .infinity => str "inf"
  | .nonFinite .negativeInfinity => str "-inf"

/-- The order of floats. A NaN is not comparable to any. -/
def le : Tenths → Tenths → Bool
  | .nonFinite .nan, _ => false
  | _, .nonFinite .nan => false
  | .nonFinite .negativeInfinity, _ => true
  | _, .nonFinite .infinity => true
  | .number first, .number second => decide (first ≤ second)
  | _, _ => false

def ofInt (value : Int) : Tenths := .number (10 * value)

instance : Interpreter Tenths where
  nonFinite
    | .number _ => none
    | .nonFinite constant => some constant
  floatText := text
  floatZero value := value = .number 0
  floatAdd
    | .number tenths, value => .number (tenths + 10 * value)
    | .nonFinite constant, _ => .nonFinite constant
  floatEq first second := le first second && le second first
  floatEqInt value other := value = ofInt other
  floatLe := le
  floatLeInt value other := le value (ofInt other)
  intLeFloat value other := le (ofInt value) other
  floatKey first second := first = second
  strRepr text := str "'" ++ text ++ str "'"

/-- A number is cut off after its first decimal place. -/
def ofLiteral (literal : Json.Literal) : Tenths :=
  let tenths : Int := 10 * Json.natural literal.whole + Json.natural (literal.fraction.take 1)
  .number (if literal.negative then -tenths else tenths)

def dialect : Json.Dialect Tenths where
  float := ofLiteral
  constant := fun constant => some (.nonFinite constant)

end Tenths

end ImmutableLedger.Python
