/-!
# Parameters on the wire

A bound parameter is an integer or a text.  The server names the type of the
column it goes to; an integer takes the width of that column, and one that
does not fit is refused.  The bytes themselves are written by the encoders of
a client library, which also tell what types take texts.
-/

namespace SqlBuilder

/-- A value ready to be sent with a statement. -/
inductive BoundParameter where
  | int (n : Int64)
  | text (s : String)
  deriving DecidableEq

/-- Column types a server may ask for. -/
inductive WireType where
  | int2
  | int4
  | int8
  | text
  | varchar
  | bpchar
  | name
  | unknown
  | bool
  | float8
  | bytea
  | json
  | int4Array
  deriving DecidableEq

namespace WireType

/-- Types that hold text. -/
def isText : WireType → Bool
  | .text | .varchar | .bpchar | .name | .unknown => true
  | _ => false

/-- Types that hold integers. -/
def isInteger : WireType → Bool
  | .int2 | .int4 | .int8 => true
  | _ => false

end WireType

/-- Why an integer does not fit its width. -/
inductive RangeFault where
  | tooLarge
  | tooSmall
  deriving DecidableEq

/-- What is said about an integer that does not fit. -/
def RangeFault.text : RangeFault → String
  | .tooLarge => "number too large to fit in target type"
  | .tooSmall => "number too small to fit in target type"

namespace Wire

/-- A natural number in a fixed number of bytes, most significant first. -/
def bigEndian : Nat → Nat → List UInt8
  | 0, _ => []
  | width + 1, n => bigEndian width (n / 256) ++ [UInt8.ofNat n]

/-- An integer in two's complement. -/
def twosComplement (width : Nat) (n : Int) : List UInt8 :=
  bigEndian width (n % Int.pow 2 (8 * width)).toNat

/-- An integer, unless it is out of the range of a number of bytes. -/
def narrow (width : Nat) (n : Int) : Except RangeFault Int :=
  if Int.pow 2 (8 * width - 1) ≤ n then .error .tooLarge
  else if n < -Int.pow 2 (8 * width - 1) then .error .tooSmall
  else .ok n

end Wire

/-- What a client library writes for integers of each width and for texts, type by type. -/
structure Encoders where
  takesText : WireType → Bool
  integer : WireType → (width : Nat) → Int → List UInt8
  text : WireType → String → List UInt8

namespace Encoders

/-- Integers are written in two's complement and texts in UTF-8, whatever the type. -/
def standard : Encoders where
  takesText := WireType.isText
  integer _ := Wire.twosComplement
  text _ s := s.toUTF8.toList

/-- Types a bound parameter may be sent for. -/
def accepts (encoders : Encoders) (type : WireType) : Bool :=
  type.isInteger || encoders.takesText type

end Encoders

namespace BoundParameter

/-- The bytes of a parameter for a column of a given type; an integer is narrowed if need be. -/
def encode (encoders : Encoders) (type : WireType) :
    BoundParameter → Except RangeFault (List UInt8)
  | .int n =>
    match type with
    | .int2 => (Wire.narrow 2 n.toInt).map (encoders.integer type 2)
    | .int4 => (Wire.narrow 4 n.toInt).map (encoders.integer type 4)
    | _ => .ok (encoders.integer type 8 n.toInt)
  | .text s => .ok (encoders.text type s)

end BoundParameter

end SqlBuilder
