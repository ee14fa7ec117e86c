import CacheCat.Data.Value
import Mathlib.Data.UInt

/-! Replies on the wire (`Value::encode_to`). The types that only RESP3 has are written
to a RESP2 client in their older forms. -/
namespace CacheCat

def crlf : Bytes := [13, 10]

/-- `f64::trunc`. -/
def truncDouble (d : Float) : Float := if d < 0 then d.ceil else d.floor

/-- `format_double`. `display` is the text the standard library gives to a finite number. -/
def formatDouble (display : Float → String) (d : Float) : String :=
  if d.isNaN then "nan"
  else if d.isInf then if d < 0 then "-inf" else "inf"
  else if d == 0 then if 2 ^ 63 ≤ d.toBits then "-0" else "0"
  else if d == truncDouble d && -9.223372036854776E18 ≤ d && d < 9.223372036854776E18 then
    toString d.toInt64.toInt
  else display d

namespace Value

def putLine (mode : Char) (line : Bytes) : Bytes :=
  mode.toUInt8 :: (line ++ crlf)

/-- The header of an aggregate. -/
def putCount (mode : Char) (count : Nat) : Bytes :=
  putLine mode (Text.intBytes count)

/-- A payload behind its length, as `$`, `!` and `=` frames have it. -/
def putBlob (mode : Char) (data : Bytes) : Bytes :=
  putCount mode data.length ++ (data ++ crlf)

def putBulk (data : Bytes) : Bytes := putBlob '$' data

/-- The three bytes in front of a verbatim string: cut off, or filled up with blanks. -/
def formatHint (format : String) : Bytes :=
  (bytes format).take 3 ++ List.replicate (3 - (bytes format).length) 32

section

variable (display : Float → String) (proto : Nat)

/-- RESP3 has one null. -/
def putNull (resp2 : String) : Bytes :=
  if proto = 3 then bytes "_\r\n" else bytes resp2

def putMemberScore (pair : Bytes × Float) : Bytes :=
  if proto = 3 then
    bytes "*2\r\n" ++ (putBulk pair.1 ++ putLine ',' (bytes (formatDouble display pair.2)))
  else putBulk pair.1 ++ putBulk (bytes (formatDouble display pair.2))

mutual

def encodeTo : Value → Bytes
  | simpleString text => putLine '+' (bytes text)
  | error text => putLine '-' (bytes text)
  | integer value => putLine ':' (Text.intBytes value)
  | null => putNull proto "$-1\r\n"
  | bulkString none => putNull proto "$-1\r\n"
  | bulkString (some data) => putBulk data
  | array none => putNull proto "*-1\r\n"
  | array (some items) => putCount '*' items.length ++ encodeItems items
  | map pairs =>
    (if proto = 3 then putCount '%' pairs.length else putCount '*' (pairs.length * 2)) ++
      encodePairs pairs
  | set items => putCount (if proto = 3 then '~' else '*') items.length ++ encodeItems items
  | push items => putCount (if proto = 3 then '>' else '*') items.length ++ encodeItems items
  | boolean value =>
    if proto = 3 then bytes (if value then "#t\r\n" else "#f\r\n")
    else bytes (if value then ":1\r\n" else ":0\r\n")
  | double value =>
    if proto = 3 then putLine ',' (bytes (formatDouble display value))
    else putBulk (bytes (formatDouble display value))
  | bigNumber text => if proto = 3 then putLine '(' (bytes text) else putBulk (bytes text)
  | verbatimString format data =>
    if proto = 3 then putBlob '=' (formatHint format ++ bytes ":" ++ data) else putBulk data
  | bulkError text => if proto = 3 then putBlob '!' (bytes text) else putLine '-' (bytes text)
  | memberScores pairs =>
    (if proto = 3 then putCount '*' pairs.length else putCount '*' (pairs.length * 2)) ++
      pairs.flatMap (putMemberScore display proto)
  -- no header: each frame is a reply of its own
  | batch frames => encodeItems frames

def encodeItems : List Value → Bytes
  | [] => []
  | item :: items => encodeTo item ++ encodeItems items

def encodePairs : List (Value × Value) → Bytes
  | [] => []
  | (key, value) :: pairs => encodeTo key ++ (encodeTo value ++ encodePairs pairs)

end

/-- `encode_proto`. -/
def encodeProto (value : Value) : Bytes := encodeTo display proto value

end
end Value
end CacheCat
