import CacheCat.Data.Value

/-! The decoder of requests (`Parser`). A first pass measures the frame at the front of
the buffer, a second one cuts it into values. -/
namespace CacheCat.Protocol

inductive AggregateKind where
  | array
  | map
  | set
  | push
  | attribute
deriving DecidableEq

/-- A measured frame. `len` counts all its bytes; `(pos, len)` is where a payload
stands in them. -/
inductive Parser where
  | string (len : Nat)
  | error (len : Nat)
  | integer (len : Nat) (value : Int)
  | bytes (len : Nat) (bytes : Option (Nat × Nat))
  | bulkError (len : Nat) (bytes : Nat × Nat)
  | verbatim (len : Nat) (bytes : Nat × Nat)
  | null (len : Nat)
  | boolean (len : Nat) (value : Bool)
  | double (len : Nat) (value : Float)
  | bigNumber (len : Nat)
  | aggregate (kind : AggregateKind) (len : Nat) (value : Option (Nat × List Parser))

namespace Parser

def len : Parser → Nat
  | string len => len
  | error len => len
  | integer len _ => len
  | bytes len _ => len
  | bulkError len _ => len
  | verbatim len _ => len
  | null len => len
  | boolean len _ => len
  | double len _ => len
  | bigNumber len => len
  | aggregate _ len _ => len

/-! ### Measuring -/

/-- The position of the first CRLF. -/
def findLine : Bytes → Option Nat
  | a :: b :: rest => if a = 13 ∧ b = 10 then some 0 else (findLine (b :: rest)).map (· + 1)
  | _ => none

/-- The line after the mode byte, and the size of both with the CRLF. -/
def readLine (buffer : Bytes) : Option (Bytes × Nat) :=
  (findLine buffer.tail).map fun index => (buffer.tail.take index, index + 3)

def readI64 (buffer : Bytes) : Option (Int × Nat) := do
  let (line, len) ← readLine buffer
  let text ← Text.fromUtf8 line
  let value ← Text.parseI64 text
  pure (value, len)

/-- The number a double frame denotes. -/
def doubleOfText (text : List Char) : Option Float :=
  match String.ofList text with
  | "inf" | "+inf" => some Text.infinity
  | "-inf" => some (- Text.infinity)
  | "nan" | "-nan" => some Text.nan
  | _ => Text.parseF64 text

/-- An optional sign and at least one digit. -/
def isBigNumber (line : Bytes) : Bool :=
  let digits := match line with
    | 43 :: rest => rest
    | 45 :: rest => rest
    | _ => line
  !digits.isEmpty && digits.all fun b => 48 ≤ b && b ≤ 57

/-- A length-prefixed payload. The two bytes after it are counted, not looked at. -/
def readBlob (allowNull : Bool) (buffer : Bytes) : Option (Nat × Option (Nat × Nat)) := do
  let (len, pos) ← readI64 buffer
  if len = -1 ∧ allowNull then pure (pos, none)
  else if len < 0 then none
  else if buffer.length < pos + len.toNat + 2 then none
  else pure (pos + len.toNat + 2, some (pos, len.toNat))

/-- `count` frames one after the other, and the size of all of them. -/
def parseElements (parseMeta : Bytes → Option Parser) : Nat → Bytes → Option (Nat × List Parser)
  | 0, _ => some (0, [])
  | count + 1, buffer => do
      let element ← parseMeta buffer
      let (size, elements) ← parseElements parseMeta count (buffer.drop element.len)
      pure (element.len + size, element :: elements)

/-- Maps and attributes announce pairs. -/
def elementCount (count : Nat) : AggregateKind → Nat
  | .map => count * 2
  | .attribute => count * 2
  | _ => count

def parseAggregate (parseMeta : Bytes → Option Parser) (kind : AggregateKind) (buffer : Bytes) :
    Option Parser := do
  let (count, pos) ← readI64 buffer
  if count = -1 ∧ kind = .array then pure (aggregate kind pos none)
  else if count < 0 then none
  else
    let (size, elements) ← parseElements parseMeta (elementCount count.toNat kind) (buffer.drop pos)
    pure (aggregate kind (pos + size) (some (pos, elements)))

/-- The attributes and, as the last element, the frame they belong to. -/
def parseAttribute (parseMeta : Bytes → Option Parser) (buffer : Bytes) : Option Parser := do
  match ← parseAggregate parseMeta .attribute buffer with
  | aggregate _ len (some (pos, elements)) =>
    let inner ← parseMeta (buffer.drop len)
    pure (aggregate .attribute (len + inner.len) (some (pos, elements ++ [inner])))
  | _ => none

def parseNull (buffer : Bytes) : Option Parser := do
  let (line, len) ← readLine buffer
  if line = [] then pure (null len) else none

def parseBoolean (buffer : Bytes) : Option Parser := do
  let (line, len) ← readLine buffer
  if line = CacheCat.bytes "t" then pure (boolean len true)
  else if line = CacheCat.bytes "f" then pure (boolean len false)
  else none

def parseDouble (buffer : Bytes) : Option Parser := do
  let (line, len) ← readLine buffer
  let text ← Text.fromUtf8 line
  let value ← doubleOfText text
  pure (double len value)

def parseBigNumber (buffer : Bytes) : Option Parser := do
  let (line, len) ← readLine buffer
  if isBigNumber line then pure (bigNumber len) else none

/-- The layouts that share `readBlob` and have no null form. -/
def parsePayload (make : Nat → Nat × Nat → Parser) (buffer : Bytes) : Option Parser := do
  let (len, payload) ← readBlob false buffer
  pure (make len (← payload))

/-- The frame after the mode byte; `parseMeta` reads the frames inside it. -/
def parseMode (parseMeta : Bytes → Option Parser) (mode : Char) (buffer : Bytes) : Option Parser :=
  match mode with
  | '+' => (readLine buffer).map fun line => string line.2
  | '-' => (readLine buffer).map fun line => error line.2
  | ':' => (readI64 buffer).map fun number => integer number.2 number.1
  | '$' => (readBlob true buffer).map fun blob => bytes blob.1 blob.2
  | '*' => parseAggregate parseMeta .array buffer
  | '_' => parseNull buffer
  | '#' => parseBoolean buffer
  | ',' => parseDouble buffer
  | '(' => parseBigNumber buffer
  | '!' => parsePayload bulkError buffer
  | '=' => parsePayload verbatim buffer
  | '%' => parseAggregate parseMeta .map buffer
  | '~' => parseAggregate parseMeta .set buffer
  | '>' => parseAggregate parseMeta .push buffer
  | '|' => parseAttribute parseMeta buffer
  | _ => none

/-- Measure the frame at the front. A frame inside another is shorter than it, so that
the length of the buffer is enough fuel. -/
def parseMeta : (fuel : Nat) → Bytes → Option Parser
  | 0, _ => none
  | fuel + 1, buffer =>
    if buffer.length < 3 then none
    else parseMode (parseMeta fuel) (Char.ofUInt8 (buffer.headD 0)) buffer

/-! ### Taking -/

/-- `from_utf8_lossy`. -/
def lossy (data : Bytes) : String := String.ofList (Text.fromUtf8Lossy data)

def payload (buffer : Bytes) (place : Nat × Nat) : Bytes :=
  (buffer.drop place.1).take place.2

/-- The text between the mode byte and the CRLF. -/
def lineText (len : Nat) (buffer : Bytes) : String := lossy ((buffer.take (len - 2)).drop 1)

/-- `xxx:` in front of the data is the format; without it the payload is all data. -/
def verbatimValue (payload : Bytes) : Value :=
  if 4 ≤ payload.length ∧ payload.getD 3 0 = 58 then
    .verbatimString (lossy (payload.take 3)) (payload.drop 4)
  else .verbatimString "" payload

def pairUp : List Value → List (Value × Value)
  | key :: value :: rest => (key, value) :: pairUp rest
  | _ => []

/-- The attributes themselves are dropped. -/
def aggregateValue (values : List Value) : AggregateKind → Value
  | .array => .array (some values)
  | .set => .set values
  | .push => .push values
  | .map => .map (pairUp values)
  | .attribute => values.getLast?.getD .null

mutual
def take : Parser → Bytes → Value
  | string len, buffer => .simpleString (lineText len buffer)
  | error len, buffer => .error (lineText len buffer)
  | integer _ value, _ => .integer value
  | bytes _ none, _ => .bulkString none
  | bytes _ (some place), buffer => .bulkString (some (payload buffer place))
  | bulkError _ place, buffer => .bulkError (lossy (payload buffer place))
  | verbatim _ place, buffer => verbatimValue (payload buffer place)
  | null _, _ => .null
  | boolean _ value, _ => .boolean value
  | double _ value, _ => .double value
  | bigNumber len, buffer => .bigNumber (lineText len buffer)
  | aggregate _ _ none, _ => .array none
  | aggregate kind _ (some (pos, elements)), buffer =>
    aggregateValue (takeElements elements (buffer.drop pos)) kind

def takeElements : List Parser → Bytes → List Value
  | [], _ => []
  | element :: elements, buffer =>
    element.take (buffer.take element.len) :: takeElements elements (buffer.drop element.len)
end

/-- What is taken, and the buffer afterwards. -/
def takeFromBytesStream (buffer : Bytes) : Option Value × Bytes :=
  match parseMeta buffer.length buffer with
  | none => (none, buffer)
  | some parsed => (some (parsed.take (buffer.take parsed.len)), buffer.drop parsed.len)

end Parser
end CacheCat.Protocol
