import CacheCat.Command.Keys

/-! Bitmap commands. Bits are numbered from the most significant bit of the first
byte on. -/
namespace CacheCat

open Parsed

/-- Bit `bitPosition` of a byte, counted from the least significant one. -/
def byteBit (byte : UInt8) (bitPosition : Nat) : Nat :=
  (byte >>> UInt8.ofNat bitPosition &&& 1).toNat

/-- Bit `offset` of a string; there is a zero past the end. -/
def bitAt (data : Bytes) (offset : Nat) : Nat :=
  match data[offset / 8]? with
  | none => 0
  | some byte => byteBit byte (7 - offset % 8)

def writeByteBit (byte : UInt8) (bitPosition bit : Nat) : UInt8 :=
  let mask : UInt8 := 1 <<< UInt8.ofNat bitPosition
  if bit = 1 then byte ||| mask else byte &&& ~~~mask

/-- Write one bit of a string that is long enough. -/
def setBitAt (data : Bytes) (offset bit : Nat) : Bytes :=
  data.modify (offset / 8) fun byte => writeByteBit byte (7 - offset % 8) bit

/-- `resize` with zeros, never shortening. -/
def growTo (data : Bytes) (length : Nat) : Bytes :=
  data ++ List.replicate (length - data.length) 0

/-! ### SETBIT, GETBIT and BITCOUNT -/

def invalidBitOffset : ProtocolError := .custom "ERR bit offset is not an integer or out of range"

structure SetBitReq where
  key : Bytes
  offset : Nat
  value : Nat
deriving DecidableEq

namespace SetBitReq

def parse (items : List Value) : Parsed SetBitReq := do
  if items.length ≠ 4 then .error (.wrongArgCount "setbit")
  let key ← argument items 1 "setbit"
  let offset ← okOr (item items 2).parseU64 invalidBitOffset
  let value ← okOr (item items 3).parseBoolU8 (.custom "ERR bit is not an integer or out of range")
  pure ⟨key, offset, value⟩

def write (req : SetBitReq) (data : Bytes) : Bytes :=
  setBitAt (growTo data (req.offset / 8 + 1)) req.offset (req.value % 2)

def computeCommand (req : SetBitReq) : ComputeCommand where
  key := req.key
  mutate entry _ :=
    match entry.value.data.text with
    | none => (.abort, ProtocolError.wrongType.toValue)
    | some data =>
      (.insert (.new (.string (req.write data))) entry.getExpirePolicy,
        .integer (bitAt data req.offset))
  init := (.insert (.new (.string (req.write []))) .persistent, .integer 0)

theorem versionBlind (req : SetBitReq) : req.computeCommand.VersionBlind :=
  ComputeCommand.versionBlind_of fun _ _ _ _ _ => ⟨.refl _, rfl⟩

end SetBitReq

/-- A read of the bytes of a string value. -/
def readText (missing : Value) (reply : Bytes → Value) : Option Entry → Value :=
  readCollection ValueObject.text missing reply

structure GetBitParams where
  key : Bytes
  offset : Nat

def GetBitParams.parse (items : List Value) : Parsed GetBitParams := do
  if items.length ≠ 3 then .error (.wrongArgCount "getbit")
  let key ← argument items 1 "getbit"
  let offset ← okOr (item items 2).parseU64 invalidBitOffset
  pure ⟨key, offset⟩

def GetBitParams.execute (params : GetBitParams) : Option Entry → Value :=
  readText (.integer 0) fun data => .integer (bitAt data params.offset)

def countOnes (data : Bytes) : Nat :=
  (data.map fun byte => (List.range 8).countP fun i => byteBit byte i = 1).sum

structure BitCountParams where
  key : Bytes
  start : Option Int
  stop : Option Int

namespace BitCountParams

/-- The optional bounds; each is complained about under the text of a failed
integer. -/
def parse (items : List Value) : Parsed BitCountParams := do
  if items.length < 2 || 4 < items.length then .error (.wrongArgCount "bitcount")
  let key ← argument items 1 "bitcount"
  let bound (i : Nat) : Parsed (Option Int) :=
    if i < items.length then (tryParseI64 (item items i)).map some else pure none
  let start ← bound 2
  let stop ← bound 3
  pure ⟨key, start, stop⟩

def count (params : BitCountParams) (data : Bytes) : Nat :=
  let len : Int := data.length
  if len = 0 then 0
  else if params.start.isNone && params.stop.isNone then countOnes data
  else
    let clamp (index : Int) : Nat :=
      (min (max (if index < 0 then index + len else index) 0) (len - 1)).toNat
    let start := clamp (params.start.getD 0)
    let stop := clamp (params.stop.getD (-1))
    if stop < start then 0
    else countOnes ((data.drop start).take (stop - start + 1))

def execute (params : BitCountParams) : Option Entry → Value :=
  readText (.integer 0) fun data => .integer (params.count data)

end BitCountParams

/-! ### BITPOS -/

/-- `usize` arithmetic that stops at an overflow. -/
def checkedUsize (value : Nat) : Option Nat :=
  if value < 2 ^ 64 then some value else none

inductive BitPosUnit where
  | byte
  | bit
deriving DecidableEq

structure BitPosParams where
  key : Bytes
  bit : Nat
  start : Option Int
  stop : Option Int
  unit : BitPosUnit

namespace BitPosParams

/-- The canonical decimal form of an `i64`, read digit by digit. -/
def parseMagnitude (digits : Bytes) : Option Nat :=
  digits.foldlM
    (fun magnitude digit => do
      if digit < 48 || 57 < digit then none
      checkedUsize ((← checkedUsize (magnitude * 10)) + (digit.toNat - 48)))
    0

def parseRedisI64Bytes (data : Bytes) : Option Int :=
  if data = [48] then some 0
  else
    let negative := data.head? = some 45
    let digits := if negative then data.tail else data
    match digits.head? with
    | none => none
    | some first =>
      if first < 49 || 57 < first then none
      else do
        let magnitude ← parseMagnitude digits
        if negative then
          if 2 ^ 63 < magnitude then none else some (-(magnitude : Int))
        else if 2 ^ 63 - 1 < magnitude then none
        else some magnitude

def parseRedisI64 (item : Value) : Parsed Int :=
  okOr (item.stringBytesClone.bind parseRedisI64Bytes) .notAnInteger

def parseUnit (item : Value) : Parsed BitPosUnit := do
  let data ← okOr item.stringBytesClone .syntaxError
  if isWord data "BYTE" then pure .byte
  else if isWord data "BIT" then pure .bit
  else .error .syntaxError

def parse (items : List Value) : Parsed BitPosParams := do
  if items.length < 3 || 6 < items.length then .error (.wrongArgCount "bitpos")
  let unit ← if items.length = 6 then parseUnit (item items 5) else pure .byte
  let key ← argument items 1 "bitpos"
  let bit ← parseRedisI64 (item items 2)
  if bit ≠ 0 ∧ bit ≠ 1 then .error (.custom "ERR The bit argument must be 1 or 0")
  let bound (i : Nat) : Parsed (Option Int) :=
    if i < items.length then (parseRedisI64 (item items i)).map some else pure none
  let start ← bound 3
  let stop ← bound 4
  pure ⟨key, bit.toNat, start, stop, unit⟩

/-- The closed range of units, negative bounds counted from the end. -/
def normalizeRange (len : Nat) (start stop : Option Int) : Option (Nat × Nat) :=
  let start := start.getD 0
  let stop := stop.getD (len - 1)
  let start := if start < 0 then start + len else start
  let stop := if stop < 0 then stop + len else stop
  let start := max start 0
  if len = 0 || stop < 0 || len ≤ start || stop < start then none
  else some (start.toNat, (min stop (len - 1)).toNat)

def leadingZeros (byte : UInt8) : Nat :=
  (List.range 8).findIdx fun i => byteBit byte (7 - i) = 1

/-- The loop over the positions up to `endBit`, a whole byte at a time where one
lies inside the range. Every round moves on by at least one position. -/
def findFirstBit (data : Bytes) (targetBit endBit : Nat) : (fuel position : Nat) → Option Nat
  | 0, _ => none
  | fuel + 1, position =>
    if endBit < position then none
    else
      let byte := data.getD (position / 8) 0
      if position % 8 = 0 ∧ 7 ≤ endBit - position then
        let candidate := if targetBit = 1 then byte else ~~~byte
        if candidate ≠ 0 then some (position + leadingZeros candidate)
        else findFirstBit data targetBit endBit fuel (position + 8)
      else if byteBit byte (7 - position % 8) = targetBit then some position
      else findFirstBit data targetBit endBit fuel (position + 1)

def outOfRange : Value := .error "ERR bit position is out of range"

def positionReply (position : Nat) : Value :=
  if position < 2 ^ 63 then .integer position else outOfRange

def executeBytes (params : BitPosParams) (data : Bytes) : Value :=
  if data.isEmpty then .integer (if params.bit = 0 then 0 else -1)
  else
    let unitLen := match params.unit with
      | .byte => some data.length
      | .bit => checkedUsize (data.length * 8)
    match unitLen with
    | none => .error "ERR string exceeds maximum allowed size"
    | some unitLen =>
      match normalizeRange unitLen params.start params.stop with
      | none => .integer (-1)
      | some (startUnit, endUnit) =>
        let range := match params.unit with
          | .byte => do
              let startBit ← checkedUsize (startUnit * 8)
              let endBit ← checkedUsize (endUnit * 8 + 7)
              some (startBit, endBit)
          | .bit => some (startUnit, endUnit)
        match range with
        | none => outOfRange
        | some (startBit, endBit) =>
          match findFirstBit data params.bit endBit (endBit + 1 - startBit) startBit with
          | some position => positionReply position
          | none =>
            -- without an explicit end the string counts as followed by zeros
            if params.bit = 0 && params.stop.isNone then
              (checkedUsize (data.length * 8)).elim outOfRange positionReply
            else .integer (-1)

def execute (params : BitPosParams) : Option Entry → Value :=
  fun entry => readText (params.executeBytes []) params.executeBytes entry

end BitPosParams

/-! ### BITFIELD -/

def maxBitFieldStringBytes : Nat := 512 * 1024 * 1024

/-- `as u64`. -/
def asU64 (value : Int) : UInt64 := UInt64.ofNat (value % 2 ^ 64).toNat

inductive BitFieldOverflow where
  | wrap
  | sat
  | fail
deriving DecidableEq

structure BitFieldEncoding where
  signed : Bool
  bits : Nat
deriving DecidableEq

namespace BitFieldEncoding

def width (encoding : BitFieldEncoding) : Nat := encoding.bits

def bounds (encoding : BitFieldEncoding) : Int × Int :=
  if encoding.signed then (-2 ^ (encoding.bits - 1), 2 ^ (encoding.bits - 1) - 1)
  else (0, 2 ^ encoding.bits - 1)

def decode (encoding : BitFieldEncoding) (raw : UInt64) : Int :=
  if !encoding.signed then asI64 raw.toNat
  else if encoding.bits = 64 then asI64 raw.toNat
  else
    let signBit : UInt64 := 1 <<< UInt64.ofNat (encoding.bits - 1)
    if raw &&& signBit ≠ 0 then
      -- extend the sign to the left
      asI64 (raw ||| (~~~(0 : UInt64) <<< UInt64.ofNat encoding.bits)).toNat
    else asI64 raw.toNat

def encode (encoding : BitFieldEncoding) (value : Int) : UInt64 :=
  if encoding.bits = 64 then asU64 value
  else asU64 value &&& ((1 <<< UInt64.ofNat encoding.bits) - 1)

def normalize (encoding : BitFieldEncoding) (value : Int) (overflow : BitFieldOverflow) :
    Option Int :=
  let (min, max) := encoding.bounds
  if min ≤ value && value ≤ max then some value
  else
    match overflow with
    | .fail => none
    | .sat => if value < min then some min else some max
    | .wrap =>
      let modulus : Int := 2 ^ encoding.bits
      let wrapped := value % modulus
      if encoding.signed && 2 ^ (encoding.bits - 1) ≤ wrapped then some (wrapped - modulus)
      else some wrapped

end BitFieldEncoding

inductive BitFieldSubCommand where
  | get (encoding : BitFieldEncoding) (offset : Nat)
  | set (encoding : BitFieldEncoding) (offset : Nat) (value : Int) (overflow : BitFieldOverflow)
  | incrBy (encoding : BitFieldEncoding) (offset : Nat) (increment : Int)
      (overflow : BitFieldOverflow)
deriving DecidableEq

namespace BitFieldSubCommand

def isWrite : BitFieldSubCommand → Bool
  | get .. => false
  | set .. => true
  | incrBy .. => true

/-- The last bit of the field, if its number fits a `u64`. -/
def endBit : BitFieldSubCommand → Option Nat
  | get encoding offset | set encoding offset _ _ | incrBy encoding offset _ _ =>
    checkedUsize (offset + (encoding.width - 1))

end BitFieldSubCommand

def readBitField (data : Bytes) (encoding : BitFieldEncoding) (offset : Nat) : Int :=
  encoding.decode <| (List.range encoding.width).foldl
    (fun raw i => (raw <<< 1) ||| UInt64.ofNat (bitAt data (offset + i))) 0

def writeBitField (data : Bytes) (encoding : BitFieldEncoding) (offset : Nat)
    (value : Int) : Bytes :=
  let raw := encoding.encode value
  (List.range encoding.width).foldl
    (fun data i =>
      let bit := (raw >>> UInt64.ofNat (encoding.width - 1 - i) &&& 1).toNat
      setBitAt data (offset + i) bit)
    data

structure BitFieldReq where
  key : Bytes
  operations : List BitFieldSubCommand
deriving DecidableEq

namespace BitFieldReq

def invalidType : ProtocolError := .custom <|
  "ERR Invalid bitfield type. Use something like i16 u8. " ++
    "Note that u64 is not supported but i64 is."

/-- `to_ascii_uppercase` of a strict UTF-8 text. -/
def parseUpperToken (item : Value) : Parsed String := do
  let data ← okOr item.stringBytesClone (.invalidArgument "bitfield")
  let text ← okOr (Text.fromUtf8 data) .syntaxError
  pure (String.ofList (text.map Char.toUpper))

def parseEncoding (item : Value) : Parsed BitFieldEncoding := do
  let data ← okOr item.stringBytesClone invalidType
  match data with
  | kind :: width :: rest => do
      if kind ≠ 105 ∧ kind ≠ 117 then .error invalidType
      let signed := kind = 105
      let text ← okOr (Text.fromUtf8 (width :: rest)) invalidType
      let bits ← okOr (Text.parseUnsigned 255 text) invalidType
      if bits = 0 || (if signed then 64 else 63) < bits then .error invalidType
      pure ⟨signed, bits⟩
  | _ => .error invalidType

/-- An offset in bits, or after `#` in fields of this width. -/
def parseOffset (item : Value) (encoding : BitFieldEncoding) : Parsed Nat := do
  let data ← okOr item.stringBytesClone invalidBitOffset
  let multiplyByWidth := data.head? = some 35
  let numberBytes := if multiplyByWidth then data.tail else data
  let text ← okOr (Text.fromUtf8 numberBytes) invalidBitOffset
  let baseOffset ← okOr (Text.parseU64 text) invalidBitOffset
  let offset ←
    if multiplyByWidth then okOr (checkedUsize (baseOffset * encoding.width)) invalidBitOffset
    else pure baseOffset
  let endBit ← okOr (checkedUsize (offset + (encoding.width - 1))) invalidBitOffset
  if maxBitFieldStringBytes < endBit / 8 + 1 then .error invalidBitOffset
  pure offset

def parseI64Argument (item : Value) : Parsed Int :=
  okOr (item.stringBytesClone.bind fun data => (Text.fromUtf8 data).bind Text.parseI64)
    .notAnInteger

def parseOverflow (item : Value) : Parsed BitFieldOverflow := do
  match ← parseUpperToken item with
  | "WRAP" => pure .wrap
  | "SAT" => pure .sat
  | "FAIL" => pure .fail
  | _ => .error (.custom "ERR Invalid OVERFLOW type specified")

/-- The loop over the subcommands with the overflow mode in force; `skip` items
belong to the subcommand before. -/
def parseOperations (overflow : BitFieldOverflow) :
    (skip : Nat) → List Value → Parsed (List BitFieldSubCommand)
  | _, [] => pure []
  | skip + 1, _ :: rest => parseOperations overflow skip rest
  | 0, token :: rest => do
      let field : Parsed (BitFieldEncoding × Nat) := do
        let encoding ← parseEncoding (rest.getD 0 .null)
        pure (encoding, ← parseOffset (rest.getD 1 .null) encoding)
      match ← parseUpperToken token with
      | "GET" =>
        if rest.length < 2 then .error .syntaxError
        let (encoding, offset) ← field
        pure (.get encoding offset :: (← parseOperations overflow 2 rest))
      | "SET" =>
        if rest.length < 3 then .error .syntaxError
        let (encoding, offset) ← field
        let value ← parseI64Argument (rest.getD 2 .null)
        pure (.set encoding offset value overflow :: (← parseOperations overflow 3 rest))
      | "INCRBY" =>
        if rest.length < 3 then .error .syntaxError
        let (encoding, offset) ← field
        let increment ← parseI64Argument (rest.getD 2 .null)
        pure (.incrBy encoding offset increment overflow :: (← parseOperations overflow 3 rest))
      | "OVERFLOW" =>
        if rest.length < 1 then .error .syntaxError
        let overflow ← parseOverflow (rest.getD 0 .null)
        parseOperations overflow 1 rest
      | _ => .error .syntaxError

def parse (items : List Value) : Parsed BitFieldReq := do
  if items.length < 2 then .error (.wrongArgCount "bitfield")
  let key ← argument items 1 "bitfield"
  pure ⟨key, ← parseOperations .wrap 0 (items.drop 2)⟩

def hasWriteOperation (req : BitFieldReq) : Bool :=
  req.operations.any BitFieldSubCommand.isWrite

def highestWriteEndBit (req : BitFieldReq) : Option Nat :=
  ((req.operations.filter BitFieldSubCommand.isWrite).filterMap BitFieldSubCommand.endBit).max?

def prepareWriteBuffer (req : BitFieldReq) (data : Bytes) : Bytes :=
  match req.highestWriteEndBit with
  | none => data
  | some endBit => growTo data (endBit / 8 + 1)

/-- Write a field if the new value is representable; the reply of a refused write
is nil. -/
def writeNormalized (data : Bytes) (encoding : BitFieldEncoding) (offset : Nat)
    (normalized : Option Int) (reply : Int → Int) : Bytes × Value :=
  match normalized with
  | some value => (writeBitField data encoding offset value, .integer (reply value))
  | none => (data, .array none)

def executeOperation (data : Bytes) : BitFieldSubCommand → Bytes × Value
  | .get encoding offset => (data, .integer (readBitField data encoding offset))
  | .set encoding offset value overflow =>
    let old := readBitField data encoding offset
    writeNormalized data encoding offset (encoding.normalize value overflow) fun _ => old
  | .incrBy encoding offset increment overflow =>
    let old := readBitField data encoding offset
    writeNormalized data encoding offset (encoding.normalize (old + increment) overflow) id

/-- The loop over the operations, each on the bytes the one before left. -/
def executeLoop (data : Bytes) : List BitFieldSubCommand → Bytes × List Value
  | [] => (data, [])
  | operation :: rest =>
    let first := executeOperation data operation
    let others := executeLoop first.1 rest
    (others.1, first.2 :: others.2)

def executeOperations (req : BitFieldReq) (data : Bytes) : Bytes × List Value :=
  executeLoop (req.prepareWriteBuffer data) req.operations

def computeCommand (req : BitFieldReq) : ComputeCommand where
  key := req.key
  mutate entry _ :=
    match entry.value.data.text with
    | none => (.abort, ProtocolError.wrongType.toValue)
    | some data =>
      let executed := req.executeOperations data
      (if req.hasWriteOperation then
          .insert (.new (.string executed.1)) entry.getExpirePolicy
        else .abort,
        .array (some executed.2))
  init :=
    let executed := req.executeOperations []
    (if req.hasWriteOperation then .insert (.new (.string executed.1)) .persistent else .abort,
      .array (some executed.2))

theorem versionBlind (req : BitFieldReq) : req.computeCommand.VersionBlind :=
  ComputeCommand.versionBlind_of fun _ _ _ _ _ => ⟨.refl _, rfl⟩

end BitFieldReq
end CacheCat
