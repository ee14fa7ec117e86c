import CacheCat.Data.Text

/-! The HyperLogLog object and its two byte encodings. -/
namespace CacheCat

def hllRegisters : Nat := 2 ^ 14
def hllHeaderSize : Nat := 16
def hllDenseBytes : Nat := hllRegisters * 6 / 8
def hllDenseSize : Nat := hllHeaderSize + hllDenseBytes
def hllSparseMaxBytes : Nat := 3000

inductive HllDecodeError where
  | notHll
  | corrupted
deriving DecidableEq

/-- `reserved` has three bytes and `card`, the cached cardinality, eight. -/
structure RedisHll where
  registers : List UInt8
  reserved : Bytes
  card : Bytes
  preferDense : Bool
deriving DecidableEq

namespace RedisHll

def new : RedisHll :=
  ⟨List.replicate hllRegisters 0, List.replicate 3 0, List.replicate 8 0, false⟩

/-! ### Hashing -/

def murmurM : UInt64 := 0xc6a4a7935bd1e995

/-- `u64::from_le_bytes`. -/
def littleEndian (data : Bytes) : UInt64 :=
  data.foldr (fun byte value => (value <<< 8) ||| byte.toUInt64) 0

/-- The loop over the whole chunks of eight bytes, with what is left of the data. -/
def murmurChunks (hash : UInt64) : Bytes → UInt64 × Bytes
  | b0 :: b1 :: b2 :: b3 :: b4 :: b5 :: b6 :: b7 :: rest =>
    let value := littleEndian [b0, b1, b2, b3, b4, b5, b6, b7] * murmurM
    let value := (value ^^^ (value >>> 47)) * murmurM
    murmurChunks ((hash ^^^ value) * murmurM) rest
  | tail => (hash, tail)

def murmurHash64a (data : Bytes) : UInt64 :=
  let chunks := murmurChunks (0xadc83b19 ^^^ UInt64.ofNat data.length * murmurM) data
  let hash := if chunks.2.isEmpty then chunks.1 else (chunks.1 ^^^ littleEndian chunks.2) * murmurM
  let hash := (hash ^^^ (hash >>> 47)) * murmurM
  hash ^^^ (hash >>> 47)

/-- The register of an element and the length of its pattern. -/
def pattern (element : Bytes) : Nat × UInt8 :=
  let hash := murmurHash64a element
  let index := (hash &&& ((1 : UInt64) <<< 14 - 1)).toNat
  let hash := (hash >>> 14) ||| ((1 : UInt64) <<< 50)
  (index, UInt8.ofNat ((List.range 64).findIdx fun i => hash.toNat.testBit i) + 1)

example : pattern (bytes "a") = (12711, 2) := by decide +kernel
example : murmurHash64a (bytes "hello") = 0x0f656f01eecfe400 := by decide +kernel

/-- The object afterwards and whether a register grew. -/
def add (hll : RedisHll) (element : Bytes) : RedisHll × Bool :=
  let (index, count) := pattern element
  if count ≤ hll.registers.getD index 0 then (hll, false)
  else ({ hll with registers := hll.registers.set index count }, true)

def invalidateCache (hll : RedisHll) : RedisHll :=
  { hll with card := hll.card.modify 7 (· ||| 0x80) }

/-! ### Decoding -/

def validateHeader (raw : Bytes) : Except HllDecodeError Unit :=
  if raw.length < hllHeaderSize then .error .notHll
  else if raw.take 4 ≠ bytes "HYLL" then .error .notHll
  else
    let encoding := raw.getD 4 0
    if 1 < encoding then .error .notHll
    else if encoding = 0 ∧ raw.length ≠ hllDenseSize then .error .notHll
    else .ok ()

/-- Six bits that may span two bytes, the least significant first. -/
def denseGetRegister (raw : Bytes) (index : Nat) : UInt8 :=
  let bit := index * 6
  let byteIndex := hllHeaderSize + bit / 8
  let shift := bit % 8
  let low := (raw.getD byteIndex 0).toUInt16
  let word := if 8 < shift + 6 then low ||| (raw.getD (byteIndex + 1) 0).toUInt16 <<< 8 else low
  (word >>> UInt16.ofNat shift &&& 0x3f).toUInt8

/-- The registers from `reg` on that the opcodes describe. -/
def decodeSparse (reg : Nat) : Bytes → Except HllDecodeError (List UInt8)
  | [] => if reg = hllRegisters then .ok [] else .error .corrupted
  | opcode :: rest =>
    if opcode &&& 0xc0 = 0 then
      let run := (opcode &&& 0x3f).toNat + 1
      if hllRegisters < reg + run then .error .corrupted
      else (decodeSparse (reg + run) rest).map (List.replicate run 0 ++ ·)
    else if opcode &&& 0xc0 = 0x40 then
      match rest with
      | [] => .error .corrupted
      | low :: rest =>
        let run := (opcode &&& 0x3f).toNat * 256 + low.toNat + 1
        if hllRegisters < reg + run then .error .corrupted
        else (decodeSparse (reg + run) rest).map (List.replicate run 0 ++ ·)
    else
      let value := (opcode >>> 2 &&& 0x1f) + 1
      let run := (opcode &&& 0x03).toNat + 1
      if hllRegisters < reg + run then .error .corrupted
      else (decodeSparse (reg + run) rest).map (List.replicate run value ++ ·)

def decode (raw : Bytes) : Except HllDecodeError RedisHll := do
  validateHeader raw
  let reserved := (raw.drop 5).take 3
  let card := (raw.drop 8).take 8
  if raw.getD 4 0 = 0 then
    pure ⟨(List.range hllRegisters).map (denseGetRegister raw), reserved, card, true⟩
  else
    pure ⟨← decodeSparse 0 (raw.drop hllHeaderSize), reserved, card, false⟩

/-! ### Encoding -/

def header (hll : RedisHll) (encoding : UInt8) : Bytes :=
  bytes "HYLL" ++ [encoding] ++ hll.reserved ++ hll.card

def denseSetRegister (raw : Bytes) (index : Nat) (value : UInt8) : Bytes :=
  let bit := index * 6
  let byteIndex := hllHeaderSize + bit / 8
  let shift := UInt16.ofNat (bit % 8)
  let spansTwoBytes := 8 < bit % 8 + 6
  let low := (raw.getD byteIndex 0).toUInt16
  let word := if spansTwoBytes then low ||| (raw.getD (byteIndex + 1) 0).toUInt16 <<< 8 else low
  let word := (word &&& ~~~(0x3f <<< shift)) ||| (value.toUInt16 <<< shift)
  let raw := raw.set byteIndex word.toUInt8
  if spansTwoBytes then raw.set (byteIndex + 1) (word >>> 8).toUInt8 else raw

def encodeDense (hll : RedisHll) : Bytes :=
  hll.registers.zipIdx.foldl
    (fun out (value, index) => if value ≠ 0 then denseSetRegister out index value else out)
    (hll.header 0 ++ List.replicate hllDenseBytes 0)

/-- The opcode of a run of zeros, which is never longer than all registers. -/
def pushZeros (run : Nat) : Bytes :=
  if run ≤ 64 then [UInt8.ofNat (run - 1)]
  else [0x40 ||| UInt8.ofNat ((run - 1) / 256 % 64), UInt8.ofNat ((run - 1) % 256)]

def pushVal (value : UInt8) (run : Nat) : UInt8 :=
  (0x80 : UInt8) ||| ((value - 1) <<< (2 : UInt8)) ||| UInt8.ofNat (run - 1)

/-- The opcodes of the registers, run by run; `none` at a value that has no
opcode. Each round takes at least one register. -/
def sparseBody : (fuel : Nat) → List UInt8 → Option Bytes
  | 0, _ => some []
  | _, [] => some []
  | fuel + 1, value :: rest =>
    if value = 0 then
      let run := (rest.takeWhile (· = 0)).length
      (sparseBody fuel (rest.drop run)).map (pushZeros (run + 1) ++ ·)
    else if 32 < value then none
    else
      let run := ((rest.take 3).takeWhile (· = value)).length
      (sparseBody fuel (rest.drop run)).map (pushVal value (run + 1) :: ·)

/-- The source gives up as soon as the body is too long, and the body only grows. -/
def encodeSparse (hll : RedisHll) : Option Bytes :=
  (sparseBody hll.registers.length hll.registers).bind fun body =>
    if hllSparseMaxBytes < hllHeaderSize + body.length then none else some (hll.header 1 ++ body)

def intoBytes (hll : RedisHll) : Bytes :=
  if hll.preferDense then hll.encodeDense else hll.encodeSparse.getD hll.encodeDense

example : new.intoBytes = bytes "HYLL" ++ [1] ++ List.replicate 11 0 ++ [0x7f, 0xff] := by
  decide +kernel

/-! ### The estimate -/

def cachedCardinality (raw : Bytes) : Except HllDecodeError (Option Nat) := do
  validateHeader raw
  if raw.getD 15 0 &&& 0x80 ≠ 0 then pure none
  else pure (some (littleEndian ((raw.drop 8).take 8)).toNat)

def merge (hll other : RedisHll) : RedisHll :=
  { hll with registers := List.zipWith max hll.registers other.registers }

/-- The loop of `hll_sigma`, which stops when the sum no longer changes. The terms
fall doubly exponentially, so the bound is never reached. -/
def sigmaLoop : (fuel : Nat) → (x y z : Float) → Float
  | 0, _, _, z => z
  | fuel + 1, x, y, z =>
    let x := x * x
    let next := z + x * y
    if z == next then next else sigmaLoop fuel x (y + y) next

def sigma (x : Float) : Float :=
  if x == 1 then Text.infinity else sigmaLoop 4096 x 1 x

/-- The loop of `hll_tau`; the same holds for its terms. -/
def tauLoop : (fuel : Nat) → (x y z : Float) → Float
  | 0, _, _, z => z
  | fuel + 1, x, y, z =>
    let x := x.sqrt
    let y := y * 0.5
    let next := z - (1 - x) * (1 - x) * y
    if z == next then next else tauLoop fuel x y next

def tau (x : Float) : Float :=
  if x == 0 || x == 1 then 0 else tauLoop 4096 x 1 (1 - x) / 3

/-- `round() as u64` of a number that is not negative. -/
def roundU64 (x : Float) : Nat :=
  let whole := x.toUInt64
  if 0.5 ≤ x - whole.toFloat then whole.toNat + 1 else whole.toNat

def cardinality (hll : RedisHll) : Nat :=
  let histogram (value : Nat) : Float := Float.ofNat (hll.registers.countP (·.toNat = value))
  let m := Float.ofNat hllRegisters
  let z := m * tau ((m - histogram 51) / m)
  let z := (List.range 50).foldl (fun z i => (z + histogram (50 - i)) * 0.5) z
  let z := z + m * sigma (histogram 0 / m)
  roundU64 (0.721347520444481703680 * m * m / z)

end RedisHll
end CacheCat
