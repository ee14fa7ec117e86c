import CacheCat.Protocol.FromLua
import CacheCat.Protocol.RoundTrip

/-! What a script gets as the result of a command, and that returning it gives the client
the reply of the command. -/
namespace CacheCat

open LuaValue (field index items)
open Protocol (lossy_bytes)
open Protocol.Parser (lossy)

namespace LuaValue

/-- The entries of a table that is filled from index `i` on. -/
def numbered (i : Nat) : List LuaValue → List (LuaValue × LuaValue)
  | [] => []
  | value :: values => (integer i, value) :: numbered (i + 1) values

theorem field_numbered (name : String) (i : Nat) (values : List LuaValue) :
    field name (numbered i values) = nil := by
  induction values generalizing i with
  | nil => rfl
  | cons value values ih => exact ih (i + 1)

theorem length_numbered (i : Nat) (values : List LuaValue) :
    (numbered i values).length = values.length := by
  induction values generalizing i with
  | nil => rfl
  | cons value values ih => rw [numbered, List.length_cons, ih, List.length_cons]

theorem index_numbered (i j : Nat) (values : List LuaValue) (hJ : j < values.length) :
    index (i + j) (numbered i values) = values[j] := by
  induction values generalizing i j with
  | nil => cases hJ
  | cons value values ih =>
    rw [numbered, index]
    cases j with
    | zero => simp
    | succ j =>
      rw [if_neg (by omega), show i + (j + 1) = i + 1 + j by omega]
      exact ih (i + 1) j _

theorem items_numbered {values : List LuaValue} (hValues : ∀ value ∈ values, value.isNil = false) :
    items (numbered 1 values) = values := by
  have hMap : ((List.range (numbered 1 values).length).map fun i => index (i + 1)
      (numbered 1 values)) = values := by
    refine List.ext_getElem (by simp [length_numbered]) fun j hLeft hRight => ?_
    simp only [List.getElem_map, List.getElem_range, Nat.add_comm j 1]
    exact index_numbered 1 j values hRight
  rw [items, hMap, List.takeWhile_eq_self_iff]
  intro value hValue
  rw [hValues value hValue]
  rfl

end LuaValue

/-! ### `into_lua_value` -/

section

-- a Lua number is a double: `round` is what is left of an integer
variable (display : Float → String) (round : Int → Int)

def luaText (text : String) : LuaValue := .string (bytes text)

def luaArray (values : List LuaValue) : LuaValue := .table (LuaValue.numbered 1 values)

mutual

/-- `into_lua_value` under the rules of RESP2, which hold unless the script has called
`redis.setresp(3)`. -/
def intoLua : Value → LuaValue
  | .simpleString text => .table [(luaText "ok", luaText text)]
  | .error text => .table [(luaText "err", luaText text)]
  | .bulkError text => .table [(luaText "err", luaText text)]
  | .integer value => .integer (round value)
  | .boolean value => .integer (if value then 1 else 0)
  | .bulkString (some data) => .string data
  | .bulkString none => .boolean false
  | .null => .boolean false
  | .array none => .boolean false
  | .array (some items) => luaArray (intoLuaItems items)
  | .push items => luaArray (intoLuaItems items)
  | .set items => luaArray (intoLuaItems items)
  | .map pairs => luaArray (intoLuaPairs pairs)
  | .double value => luaText (formatDouble display value)
  | .bigNumber text => luaText text
  | .verbatimString _ data => .string data
  | .memberScores pairs =>
    luaArray (pairs.flatMap fun pair => [.string pair.1, luaText (formatDouble display pair.2)])
  | .batch frames => luaArray (intoLuaItems frames)

def intoLuaItems : List Value → List LuaValue
  | [] => []
  | item :: items => intoLua item :: intoLuaItems items

def intoLuaPairs : List (Value × Value) → List LuaValue
  | [] => []
  | (key, value) :: pairs => intoLua key :: intoLua value :: intoLuaPairs pairs

end

mutual

/-- No batch, no null array, and no integer that a double cannot hold. -/
def Passes : Value → Prop
  | .integer value => value.natAbs ≤ 2 ^ 53
  | .array none => False
  | .array (some items) => ItemsPass items
  | .push items => ItemsPass items
  | .set items => ItemsPass items
  | .map pairs => PairsPass pairs
  | .batch _ => False
  | _ => True

def ItemsPass : List Value → Prop
  | [] => True
  | item :: items => Passes item ∧ ItemsPass items

def PairsPass : List (Value × Value) → Prop
  | [] => True
  | (key, value) :: pairs => Passes key ∧ Passes value ∧ PairsPass pairs

end

variable {display round}

theorem isNil_intoLua (value : Value) : (intoLua display round value).isNil = false := by
  cases value with
  | bulkString data => cases data <;> rfl
  | array items => cases items <;> rfl
  | _ => rfl

theorem intoLuaItems_eq (items : List Value) :
    intoLuaItems display round items = items.map (intoLua display round) := by
  induction items with
  | nil => rfl
  | cons item items ih => rw [intoLuaItems, ih, List.map_cons]

theorem intoLuaPairs_eq (pairs : List (Value × Value)) :
    intoLuaPairs display round pairs =
      (pairs.flatMap fun pair => [pair.1, pair.2]).map (intoLua display round) := by
  induction pairs with
  | nil => rfl
  | cons pair pairs ih =>
    rw [intoLuaPairs, ih]
    rfl

theorem fromLua_shape {proto : Nat} {entries : List (LuaValue × LuaValue)} {reply : Value}
    (hShape : fromLuaShape entries = some reply) : fromLua proto (.table entries) = reply := by
  rw [fromLua, hShape]

theorem fromLua_luaArray (proto : Nat) {values : List LuaValue}
    (hValues : ∀ value ∈ values, value.isNil = false) :
    fromLua proto (luaArray values) = .array (some (values.map (fromLua proto))) := by
  have hShape : fromLuaShape (LuaValue.numbered 1 values) = none := by
    simp only [fromLuaShape, LuaValue.field_numbered]
    rfl
  have hField (name : String) : (field name (LuaValue.numbered 1 values)).asTable = none := by
    rw [LuaValue.field_numbered]
    rfl
  rw [luaArray, fromLua, hShape]
  dsimp only
  split
  next hMap => cases (hField _).symm.trans hMap
  · split
    next hSet => cases (hField _).symm.trans hSet
    · rw [List.attach_map_val (f := fromLua proto), LuaValue.items_numbered hValues]

/-- An array of converted values comes back as the array of what comes back of each. -/
theorem fromLua_map_intoLua (values : List Value) :
    fromLua 2 (luaArray (values.map (intoLua display round))) =
      .array (some (values.map fun value => fromLua 2 (intoLua display round value))) := by
  rw [fromLua_luaArray, List.map_map]
  · rfl
  · intro value hValue
    obtain ⟨value, -, rfl⟩ := List.mem_map.mp hValue
    exact isNil_intoLua value

theorem encodeScores_fromLua (pairs : List (Bytes × Float)) :
    Value.encodeItems display 2
      ((pairs.flatMap fun pair => [.bulkString (some pair.1), .double pair.2]).map fun value =>
        fromLua 2 (intoLua display round value)) =
          pairs.flatMap (Value.putMemberScore display 2) := by
  induction pairs with
  | nil => rfl
  | cons pair pairs ih =>
    rw [List.flatMap_cons, List.flatMap_cons, ← ih]
    simp only [List.map_cons, List.cons_append, List.nil_append, intoLua, luaText, fromLua,
      Value.encodeItems, Value.encodeTo]
    exact (List.append_assoc ..).symm

open Value

mutual

/-- What comes back is written to a RESP2 client as the reply itself. -/
theorem encodeTo_fromLua (hRound : ∀ value : Int, value.natAbs ≤ 2 ^ 53 → round value = value) :
    (value : Value) → Passes value →
    encodeTo display 2 (fromLua 2 (intoLua display round value)) = encodeTo display 2 value
  | .simpleString text, _ => by
    rw [intoLua, fromLua_shape (show _ = some (.simpleString (lossy (bytes text))) from rfl),
      lossy_bytes]
  | .error text, _ => by
    rw [intoLua, fromLua_shape (show _ = some (.error (lossy (bytes text))) from rfl), lossy_bytes]
  | .bulkError text, _ => by
    rw [intoLua, fromLua_shape (show _ = some (.error (lossy (bytes text))) from rfl), lossy_bytes]
    rfl
  | .integer value, hPasses => by rw [intoLua, hRound value hPasses, fromLua]
  | .boolean true, _ => by
    rw [intoLua, fromLua]
    exact (by decide +kernel : putLine ':' (Text.intBytes 1) = bytes ":1\r\n")
  | .boolean false, _ => by
    rw [intoLua, fromLua]
    exact (by decide +kernel : putLine ':' (Text.intBytes 0) = bytes ":0\r\n")
  | .bulkString (some data), _ => by rw [intoLua, fromLua]
  | .bulkString none, _ | .null, _ => by
    rw [intoLua, fromLua]
    rfl
  | .array (some items), hPasses | .push items, hPasses | .set items, hPasses => by
    rw [intoLua, intoLuaItems_eq, fromLua_map_intoLua, encodeTo,
      encodeItems_fromLua hRound items hPasses, List.length_map]
    rfl
  | .map pairs, hPasses => by
    rw [intoLua, intoLuaPairs_eq, fromLua_map_intoLua, encodeTo,
      encodePairs_fromLua hRound pairs hPasses]
    simp [encodeTo]
  | .double value, _ | .bigNumber text, _ | .verbatimString _ data, _ => by
    simp only [intoLua, luaText, fromLua]
    rfl
  | .memberScores pairs, _ => by
    have hFlat : (pairs.flatMap fun pair => [.string pair.1,
        luaText (formatDouble display pair.2)]) =
        (pairs.flatMap fun pair => [bulkString (some pair.1), double pair.2]).map
          (intoLua display round) := by
      rw [List.map_flatMap]
      rfl
    rw [intoLua, hFlat, fromLua_map_intoLua, encodeTo, encodeScores_fromLua]
    simp [encodeTo]

theorem encodeItems_fromLua (hRound : ∀ value : Int, value.natAbs ≤ 2 ^ 53 → round value = value) :
    (items : List Value) → ItemsPass items →
    encodeItems display 2 (items.map fun value => fromLua 2 (intoLua display round value)) =
      encodeItems display 2 items
  | [], _ => rfl
  | item :: items, ⟨hItem, hItems⟩ => by
    rw [List.map_cons, encodeItems, encodeItems, encodeTo_fromLua hRound item hItem,
      encodeItems_fromLua hRound items hItems]

theorem encodePairs_fromLua (hRound : ∀ value : Int, value.natAbs ≤ 2 ^ 53 → round value = value) :
    (pairs : List (Value × Value)) → PairsPass pairs →
    encodeItems display 2 ((pairs.flatMap fun pair => [pair.1, pair.2]).map
      fun value => fromLua 2 (intoLua display round value)) = encodePairs display 2 pairs
  | [], _ => rfl
  | (key, value) :: pairs, ⟨hKey, hValue, hPairs⟩ => by
    rw [encodePairs, ← encodeTo_fromLua hRound key hKey, ← encodeTo_fromLua hRound value hValue,
      ← encodePairs_fromLua hRound pairs hPairs]
    rfl

end

/-- A script that returns what a command has replied answers a RESP2 client like the
command itself. -/
theorem script_passesThrough (display : Float → String) (round : Int → Int)
    (hRound : ∀ value : Int, value.natAbs ≤ 2 ^ 53 → round value = value) (value : Value)
    (hPasses : Passes value) :
    (fromLua 2 (intoLua display round value)).encodeProto display 2 = value.encodeProto display 2 :=
  encodeTo_fromLua hRound value hPasses

/-- A null and a map inside an array. -/
def nestedReply : Value := .array (some [.null, .map [(.simpleString "a", .boolean true)]])

theorem script_passesThrough_nested :
    (fromLua 2 (intoLua (fun _ => "") id nestedReply)).encodeProto (fun _ => "") 2 =
      bytes "*2\r\n$-1\r\n*2\r\n+a\r\n:1\r\n" :=
  (script_passesThrough (fun _ => "") id (fun _ _ => rfl) nestedReply
    ⟨trivial, ⟨trivial, trivial, trivial⟩, trivial⟩).trans (by decide +kernel)

end

end CacheCat
