import CacheCat.Protocol.Parser

/-! What a script returns, and the reply that is made of it. -/
namespace CacheCat

/-- A Lua value; a table lists its pairs in the order in which `pairs` gives them. -/
inductive LuaValue where
  | nil
  | boolean (value : Bool)
  | integer (value : Int)
  | number (value : Float)
  | string (data : Bytes)
  | table (entries : List (LuaValue × LuaValue))
  | error (text : String)
  /-- Functions, threads and user data, with what their `Debug` prints. -/
  | other (text : String)

inductive LuaError where
  | syntaxError (message : String)
  | runtimeError (message : String)
  | memoryError (message : String)
  /-- Any other, with what its `Display` prints. -/
  | other (text : String)

/-- `From<LuaError> for ProtocolError`. -/
def LuaError.toProtocolError : LuaError → ProtocolError
  | syntaxError message => .scriptCompileError message
  | runtimeError message => .scriptError "f_script" message
  | memoryError message => .scriptError "unknown" message
  | other text => .scriptError "unknown" (text.map fun c => if c = '\n' then ' ' else c)

namespace LuaValue

/-- A table of strings, counted from one. -/
def ofStrings (items : List Bytes) : LuaValue :=
  table (items.mapIdx fun i item => (integer (i + 1), string item))

/-- `raw_get` with a name. -/
def field (name : String) : List (LuaValue × LuaValue) → LuaValue
  | [] => nil
  | (string data, value) :: entries => if data = bytes name then value else field name entries
  | _ :: entries => field name entries

/-- `raw_get` with a number. -/
def index (i : Nat) : List (LuaValue × LuaValue) → LuaValue
  | [] => nil
  | (integer key, value) :: entries => if key = i then value else index i entries
  | _ :: entries => index i entries

def isNil : LuaValue → Bool
  | nil => true
  | _ => false

def asTable : LuaValue → Option (List (LuaValue × LuaValue))
  | table entries => some entries
  | _ => none

/-- The values under 1, 2 and so on, up to the first that is missing. -/
def items (entries : List (LuaValue × LuaValue)) : List LuaValue :=
  ((List.range entries.length).map fun i => index (i + 1) entries).takeWhile (!·.isNil)

theorem sizeOf_field_le (name : String) (entries : List (LuaValue × LuaValue)) :
    sizeOf (field name entries) ≤ sizeOf entries := by
  fun_induction field name entries with
  | case1 => simp
  | case2 value entries => simp; omega
  | case3 data value entries hName ih => simp; omega
  | case4 head entries hHead ih => simp; omega

theorem sizeOf_index_le (i : Nat) (entries : List (LuaValue × LuaValue)) :
    sizeOf (index i entries) ≤ sizeOf entries := by
  fun_induction index i entries with
  | case1 => simp
  | case2 value entries => simp; omega
  | case3 key value entries hKey ih => simp; omega
  | case4 head entries hHead ih => simp; omega

theorem sizeOf_item_le {entries : List (LuaValue × LuaValue)} {item : LuaValue}
    (hItem : item ∈ items entries) : sizeOf item ≤ sizeOf entries := by
  obtain ⟨i, -, rfl⟩ := List.mem_map.mp ((List.takeWhile_sublist _).mem hItem)
  exact sizeOf_index_le (i + 1) entries

theorem sizeOf_lt_of_asTable {name : String} {entries inner : List (LuaValue × LuaValue)}
    (hInner : (field name entries).asTable = some inner) {pair : LuaValue × LuaValue}
    (hPair : pair ∈ inner) : sizeOf pair.1 < sizeOf entries ∧ sizeOf pair.2 < sizeOf entries := by
  have hField := sizeOf_field_le name entries
  cases hValue : field name entries with
  | table found =>
    rw [hValue] at hInner hField
    obtain rfl : found = inner := Option.some.inj hInner
    have hMem := List.sizeOf_lt_of_mem hPair
    obtain ⟨key, value⟩ := pair
    simp only [table.sizeOf_spec, Prod.mk.sizeOf_spec] at hField hMem ⊢
    omega
  | _ => rw [hValue] at hInner; cases hInner

end LuaValue

open LuaValue (field items sizeOf_item_le sizeOf_lt_of_asTable)
open Protocol.Parser (lossy)

/-- The tables that stand for one status, error, double, big number or verbatim
string. -/
def fromLuaShape (entries : List (LuaValue × LuaValue)) : Option Value :=
  match field "err" entries, field "ok" entries, field "double" entries,
    field "big_number" entries with
  | .string message, _, _, _ => some (.error (lossy message))
  | _, .string message, _, _ => some (.simpleString (lossy message))
  | _, _, .number value, _ => some (.double value)
  | _, _, .integer value, _ => some (.double (Float.ofInt value))
  | _, _, _, .string digits => some (.bigNumber (lossy digits))
  | _, _, _, _ =>
    (field "verbatim_string" entries).asTable.bind fun verbatim =>
      match field "string" verbatim, field "format" verbatim with
      | .string data, .string format => some (.verbatimString (lossy format) data)
      | _, _ => none

/-- `from_lua`. -/
def fromLua (proto : Nat) : LuaValue → Value
  | .nil => .null
  | .boolean value => if proto = 3 then .boolean value else if value then .integer 1 else .null
  | .integer value => .integer value
  | .number value => .integer value.toInt64.toInt
  | .string data => .bulkString (some data)
  | .error text => .error text
  | .other text => .error ("Cannot convert Lua value to Redis: " ++ text)
  | .table entries =>
    match fromLuaShape entries with
    | some reply => reply
    | none =>
      match _hMap : (field "map" entries).asTable with
      | some pairs =>
        .map (pairs.attach.map fun pair => (fromLua proto pair.1.1, fromLua proto pair.1.2))
      | none =>
        match _hSet : (field "set" entries).asTable with
        | some members => .set (members.attach.map fun member => fromLua proto member.1.1)
        | none => .array (some ((items entries).attach.map fun item => fromLua proto item.1))
termination_by value => sizeOf value
decreasing_by
  all_goals rw [LuaValue.table.sizeOf_spec]
  · exact Nat.lt_add_left 1 (sizeOf_lt_of_asTable _hMap pair.2).1
  · exact Nat.lt_add_left 1 (sizeOf_lt_of_asTable _hMap pair.2).2
  · exact Nat.lt_add_left 1 (sizeOf_lt_of_asTable _hSet member.2).1
  · exact Nat.lt_one_add_iff.mpr (sizeOf_item_le item.2)

end CacheCat
