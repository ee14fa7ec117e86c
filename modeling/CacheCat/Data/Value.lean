import CacheCat.Data.Text

/-! Replies and request items (`Value`), and the errors of the command parsers. -/
namespace CacheCat

inductive Value where
  | simpleString (text : String)
  | error (text : String)
  | integer (value : Int)
  | bulkString (data : Option Bytes)
  | array (items : Option (List Value))
  | null
  | map (pairs : List (Value × Value))
  | set (items : List Value)
  | push (items : List Value)
  | boolean (value : Bool)
  | double (value : Float)
  | bigNumber (text : String)
  | verbatimString (format : String) (data : Bytes)
  | bulkError (text : String)
  | memberScores (pairs : List (Bytes × Float))
  | batch (frames : List Value)

inductive ProtocolError where
  | scriptError (call message : String)
  | scriptCompileError (message : String)
  | invalidFormat (message : String)
  | dbNotExist
  | unknownCommand (name : String)
  | wrongArgCount (name : String)
  | invalidArgument (name : String)
  | syntaxError
  | wrongType
  | readOnly
  | notAnInteger
  | overflow
  | custom (message : String)
  | notAuthenticated
deriving DecidableEq

namespace ProtocolError

def text : ProtocolError → String
  | scriptError call message => "ERR Error running script (call to " ++ call ++ "): " ++ message
  | scriptCompileError message => "ERR Error compiling script: " ++ message
  | invalidFormat message => "invalid RESP format: " ++ message
  | dbNotExist => "ERR DB index is out of range"
  | unknownCommand name => "unknown command '" ++ name ++ "'"
  | wrongArgCount name => "ERR wrong number of arguments for '" ++ name ++ "' command"
  | invalidArgument name => "ERR invalid " ++ name
  | syntaxError => "ERR syntax error"
  | wrongType => "WRONGTYPE Operation against a key holding the wrong kind of value"
  | readOnly => "READONLY This instance is not the master. " ++
      "Write operations are only allowed on the master node."
  | notAnInteger => "ERR value is not an integer or out of range"
  | overflow => "ERR increment or decrement would overflow"
  | custom message => message
  | notAuthenticated => "ERR Client sent AUTH, but no password is set"

/-- `From<ProtocolError> for Value`. -/
def toValue (error : ProtocolError) : Value := .error error.text

end ProtocolError

/-- What a parser returns. -/
abbrev Parsed := Except ProtocolError

namespace Value

def ok : Value := .simpleString "OK"

/-- `From<Vec<Bytes>> for Value`. -/
def ofBytesList (items : List Bytes) : Value :=
  .array (some (items.map fun item => .bulkString (some item)))

/-! ### Reading request items -/

def stringBytesClone : Value → Option Bytes
  | .bulkString (some data) => some data
  | .simpleString text => some (bytes text)
  | .verbatimString _ data => some data
  | _ => none

def asStrLossy : Value → Option (List Char)
  | .bulkString (some data) => some (Text.fromUtf8Lossy data)
  | .simpleString text => some text.toList
  | .verbatimString _ data => some (Text.fromUtf8Lossy data)
  | _ => none

def parseU64 : Value → Option Nat
  | .bulkString (some data) => Text.parseU64 (Text.fromUtf8Lossy data)
  | .simpleString text => Text.parseU64 text.toList
  | .integer i => if 0 ≤ i then some i.toNat else none
  | _ => none

def parseI64 : Value → Option Int
  | .bulkString (some data) => Text.parseI64 (Text.fromUtf8Lossy data)
  | .simpleString text => Text.parseI64 text.toList
  | .integer i => some i
  | _ => none

/-- `usize` is 64 bits wide. -/
def parseUsize (item : Value) : Option Nat := item.parseU64

def parseBoolU8 : Value → Option Nat
  | .bulkString (some data) =>
    (Text.parseUnsigned 255 (Text.fromUtf8Lossy data)).filter (· ≤ 1)
  | .simpleString text => (Text.parseUnsigned 255 text.toList).filter (· ≤ 1)
  | .integer i => if i = 0 ∨ i = 1 then some i.toNat else none
  | _ => none

end Value

namespace Parsed

/-- `ok_or`. -/
def okOr {A : Type} (value : Option A) (error : ProtocolError) : Parsed A :=
  match value with
  | some value => .ok value
  | none => .error error

/-- `items[i]` behind an arity check; an index past the end does not occur. -/
def item (items : List Value) (i : Nat) : Value := items.getD i .null

def tryParseU64 (item : Value) : Parsed Nat := okOr item.parseU64 .notAnInteger
def tryParseI64 (item : Value) : Parsed Int := okOr item.parseI64 .notAnInteger
def tryParseUsize (item : Value) : Parsed Nat := okOr item.parseUsize .notAnInteger

/-- The bytes of item `i`, or the parser's complaint about the argument. -/
def argument (items : List Value) (i : Nat) (name : String) : Parsed Bytes :=
  okOr (item items i).stringBytesClone (.invalidArgument name)

/-- An option word: upper case, or a syntax error when the item is no text. -/
def word (item : Value) : Parsed String :=
  (okOr item.asStrLossy .syntaxError).map Text.toUppercase

section

variable {A B : Type}

theorem ok_bind (a : A) (rest : A → Parsed B) : (.ok a : Parsed A) >>= rest = rest a := rfl

/-- A guard at the start of a parser. -/
@[simp] theorem error_bind (error : ProtocolError) (rest : A → Parsed B) :
    (.error error : Parsed A) >>= rest = .error error := rfl

theorem guard_eq_ok {complains : Prop} [Decidable complains] {error : ProtocolError}
    {rest : Parsed B} {b : B} :
    (if complains then .error error else rest) = .ok b ↔ ¬ complains ∧ rest = .ok b := by
  by_cases hComplains : complains
  · simp [hComplains]
  · simp [hComplains]

/-- A sequence succeeds if both parts do. -/
theorem bind_eq_ok {parsed : Parsed A} {rest : A → Parsed B} {b : B} :
    parsed >>= rest = .ok b ↔ ∃ a, parsed = .ok a ∧ rest a = .ok b := by
  cases parsed with
  | error error => simp [error_bind]
  | ok a => simp [ok_bind]

theorem map_eq_ok {parsed : Parsed A} {f : A → B} {b : B} :
    parsed.map f = .ok b ↔ ∃ a, parsed = .ok a ∧ f a = b := by
  cases parsed <;> simp [Except.map]

theorem okOr_eq_ok {value : Option A} {error : ProtocolError} {a : A} :
    okOr value error = .ok a ↔ value = some a := by
  cases value <;> simp [okOr]

end

end Parsed
end CacheCat
