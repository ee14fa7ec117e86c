import CacheCat.Command.Bitmaps
import CacheCat.Command.Hashes
import CacheCat.Command.HyperLogLogs
import CacheCat.Data.TextLaws

/-! The two encodings of an integer, as a string value and as a field of a hash. Most
commands on strings, bitmaps and hashes do not see which one a value has. -/
namespace CacheCat

open Mocha (MochaOperation)

theorem rel_symm {A : Type} {r : A → A → Prop} {x y : Option A} (hSymm : ∀ {a b}, r a b → r b a)
    (hRel : Option.Rel r x y) : Option.Rel r y x := by
  cases hRel with
  | none => exact .none
  | some h => exact .some (hSymm h)

/-! ### Values that differ in encodings only -/

inductive HashValue.Recoded : HashValue → HashValue → Prop
  | same (value : HashValue) : Recoded value value
  | asStr {n : Int} (hFits : Text.FitsI64 n) : Recoded (.int n) (.str (Text.intBytes n))
  | asInt {n : Int} (hFits : Text.FitsI64 n) : Recoded (.str (Text.intBytes n)) (.int n)

theorem HashValue.Recoded.symm {a b : HashValue} (hRecoded : Recoded a b) : Recoded b a := by
  cases hRecoded with
  | same => exact .same _
  | asStr hFits => exact .asInt hFits
  | asInt hFits => exact .asStr hFits

theorem HashValue.Recoded.toBytes_eq {a b : HashValue} (hRecoded : Recoded a b) :
    a.toBytes = b.toBytes := by
  cases hRecoded <;> rfl

/-- The same fields with the same texts. -/
def HashObject.Recoded (a b : HashObject) : Prop :=
  ∀ field, Option.Rel HashValue.Recoded (a.lookup field) (b.lookup field)

inductive ValueObject.Recoded : ValueObject → ValueObject → Prop
  | same (data : ValueObject) : Recoded data data
  | asString {n : Int} (hFits : Text.FitsI64 n) : Recoded (.int n) (.string (Text.intBytes n))
  | asInt {n : Int} (hFits : Text.FitsI64 n) : Recoded (.string (Text.intBytes n)) (.int n)
  | hash {a b : HashObject} (hFields : HashObject.Recoded a b) : Recoded (.hash a) (.hash b)

/-- A field that reads as an integer, in either encoding. -/
def HashValue.Integral (value : HashValue) : Prop :=
  ∃ n, Text.FitsI64 n ∧ (value = .int n ∨ value = .str (Text.intBytes n))

def ValueObject.Integral (data : ValueObject) : Prop :=
  ∃ n, Text.FitsI64 n ∧ (data = .int n ∨ data = .string (Text.intBytes n))

theorem HashValue.Recoded.integral {a b : HashValue} (hRecoded : Recoded a b)
    (hIntegral : a.Integral) : b.Integral := by
  cases hRecoded with
  | same => exact hIntegral
  | asStr hFits => exact ⟨_, hFits, .inr rfl⟩
  | asInt hFits => exact ⟨_, hFits, .inl rfl⟩

theorem ValueObject.Recoded.integral {a b : ValueObject} (hRecoded : Recoded a b)
    (hIntegral : a.Integral) : b.Integral := by
  cases hRecoded with
  | same => exact hIntegral
  | asString hFits => exact ⟨_, hFits, .inr rfl⟩
  | asInt hFits => exact ⟨_, hFits, .inl rfl⟩
  | hash hFields =>
    obtain ⟨n, -, hData | hData⟩ := hIntegral <;> cases hData

/-- Two entries whose values differ in encodings only. -/
structure Entry.Recoded (a b : Entry) : Prop where
  data : a.value.data.Recoded b.value.data
  version : a.value.version = b.value.version
  expireAt : a.expireAt = b.expireAt

inductive RecodedOperation : MochaOperation MyValue → MochaOperation MyValue → Prop
  | insert {version : Nat} {a b : ValueObject} (hData : a.Recoded b) (expire : Mocha.ExpirePolicy) :
      RecodedOperation (.insert ⟨version, a⟩ expire) (.insert ⟨version, b⟩ expire)
  | remove : RecodedOperation .remove .remove
  | abort : RecodedOperation .abort .abort

theorem RecodedOperation.refl (operation : MochaOperation MyValue) :
    RecodedOperation operation operation := by
  cases operation with
  | insert value expire => exact .insert (.same _) expire
  | remove => exact .remove
  | abort => exact .abort

namespace HashObject.Recoded

variable {a b : HashObject}

theorem refl (a : HashObject) : Recoded a a := fun field => by
  cases a.lookup field with
  | none => exact .none
  | some value => exact .some (.same value)

section

variable (hRecoded : Recoded a b)

include hRecoded

theorem symm : Recoded b a := by
  intro field
  exact rel_symm HashValue.Recoded.symm (hRecoded field)

variable (field : Bytes)

theorem insert {v w : HashValue} (hValue : v.Recoded w) :
    Recoded (a.insert field v) (b.insert field w) := by
  intro other
  by_cases hField : other = field
  · subst hField
    rw [Finmap.lookup_insert, Finmap.lookup_insert]
    exact .some hValue
  · rw [Finmap.lookup_insert_of_ne _ hField, Finmap.lookup_insert_of_ne _ hField]
    exact hRecoded other

theorem erase : Recoded (a.erase field) (b.erase field) := by
  intro other
  by_cases hField : other = field
  · subst hField
    rw [Finmap.lookup_erase, Finmap.lookup_erase]
    exact .none
  · rw [Finmap.lookup_erase_ne hField, Finmap.lookup_erase_ne hField]
    exact hRecoded other

theorem isSome_eq : (a.lookup field).isSome = (b.lookup field).isSome :=
  rel_isSome (hRecoded field)

theorem keys_eq : a.keys = b.keys := by
  ext field
  rw [Finmap.mem_keys, Finmap.mem_keys, ← Finmap.lookup_isSome, ← Finmap.lookup_isSome,
    hRecoded.isSome_eq]

theorem fieldReply_eq : fieldReply a field = fieldReply b field := by
  have hText {x y : Option HashValue} (hRel : Option.Rel HashValue.Recoded x y) :
      x.map HashValue.toBytes = y.map HashValue.toBytes := by
    cases hRel with
    | none => rfl
    | some hValue => rw [Option.map_some, Option.map_some, hValue.toBytes_eq]
  rw [fieldReply, fieldReply, hText (hRecoded field)]

end

end HashObject.Recoded

namespace ValueObject.Recoded

variable {a b : ValueObject}

theorem symm (hRecoded : Recoded a b) : Recoded b a := by
  cases hRecoded with
  | same => exact .same _
  | asString hFits => exact .asInt hFits
  | asInt hFits => exact .asString hFits
  | hash hFields => exact .hash hFields.symm

theorem text_eq (hRecoded : Recoded a b) : a.text = b.text := by
  cases hRecoded <;> rfl

theorem asHash (hRecoded : Recoded a b) : Option.Rel HashObject.Recoded a.asHash b.asHash := by
  cases hRecoded with
  | same =>
    cases a with
    | hash fields => exact .some (.refl fields)
    | _ => exact .none
  | asString | asInt => exact .none
  | hash hFields => exact .some hFields

end ValueObject.Recoded

variable {a b : Entry} {xs ys : List (Option Entry)}

theorem Entry.Recoded.symm (hRecoded : Recoded a b) : Recoded b a :=
  ⟨hRecoded.data.symm, hRecoded.version.symm, hRecoded.expireAt.symm⟩

/-! ### Write commands -/

/-- The command replies the same to both entries, and what it leaves differs in encodings
only. -/
def ComputeCommand.Treats (command : ComputeCommand) (a b : Entry) : Prop :=
  ∀ clock, RecodedOperation (command.mutate a clock).1 (command.mutate b clock).1 ∧
    (command.mutate a clock).2 = (command.mutate b clock).2

theorem ComputeCommand.treats_of_eq {command : ComputeCommand}
    (hSame : ∀ clock, command.mutate a clock = command.mutate b clock) : command.Treats a b := by
  intro clock
  rw [hSame clock]
  exact ⟨.refl _, rfl⟩

theorem treats_counterCommand (key : Bytes) (step : Int → Int) (start : Int)
    (hRecoded : a.Recoded b) : (counterCommand key step start).Treats a b := by
  apply ComputeCommand.treats_of_eq
  intro clock
  obtain ⟨⟨v, data⟩, expireAt⟩ := a
  obtain ⟨⟨w, data'⟩, expireAt'⟩ := b
  obtain ⟨hData, rfl, rfl⟩ := hRecoded
  cases hData with
  | same | hash => rfl
  | asString hFits | asInt hFits =>
    simp [counterCommand, Text.parseI64Bytes_intBytes hFits.1 hFits.2,
      Mocha.EntrySnapshot.getExpirePolicy]

/-- What becomes of two hashes. -/
inductive Outcome.Recoded : Outcome HashObject → Outcome HashObject → Prop
  | keep {a b : HashObject} (hFields : HashObject.Recoded a b) : Recoded (.keep a) (.keep b)
  | drop : Recoded .drop .drop
  | refuse : Recoded .refuse .refuse

theorem Outcome.Recoded.operation {x y : Outcome HashObject} (hRecoded : x.Recoded y)
    (version : Nat) (data data' : ValueObject) (expireAt : Option Nat) :
    RecodedOperation (x.operation .hash ⟨⟨version, data⟩, expireAt⟩)
      (y.operation .hash ⟨⟨version, data'⟩, expireAt⟩) := by
  cases hRecoded with
  | keep hFields => exact .insert (.hash hFields) _
  | drop => exact .remove
  | refuse => exact .abort

theorem treats_hashCommand {key : Bytes} {wrongType : Value}
    {change : Nat → HashObject → Outcome HashObject × Value} {init : MochaOperation MyValue × Value}
    (hRecoded : a.Recoded b)
    (hChange : ∀ clock x y, a.value.data.asHash = some x → HashObject.Recoded x y →
      (change clock x).1.Recoded (change clock y).1 ∧ (change clock x).2 = (change clock y).2) :
    (collectionCommand key ValueObject.asHash .hash wrongType change init).Treats a b := by
  intro clock
  obtain ⟨⟨v, data⟩, expireAt⟩ := a
  obtain ⟨⟨w, data'⟩, expireAt'⟩ := b
  obtain ⟨hData, rfl, rfl⟩ := hRecoded
  have hHash := hData.asHash
  simp only [collectionCommand] at hChange ⊢
  generalize hFound : data.asHash = found at hHash ⊢
  generalize data'.asHash = found' at hHash ⊢
  cases hHash with
  | none => exact ⟨.abort, rfl⟩
  | some hFields =>
    obtain ⟨hOutcome, hReply⟩ := hChange clock _ _ hFound hFields
    exact ⟨hOutcome.operation v data data' expireAt, hReply⟩

namespace HashObject.Recoded

variable {a b : HashObject}

theorem foldl_insertField (hRecoded : Recoded a b) (elements : List (Bytes × Bytes)) :
    Recoded (elements.foldl HSetReq.insertField (a, 0)).1
        (elements.foldl HSetReq.insertField (b, 0)).1 ∧
      (elements.foldl HSetReq.insertField (a, 0)).2 =
        (elements.foldl HSetReq.insertField (b, 0)).2 := by
  refine List.foldl_rel (r := fun x y : HashObject × Nat => Recoded x.1 y.1 ∧ x.2 = y.2)
    ⟨hRecoded, rfl⟩ fun element _ x y hStates => ?_
  obtain ⟨hFields, hCount⟩ := hStates
  have hNone : (x.1.lookup element.1).isNone = (y.1.lookup element.1).isNone := by
    rw [← Option.not_isSome, ← Option.not_isSome, hFields.isSome_eq]
  refine ⟨hFields.insert _ (.same _), ?_⟩
  simp only [HSetReq.insertField, hNone, hCount]

theorem insertFields (hRecoded : Recoded a b) (req : HMSetReq) :
    Recoded (req.insertFields a) (req.insertFields b) :=
  List.foldl_rel (r := Recoded) hRecoded fun _ _ _ _ hFields => hFields.insert _ (.same _)

theorem foldl_removeField (hRecoded : Recoded a b) (fields : List Bytes) :
    Recoded (fields.foldl HDelReq.removeField (a, 0)).1
        (fields.foldl HDelReq.removeField (b, 0)).1 ∧
      (fields.foldl HDelReq.removeField (a, 0)).2 =
        (fields.foldl HDelReq.removeField (b, 0)).2 := by
  refine List.foldl_rel (r := fun x y : HashObject × Nat => Recoded x.1 y.1 ∧ x.2 = y.2)
    ⟨hRecoded, rfl⟩ fun field _ x y hStates => ?_
  obtain ⟨hFields, hCount⟩ := hStates
  simp only [HDelReq.removeField, hFields.isSome_eq field]
  split
  · exact ⟨hFields.erase field, congrArg (· + 1) hCount⟩
  · exact ⟨hFields, hCount⟩

end HashObject.Recoded

/-- A number is no HyperLogLog object. -/
theorem validateHeader_intBytes (n : Int) :
    RedisHll.validateHeader (Text.intBytes n) = .error .notHll := by
  have hMagic : (Text.intBytes n).take 4 ≠ bytes "HYLL" := by
    intro hTake
    have hMem : (72 : UInt8) ∈ Text.intBytes n :=
      List.mem_of_mem_take (by rw [hTake]; decide)
    obtain ⟨c, hChar, hCode⟩ := Text.mem_of_mem_bytes hMem (by decide)
    rcases Text.mem_toString_int hChar with rfl | hDigit
    · revert hCode
      decide
    · simp only [Char.isDigit, Bool.and_eq_true, decide_eq_true_eq] at hDigit
      have hHigh : c.toNat ≤ 57 := hDigit.2
      rw [hCode] at hHigh
      revert hHigh
      decide
  unfold RedisHll.validateHeader
  split <;> rfl

/-! ### Reads -/

section

variable {x y : Option Entry} (hFound : Option.Rel Entry.Recoded x y)

include hFound

/-- A read of a text. -/
theorem readText_recoded (missing : Value) (reply : Bytes → Value) :
    readText missing reply x = readText missing reply y := by
  cases hFound with
  | none => rfl
  | some hEntry => simp only [readText, readCollection, hEntry.data.text_eq]

theorem getReply_recoded : getReply x = getReply y := by
  cases hFound with
  | none => rfl
  | some hEntry => simp only [getReply, hEntry.data.text_eq]

theorem readHash_recoded (missing : Value) {reply : HashObject → Value}
    (hReply : ∀ a b, HashObject.Recoded a b → reply a = reply b) :
    readCollection ValueObject.asHash missing reply x =
      readCollection ValueObject.asHash missing reply y := by
  cases hFound with
  | none => rfl
  | some hEntry =>
    have hHash := hEntry.data.asHash
    simp only [readCollection]
    generalize ValueObject.asHash _ = a at hHash ⊢
    generalize ValueObject.asHash _ = b at hHash ⊢
    cases hHash with
    | none => rfl
    | some hFields => exact hReply _ _ hFields

end

theorem PfcountParams.rawOf_bind_recoded {A : Type} (hRecoded : a.Recoded b)
    {rest : Bytes → Except Value A} (hRest : ∀ n, rest (Text.intBytes n) = .error invalidHll) :
    (do rest (← rawOf a)) = (do rest (← rawOf b)) := by
  obtain ⟨⟨v, data⟩, expireAt⟩ := a
  obtain ⟨⟨w, data'⟩, expireAt'⟩ := b
  obtain ⟨hData, rfl, rfl⟩ := hRecoded
  cases hData with
  | same | hash => rfl
  | asString => exact (hRest _).symm
  | asInt => exact hRest _

theorem liftDecode_of_invalid {A : Type} {decode : Bytes → Except HllDecodeError A} (n : Int)
    (hDecode : ∀ raw, RedisHll.validateHeader raw = .error .notHll → decode raw = .error .notHll) :
    PfcountParams.liftDecode (decode (Text.intBytes n)) = .error invalidHll := by
  rw [hDecode _ (validateHeader_intBytes n)]
  rfl

theorem PfcountParams.single_recoded {x y : Option Entry} (hFound : Option.Rel Entry.Recoded x y) :
    single x = single y := by
  cases hFound with
  | none => rfl
  | some hEntry =>
    refine rawOf_bind_recoded hEntry fun n => ?_
    rw [liftDecode_of_invalid n fun raw hHeader => by rw [RedisHll.cachedCardinality, hHeader]; rfl]
    rfl

theorem PfcountParams.union_recoded (hFound : List.Forall₂ (Option.Rel Entry.Recoded) xs ys)
    (hll : RedisHll) :
    union hll xs = union hll ys := by
  induction hFound generalizing hll with
  | nil => rfl
  | cons hFirst hRest ih =>
    cases hFirst with
    | none => exact ih hll
    | some hEntry =>
      simp only [union, ih]
      refine rawOf_bind_recoded hEntry fun n => ?_
      rw [liftDecode_of_invalid n fun raw hHeader => by rw [RedisHll.decode, hHeader]; rfl]
      rfl

theorem PfcountParams.execute_recoded (params : PfcountParams)
    (hFound : List.Forall₂ (Option.Rel Entry.Recoded) xs ys) :
    params.execute xs = params.execute ys := by
  have hHead : Option.Rel Entry.Recoded xs.head?.join ys.head?.join := by
    cases hFound with
    | nil => exact .none
    | cons hFirst _ => exact hFirst
  simp only [execute, single_recoded hHead, union_recoded hFound]

theorem MgetParams.execute_recoded (hFound : List.Forall₂ (Option.Rel Entry.Recoded) xs ys) :
    execute xs = execute ys := by
  have hReplies : xs.map getReply = ys.map getReply := by
    induction hFound with
    | nil => rfl
    | cons hFirst _ ih => rw [List.map_cons, List.map_cons, getReply_recoded hFirst, ih]
  rw [execute, execute, hReplies]

end CacheCat
