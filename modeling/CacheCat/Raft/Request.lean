import Mathlib.Data.Nat.Bitwise

/-! A log request carries one `u64`: the write clock in its upper 48 bits and the
database number in its lower 16. -/
namespace CacheCat.Raft

/-- Clocks below this bound survive the packing. -/
def clockBound : Nat := 2 ^ 48

instance neZero_databases : NeZero (2 ^ 16) := ⟨by decide⟩

def mergeU64 (high : Nat) (low : Nat) : Nat :=
  ((high &&& 0xFFFFFFFFFFFF) <<< 16) ||| low

structure Request (Operation : Type) where
  number : Nat
  operation : Operation
deriving DecidableEq, Repr

namespace Request

variable {Operation : Type}

def new (writeClock dbNumber : Nat) (operation : Operation) : Request Operation :=
  { number := mergeU64 writeClock dbNumber, operation := operation }

/-- The shift is on `u64`, so the upper 16 bits of the argument are lost. -/
def setWriteClock (request : Request Operation) (highBits : Nat) : Request Operation :=
  { request with
    number := (request.number &&& 0xFFFF) |||
      (((highBits <<< 16) % 2 ^ 64) &&& 0xFFFFFFFFFFFF0000) }

def splitU64 (request : Request Operation) : Nat × Nat :=
  (request.number >>> 16, request.number &&& 0xFFFF)

/-- `get_db_number`: the shift takes the lower bits of the clock. -/
def getDbNumber (request : Request Operation) : Nat := (request.number >>> 16) % 2 ^ 16

/-- The clock that `apply` reads from a request. -/
def clock (request : Request Operation) : Nat := request.splitU64.1

theorem mergeU64_eq (high low : Nat) (hLow : low < 2 ^ 16) :
    mergeU64 high low = high % clockBound * 2 ^ 16 + low := by
  unfold mergeU64 clockBound
  rw [show (0xFFFFFFFFFFFF : Nat) = 2 ^ 48 - 1 from rfl, Nat.and_two_pow_sub_one_eq_mod,
    Nat.shiftLeft_eq, Nat.mul_comm, ← Nat.two_pow_add_eq_or_of_lt hLow]

variable (writeClock dbNumber : Nat) (operation : Operation) (request : Request Operation)
    (highBits : Nat)

theorem splitU64_of_number {high low : Nat} (hNumber : request.number = high * 2 ^ 16 + low)
    (hLow : low < 2 ^ 16) : request.splitU64 = (high, low) := by
  refine Prod.ext ?_ ?_
  · rw [splitU64]
    omega
  · rw [splitU64, Nat.and_two_pow_sub_one_eq_mod _ 16]
    omega

/-- A new request carries its clock modulo `2 ^ 48` and its database number. -/
theorem splitU64_new (hDb : dbNumber < 2 ^ 16) :
    (new writeClock dbNumber operation).splitU64 = (writeClock % clockBound, dbNumber) :=
  splitU64_of_number _ (mergeU64_eq _ _ hDb) hDb

theorem clock_new (hDb : dbNumber < 2 ^ 16) :
    (new writeClock dbNumber operation).clock = writeClock % clockBound :=
  congrArg Prod.fst (splitU64_new writeClock dbNumber operation hDb)

theorem setWriteClock_number :
    (request.setWriteClock highBits).number =
      highBits % clockBound * 2 ^ 16 + request.number % 2 ^ 16 := by
  have hMask : ((highBits <<< 16) % 2 ^ 64) &&& 0xFFFFFFFFFFFF0000 =
      highBits % clockBound * 2 ^ 16 := by
    have hWrap : (highBits <<< 16) % 2 ^ 64 = (highBits % 2 ^ 48) <<< 16 := by
      rw [Nat.shiftLeft_eq, Nat.shiftLeft_eq, show (2 : Nat) ^ 64 = 2 ^ 48 * 2 ^ 16 from rfl,
        Nat.mul_mod_mul_right]
    rw [hWrap, show (0xFFFFFFFFFFFF0000 : Nat) = (2 ^ 48 - 1) <<< 16 from rfl,
      ← Nat.shiftLeft_and_distrib, Nat.and_two_pow_sub_one_eq_mod, Nat.mod_mod,
      Nat.shiftLeft_eq, clockBound]
  have hLow : request.number &&& 0xFFFF = request.number % 2 ^ 16 :=
    Nat.and_two_pow_sub_one_eq_mod request.number 16
  simp only [setWriteClock]
  rw [hMask, hLow, Nat.or_comm, Nat.mul_comm,
    ← Nat.two_pow_add_eq_or_of_lt (Nat.mod_lt _ (by decide))]

/-- A new stamp leaves the database number as it was. -/
theorem splitU64_setWriteClock :
    (request.setWriteClock highBits).splitU64 = (highBits % clockBound, request.splitU64.2) := by
  rw [splitU64_of_number _ (request.setWriteClock_number highBits) (Nat.mod_lt _ (by decide)),
    splitU64, Nat.and_two_pow_sub_one_eq_mod _ 16]

theorem clock_setWriteClock : (request.setWriteClock highBits).clock = highBits % clockBound :=
  congrArg Prod.fst (request.splitU64_setWriteClock highBits)

/-- The request after any number of stamps carries the last of them, and the database
number and the operation it was made with. -/
theorem splitU64_restamped (clocks : List Nat) {clock database : Nat}
    (hSplit : request.splitU64 = (clock, database))
    (hClocks : ∀ clock ∈ clocks, clock < clockBound) :
    (clocks.foldl setWriteClock request).splitU64 = (clocks.getLastD clock, database) ∧
      (clocks.foldl setWriteClock request).operation = request.operation := by
  induction clocks generalizing request clock with
  | nil => exact ⟨hSplit, rfl⟩
  | cons next clocks ih =>
    rw [List.forall_mem_cons] at hClocks
    have hNext : (request.setWriteClock next).splitU64 = (next, database) := by
      rw [splitU64_setWriteClock, hSplit, Nat.mod_eq_of_lt hClocks.1]
    rw [List.getLastD_cons]
    exact ih (request.setWriteClock next) hNext hClocks.2

end Request

end CacheCat.Raft
