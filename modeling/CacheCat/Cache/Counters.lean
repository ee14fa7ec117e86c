import CacheCat.Cache.Effect

/-! The counter commands. Their arithmetic is that of `i64` in a release build, which
wraps. -/
namespace CacheCat

/-! ### The number under a key -/

def HashValue.number : HashValue → Option Int
  | .int value => some value
  | .str data => Text.parseI64Bytes data

def ValueObject.number : ValueObject → Option Int
  | .int value => some value
  | .string data => Text.parseI64Bytes data
  | _ => none

namespace BaseOperation

/-- What a counter command adds. -/
def amount : BaseOperation → Option Int
  | .incr _ => some 1
  | .decr _ => some (-1)
  | .incrBy req => some req.increment
  | .decrBy req => some (-req.decrement)
  | .hIncr req => some req.value
  | _ => none

/-- The number that a counter command finds, in either encoding. A missing key and a
missing field count as zero. -/
def number (operation : BaseOperation) (found : Option ValueObject) : Option Int :=
  match operation, found with
  | _, none => some 0
  | .hIncr req, some data =>
    data.asHash.bind fun map => (map.lookup req.field).elim (some 0) HashValue.number
  | _, some data => data.number

/-- The field of HINCRBY is there as text, as HMSET leaves it. -/
def fieldAsText (operation : BaseOperation) (found : Option ValueObject) : Bool :=
  match operation, found with
  | .hIncr req, some data =>
    data.asHash.any fun map => (map.lookup req.field).any fun value =>
      match value with
      | .str _ => true
      | .int _ => false
  | _, _ => false

end BaseOperation

namespace Cache

variable {Vm : Type}

/-- The number under the key becomes `result` and is the reply, or, if `result` is no
`i64`, there is an error and nothing has changed. The deadline stays in both cases. -/
def CountsTo (lua : LuaMachine Vm) (s : State Vm) (update : Update) (operation : BaseOperation)
    (key : Bytes) (result : Int) : Prop :=
  (∃ t reply, (machine lua).Runs s (baseRequest update operation) t reply) ∧
  ∀ t reply, (machine lua).Runs s (baseRequest update operation) t reply →
    if Text.FitsI64 result then
      reply = .integer result ∧
        operation.number ((t.visible update.dbNumber key).map Prod.fst) = some result ∧
        (t.visible update.dbNumber key).bind Prod.snd =
          (s.visible update.dbNumber key).bind Prod.snd
    else
      (∃ text, reply = .error text) ∧ t.visible update.dbNumber key = s.visible update.dbNumber key

/-- What `CountsTo` asks of the view and the reply that a command leaves. -/
def View.CountsTo (view : View) (operation : BaseOperation) (db : Nat) (key : Bytes) (result : Int)
    (after : View × Value) : Prop :=
  if Text.FitsI64 result then
    after.2 = .integer result ∧
      operation.number ((after.1.visible db key).map Prod.fst) = some result ∧
      (after.1.visible db key).bind Prod.snd = (view.visible db key).bind Prod.snd
  else (∃ text, after.2 = .error text) ∧ after.1.visible db key = view.visible db key

section

variable {view : View} {operation : BaseOperation} {db : Nat} {key : Bytes} {sum : Int}
    {after : View × Value}

/-- A sum that is stored is right exactly if it has not wrapped. -/
theorem View.countsTo_iff_of_stored {data : ValueObject} {result : Int}
    (hResult : Text.FitsI64 sum → result = sum) (hReply : after.2 = .integer result)
    (hNumber : operation.number (some data) = some result)
    (hShown : after.1.visible db key = some (data, (view.visible db key).bind Prod.snd)) :
    view.CountsTo operation db key sum after ↔ Text.FitsI64 sum := by
  unfold CountsTo
  split
  next hFits =>
    rw [hReply, hShown, ← hResult hFits]
    exact iff_of_true ⟨rfl, hNumber, rfl⟩ (hResult hFits ▸ hFits)
  next hFits =>
    refine iff_of_false (fun ⟨⟨text, hError⟩, _⟩ => ?_) hFits
    rw [hReply] at hError
    cases hError

theorem View.countsTo_iff_of_refused {text : String} (hReply : after.2 = .error text)
    (hShown : after.1 = view) : view.CountsTo operation db key sum after ↔ ¬ Text.FitsI64 sum := by
  unfold CountsTo
  split
  next hFits =>
    refine iff_of_false (fun ⟨hInteger, _⟩ => ?_) (not_not_intro hFits)
    rw [hReply] at hInteger
    cases hInteger
  next hFits => exact iff_of_true ⟨⟨text, hReply⟩, hShown ▸ rfl⟩ hFits

end

section

variable {view : View} {update : Update} {key : Bytes} {start n : Int}
    {operation : BaseOperation}

/-- INCR, DECR, INCRBY and DECRBY treat both encodings alike. -/
theorem View.countsTo_counterCommand (step : Int → Int) (hUnexpired : view.Unexpired)
    (hOperation : ∀ found, operation.number found = found.elim (some 0) ValueObject.number)
    (hStart : step 0 = start)
    (hNumber : operation.number ((view.visible update.dbNumber key).map Prod.fst) = some n) :
    view.CountsTo operation update.dbNumber key (step n)
        (view.compute update (counterCommand key step start)) ↔ Text.FitsI64 (step n) := by
  rw [hOperation] at hNumber
  have hWrapped : operation.number (some (.int (Text.wrapI64 (step n)))) =
      some (Text.wrapI64 (step n)) := hOperation _
  cases hLive : view.live update.dbNumber key with
  | none =>
    have hVisible : view.visible update.dbNumber key = none := by simp [View.visible, hLive]
    rw [hVisible] at hNumber
    cases hNumber
    subst hStart
    have hInit : (counterCommand key step (step 0)).init =
        (.insert (.new (.int (Text.wrapI64 (step 0)))) .persistent,
          .integer (Text.wrapI64 (step 0))) := rfl
    obtain ⟨hReply, hShown⟩ := compute_of_missing hLive hInit
    refine View.countsTo_iff_of_stored Text.wrapI64_of_fits hReply hWrapped ?_
    rw [hVisible]
    exact hShown
  | some entry =>
    have hVisible : view.visible update.dbNumber key = some (entry.value.data, entry.expireAt) := by
      simp [View.visible, hLive, Entry.view]
    have hFound : entry.value.data.number = some n := by
      rw [hVisible] at hNumber
      exact hNumber
    have hMutate : (counterCommand key step start).mutate entry update.writeClock =
        (.insert (.new (.int (Text.wrapI64 (step n)))) entry.getExpirePolicy,
          .integer (Text.wrapI64 (step n))) := by
      unfold ValueObject.number at hFound
      split at hFound
      next data hData =>
        cases hFound
        simp [counterCommand, hData]
      next data hData => simp [counterCommand, hData, hFound]
      · cases hFound
    refine View.countsTo_iff_of_stored Text.wrapI64_of_fits ?_ hWrapped ?_
    · rw [View.compute_of_live hLive hMutate]
    · rw [hVisible]
      exact hUnexpired.compute_keep hLive hMutate

/-- HINCRBY refuses a field that is there as text, whatever it reads as. -/
theorem View.countsTo_hIncr (hUnexpired : view.Unexpired) (req : HIncrReq)
    (hNumber : (BaseOperation.hIncr req).number
      ((view.visible update.dbNumber req.key).map Prod.fst) = some n) :
    view.CountsTo (.hIncr req) update.dbNumber req.key (n + req.value)
        (view.compute update req.computeCommand) ↔
      (Text.FitsI64 (n + req.value) ↔ (BaseOperation.hIncr req).fieldAsText
        ((view.visible update.dbNumber req.key).map Prod.fst) = false) := by
  have hInserted (map : HashObject) (sum : Int) : (BaseOperation.hIncr req).number
      (some (.hash (map.insert req.field (.int sum)))) = some sum := by
    simp [BaseOperation.number, ValueObject.asHash, HashValue.number]
  cases hLive : view.live update.dbNumber req.key with
  | none =>
    have hVisible : view.visible update.dbNumber req.key = none := by simp [View.visible, hLive]
    rw [hVisible] at hNumber ⊢
    cases hNumber
    have hInit : req.computeCommand.init =
        (.insert (.new (.hash (Finmap.singleton req.field (.int req.value)))) .persistent,
          .integer req.value) := rfl
    have hSingle : (BaseOperation.hIncr req).number
        (some (.hash (Finmap.singleton req.field (.int req.value)))) = some req.value := by
      simp [BaseOperation.number, ValueObject.asHash, HashValue.number]
    obtain ⟨hReply, hShown⟩ := compute_of_missing hLive hInit
    rw [View.countsTo_iff_of_stored (fun _ => (Int.zero_add _).symm) hReply hSingle
      (hVisible ▸ hShown)]
    exact (iff_true_right rfl).symm
  | some entry =>
    have hVisible : view.visible update.dbNumber req.key =
        some (entry.value.data, entry.expireAt) := by simp [View.visible, hLive, Entry.view]
    rw [hVisible] at hNumber ⊢
    obtain ⟨map, hMap, hNumber⟩ := Option.bind_eq_some_iff.mp hNumber
    have hText : (BaseOperation.hIncr req).fieldAsText (some entry.value.data) =
        (map.lookup req.field).any fun value =>
          match value with
          | .str _ => true
          | .int _ => false := by
      simp [BaseOperation.fieldAsText, hMap]
    have hStored {sum : Int} (hSum : Text.FitsI64 (n + req.value) → sum = n + req.value)
        (hMutate : req.computeCommand.mutate entry update.writeClock =
          (.insert ⟨entry.value.version, .hash (map.insert req.field (.int sum))⟩
            entry.getExpirePolicy, .integer sum)) :
        view.CountsTo (.hIncr req) update.dbNumber req.key (n + req.value)
          (view.compute update req.computeCommand) ↔ Text.FitsI64 (n + req.value) := by
      refine View.countsTo_iff_of_stored hSum ?_ (hInserted map sum) ?_
      · rw [View.compute_of_live hLive hMutate]
      · rw [hVisible]
        exact hUnexpired.compute_keep hLive hMutate
    simp only [Option.map_some, hText]
    cases hField : map.lookup req.field with
    | none =>
      rw [hField] at hNumber
      cases hNumber
      rw [hStored (fun _ => (Int.zero_add _).symm)]
      · exact (iff_true_right rfl).symm
      · simp [HIncrReq.computeCommand, collectionCommand, hMap, hField, Outcome.operation]
    | some value =>
      cases value with
      | int value =>
        rw [hField] at hNumber
        cases hNumber
        rw [hStored Text.wrapI64_of_fits]
        · exact (iff_true_right rfl).symm
        · simp [HIncrReq.computeCommand, collectionCommand, hMap, hField, Outcome.operation]
      | str data =>
        have hMutate : req.computeCommand.mutate entry update.writeClock =
            (.abort, .error "ERR hash value is not an integer") := by
          simp [HIncrReq.computeCommand, collectionCommand, hMap, hField, Outcome.operation]
        rw [View.compute_of_live hLive hMutate]
        exact (View.countsTo_iff_of_refused rfl rfl).trans (iff_false_right (by simp)).symm

end

section

variable {lua : LuaMachine Vm} {s : State Vm} {update : Update} {order : HashOrder}
    {operation : BaseOperation} {command : ComputeCommand} {amount n : Int}

/-- Every run of a counter command leaves what `View.compute` says. -/
theorem countsTo_iff_view (hCommand : operation.computeCommand order = some command)
    (hMode : ∀ version, update.updateType ≠ .cas version) (hDb : update.dbNumber < s.count)
    (result : Int) :
    CountsTo lua s update operation command.key result ↔
      s.view.CountsTo operation update.dbNumber command.key result
        (s.view.compute update command) := by
  exact everyRun_write (fun after reply => s.view.CountsTo operation update.dbNumber command.key
    result (after, reply)) hCommand hMode hDb

/-- A counter is exact as long as the sum is an `i64`: there is no check, and the sum wraps.
HINCRBY on a field that is there as text always replies an error, which is right only if
the sum is no `i64`. -/
theorem countsTo_iff (hCommand : operation.computeCommand order = some command)
    (hAmount : operation.amount = some amount)
    (hMode : ∀ version, update.updateType ≠ .cas version) (hDb : update.dbNumber < s.count)
    (hNumber : operation.number ((s.visible update.dbNumber command.key).map Prod.fst) = some n) :
    CountsTo lua s update operation command.key (n + amount) ↔
      (Text.FitsI64 (n + amount) ↔
        operation.fieldAsText ((s.visible update.dbNumber command.key).map Prod.fst) = false) := by
  rw [countsTo_iff_view hCommand hMode hDb]
  have hPlain (found : Option ValueObject)
      (hOperation : ∀ found, operation.fieldAsText found = false) :
        (Text.FitsI64 (n + amount) ↔ operation.fieldAsText found = false) ↔
          Text.FitsI64 (n + amount) := iff_true_right (hOperation found)
  cases operation with
  | incr req | incrBy req =>
    cases hCommand
    cases hAmount
    rw [hPlain _ fun _ => rfl]
    refine View.countsTo_counterCommand (· + _) s.view_unexpired (fun found => ?_)
      (Int.zero_add _) hNumber
    cases found <;> rfl
  | decr req | decrBy req =>
    cases hCommand
    cases hAmount
    rw [hPlain _ fun _ => rfl, ← Int.sub_eq_add_neg]
    refine View.countsTo_counterCommand (· - _) s.view_unexpired (fun found => ?_)
      (Int.zero_sub _) hNumber
    cases found <;> rfl
  | hIncr req =>
    cases hCommand
    cases hAmount
    exact View.countsTo_hIncr s.view_unexpired req hNumber
  | _ => cases hAmount

/-- INCRBY k 3 on the text 39. -/
theorem countsTo_incrBy :
    CountsTo LuaMachine.none (holding (.string [51, 57])) ⟨0, 0, .none, false⟩
      (.incrBy ⟨[107], 3⟩) [107] 42 := by
  have hCommand : BaseOperation.computeCommand .sorted (.incrBy ⟨[107], 3⟩) =
      some (IncrByReq.computeCommand ⟨[107], 3⟩) := rfl
  have hMode (version : Nat) : UpdateType.none ≠ .cas version := nofun
  have hNumber : BaseOperation.number (.incrBy ⟨[107], 3⟩)
      (((holding (.string [51, 57])).visible 0 [107]).map Prod.fst) = some 39 := rfl
  have hDb : 0 < (holding (.string [51, 57])).count := by decide
  have hFits : Text.FitsI64 42 ↔ false = false := by decide
  have hIff : CountsTo LuaMachine.none (holding (.string [51, 57])) ⟨0, 0, .none, false⟩
      (.incrBy ⟨[107], 3⟩) [107] (39 + 3) ↔ (Text.FitsI64 (39 + 3) ↔ false = false) :=
    countsTo_iff hCommand rfl hMode hDb hNumber
  exact hIff.mpr hFits

/-- INCR takes the greatest `i64` to the least, DECRBY of the least makes the least of a
missing key, and HINCRBY refuses the text 5. -/
theorem counters_wrap :
    (∃ t, (machine LuaMachine.none).Runs (holding (.int Text.i64Max))
        (baseRequest ⟨0, 0, .none, false⟩ (.incr ⟨[107]⟩)) t (.integer Text.i64Min) ∧
      t.visible 0 [107] = some (.int Text.i64Min, none)) ∧
    (∃ t, (machine LuaMachine.none).Runs (State.new 1 ())
        (baseRequest ⟨0, 0, .none, false⟩ (.decrBy ⟨[107], Text.i64Min⟩)) t (.integer Text.i64Min) ∧
      t.visible 0 [107] = some (.int Text.i64Min, none)) ∧
    ∃ t, (machine LuaMachine.none).Runs (holding (.hash (Finmap.singleton [102] (.str [53]))))
      (baseRequest ⟨0, 0, .none, false⟩ (.hIncr ⟨[107], [102], 1⟩)) t
      (.error "ERR hash value is not an integer") := by
  refine ⟨⟨_, runs_quietly 10 rfl, rfl⟩, ⟨_, runs_quietly 10 rfl, rfl⟩, ?_⟩
  exact ⟨_, runs_quietly 10 rfl⟩

end
end Cache
end CacheCat
