import CacheCat.Cache.Conduct

/-! Properties that every visible value has. A handler keeps such a property if what
it stores has it. -/
namespace CacheCat.Cache

open Library (Program)
open Mocha (MochaOperation)

/-- Every value that is visible has the property. -/
def View.Holds (view : View) (Good : ValueObject → Prop) : Prop :=
  ∀ db key entry, view.live db key = some entry → Good entry.value.data

def State.Holds {Vm : Type} (s : State Vm) (Good : ValueObject → Prop) : Prop := s.view.Holds Good

theorem State.holds_new {Vm : Type} (count : Nat) (vm : Vm) (Good : ValueObject → Prop) :
    (State.new count vm).Holds Good := by
  intro db key entry hLive
  cases hLive

section

variable {view : View} {Good : ValueObject → Prop}

section

variable (hView : view.Holds Good)

include hView

theorem View.Holds.put (db : Nat) (key : Bytes) {entry : Entry} (hEntry : Good entry.value.data) :
    (view.put db key entry).Holds Good := by
  intro other k found hFound
  rw [View.put_live] at hFound
  split_ifs at hFound
  · cases (Option.filter_eq_some_iff.mp hFound).1
    exact hEntry
  · exact hView other k found hFound

theorem View.Holds.drop (db : Nat) (key : Bytes) : (view.drop db key).Holds Good := by
  intro other k found hFound
  simp only [View.drop] at hFound
  split_ifs at hFound
  exact hView other k found hFound

theorem View.Holds.clear (db : Nat) : (view.clear db).Holds Good := by
  intro other k found hFound
  simp only [View.clear] at hFound
  split_ifs at hFound
  exact hView other k found hFound

theorem View.Holds.tick (clock : Nat) : (view.tick clock).Holds Good := by
  intro other k found hFound
  exact hView other k found (Option.filter_eq_some_iff.mp hFound).1

theorem View.Holds.store (db : Nat) (key : Bytes) {operation : MochaOperation MyValue}
    (hStores : Stores Good operation) : (view.store db key operation).Holds Good := by
  cases operation with
  | insert value expire => exact hView.put db key hStores
  | remove => exact hView.drop db key
  | abort => exact hView

end

/-- In every mode at most the result of the command is stored. -/
theorem settles_finishCompute_holds (update : Update) (request : BaseOperation) (key : Bytes)
    (current : Option Nat) {result : MochaOperation MyValue × Value} (hView : view.Holds Good)
    (hStores : Stores Good result.1) :
    (finishCompute update request key current result).Settles View.effect
      (fun after _ => after.Holds Good) view := by
  unfold finishCompute
  split
  · split
    · simpa using hView.store update.dbNumber key (stores_bumpVersion hStores)
    · exact hView
  · simpa using hView.store update.dbNumber key hStores

theorem settles_executeCompute_holds {update : Update} (request : BaseOperation)
    {command : ComputeCommand} (hView : view.Holds Good)
    (hInit : view.live update.dbNumber command.key = none → Stores Good command.init.1)
    (hMutate : ∀ entry, view.live update.dbNumber command.key = some entry →
      Stores Good (command.mutate entry update.writeClock).1) :
    (executeCompute update request command).Settles View.effect
      (fun after _ => after.Holds Good) view := by
  rw [executeCompute, settles_withDatabase]
  split
  · rw [Program.settles_bind, settles_getEntry]
    cases hLive : view.live update.dbNumber command.key with
    | none =>
      rw [settles_initCompute]
      exact hView.store _ _ (hInit hLive)
    | some entry => exact settles_finishCompute_holds _ _ _ _ hView (hMutate entry hLive)
  · exact hView

end

end CacheCat.Cache
