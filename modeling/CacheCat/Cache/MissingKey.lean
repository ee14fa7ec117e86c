import CacheCat.Cache.Effect

/-! Write commands on a key that is missing or has expired. Every command brings its
own answer for that case with its `init`; the dispatcher passes it on only if
`init` also makes a value. -/
namespace CacheCat

variable {order : HashOrder} {operation : BaseOperation}

/-- No command answers a missing key with the text of the dispatcher. -/
theorem BaseOperation.init_ne_keyNotFound {command : ComputeCommand}
    (hCommand : operation.computeCommand order = some command) :
    command.init.2 ≠ Cache.keyNotFound := by
  cases operation <;> obtain ⟨⟩ := hCommand
  case lSet req => simp [LSetReq.computeCommand, collectionCommand, Cache.keyNotFound]
  case sPop req =>
    simp only [SPopReq.computeCommand, collectionCommand, SPopReq.missingKeyResponse]
    cases req.count with
    | none | some _ => rintro ⟨⟩
  case zIncrBy req =>
    simp only [ZIncrByReq.computeCommand, collectionCommand]
    split
    · rintro ⟨⟩
    · simp [ZIncrByReq.notANumber, Cache.keyNotFound]
  all_goals rintro ⟨⟩

namespace Cache

open Library (Program)

section

variable {view : View} {post : View → Value → Prop} {update : Update} {command : ComputeCommand}

/-- On a missing key the mode of the update plays no part. -/
theorem settles_executeCompute_of_missing (hDb : update.dbNumber < view.count)
    (hMissing : view.live update.dbNumber command.key = none) (request : BaseOperation) :
    (executeCompute update request command).Settles View.effect post view ↔
      post (view.store update.dbNumber command.key command.init.1)
        (if command.init.1 = .abort then keyNotFound else command.init.2) := by
  simp only [executeCompute, settles_withDatabase, if_pos hDb, Program.settles_bind,
    settles_getEntry, hMissing]
  exact settles_initCompute ..

end

variable {Vm : Type}

/-- The operation is answered as its `init` says. -/
def RepliesAsInit (lua : LuaMachine Vm) (s : State Vm) (update : Update) (operation : BaseOperation)
    (command : ComputeCommand) : Prop :=
  (∃ t reply, (machine lua).Runs s (baseRequest update operation) t reply) ∧
    ∀ t reply, (machine lua).Runs s (baseRequest update operation) t reply →
      reply = command.init.2

/-- If its `init` aborts, the operation leaves every key as it is. -/
def AbortsUnchanged (lua : LuaMachine Vm) (s : State Vm) (update : Update)
    (operation : BaseOperation) (command : ComputeCommand) : Prop :=
  ∀ t reply, (machine lua).Runs s (baseRequest update operation) t reply →
    command.init.1 = .abort → ∀ db key, t.visible db key = s.visible db key

variable {s : State Vm}

theorem visible_eq_of_view {t : State Vm} (hView : t.view = s.view) (db : Nat) (key : Bytes) :
    t.visible db key = s.visible db key :=
  congrArg (fun view => (view.live db key).map Entry.view) hView

/-- What becomes of an operation on a missing key, in every mode. -/
theorem settles_baseRequest_of_missing {update : Update} {command : ComputeCommand}
    (hCommand : operation.computeCommand order = some command)
    (hMissing : s.live update.dbNumber command.key = none) :
    (baseRequest update operation).Settles View.effect (fun after reply =>
      (command.init.1 = .abort → after = s.view) ∧
        reply = if update.dbNumber < s.count ∧ command.init.1 ≠ .abort then command.init.2
          else keyNotFound) s.view := by
  rw [settles_baseRequest hCommand]
  by_cases hDb : update.dbNumber < s.count
  · rw [settles_executeCompute_of_missing hDb hMissing]
    refine ⟨fun hAbort => by rw [hAbort]; rfl, ?_⟩
    by_cases hAbort : command.init.1 = .abort
    · simp [hAbort]
    · simp [hAbort, hDb]
  · have hView : ¬ update.dbNumber < s.view.count := hDb
    rw [executeCompute, settles_withDatabase, if_neg hView]
    exact ⟨fun _ => rfl, by simp [hDb]⟩

/-- The answer of `init` arrives exactly if `init` makes a value; an aborting `init`
changes nothing, but it is answered with the dispatcher's own text. -/
theorem repliesAsInit_iff (lua : LuaMachine Vm) {update : Update} {command : ComputeCommand}
    (hCommand : operation.computeCommand order = some command)
    (hMissing : s.live update.dbNumber command.key = none) :
    (RepliesAsInit lua s update operation command ↔
      update.dbNumber < s.count ∧ command.init.1 ≠ .abort) ∧
    AbortsUnchanged lua s update operation command := by
  have hSettles := settles_baseRequest_of_missing hCommand hMissing
  refine ⟨⟨?_, fun hInit => ⟨(shows_view lua).exists_run hSettles, fun t reply hRun => ?_⟩⟩, ?_⟩
  · rintro ⟨⟨t, reply, hRun⟩, hReplies⟩
    by_contra hInit
    have hReply := (hRun.settles (shows_view lua) hSettles).2
    rw [if_neg hInit, hReplies t reply hRun] at hReply
    exact BaseOperation.init_ne_keyNotFound hCommand hReply
  · have hReply := (hRun.settles (shows_view lua) hSettles).2
    rwa [if_pos hInit] at hReply
  · intro t reply hRun hAbort
    exact visible_eq_of_view ((hRun.settles (shows_view lua) hSettles).1 hAbort)

/-- INCR of a missing key makes the number it replies with. -/
theorem repliesAsInit_incr :
    RepliesAsInit LuaMachine.none (State.new 1 ()) ⟨0, 5, .snapshot, false⟩ (.incr ⟨[107]⟩)
      (IncrReq.computeCommand ⟨[107]⟩) := by
  have hMissing : (State.new 1 ()).live 0 [107] = none := rfl
  have hCommand : (BaseOperation.incr ⟨[107]⟩).computeCommand .sorted =
      some (IncrReq.computeCommand ⟨[107]⟩) := rfl
  exact (repliesAsInit_iff LuaMachine.none hCommand hMissing).1.mpr ⟨by decide, nofun⟩

/-- EXPIRE of a missing key replies with an error and not with zero. -/
theorem expire_missing_not_repliesAsInit :
    ¬ RepliesAsInit LuaMachine.none (State.new 1 ()) ⟨0, 5, .none, false⟩
      (.expire ⟨[107], 10, none⟩) (ExpireReq.computeCommand ⟨[107], 10, none⟩) := by
  rintro ⟨-, hReplies⟩
  cases hReplies _ _ (runs_quietly 10 rfl)

end Cache
end CacheCat
