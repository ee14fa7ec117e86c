import CacheCat.Cache.RequestAgreement
import CacheCat.StateMachine.Apply

/-! Replicas that apply the same log end in the same visible state, as long as the
log runs no script. -/
namespace CacheCat.StateMachine

open Cache
open Library (Agrees)

/-- The entry runs a script, by itself or inside a transaction. -/
def LogEntry.hasEval (entry : LogEntry) : Bool :=
  match entry.payload with
  | .normal request => Cache.hasEval request.operation
  | _ => false

section

variable {Vm : Type} {vms : Vm → Vm → Prop} {scripts : Prop}

theorem applyEntry_agrees {mode mode' : UpdateType} (hMode : ∀ version, mode ≠ .cas version)
    (hMode' : ∀ version, mode' ≠ .cas version) (entry : LogEntry)
    (hEval : entry.hasEval = true → scripts) :
    Agrees (replicas vms scripts) (fun _ _ => True) (applyEntry mode entry)
      (applyEntry mode' entry) := by
  unfold LogEntry.hasEval at hEval
  unfold applyEntry
  split
  · exact .done trivial
  · exact .done trivial
  next request hPayload =>
    rw [hPayload] at hEval
    refine (ask_agrees (.setWriteClock _) trivial).bind fun clock clock' hClock => ?_
    cases hClock
    have hUpdate : Update.Alike ⟨request.splitU64.2, clock, mode, false⟩
        ⟨request.splitU64.2, clock, mode', false⟩ := ⟨rfl, rfl, rfl, hMode, hMode'⟩
    exact (doRequest_agrees hUpdate nofun true request.operation hEval).mono fun _ _ _ => trivial

theorem applyBatches_agrees {left right : List Batch}
    (hLog : left.flatMap (·.entries) = right.flatMap (·.entries))
    (hEval : ∀ entry ∈ left.flatMap (·.entries), entry.hasEval = true → scripts) :
    Agrees (replicas vms scripts) (fun _ _ => True) (applyBatches left) (applyBatches right) := by
  have hEntries : List.Forall₂ (fun x y : UpdateType × LogEntry => x.2 = y.2)
      (entriesWithMode left) (entriesWithMode right) := by
    have hSame : List.Forall₂ Eq ((entriesWithMode left).map Prod.snd)
        ((entriesWithMode right).map Prod.snd) := by
      rw [entriesWithMode_snd, entriesWithMode_snd, hLog]
      exact List.forall₂_same.mpr fun _ _ => rfl
    exact List.forall₂_map_right_iff.mp (List.forall₂_map_left_iff.mp hSame)
  rw [applyBatches_eq, applyBatches_eq]
  have hBody : ∀ x ∈ entriesWithMode left, ∀ y ∈ entriesWithMode right, x.2 = y.2 →
      Agrees (replicas vms scripts) (fun _ _ => True) (applyEntry x.1 x.2)
        (applyEntry y.1 y.2) := by
    intro x hx y hy hEntry
    rw [← hEntry]
    refine applyEntry_agrees (entriesWithMode_ne_cas hx) (entriesWithMode_ne_cas hy) x.2 ?_
    apply hEval
    rw [← entriesWithMode_snd]
    exact List.mem_map_of_mem hx
  exact (Agrees.mapM₂ hEntries hBody).mono fun _ _ _ => trivial

end

/-- Replica determinism. Both runs may interleave the expiry worker, lazy reads and
interrupts at every query, answer from any surroundings, be in snapshot mode or
not, and cut the log into any batches. -/
theorem visible_eq_of_same_log {Vm : Type} (lua : LuaMachine Vm) (log : List LogEntry)
    (hEval : ∀ entry ∈ log, entry.hasEval = false) {left right : List Batch}
    (hLeftLog : left.flatMap (·.entries) = log) (hRightLog : right.flatMap (·.entries) = log)
    {s s' t t' : State Vm} {responses responses' : List Value} (hCount : s.count = t.count)
    (hVisible : ∀ db key, s.visible db key = t.visible db key)
    (hClock : s.writeClock = t.writeClock)
    (hLeft : (machine lua).Runs s (applyBatches left) s' responses)
    (hRight : (machine lua).Runs t (applyBatches right) t' responses') :
    (∀ db key, s'.visible db key = t'.visible db key) ∧ s'.writeClock = t'.writeClock := by
  have hStart : s.Alike (fun _ _ : Vm => True) False t :=
    ⟨hCount, hClock, funext₂ hVisible, False.elim, False.elim, False.elim⟩
  have hAgrees : Agrees (replicas (fun _ _ : Vm => True) False) (fun _ _ => True)
      (applyBatches left) (applyBatches right) := by
    apply applyBatches_agrees (hLeftLog.trans hRightLog.symm)
    intro entry hEntry hScript
    rw [hEval entry (hLeftLog ▸ hEntry)] at hScript
    cases hScript
  have hEnd := (hAgrees.runs (replicas_sound _ lua) hStart hLeft hRight).1
  exact ⟨fun db key => by rw [hEnd.visible], hEnd.writeClock⟩

/-- SADD, SPOP and a transaction with INCR and UNLINK, at growing clocks. -/
def sampleLog : List LogEntry :=
  [⟨⟨1, 1, 1⟩, .normal (.new 5 0 (.base (.sAdd ⟨bytes "s", [bytes "b", bytes "a"]⟩)))⟩,
    ⟨⟨1, 1, 2⟩, .normal (.new 6 0 (.base (.sPop ⟨bytes "s", none⟩)))⟩,
    ⟨⟨1, 1, 3⟩, .normal (.new 7 0 (.redis (.redisExec
      [.base (.incr ⟨bytes "n"⟩), .base (.unlink ⟨bytes "s"⟩)])))⟩]

/-- One node applies the log in one batch while it builds a snapshot, the other
entry by entry. -/
theorem visible_eq_of_same_log_snapshot :
    let left := execute .none .quiet 200 (.new 1 ()) (applyBatches [⟨true, sampleLog⟩])
    let right := execute .none .quiet 200 (.new 1 ())
      (applyBatches (sampleLog.map fun entry => ⟨false, [entry]⟩))
    ∃ s t, left = some s ∧ right = some t ∧
      (∀ db key, s.1.visible db key = t.1.visible db key) ∧ s.1.writeClock = t.1.writeClock := by
  have hLeft : (execute .none .quiet 200 (.new 1 ())
      (applyBatches [⟨true, sampleLog⟩])).isSome := by decide +kernel
  have hRight : (execute .none .quiet 200 (.new 1 ())
      (applyBatches (sampleLog.map fun entry => ⟨false, [entry]⟩))).isSome := by decide +kernel
  obtain ⟨s, hLeft⟩ := Option.isSome_iff_exists.mp hLeft
  obtain ⟨t, hRight⟩ := Option.isSome_iff_exists.mp hRight
  refine ⟨s, t, hLeft, hRight, ?_⟩
  exact visible_eq_of_same_log .none sampleLog (by decide) rfl rfl rfl (fun _ _ => rfl) rfl
    (runs_of_execute hLeft) (runs_of_execute hRight)

end CacheCat.StateMachine
