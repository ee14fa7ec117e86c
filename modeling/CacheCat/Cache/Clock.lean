import CacheCat.Library.Run
import CacheCat.Mocha.Store
import CacheCat.Raft.Request

/-! The two logical clocks of a node. Reads raise the read clock to the write
clock and the physical time; a write is stamped from the read clock and the
physical time, and raises the write clock when it is applied, possibly much later.
Every load and every `fetch_max` is one step, so reads, stamps and applies
interleave freely while the physical clock jumps. -/
namespace CacheCat.Cache

open Mocha Raft

/-- One lookup of an entry: its deadline and whether it was treated as expired. -/
structure Verdict where
  deadline : Nat
  expired : Bool
deriving DecidableEq, Repr

/-- An operation between two of its steps. A read (`read` and `multi_read` differ
in locks only) goes through `get_and_update_read_clock` and then looks up any
number of entries; a write is stamped by `generate_new_write_clock`, waits in the
log, and is applied under the clock that `set_write_clock` returns. -/
inductive ClockOp where
  | idle
  | readCalled
  | readLoaded (writeTime : Nat)
  | readTimed (target : Nat)
  | reading (readClock : Nat) (verdicts : List Verdict)
  | readDone (readClock : Nat) (verdicts : List Verdict)
  | writeCalled (dbNumber : Fin (2 ^ 16))
  | writeLoaded (dbNumber : Fin (2 ^ 16)) (readTime : Nat)
  | logged (request : Request Unit)
  | applying (writeClock : Nat) (verdicts : List Verdict)
  | applied (writeClock : Nat) (verdicts : List Verdict)
deriving DecidableEq

structure ClockNode where
  readLogicClock : Nat
  writeLogicClock : Nat
  physical : Nat
  ops : Nat → ClockOp

inductive ClockLabel where
  | callRead (op : Nat)
  | callWrite (op : Nat) (dbNumber : Fin (2 ^ 16))
  | step (op : Nat)
  | lookup (op : Nat) (deadline : Nat)
  | finish (op : Nat)
  | setPhysical (now : Nat)

variable {s' : ClockNode}

namespace ClockNode

/-- A node with no operation in progress. -/
def start (readClock writeClock physical : Nat) : ClockNode :=
  { readLogicClock := readClock, writeLogicClock := writeClock, physical := physical,
    ops := fun _ => .idle }

def setOp (s : ClockNode) (op : Nat) (state : ClockOp) : ClockNode :=
  { s with ops := Function.update s.ops op state }

/-- The next load or `fetch_max` of an operation. -/
def opStep (s : ClockNode) (op : Nat) : Option ClockNode :=
  match s.ops op with
  | .readCalled => some (s.setOp op (.readLoaded s.writeLogicClock))
  | .readLoaded writeTime => some (s.setOp op (.readTimed (max writeTime s.physical)))
  | .readTimed target =>
    let readClock := max s.readLogicClock target
    some { s.setOp op (.reading readClock []) with readLogicClock := readClock }
  | .writeCalled dbNumber => some (s.setOp op (.writeLoaded dbNumber s.readLogicClock))
  | .writeLoaded dbNumber readTime =>
    some (s.setOp op (.logged (.new (max readTime s.physical) dbNumber ())))
  | .logged request =>
    let writeClock := max s.writeLogicClock request.splitU64.1
    some { s.setOp op (.applying writeClock []) with writeLogicClock := writeClock }
  | _ => none

/-- The lookup of one entry with this deadline: the write clock is loaded anew. -/
def opLookup (s : ClockNode) (op deadline : Nat) : Option ClockNode :=
  let entry : EntrySnapshot Unit := ⟨(), some deadline⟩
  match s.ops op with
  | .reading readClock verdicts =>
    let verdict := ⟨deadline, entry.hidden s.writeLogicClock (some readClock)⟩
    some (s.setOp op (.reading readClock (verdict :: verdicts)))
  | .applying writeClock verdicts =>
    let verdict := ⟨deadline, entry.hidden s.writeLogicClock none⟩
    some (s.setOp op (.applying writeClock (verdict :: verdicts)))
  | _ => none

def opFinish (s : ClockNode) (op : Nat) : Option ClockNode :=
  match s.ops op with
  | .reading readClock verdicts => some (s.setOp op (.readDone readClock verdicts))
  | .applying writeClock verdicts => some (s.setOp op (.applied writeClock verdicts))
  | _ => none

/-- The physical clock moves anywhere below `2 ^ 48`, also backwards. -/
def step (s : ClockNode) : ClockLabel → Option ClockNode
  | .callRead op => if s.ops op = .idle then some (s.setOp op .readCalled) else none
  | .callWrite op dbNumber =>
    if s.ops op = .idle then some (s.setOp op (.writeCalled dbNumber)) else none
  | .step op => s.opStep op
  | .lookup op deadline => s.opLookup op deadline
  | .finish op => s.opFinish op
  | .setPhysical now => if now < clockBound then some { s with physical := now } else none

/-! What one step can do -/

/-- The moves of an operation and the clocks they leave. -/
inductive Moves (s : ClockNode) : ClockOp → ClockOp → Nat → Nat → Prop where
  | callRead : Moves s .idle .readCalled s.readLogicClock s.writeLogicClock
  | callWrite (dbNumber : Fin (2 ^ 16)) :
      Moves s .idle (.writeCalled dbNumber) s.readLogicClock s.writeLogicClock
  | loadWrite : Moves s .readCalled (.readLoaded s.writeLogicClock) s.readLogicClock
    s.writeLogicClock
  | readTime (writeTime : Nat) : Moves s (.readLoaded writeTime)
      (.readTimed (max writeTime s.physical)) s.readLogicClock s.writeLogicClock
  | raiseRead (target : Nat) : Moves s (.readTimed target)
      (.reading (max s.readLogicClock target) []) (max s.readLogicClock target) s.writeLogicClock
  | loadRead (dbNumber : Fin (2 ^ 16)) : Moves s (.writeCalled dbNumber)
      (.writeLoaded dbNumber s.readLogicClock) s.readLogicClock s.writeLogicClock
  | stamp (dbNumber : Fin (2 ^ 16)) (readTime : Nat) : Moves s (.writeLoaded dbNumber readTime)
      (.logged (.new (max readTime s.physical) dbNumber ())) s.readLogicClock s.writeLogicClock
  | raiseWrite (request : Request Unit) : Moves s (.logged request)
      (.applying (max s.writeLogicClock request.clock) []) s.readLogicClock
      (max s.writeLogicClock request.clock)
  | readLookup (readClock deadline : Nat) (verdicts : List Verdict) :
      Moves s (.reading readClock verdicts)
        (.reading readClock (⟨deadline,
          deadline ≤ s.writeLogicClock ∨ deadline ≤ readClock⟩ :: verdicts))
        s.readLogicClock s.writeLogicClock
  | writeLookup (writeClock deadline : Nat) (verdicts : List Verdict) :
      Moves s (.applying writeClock verdicts)
        (.applying writeClock (⟨deadline, deadline ≤ s.writeLogicClock⟩ :: verdicts))
        s.readLogicClock s.writeLogicClock
  | finishRead (readClock : Nat) (verdicts : List Verdict) : Moves s (.reading readClock verdicts)
      (.readDone readClock verdicts) s.readLogicClock s.writeLogicClock
  | finishWrite (writeClock : Nat) (verdicts : List Verdict) :
      Moves s (.applying writeClock verdicts) (.applied writeClock verdicts)
        s.readLogicClock s.writeLogicClock

theorem step_moves {s : ClockNode} {label : ClockLabel} (hStep : s.step label = some s') :
    (∃ op state readClock writeClock, s.Moves (s.ops op) state readClock writeClock ∧
      s' = { s with
        readLogicClock := readClock
        writeLogicClock := writeClock
        ops := Function.update s.ops op state }) ∨
    ∃ now < clockBound, s' = { s with physical := now } := by
  cases label
  case setPhysical now =>
    simp only [step] at hStep
    split_ifs at hStep with hNow
    exact Or.inr ⟨now, hNow, (Option.some.inj hStep).symm⟩
  case lookup op deadline =>
    simp only [step, opLookup] at hStep
    split at hStep
    case h_3 => cases hStep
    all_goals
      next clock verdicts hOp =>
        obtain rfl := Option.some.inj hStep
        refine Or.inl ⟨op, _, _, _, ?_, rfl⟩
        simp only [hOp, EntrySnapshot.hidden, EntrySnapshot.expired, Option.any_some,
          Option.any_none, Bool.or_false, ← Bool.decide_or]
        constructor
  case callRead op | callWrite op _ | step op | finish op =>
    simp only [step, opStep, opFinish] at hStep
    split at hStep
    all_goals first
      | (cases hStep; done)
      | next hOp =>
          obtain rfl := Option.some.inj hStep
          refine Or.inl ⟨op, _, _, _, ?_, rfl⟩
          rw [hOp]
          constructor

end ClockNode

variable {readFloor writeFloor later : Nat} {op : ClockOp}

namespace ClockOp

/-- Every clock an operation holds fits into the packed request. -/
def Bounded : ClockOp → Prop
  | readLoaded clock | readTimed clock | writeLoaded _ clock => clock < clockBound
  | logged request => request.clock < clockBound
  | _ => True

/-- The lookups made so far. -/
def verdicts : ClockOp → List Verdict
  | reading _ verdicts | readDone _ verdicts | applying _ verdicts | applied _ verdicts => verdicts
  | _ => []

/-- A read in progress has raised the read clock of the node to its own. -/
def Raised (readClock : Nat) : ClockOp → Prop
  | reading clock _ => clock ≤ readClock
  | _ => True

/-- What an operation knows that was called when the clocks stood at `readFloor`
and `writeFloor`. A read picks up the write clock first and the read clock with
its `fetch_max`; a write picks up the read clock with its stamp and the write
clock when it is applied. -/
def After (readFloor writeFloor writeClock : Nat) : ClockOp → Prop
  | readLoaded clock | readTimed clock => writeFloor ≤ clock
  | writeLoaded _ clock => readFloor ≤ clock
  | logged request => readFloor ≤ request.clock
  | reading clock verdicts | readDone clock verdicts =>
    max readFloor writeFloor ≤ clock ∧
      ∀ verdict ∈ verdicts, verdict.deadline ≤ max readFloor writeFloor → verdict.expired = true
  | applying clock verdicts =>
    max readFloor writeFloor ≤ clock ∧ clock ≤ writeClock ∧
      ∀ verdict ∈ verdicts, verdict.deadline ≤ max readFloor writeFloor → verdict.expired = true
  | applied clock verdicts =>
    max readFloor writeFloor ≤ clock ∧
      ∀ verdict ∈ verdicts, verdict.deadline ≤ max readFloor writeFloor → verdict.expired = true
  | _ => True

theorem After.mono {clock : Nat} (h : op.After readFloor writeFloor clock) (hLe : clock ≤ later) :
    op.After readFloor writeFloor later := by
  cases op with
  | applying => exact ⟨h.1, h.2.1.trans hLe, h.2.2⟩
  | _ => exact h

theorem Raised.mono {clock : Nat} (h : op.Raised clock) (hLe : clock ≤ later) :
    op.Raised later := by
  cases op <;> first | trivial | exact Nat.le_trans h hLe

end ClockOp

namespace ClockNode

/-- Clocks below `2 ^ 48`, and every deadline that some lookup has treated as
expired is behind one of the two clocks. -/
structure Invariant (s : ClockNode) : Prop where
  read : s.readLogicClock < clockBound
  write : s.writeLogicClock < clockBound
  physical : s.physical < clockBound
  bounded : ∀ op, (s.ops op).Bounded
  raised : ∀ op, (s.ops op).Raised s.readLogicClock
  recorded : ∀ op, ∀ verdict ∈ (s.ops op).verdicts, verdict.expired = true →
    verdict.deadline ≤ max s.readLogicClock s.writeLogicClock

variable {s : ClockNode} {readClock writeClock : Nat}

/-- A move raises the clocks, keeps them small, and leaves the operation with
clocks and verdicts that the node's clocks account for. -/
theorem Moves.sound {state : ClockOp} (h : s.Moves op state readClock writeClock)
    (hInv : s.Invariant) (hBounded : op.Bounded) (hRaised : op.Raised s.readLogicClock)
    (hRecorded : ∀ verdict ∈ op.verdicts, verdict.expired = true →
      verdict.deadline ≤ max s.readLogicClock s.writeLogicClock) :
    s.readLogicClock ≤ readClock ∧ s.writeLogicClock ≤ writeClock ∧ readClock < clockBound ∧
    writeClock < clockBound ∧ state.Bounded ∧ state.Raised readClock ∧
    ∀ verdict ∈ state.verdicts, verdict.expired = true →
      verdict.deadline ≤ max readClock writeClock := by
  have hRead := hInv.read
  have hWrite := hInv.write
  have hPhysical := hInv.physical
  cases h with
  | callRead | callWrite => exact ⟨le_refl _, le_refl _, hRead, hWrite, trivial, trivial, nofun⟩
  | loadWrite => exact ⟨le_refl _, le_refl _, hRead, hWrite, hWrite, trivial, nofun⟩
  | loadRead => exact ⟨le_refl _, le_refl _, hRead, hWrite, hRead, trivial, nofun⟩
  | readTime writeTime =>
    exact ⟨le_refl _, le_refl _, hRead, hWrite, max_lt hBounded hPhysical, trivial, nofun⟩
  | raiseRead target =>
    exact ⟨le_max_left _ _, le_refl _, max_lt hRead hBounded, hWrite, trivial, le_refl _, nofun⟩
  | stamp dbNumber readTime =>
    have hStamp : max readTime s.physical < clockBound := max_lt hBounded hPhysical
    refine ⟨le_refl _, le_refl _, hRead, hWrite, ?_, trivial, nofun⟩
    simp only [ClockOp.Bounded]
    rwa [Request.clock_new _ _ _ dbNumber.isLt, Nat.mod_eq_of_lt hStamp]
  | raiseWrite request =>
    exact ⟨le_refl _, le_max_left _ _, hRead, max_lt hWrite hBounded, trivial, trivial, nofun⟩
  | readLookup clock deadline verdicts =>
    refine ⟨le_refl _, le_refl _, hRead, hWrite, trivial, hRaised, ?_⟩
    refine List.forall_mem_cons.mpr ⟨fun hExpired => ?_, hRecorded⟩
    have hClock : clock ≤ s.readLogicClock := hRaised
    have hDue : deadline ≤ s.writeLogicClock ∨ deadline ≤ clock := by simpa using hExpired
    simp only
    omega
  | writeLookup clock deadline verdicts =>
    refine ⟨le_refl _, le_refl _, hRead, hWrite, trivial, trivial, ?_⟩
    refine List.forall_mem_cons.mpr ⟨fun hExpired => ?_, hRecorded⟩
    have hDue : deadline ≤ s.writeLogicClock := by simpa using hExpired
    simp only
    omega
  | finishRead clock verdicts | finishWrite clock verdicts =>
    exact ⟨le_refl _, le_refl _, hRead, hWrite, trivial, trivial, hRecorded⟩

theorem step_invariant (label : ClockLabel) (hInv : s.Invariant) (hStep : s.step label = some s') :
    s'.Invariant ∧ s.readLogicClock ≤ s'.readLogicClock ∧
      s.writeLogicClock ≤ s'.writeLogicClock := by
  rcases step_moves hStep with ⟨op, state, readClock, writeClock, hMoves, rfl⟩ | ⟨now, hNow, rfl⟩
  · obtain ⟨hRead, hWrite, hReadBound, hWriteBound, hBounded, hRaised, hRecorded⟩ :=
      hMoves.sound hInv (hInv.bounded op) (hInv.raised op) (hInv.recorded op)
    refine ⟨⟨hReadBound, hWriteBound, hInv.physical, ?_, ?_, ?_⟩, hRead, hWrite⟩
    · exact (Function.forall_update_iff s.ops fun _ state => state.Bounded).mpr
        ⟨hBounded, fun other _ => hInv.bounded other⟩
    · exact (Function.forall_update_iff s.ops fun _ state => state.Raised readClock).mpr
        ⟨hRaised, fun other _ => (hInv.raised other).mono hRead⟩
    · refine (Function.forall_update_iff s.ops fun _ state => ∀ verdict ∈ state.verdicts,
        verdict.expired = true → verdict.deadline ≤ max readClock writeClock).mpr
          ⟨hRecorded, fun other _ verdict hVerdict hExpired => ?_⟩
      exact (hInv.recorded other verdict hVerdict hExpired).trans (max_le_max hRead hWrite)
  · exact ⟨⟨hInv.read, hInv.write, hNow, hInv.bounded, hInv.raised, hInv.recorded⟩,
      le_refl _, le_refl _⟩

/-- What holds from the moment the clocks stood at the two floors on, for an
operation that was not called before. -/
structure Since (readFloor writeFloor op : Nat) (s : ClockNode) : Prop where
  invariant : s.Invariant
  read : readFloor ≤ s.readLogicClock
  write : writeFloor ≤ s.writeLogicClock
  after : (s.ops op).After readFloor writeFloor s.writeLogicClock

/-- Each move of a later operation keeps what it has picked up, and every lookup
it makes sees the floors. -/
theorem Moves.after {state : ClockOp} (h : s.Moves op state readClock writeClock)
    (hInv : s.Invariant) (hBounded : op.Bounded) (hRead : readFloor ≤ s.readLogicClock)
    (hWrite : writeFloor ≤ s.writeLogicClock)
    (hAfter : op.After readFloor writeFloor s.writeLogicClock) :
    state.After readFloor writeFloor writeClock := by
  cases h with
  | callRead | callWrite => trivial
  | loadWrite => exact hWrite
  | loadRead => exact hRead
  | readTime writeTime => exact le_max_of_le_left hAfter
  | raiseRead target =>
    have hTarget : writeFloor ≤ target := hAfter
    exact ⟨by omega, nofun⟩
  | stamp dbNumber readTime =>
    have hStamp : max readTime s.physical < clockBound := max_lt hBounded hInv.physical
    simp only [ClockOp.After]
    rw [Request.clock_new _ _ _ dbNumber.isLt, Nat.mod_eq_of_lt hStamp]
    exact le_max_of_le_left hAfter
  | raiseWrite request =>
    have hStamp : readFloor ≤ request.clock := hAfter
    exact ⟨by omega, le_refl _, nofun⟩
  | readLookup clock deadline verdicts =>
    obtain ⟨hClock, hVerdicts⟩ := hAfter
    refine ⟨hClock, List.forall_mem_cons.mpr ⟨fun hDeadline => ?_, hVerdicts⟩⟩
    exact decide_eq_true (Or.inr (hDeadline.trans hClock))
  | writeLookup clock deadline verdicts =>
    obtain ⟨hClock, hRaised, hVerdicts⟩ := hAfter
    refine ⟨hClock, hRaised, List.forall_mem_cons.mpr ⟨fun hDeadline => ?_, hVerdicts⟩⟩
    exact decide_eq_true ((hDeadline.trans hClock).trans hRaised)
  | finishRead clock verdicts => exact hAfter
  | finishWrite clock verdicts => exact ⟨hAfter.1, hAfter.2.2⟩

theorem step_since {op : Nat} (label : ClockLabel) (h : s.Since readFloor writeFloor op)
    (hStep : s.step label = some s') : s'.Since readFloor writeFloor op := by
  obtain ⟨hInv, hRead, hWrite⟩ := step_invariant label h.invariant hStep
  refine ⟨hInv, h.read.trans hRead, h.write.trans hWrite, ?_⟩
  rcases step_moves hStep with ⟨moved, state, readClock, writeClock, hMoves, rfl⟩ | ⟨now, -, rfl⟩
  · by_cases hOp : op = moved
    · subst hOp
      simpa using hMoves.after h.invariant (h.invariant.bounded op) h.read h.write h.after
    · simpa [Function.update_of_ne hOp] using h.after.mono hWrite
  · exact h.after

theorem start_invariant {physical : Nat} (hRead : readClock < clockBound)
    (hWrite : writeClock < clockBound) (hPhysical : physical < clockBound) :
    (start readClock writeClock physical).Invariant :=
  ⟨hRead, hWrite, hPhysical, fun _ => trivial, fun _ => trivial, nofun⟩

/-- Once a lookup has treated a deadline as expired, every operation called
afterwards does: a read because its read clock has reached the deadline, a write
because the write clock at its apply has. The operation of the first lookup may
have completed or not. -/
theorem expiry_monotone {readClock writeClock physical : Nat} {s : ClockNode}
    (hRead : readClock < clockBound) (hWrite : writeClock < clockBound)
    (hPhysical : physical < clockBound)
    (hReach : Library.Reachable step (start readClock writeClock physical) s) {first deadline : Nat}
    (hExpired : ⟨deadline, true⟩ ∈ (s.ops first).verdicts) (hLater : s.ops later = .idle)
    (hRun : Library.Reachable step s s') :
    (∀ expired, ⟨deadline, expired⟩ ∈ (s'.ops later).verdicts → expired = true) ∧
    match s'.ops later with
    | .reading clock _ | .readDone clock _ | .applying clock _ | .applied clock _ =>
      deadline ≤ clock
    | _ => True := by
  have hInv : s.Invariant := hReach.invariant Invariant (start_invariant hRead hWrite hPhysical)
    fun _ label _ h hStep => (step_invariant label h hStep).1
  have hDeadline := hInv.recorded first _ hExpired rfl
  have hSince : s.Since s.readLogicClock s.writeLogicClock later :=
    ⟨hInv, le_refl _, le_refl _, by rw [hLater]; trivial⟩
  have hEnd := (hRun.invariant _ hSince fun _ label _ => step_since label).after
  cases hOp : s'.ops later with
  | reading clock verdicts | readDone clock verdicts | applied clock verdicts =>
    rw [hOp] at hEnd
    exact ⟨fun expired h => hEnd.2 _ h hDeadline, hDeadline.trans hEnd.1⟩
  | applying clock verdicts =>
    rw [hOp] at hEnd
    exact ⟨fun expired h => hEnd.2.2 _ h hDeadline, hDeadline.trans hEnd.1⟩
  | _ => simp [ClockOp.verdicts]

/-- A read at physical time 10 finds deadline 7 expired; then the physical clock
falls back to 3 and a write is called, stamped, applied and looks the entry up. -/
def fallBack : ClockNode :=
  (Library.run step (start 0 0 10) [.callRead 0, .step 0, .step 0, .step 0, .lookup 0 7,
    .finish 0, .setPhysical 3]).get (by decide +kernel)

def fallBackWrite : ClockNode :=
  (Library.run step fallBack [.callWrite 1 2, .step 1, .step 1, .step 1, .lookup 1 7,
    .finish 1]).get (by decide +kernel)

theorem expiry_monotone_fallBack :
    fallBackWrite.ops 1 = .applied 10 [⟨7, true⟩] ∧
      ∀ expired, ⟨7, expired⟩ ∈ (fallBackWrite.ops 1).verdicts → expired = true := by
  refine ⟨by decide +kernel, ?_⟩
  have hFirst : Library.Reachable step (start 0 0 10) fallBack := ⟨_, (Option.some_get _).symm⟩
  have hSecond : Library.Reachable step fallBack fallBackWrite := ⟨_, (Option.some_get _).symm⟩
  have hExpired : ⟨7, true⟩ ∈ (fallBack.ops 0).verdicts := by decide +kernel
  exact (expiry_monotone (by decide) (by decide) (by decide) hFirst hExpired (by decide +kernel)
    hSecond).1

end ClockNode

end CacheCat.Cache
