import CacheCat.Library.Segment
import CacheCat.StateMachine.Apply

/-! The Raft log of a node (`LogStore`) over the entries and messages of raft-engine,
compared with the log it stands for. Truncation is left to a later append, which
overwrites what it overlaps; until then the cut off entries are still the last ones. -/
namespace CacheCat.Raft

open Library (Segment)
open StateMachine (LogId LogEntry)

def entryIndex (entry : LogEntry) : Nat := entry.logId.index

/-! ### The engine -/

inductive EngineError where
  | entryCompacted
  | entryNotFound
deriving DecidableEq

/-- The calls of raft-engine that the store makes for its group. -/
structure Engine (Group : Type) where
  lastIndex : Group → Option Nat
  getEntry : Group → Nat → Option LogEntry
  fetchEntriesTo : Group → Nat → Nat → Except EngineError (List LogEntry)
  addEntries : Group → List LogEntry → Group
  compactTo : Group → Nat → Group
  /-- The message under `last_purged_log_id`. -/
  lastPurged : Group → Option LogId
  putLastPurged : Group → LogId → Group

/-- The entries of `[start, stop)`, all of which have to be there. -/
def fetch (entries : List LogEntry) (start stop : Nat) : Except EngineError (List LogEntry) :=
  if stop ≤ start then .ok []
  else
    match entries.head?, entries.getLast? with
    | some first, some last =>
      if start < entryIndex first then .error .entryCompacted
      else if entryIndex last + 1 < stop then .error .entryNotFound
      else .ok (entries.filter fun entry => start ≤ entryIndex entry && entryIndex entry < stop)
    | _, _ => .error .entryNotFound

/-- What is assumed of raft-engine, whose indexes are `u64`: a group holds a list of
entries, an append that leaves no hole overwrites the tail it overlaps, a compaction
removes a front, and messages are kept apart from the entries. -/
structure Engine.Laws {Group : Type} (engine : Engine Group) (entries : Group → List LogEntry) :
    Prop where
  lastIndex : ∀ group, engine.lastIndex group = (entries group).getLast?.map entryIndex
  getEntry : ∀ group, ∀ index < 2 ^ 64,
    engine.getEntry group index = (entries group).find? (entryIndex · = index)
  fetchEntriesTo : ∀ group, ∀ start < 2 ^ 64, ∀ stop < 2 ^ 64,
    engine.fetchEntriesTo group start stop = fetch (entries group) start stop
  addNothing : ∀ group, entries (engine.addEntries group []) = entries group
  addEntries : ∀ group first batch index,
    Segment entryIndex index
      ((entries group).filter (entryIndex · < entryIndex first) ++ first :: batch) →
    (∀ entry ∈ first :: batch, entryIndex entry < 2 ^ 64) →
    entries (engine.addEntries group (first :: batch)) =
      (entries group).filter (entryIndex · < entryIndex first) ++ first :: batch
  compactTo : ∀ group, ∀ index < 2 ^ 64,
    entries (engine.compactTo group index) = (entries group).filter (index ≤ entryIndex ·)
  putLastPurged : ∀ group logId, entries (engine.putLastPurged group logId) = entries group ∧
    engine.lastPurged (engine.putLastPurged group logId) = some logId
  lastPurged : ∀ group batch index,
    engine.lastPurged (engine.addEntries group batch) = engine.lastPurged group ∧
      engine.lastPurged (engine.compactTo group index) = engine.lastPurged group

/-! ### The store -/

inductive Bound where
  | included (index : Nat)
  | excluded (index : Nat)
  | unbounded

/-- The range of a read. -/
structure LogRange where
  lower : Bound
  upper : Bound

namespace LogRange

def start (range : LogRange) : Nat :=
  match range.lower with
  | .included n => n
  | .excluded n => n + 1
  | .unbounded => 0

def stop (range : LogRange) : Nat :=
  match range.upper with
  | .included n => n + 1
  | .excluded n => n
  | .unbounded => 2 ^ 64 - 1

end LogRange

structure LogState where
  lastPurgedLogId : Option LogId
  lastLogId : Option LogId
deriving DecidableEq

structure LogStore (Group : Type) where
  engine : Engine Group
  group : Group

namespace LogStore

variable {Group : Type}

def tryGetLogEntries (store : LogStore Group) (range : LogRange) :
    Except EngineError (List LogEntry) :=
  match store.engine.lastIndex store.group with
  | none => .ok []
  | some last =>
    store.engine.fetchEntriesTo store.group (min (last + 1) range.start) (min (last + 1) range.stop)

def getLogState (store : LogStore Group) : LogState :=
  let lastLogId := ((store.engine.lastIndex store.group).bind
    (store.engine.getEntry store.group)).map (·.logId)
  let lastPurgedLogId := store.engine.lastPurged store.group
  { lastPurgedLogId, lastLogId := lastLogId.or lastPurgedLogId }

def append (store : LogStore Group) (entries : List LogEntry) : LogStore Group :=
  { store with group := store.engine.addEntries store.group entries }

/-- "Truncating does not need to be persisted." -/
def truncateAfter (store : LogStore Group) (_lastLogId : Option LogId) : LogStore Group := store

def purge (store : LogStore Group) (logId : LogId) : LogStore Group :=
  { store with
    group := store.engine.compactTo (store.engine.putLastPurged store.group logId)
      (logId.index + 1) }

end LogStore

/-- What openraft does to its log storage between two reads. -/
inductive LogCall where
  | append (entries : List LogEntry)
  | truncateAfter (lastLogId : Option LogId)
  | purge (logId : LogId)
  | restart

/-- A node that starts again opens the same engine. -/
def LogStore.call {Group : Type} (store : LogStore Group) : LogCall → LogStore Group
  | .append entries => store.append entries
  | .truncateAfter lastLogId => store.truncateAfter lastLogId
  | .purge logId => store.purge logId
  | .restart => store

/-! ### The log it stands for -/

/-- The entries after the last purged one. -/
structure RaftLog where
  purged : Option LogId
  entries : List LogEntry

namespace RaftLog

/-- The index after the last purged one. -/
def first (log : RaftLog) : Nat := log.purged.elim 0 (·.index + 1)

def lastLogId (log : RaftLog) : Option LogId := (log.entries.getLast?.map (·.logId)).or log.purged

/-- The index after the last one. -/
def next (log : RaftLog) : Nat := log.lastLogId.elim 0 (·.index + 1)

def state (log : RaftLog) : LogState := ⟨log.purged, log.lastLogId⟩

/-- The entries of a range. -/
def slice (log : RaftLog) (range : LogRange) : List LogEntry :=
  log.entries.filter fun entry => range.start ≤ entryIndex entry && entryIndex entry < range.stop

/-- A purge behind an earlier one finds nothing to remove. -/
def call (log : RaftLog) : LogCall → RaftLog
  | .append entries => { log with entries := log.entries ++ entries }
  | .truncateAfter lastLogId =>
    { log with entries := log.entries.filter (entryIndex · < lastLogId.elim 0 (·.index + 1)) }
  | .purge logId =>
    if logId.index + 1 < log.first then log
    else ⟨some logId, log.entries.filter (logId.index + 1 ≤ entryIndex ·)⟩
  | .restart => log

def empty : RaftLog := ⟨none, []⟩

/-- A batch is appended right after the last index, and no index is the largest one. -/
def Accepts (log : RaftLog) : LogCall → Prop
  | .append entries => Segment entryIndex log.next entries ∧
      ∀ entry ∈ entries, entryIndex entry + 1 < 2 ^ 64
  | .purge logId => logId.index + 1 < 2 ^ 64
  | _ => True

end RaftLog

/-! ### What truncation leaves behind -/

/-- A log with its history: the entries that a truncation has cut off and that neither an
append nor a purge has reached since, and the argument of the last purge. -/
structure Track where
  log : RaftLog
  leftover : List LogEntry
  lastPurge : Option LogId

namespace Track

def empty : Track := ⟨.empty, [], none⟩

def call (track : Track) (call : LogCall) : Track :=
  match call with
  | .append entries =>
    { track with
      log := track.log.call call, leftover := if entries = [] then track.leftover else [] }
  | .truncateAfter lastLogId =>
    let cut := track.log.entries.filter (lastLogId.elim 0 (·.index + 1) ≤ entryIndex ·)
    { track with log := track.log.call call, leftover := cut ++ track.leftover }
  | .purge logId =>
    ⟨track.log.call call, track.leftover.filter (logId.index + 1 ≤ entryIndex ·), some logId⟩
  | .restart => track

def run (calls : List LogCall) : Track := calls.foldl call empty

/-- Every batch was appended right after the last index. -/
def Accepts (track : Track) : List LogCall → Prop
  | [] => True
  | call :: calls => track.log.Accepts call ∧ (track.call call).Accepts calls

/-- Nothing is left over, and the last purge did not go back behind an earlier one. -/
def Settled (track : Track) : Prop := track.leftover = [] ∧ track.lastPurge = track.log.purged

end Track

def LogStore.run {Group : Type} (store : LogStore Group) (calls : List LogCall) : LogStore Group :=
  calls.foldl LogStore.call store

section

variable {Group : Type} {held : Group → List LogEntry}

/-- The entries of the engine are those of the log and, behind them, the leftover ones. -/
structure Tracks (held : Group → List LogEntry) (store : LogStore Group)
    (track : Track) : Prop where
  laws : store.engine.Laws held
  entries : held store.group = track.log.entries ++ track.leftover
  segment : Segment entryIndex track.log.first (track.log.entries ++ track.leftover)
  fits : ∀ entry ∈ track.log.entries ++ track.leftover, entryIndex entry + 1 < 2 ^ 64
  lastPurged : store.engine.lastPurged store.group = track.lastPurge

namespace Tracks

variable {store : LogStore Group} {track : Track}

section

variable (hTracks : Tracks held store track)

include hTracks

theorem log_segment : Segment entryIndex track.log.first track.log.entries :=
  (Segment.append_iff.mp hTracks.segment).1

theorem leftover_segment :
    Segment entryIndex (track.log.first + track.log.entries.length) track.leftover :=
  (Segment.append_iff.mp hTracks.segment).2

/-- The last index is that of the last entry, or the purged one. -/
theorem next_eq : track.log.next = track.log.first + track.log.entries.length := by
  unfold RaftLog.next RaftLog.lastLogId
  cases hLast : track.log.entries.getLast? with
  | none =>
    rw [List.getLast?_eq_none_iff.mp hLast]
    rfl
  | some entry => exact hTracks.log_segment.last hLast

theorem append {entries : List LogEntry} (hAccepts : track.log.Accepts (.append entries)) :
    Tracks held (store.call (.append entries)) (track.call (.append entries)) := by
  obtain ⟨hBatch, hFits⟩ := hAccepts
  rw [hTracks.next_eq] at hBatch
  have hPurged := (hTracks.laws.lastPurged store.group entries 0).1.trans hTracks.lastPurged
  cases entries with
  | nil =>
    have hTrack : track.call (.append []) = track := by simp [Track.call, RaftLog.call]
    rw [hTrack]
    exact { hTracks with
      entries := (hTracks.laws.addNothing _).trans hTracks.entries
      lastPurged := hPurged }
  | cons first batch =>
    have hKept : (held store.group).filter (entryIndex · < entryIndex first) =
        track.log.entries := by
      rw [hTracks.entries, hBatch.1, List.filter_append,
        hTracks.log_segment.filter_lt_eq_self (Nat.le_refl _),
        hTracks.leftover_segment.filter_lt_eq_nil (Nat.le_refl _), List.append_nil]
    have hSegment : Segment entryIndex track.log.first (track.log.entries ++ first :: batch) :=
      Segment.append_iff.mpr ⟨hTracks.log_segment, hBatch⟩
    have hAdd := hTracks.laws.addEntries store.group first batch track.log.first
    rw [hKept] at hAdd
    have hTrack : (track.call (.append (first :: batch))).log.entries ++
        (track.call (.append (first :: batch))).leftover = track.log.entries ++ first :: batch := by
      simp [Track.call, RaftLog.call]
    refine ⟨hTracks.laws, ?_, ?_, ?_, hPurged⟩
    · rw [hTrack]
      exact hAdd hSegment fun entry hEntry => Nat.lt_of_succ_lt (hFits entry hEntry)
    · rw [hTrack]
      exact hSegment
    · rw [hTrack]
      intro entry hEntry
      rcases List.mem_append.mp hEntry with hOld | hNew
      · exact hTracks.fits entry (List.mem_append_left _ hOld)
      · exact hFits entry hNew

theorem truncateAfter (lastLogId : Option LogId) :
    Tracks held (store.call (.truncateAfter lastLogId))
    (track.call (.truncateAfter lastLogId)) := by
  have hCut := hTracks.log_segment.filter_append (lastLogId.elim 0 (·.index + 1))
  have hTrack : (track.call (.truncateAfter lastLogId)).log.entries ++
      (track.call (.truncateAfter lastLogId)).leftover = track.log.entries ++ track.leftover := by
    simp only [Track.call, RaftLog.call]
    rw [← List.append_assoc, hCut]
  obtain ⟨hLaws, hEntries, hSegment, hFits, hPurged⟩ := hTracks
  rw [← hTrack] at hEntries hSegment hFits
  exact ⟨hLaws, hEntries, hSegment, hFits, hPurged⟩

theorem purge {logId : LogId} (hFits : logId.index + 1 < 2 ^ 64) :
    Tracks held (store.call (.purge logId)) (track.call (.purge logId)) := by
  have hFilter := hTracks.segment.filter_ge (logId.index + 1)
  rw [List.filter_append] at hFilter
  obtain ⟨hPut, hPurged⟩ := hTracks.laws.putLastPurged store.group logId
  have hEntries : held (store.call (.purge logId)).group =
      track.log.entries.filter (logId.index + 1 ≤ entryIndex ·) ++
        track.leftover.filter (logId.index + 1 ≤ entryIndex ·) := by
    rw [← List.filter_append, ← hTracks.entries, ← hPut]
    exact hTracks.laws.compactTo _ _ hFits
  have hStill := (hTracks.laws.lastPurged (store.engine.putLastPurged store.group logId) []
    (logId.index + 1)).2.trans hPurged
  have hBelow : ∀ entry ∈ track.log.entries.filter (logId.index + 1 ≤ entryIndex ·) ++
      track.leftover.filter (logId.index + 1 ≤ entryIndex ·), entryIndex entry + 1 < 2 ^ 64 := by
    rw [← List.filter_append]
    exact fun entry hEntry => hTracks.fits entry (List.mem_of_mem_filter hEntry)
  by_cases hBack : logId.index + 1 < track.log.first
  · -- there is nothing below the index any more
    have hLog : track.log.entries.filter (logId.index + 1 ≤ entryIndex ·) = track.log.entries := by
      rw [List.filter_eq_self]
      intro entry hEntry
      have := hTracks.log_segment.bounds hEntry
      simpa using (by omega : logId.index + 1 ≤ entryIndex entry)
    rw [hLog] at hEntries hFilter hBelow
    rw [Nat.max_eq_left (Nat.le_of_lt hBack)] at hFilter
    have hCall : track.log.call (.purge logId) = track.log := if_pos hBack
    refine ⟨hTracks.laws, ?_, ?_, ?_, hStill⟩ <;> simpa only [Track.call, hCall]
  · rw [Nat.max_eq_right (Nat.le_of_not_lt hBack)] at hFilter
    have hCall : track.log.call (.purge logId) =
        ⟨some logId, track.log.entries.filter (logId.index + 1 ≤ entryIndex ·)⟩ := if_neg hBack
    refine ⟨hTracks.laws, ?_, ?_, ?_, hStill⟩ <;> simpa only [Track.call, hCall]

theorem call {call : LogCall} (hAccepts : track.log.Accepts call) :
    Tracks held (store.call call) (track.call call) := by
  cases call with
  | append entries => exact hTracks.append hAccepts
  | truncateAfter lastLogId => exact hTracks.truncateAfter lastLogId
  | purge logId => exact hTracks.purge hAccepts
  | restart => exact hTracks

theorem run {calls : List LogCall} (hAccepts : track.Accepts calls) :
    Tracks held (store.run calls) (calls.foldl Track.call track) := by
  induction calls generalizing store track with
  | nil => exact hTracks
  | cons call calls ih => exact ih (hTracks.call hAccepts.1) hAccepts.2

end

theorem getLogState (hTracks : Tracks held store track) :
    store.getLogState = ⟨track.lastPurge,
      ((track.log.entries ++ track.leftover).getLast?.map (·.logId)).or track.lastPurge⟩ := by
  have hLast : (store.engine.lastIndex store.group).bind (store.engine.getEntry store.group) =
      (track.log.entries ++ track.leftover).getLast? := by
    rw [hTracks.laws.lastIndex, hTracks.entries]
    cases hLast : (track.log.entries ++ track.leftover).getLast? with
    | none => rfl
    | some entry =>
      have hMem := List.mem_of_getLast? hLast
      have hFits := Nat.lt_of_succ_lt (hTracks.fits entry hMem)
      rw [Option.map_some, Option.bind_some, hTracks.laws.getEntry _ _ hFits, hTracks.entries]
      exact hTracks.segment.find? hMem
  unfold LogStore.getLogState
  rw [hLast, hTracks.lastPurged]

/-- The last log id is the right one only if nothing is left over. -/
theorem leftover_eq_nil (hTracks : Tracks held store track)
    (hState : store.getLogState = track.log.state) : track.leftover = [] := by
  rw [hTracks.getLogState] at hState
  have hLastLogId : ((track.log.entries ++ track.leftover).getLast?.map (·.logId)).or
      track.lastPurge = track.log.lastLogId := (LogState.mk.inj hState).2
  rcases List.eq_nil_or_concat track.leftover with hNil | ⟨front, entry, hLeftover⟩
  · exact hNil
  · rw [hLeftover, List.concat_eq_append, ← List.append_assoc, List.getLast?_concat] at hLastLogId
    have hNext := hTracks.next_eq
    rw [RaftLog.next, ← hLastLogId] at hNext
    have hEntry : entry ∈ track.leftover := by simp [hLeftover]
    have hBounds := hTracks.leftover_segment.bounds hEntry
    have hIndex : entryIndex entry + 1 = track.log.first + track.log.entries.length := hNext
    omega

theorem state_of_settled (hTracks : Tracks held store track) (hSettled : track.Settled) :
    store.getLogState = track.log.state := by
  rw [hTracks.getLogState, hSettled.1, hSettled.2, List.append_nil]
  rfl

end Tracks

/-! ### Reads -/

/-- All indexes of the range are after the last purged and up to the last one. -/
def LogRange.Inside (range : LogRange) (log : RaftLog) : Prop :=
  log.first ≤ range.start ∧ range.stop ≤ log.next

namespace Tracks

variable {store : LogStore Group} {track : Track}

/-- The engine ends where the leftover entries end. -/
theorem lastIndex (hTracks : Tracks held store track) {last : LogEntry}
    (hLast : (held store.group).getLast? = some last) :
    entryIndex last + 1 = track.log.next + track.leftover.length := by
  rw [hTracks.entries] at hLast
  have hEnd := hTracks.segment.last hLast
  rw [List.length_append] at hEnd
  rw [hTracks.next_eq]
  omega

theorem fetch_eq (hTracks : Tracks held store track) {start stop : Nat} {last : LogEntry}
    (hLast : (held store.group).getLast? = some last) (hFirst : track.log.first ≤ start)
    (hRange : start < stop) (hStop : stop ≤ track.log.next) :
    fetch (held store.group) start stop = .ok (track.log.entries.filter fun entry =>
      start ≤ entryIndex entry && entryIndex entry < stop) := by
  have hNext := hTracks.next_eq
  have hEnd := hTracks.lastIndex hLast
  have hSegment := hTracks.segment
  rw [← hTracks.entries] at hSegment
  obtain ⟨first, hHead⟩ : ∃ first, (held store.group).head? = some first := by
    cases hEntries : held store.group with
    | nil => simp [hEntries] at hLast
    | cons first rest => exact ⟨first, rfl⟩
  have hIndex := hSegment.head hHead
  have hLeftover : track.leftover.filter (fun entry =>
      start ≤ entryIndex entry && entryIndex entry < stop) = [] := by
    rw [List.filter_eq_nil_iff]
    intro entry hEntry
    have hBounds := hTracks.leftover_segment.bounds hEntry
    simp only [Bool.and_eq_true, decide_eq_true_eq]
    omega
  rw [fetch, if_neg (by omega), hHead, hLast]
  simp only
  rw [if_neg (by omega), if_neg (by omega), hTracks.entries, List.filter_append, hLeftover,
    List.append_nil]

/-- A read asks the engine for a range that ends with it at the latest. -/
theorem tryGetLogEntries_eq (hTracks : Tracks held store track) (range : LogRange) :
    store.tryGetLogEntries range = match (held store.group).getLast? with
      | none => .ok []
      | some last => fetch (held store.group) (min (entryIndex last + 1) range.start)
          (min (entryIndex last + 1) range.stop) := by
  rw [LogStore.tryGetLogEntries, hTracks.laws.lastIndex]
  cases hLast : (held store.group).getLast? with
  | none => rfl
  | some last =>
    have hFits := hTracks.fits last (hTracks.entries ▸ List.mem_of_getLast? hLast)
    exact hTracks.laws.fetchEntriesTo _ _ (by omega) _ (by omega)

/-- Inside the log a read gives the entries of the log, whatever is left over behind them. -/
theorem tryGetLogEntries (hTracks : Tracks held store track) {range : LogRange}
    (hInside : range.Inside track.log) :
    store.tryGetLogEntries range = .ok (track.log.slice range) := by
  obtain ⟨hStart, hStop⟩ := hInside
  rw [hTracks.tryGetLogEntries_eq]
  by_cases hRange : range.start < range.stop
  · cases hLast : (held store.group).getLast? with
    | none =>
      have hNil := List.getLast?_eq_none_iff.mp hLast
      have hLog : track.log.entries = [] := (List.append_eq_nil_iff.mp (hTracks.entries ▸ hNil)).1
      rw [RaftLog.slice, hLog]
      rfl
    | some last =>
      have hEnd := hTracks.lastIndex hLast
      simp only
      rw [Nat.min_eq_right (by omega), Nat.min_eq_right (by omega)]
      exact hTracks.fetch_eq hLast hStart hRange hStop
  · have hSlice : track.log.slice range = [] := by
      rw [RaftLog.slice, List.filter_eq_nil_iff]
      intro entry _
      simp only [Bool.and_eq_true, decide_eq_true_eq]
      omega
    rw [hSlice]
    cases (held store.group).getLast? with
    | none => rfl
    | some last => exact if_pos (by omega)

/-- A read returns nothing that the engine does not hold. -/
theorem mem_of_tryGetLogEntries (hTracks : Tracks held store track) {range : LogRange}
    {entries : List LogEntry} (hRead : store.tryGetLogEntries range = .ok entries) :
    ∀ entry ∈ entries, entry ∈ held store.group := by
  intro entry hEntry
  rw [hTracks.tryGetLogEntries_eq] at hRead
  unfold fetch at hRead
  split at hRead
  · cases hRead
    cases hEntry
  · split at hRead
    · cases hRead
      cases hEntry
    · split at hRead
      · split at hRead
        · cases hRead
        · split at hRead
          · cases hRead
          · cases hRead
            exact (List.mem_filter.mp hEntry).1
      · cases hRead

end Tracks

/-! ### Refinement -/

/-- The store answers like the log: reads inside it give its entries in order, its state is
the one reported, and no read at all returns an entry that was removed. -/
structure Refines (store : LogStore Group) (log : RaftLog) : Prop where
  reads : ∀ range : LogRange, range.Inside log →
    store.tryGetLogEntries range = .ok (log.slice range)
  state : store.getLogState = log.state
  kept : ∀ range entries, store.tryGetLogEntries range = .ok entries →
    ∀ entry ∈ entries, entry ∈ log.entries

/-- After any calls on a new group, reads inside the log are right; the store as a whole
stands for the log exactly if no truncation has left anything over and the last purge was
not behind an earlier one. -/
theorem logStore_refines_iff {engine : Engine Group} (hLaws : engine.Laws held) {empty : Group}
    (hEmpty : held empty = [] ∧ engine.lastPurged empty = none) (calls : List LogCall)
    (hAccepts : Track.empty.Accepts calls) :
    (∀ range : LogRange, range.Inside (Track.run calls).log →
      (LogStore.run ⟨engine, empty⟩ calls).tryGetLogEntries range =
        .ok ((Track.run calls).log.slice range)) ∧
    (Refines (LogStore.run ⟨engine, empty⟩ calls) (Track.run calls).log ↔
      (Track.run calls).Settled) := by
  have hNew : Tracks held ⟨engine, empty⟩ Track.empty :=
    ⟨hLaws, hEmpty.1, trivial, nofun, hEmpty.2⟩
  have hTracks : Tracks held _ (Track.run calls) := hNew.run hAccepts
  refine ⟨fun range => hTracks.tryGetLogEntries, fun hRefines => ⟨?_, ?_⟩,
    fun hSettled => ⟨?_, ?_, ?_⟩⟩
  · exact hTracks.leftover_eq_nil hRefines.state
  · have hState := hRefines.state
    rw [hTracks.getLogState] at hState
    exact (LogState.mk.inj hState).1
  · exact fun range => hTracks.tryGetLogEntries
  · exact hTracks.state_of_settled hSettled
  · intro range entries hRead entry hEntry
    have hMem := hTracks.mem_of_tryGetLogEntries hRead entry hEntry
    rwa [hTracks.entries, hSettled.1, List.append_nil] at hMem

end

def blankEntry (term index : Nat) : LogEntry := ⟨⟨term, 0, index⟩, .blank⟩

/-- An engine that meets the laws: a group is its entries and its message. -/
def listEngine : Engine (List LogEntry × Option LogId) where
  lastIndex group := group.1.getLast?.map entryIndex
  getEntry group index := group.1.find? (entryIndex · = index)
  fetchEntriesTo group := fetch group.1
  addEntries group batch := batch.head?.elim group fun first =>
    (group.1.filter (entryIndex · < entryIndex first) ++ batch, group.2)
  compactTo group index := (group.1.filter (index ≤ entryIndex ·), group.2)
  lastPurged group := group.2
  putLastPurged group logId := (group.1, some logId)

theorem listEngine_laws : listEngine.Laws Prod.fst := by
  constructor
  case lastPurged =>
    intro group batch index
    refine ⟨?_, rfl⟩
    cases batch <;> rfl
  all_goals intros
  case putLastPurged => exact ⟨rfl, rfl⟩
  all_goals rfl

/-- Two entries, the second replaced by one of a new leader, the first purged. -/
theorem logStore_refines_overwritten :
    Refines (LogStore.run ⟨listEngine, [], none⟩ [.append [blankEntry 1 0, blankEntry 1 1],
        .truncateAfter (some ⟨1, 0, 0⟩), .append [blankEntry 2 1], .purge ⟨1, 0, 0⟩, .restart])
      ⟨some ⟨1, 0, 0⟩, [blankEntry 2 1]⟩ :=
  (logStore_refines_iff listEngine_laws ⟨rfl, rfl⟩ _ (by
    simp [Track.Accepts, RaftLog.Accepts, Segment, blankEntry, entryIndex, Track.call,
      RaftLog.call, RaftLog.next, RaftLog.lastLogId, Track.empty, RaftLog.empty])).2.mpr ⟨rfl, rfl⟩

/-- A follower cuts off its second entry and restarts before the leader has sent another
one: it reports the entry it has just removed as its last. -/
theorem truncated_entry_reported :
    let calls : List LogCall := [.append [blankEntry 1 0, blankEntry 1 1],
      .truncateAfter (some ⟨1, 0, 0⟩), .restart]
    let store := LogStore.run ⟨listEngine, [], none⟩ calls
    store.getLogState = ⟨none, some ⟨1, 0, 1⟩⟩ ∧
      (Track.run calls).log.state = ⟨none, some ⟨1, 0, 0⟩⟩ ∧
      ¬ Refines store (Track.run calls).log := by
  intro calls store
  have hStore : store.getLogState = ⟨none, some ⟨1, 0, 1⟩⟩ := rfl
  have hLog : (Track.run calls).log.state = ⟨none, some ⟨1, 0, 0⟩⟩ := rfl
  refine ⟨hStore, hLog, fun hRefines => ?_⟩
  have hState := hRefines.state
  rw [hStore, hLog] at hState
  exact absurd hState (by decide)

end CacheCat.Raft
