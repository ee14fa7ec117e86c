import CacheCat.Mocha.WheelExact
import CacheCat.Mocha.Worker

/-! Every entry with a deadline has a matching timer on its way: in the hands of
a client that has changed the map and not yet sent, in the channel, in the hands
of the worker, or in the wheel. Timers without an entry may be left over; they are
harmless because a removal compares the deadline. -/
namespace CacheCat.Mocha

variable {K V : Type}

def ExpireCommand.timers : ExpireCommand K → List (TimerItem K)
  | schedule key expireAt => [⟨key, expireAt⟩]
  | scheduleBatch items => items
  | _ => []

def AfterAdvance.timers : AfterAdvance K → List (TimerItem K)
  | place items => items
  | _ => []

def WorkerState.timers : WorkerState K → List (TimerItem K)
  | starting | idle => []
  | advancing next => next.timers
  | expiring items next => items ++ next.timers
  | removing item _ items next => item :: (items ++ next.timers)
  | loading items | placing _ items => items
  | removingPast item _ _ items => item :: items

def Task.timers : Task K V → List (TimerItem K)
  | enqueueing key expireAt => [⟨key, expireAt⟩]
  | unlinkingBatch _ _ items => items
  | _ => []

/-- The one-shot channel that a command is answered on. -/
def ExpireCommand.token : ExpireCommand K → Option Nat
  | advanceAndWait done | hasExpiredByLocalClock _ done => some done
  | _ => none

def AfterAdvance.token : AfterAdvance K → Option Nat
  | reply done => some done
  | _ => none

def WorkerState.token : WorkerState K → Option Nat
  | advancing next | expiring _ next | removing _ _ _ next => next.token
  | _ => none

/-- What the worker's local variables say about the clock: items in its hands to
be removed are past their deadline, and no clock it has loaded is ahead. -/
def WorkerState.Sound (current clock : Nat) : WorkerState K → Prop
  | starting | idle | advancing _ | loading _ => True
  | expiring items _ => ∀ item ∈ items, item.expireAt ≤ clock
  | removing item now items _ =>
    item.expireAt ≤ now ∧ now ≤ clock ∧ ∀ other ∈ items, other.expireAt ≤ clock
  | placing now _ => current ≤ now ∧ now ≤ clock
  | removingPast item loaded now _ =>
    item.expireAt ≤ loaded ∧ loaded ≤ clock ∧ current ≤ now ∧ now ≤ clock

def Task.Sound (clock : Nat) : Task K V → Prop
  | rearming _ _ now | erasing _ now | unlinking _ now | unlinkingBatch now _ _
  | looking _ now => now ≤ clock
  | removingExpired _ expiredAt now => expiredAt ≤ now ∧ now ≤ clock
  | _ => True

variable {worker : WorkerState K}

theorem WorkerState.Sound.mono {current clock later : Nat} (h : worker.Sound current clock)
    (hLe : clock ≤ later) : worker.Sound current later := by
  cases worker with
  | expiring items next => exact fun item hItem => (h item hItem).trans hLe
  | removing item now items next =>
    exact ⟨h.1, h.2.1.trans hLe, fun other hOther => (h.2.2 other hOther).trans hLe⟩
  | placing now items => exact ⟨h.1, h.2.trans hLe⟩
  | removingPast item loaded now items => exact ⟨h.1, h.2.1.trans hLe, h.2.2.1, h.2.2.2.trans hLe⟩
  | starting | idle | advancing next | loading items => trivial

theorem Task.Sound.mono {clock later : Nat} {task : Task K V} (h : task.Sound clock)
    (hLe : clock ≤ later) : task.Sound later := by
  cases task <;> simp only [Task.Sound] at h ⊢ <;> omega

namespace System

variable {s s' : System K V} {timer : TimerItem K} {thread : Nat}

/-- The timer has left the clients. -/
def Held (s : System K V) (timer : TimerItem K) : Prop :=
  timer ∈ s.wheel.pending ∨ timer ∈ s.channel.flatMap ExpireCommand.timers ∨ timer ∈ s.worker.timers

/-- The timer is somewhere on its way to its entry. -/
def Armed (s : System K V) (timer : TimerItem K) : Prop :=
  s.Held timer ∨ ∃ thread, timer ∈ (s.tasks thread).timers

theorem timers_enqueueTask {key : K} {expireAt : Nat} :
    (⟨key, expireAt⟩ : TimerItem K) ∈ (enqueueTask key (some expireAt) : Task K V).timers := by
  simp [enqueueTask, Task.timers]

theorem sound_enqueueTask (key : K) (expireAt : Option Nat) (clock : Nat) :
    (enqueueTask key expireAt : Task K V).Sound clock := by
  cases expireAt <;> trivial

variable [DecidableEq K]

/-- Besides, every answer still to be given is awaited on a channel that was handed out. -/
structure Invariant (s : System K V) : Prop where
  armed : ∀ key entry expireAt, s.map.lookup key = some entry →
    entry.expireAt = some expireAt → s.Armed ⟨key, expireAt⟩
  placed : s.wheel.Placed
  current : s.wheel.current ≤ s.clock
  fresh : s.worker = .starting → s.wheel = .new 0
  worker : s.worker.Sound s.wheel.current s.clock
  tasks : ∀ thread, (s.tasks thread).Sound s.clock
  asked : ∀ command ∈ s.channel, ∀ done, command.token = some done → done < s.nextDone
  handled : ∀ done, s.worker.token = some done → done < s.nextDone
  answered : ∀ reply ∈ s.replies, reply.done < s.nextDone

theorem invariant_new (clock : Nat) : (new clock : System K V).Invariant where
  armed := by
    intro key entry expireAt hLookup
    simp [new] at hLookup
  placed := HierarchicalTimeWheel.placed_new 0
  current := Nat.zero_le _
  fresh := fun _ => rfl
  worker := trivial
  tasks := fun _ => trivial
  asked := by simp [new]
  handled := by simp [new, WorkerState.token]
  answered := by simp [new]

/-- Every way a client action can leave the system: the timers the thread holds stay on
their way, the entries it writes are armed, and the channels it asks to be answered on
are new. A thread that is not writing removes only what has expired. -/
structure ClientEffect (s s' : System K V) (thread : Nat) (writing : Bool)
    (sent : List (ExpireCommand K)) : Prop where
  clock : s'.clock = s.clock
  wheel : s'.wheel = s.wheel
  worker : s'.worker = s.worker
  replies : s'.replies = s.replies
  channel : s'.channel = s.channel ++ sent
  nextDone : s.nextDone ≤ s'.nextDone
  tokens : ∀ command ∈ sent, ∀ done, command.token = some done →
    s.nextDone ≤ done ∧ done < s'.nextDone
  others : ∀ other, other ≠ thread → s'.tasks other = s.tasks other
  sound : (s'.tasks thread).Sound s.clock
  keeps : ∀ timer ∈ (s.tasks thread).timers,
    timer ∈ (s'.tasks thread).timers ∨ timer ∈ sent.flatMap ExpireCommand.timers
  writes : ∀ key entry expireAt, s'.map.lookup key = some entry → entry.expireAt = some expireAt →
    ⟨key, expireAt⟩ ∈ (s'.tasks thread).timers ∨ s.map.lookup key = some entry
  quiet : writing = false → (s'.tasks thread).writes = false ∧ ∀ command ∈ sent, command.timers = []
  removes : writing = false → ∀ key entry, s.map.lookup key = some entry →
    s'.map.lookup key ≠ some entry → entry.expired s.clock = true

section

variable {writing : Bool} {sent : List (ExpireCommand K)}

theorem ClientEffect.armed (effect : ClientEffect s s' thread writing sent) (h : s.Armed timer) :
    s'.Armed timer := by
  rcases h with (h | h | h) | ⟨other, h⟩
  · exact .inl (.inl (by rwa [effect.wheel]))
  · exact .inl (.inr (.inl (by simp [effect.channel, h])))
  · exact .inl (.inr (.inr (by rwa [effect.worker])))
  by_cases hOther : other = thread
  · subst hOther
    rcases effect.keeps timer h with hKept | hSent
    · exact .inr ⟨other, hKept⟩
    · exact .inl (.inr (.inl (by simp [effect.channel, hSent])))
  · exact .inr ⟨other, by rwa [effect.others other hOther]⟩

theorem ClientEffect.invariant (effect : ClientEffect s s' thread writing sent)
    (hInv : s.Invariant) : s'.Invariant where
  armed := by
    intro key entry expireAt hLookup hDeadline
    rcases effect.writes key entry expireAt hLookup hDeadline with hTimer | hOld
    · exact .inr ⟨thread, hTimer⟩
    · exact effect.armed (hInv.armed key entry expireAt hOld hDeadline)
  placed := by rw [effect.wheel]; exact hInv.placed
  current := by rw [effect.wheel, effect.clock]; exact hInv.current
  fresh := by rw [effect.wheel, effect.worker]; exact hInv.fresh
  worker := by rw [effect.worker, effect.wheel, effect.clock]; exact hInv.worker
  tasks := by
    intro other
    rw [effect.clock]
    by_cases hOther : other = thread
    · subst hOther
      exact effect.sound
    · rw [effect.others other hOther]
      exact hInv.tasks other
  asked := by
    intro command hCommand done hToken
    rw [effect.channel] at hCommand
    rcases List.mem_append.mp hCommand with hOld | hNew
    · exact (hInv.asked command hOld done hToken).trans_le effect.nextDone
    · exact (effect.tokens command hNew done hToken).2
  handled := by
    rw [effect.worker]
    exact fun done hToken => (hInv.handled done hToken).trans_le effect.nextDone
  answered := by
    rw [effect.replies]
    exact fun reply hReply => (hInv.answered reply hReply).trans_le effect.nextDone

variable {old : Task K V} (hTask : s.tasks thread = old) (task : Task K V)
    (hSound : task.Sound s.clock)

include hTask hSound

/-- An action on the map. What it writes is armed by the timer the thread then holds. -/
theorem clientEffect_map {map : Table K V} (hTimers : old.timers ⊆ task.timers)
    (hMap : ∀ key entry expireAt, map.lookup key = some entry → entry.expireAt = some expireAt →
      ⟨key, expireAt⟩ ∈ task.timers ∨ s.map.lookup key = some entry)
    (hQuiet : writing = false → task.writes = false ∧ ∀ key entry, s.map.lookup key = some entry →
      map.lookup key ≠ some entry → entry.expired s.clock = true) :
    ∃ sent, ClientEffect s { s.setTask thread task with map := map } thread writing sent :=
  ⟨[], {
    clock := rfl
    wheel := rfl
    worker := rfl
    replies := rfl
    channel := (List.append_nil _).symm
    nextDone := Nat.le_refl _
    tokens := by simp
    others := fun other hOther => by simp [setTask, hOther]
    sound := by simpa [setTask] using hSound
    keeps := by
      intro timer h
      rw [hTask] at h
      exact .inl (by simpa [setTask] using hTimers h)
    writes := by simpa [setTask] using hMap
    quiet := fun h => ⟨by simpa [setTask] using (hQuiet h).1, by simp⟩
    removes := fun h => (hQuiet h).2 }⟩

/-- An action that only moves the thread on. -/
theorem clientEffect_setTask (hTimers : old.timers ⊆ task.timers)
    (hQuiet : writing = false → task.writes = false) :
    ∃ sent, ClientEffect s (s.setTask thread task) thread writing sent :=
  clientEffect_map hTask task hSound hTimers (fun _ _ _ hLookup _ => .inr hLookup)
    fun h => ⟨hQuiet h, fun _ _ hBefore hAfter => absurd hBefore hAfter⟩

/-- An action that sends: the timers the thread held travel with the command. -/
theorem clientEffect_send (command : ExpireCommand K) {nextDone : Nat}
    (hNext : s.nextDone ≤ nextDone)
    (hToken : ∀ done, command.token = some done → s.nextDone ≤ done ∧ done < nextDone)
    (hTimers : old.timers ⊆ command.timers)
    (hQuiet : writing = false → task.writes = false ∧ command.timers = []) :
    ∃ sent, ClientEffect s { (s.send command).setTask thread task with nextDone := nextDone }
      thread writing sent :=
  ⟨[command], {
    clock := rfl
    wheel := rfl
    worker := rfl
    replies := rfl
    channel := rfl
    nextDone := hNext
    tokens := by simpa using hToken
    others := fun other hOther => by simp [setTask, send, hOther]
    sound := by simpa [setTask] using hSound
    keeps := by
      intro timer h
      rw [hTask] at h
      exact .inr (by simpa using hTimers h)
    writes := fun key entry expireAt hLookup _ => .inr hLookup
    quiet := fun h => ⟨by simpa [setTask] using (hQuiet h).1, by simpa using (hQuiet h).2⟩
    removes := fun _ _ _ hBefore hAfter => absurd hBefore hAfter }⟩

end

theorem beginCall_effect {call : StoreCall K V} (hTask : s.tasks thread = .called call) :
    ∃ sent, ClientEffect s (s.beginCall thread call) thread call.writes sent := by
  have hNone {items : List (TimerItem K)} : (Task.called call).timers ⊆ items := List.nil_subset _
  cases call with
  | insertEntry key value policy => exact clientEffect_setTask hTask _ trivial hNone nofun
  | setExpirePolicy key policy | removeEntry key | unlink key | unlinkBatch keys =>
    exact clientEffect_setTask hTask _ (Nat.le_refl _) hNone nofun
  | getEntry key => exact clientEffect_setTask hTask _ (Nat.le_refl _) hNone fun _ => rfl
  | clear => exact clientEffect_map hTask .idle trivial hNone (by simp) nofun
  | triggerExpireCycle =>
    exact clientEffect_send hTask .idle trivial .advance (Nat.le_refl s.nextDone) nofun hNone
      fun _ => ⟨rfl, rfl⟩
  | activeExpireCycleBlocking | hasExpiredByLocalClock now =>
    exact clientEffect_send hTask (.awaiting _) trivial _ (Nat.le_succ s.nextDone)
      (by simp [ExpireCommand.token]) hNone fun _ => ⟨rfl, rfl⟩

theorem clientStep_effect {task : Task K V} (hTask : s.tasks thread = task)
    (hSound : task.Sound s.clock) (hStep : s.clientStep thread = some s') :
    ∃ sent, ClientEffect s s' thread task.writes sent := by
  -- an entry that is unlinked is armed if the thread remembers it
  have hUnlinked {key : K} {now : Nat} {task : Task K V}
      (hArmed : (s.map.unlink key now).2 = true → ⟨key, now⟩ ∈ task.timers) (other : K)
      (found : EntrySnapshot V) (expireAt : Nat)
      (hLookup : (s.map.unlink key now).1.lookup other = some found)
      (hDeadline : found.expireAt = some expireAt) :
      ⟨other, expireAt⟩ ∈ task.timers ∨ s.map.lookup other = some found := by
    rcases Table.lookup_unlink_cases hLookup with ⟨rfl, hNow, hUpdated⟩ | hOld
    · rw [hNow] at hDeadline
      cases hDeadline
      exact .inl (hArmed hUpdated)
    · exact .inr hOld
  unfold clientStep at hStep
  rw [hTask] at hStep
  cases task with
  | idle => cases hStep
  | called call =>
    cases hStep
    exact beginCall_effect hTask
  | inserting key entry =>
    cases hStep
    refine clientEffect_map hTask _ (sound_enqueueTask ..) (List.nil_subset _) ?_ nofun
    intro other found expireAt hLookup hDeadline
    rcases Table.lookup_insert_cases hLookup with ⟨rfl, rfl⟩ | hOld
    · exact .inl (by rw [hDeadline]; exact timers_enqueueTask)
    · exact .inr hOld
  | enqueueing key expireAt =>
    cases hStep
    exact clientEffect_send hTask .idle trivial _ (Nat.le_refl s.nextDone) nofun
      (List.Subset.refl _) nofun
  | rearming key policy now =>
    cases hStep
    refine clientEffect_map hTask _ ?_ (List.nil_subset _) ?_ nofun
    · cases (s.map.setExpirePolicy key policy now s.clock).2 with
      | none => trivial
      | some deadline => exact sound_enqueueTask ..
    · intro other found expireAt hLookup hDeadline
      rcases Table.lookup_setExpirePolicy_cases hLookup with ⟨rfl, hUpdated⟩ | hOld
      · left
        rw [hUpdated, hDeadline]
        exact timers_enqueueTask
      · exact .inr hOld
  | erasing key now =>
    cases hStep
    exact clientEffect_map hTask .idle trivial (List.nil_subset _)
      (fun _ _ _ hLookup _ => .inr (Table.lookup_erase_some hLookup)) nofun
  | unlinking key now =>
    cases hStep
    refine clientEffect_map hTask _ (by split_ifs <;> trivial) (List.nil_subset _) ?_ nofun
    exact hUnlinked fun hUpdated => by simp [hUpdated, Task.timers]
  | unlinkingBatch now keys items =>
    cases keys with
    | cons key keys =>
      cases hStep
      refine clientEffect_map hTask (.unlinkingBatch now keys _) hSound ?_ ?_ nofun
      · split_ifs
        · exact List.subset_append_left _ _
        · exact List.Subset.refl _
      · exact hUnlinked fun hUpdated => by simp [hUpdated, Task.timers]
    | nil =>
      cases hStep
      split_ifs with hItems
      · exact clientEffect_setTask hTask _ trivial (by simp [Task.timers, hItems]) nofun
      · exact clientEffect_send hTask .idle trivial _ (Nat.le_refl s.nextDone) nofun
          (List.Subset.refl _) nofun
  | looking key now =>
    dsimp only at hStep
    repeat' split at hStep
    all_goals cases hStep
    next hDue => exact clientEffect_setTask hTask _ ⟨hDue, hSound⟩ (List.nil_subset _) fun _ => rfl
    all_goals exact clientEffect_setTask hTask _ trivial (List.nil_subset _) fun _ => rfl
  | removingExpired key expiredAt now =>
    cases hStep
    exact clientEffect_map hTask .idle trivial (List.nil_subset _)
      (fun _ _ _ hLookup _ => .inr (Table.lookup_removeIfCurrent_some hLookup))
      fun _ => ⟨rfl, fun _ _ hBefore hAfter => Table.expired_of_removed hBefore hAfter hSound.2⟩
  | awaiting done =>
    dsimp only at hStep
    split_ifs at hStep
    cases hStep
    exact clientEffect_setTask hTask _ trivial (List.nil_subset _) fun _ => rfl

/-! The worker never writes an entry. It drops a timer only after a `compute` for it. -/

/-- The ways a worker action can move commands and answers: nothing moves, the
answer in hand is given, a command is taken in hand, or a query is answered at once. -/
inductive Moves (s s' : System K V) : Prop where
  | stays (channel : s'.channel = s.channel) (worker : s'.worker.token = s.worker.token)
      (replies : s'.replies = s.replies)
  | answers (done : Nat) (channel : s'.channel = s.channel) (before : s.worker.token = some done)
      (worker : s'.worker = .idle) (replies : s'.replies = ⟨done, none⟩ :: s.replies)
  | takes (command : ExpireCommand K) (next : AfterAdvance K) (idle : s.worker = .idle)
      (channel : s.channel = command :: s'.channel) (worker : s'.worker = .advancing next)
      (token : next.token = command.token) (replies : s'.replies = s.replies)
  | queries (now done : Nat) (expired : Bool) (idle : s.worker = .idle)
      (channel : s.channel = .hasExpiredByLocalClock now done :: s'.channel)
      (worker : s'.worker = .idle) (replies : s'.replies = ⟨done, some expired⟩ :: s.replies)

/-- The wheel's time moves only when a command begins with an advance. -/
structure WorkerEffect (s s' : System K V) : Prop where
  clock : s'.clock = s.clock
  tasks : s'.tasks = s.tasks
  nextDone : s'.nextDone = s.nextDone
  moves : Moves s s'
  placed : s'.wheel.Placed
  current : s'.wheel.current = s.clock ∨
    (∀ next, s.worker ≠ .advancing next) ∧ s'.wheel.current = s.wheel.current
  started : s'.worker ≠ .starting
  sound : s'.worker.Sound s'.wheel.current s.clock
  entries : ∀ key entry, s'.map.lookup key = some entry → s.map.lookup key = some entry
  removes : ∀ key entry, s.map.lookup key = some entry → s'.map.lookup key ≠ some entry →
    entry.expired s.clock = true
  keeps : ∀ timer, s.Held timer → s'.Held timer ∨
    ∀ entry, s'.map.lookup timer.key = some entry → entry.expireAt ≠ some timer.expireAt
  brings : ∀ timer ∈ s'.worker.timers, timer ∈ s.worker.timers ∨
    timer ∈ s.channel.flatMap ExpireCommand.timers ∨
    timer ∈ s.wheel.pending ∧ timer.expireAt ≤ s.clock

theorem WorkerEffect.invariant (effect : WorkerEffect s s') (hInv : s.Invariant) :
    s'.Invariant where
  armed := by
    intro key entry expireAt hLookup hDeadline
    rcases hInv.armed key entry expireAt (effect.entries key entry hLookup)
      hDeadline with hHeld | hTask
    · exact .inl ((effect.keeps _ hHeld).resolve_right fun hNone => hNone entry hLookup hDeadline)
    · exact .inr (by rwa [effect.tasks])
  placed := effect.placed
  current := by
    rw [effect.clock]
    exact effect.current.elim Eq.le fun hSame => hSame.2.le.trans hInv.current
  fresh := fun h => absurd h effect.started
  worker := by rw [effect.clock]; exact effect.sound
  tasks := by rw [effect.clock, effect.tasks]; exact hInv.tasks
  asked := by
    have hAsked := hInv.asked
    rw [effect.nextDone]
    cases effect.moves with
    | stays channel | answers _ channel => rwa [channel]
    | takes _ _ _ channel | queries _ _ _ _ channel =>
      rw [channel] at hAsked
      exact (List.forall_mem_cons.mp hAsked).2
  handled := by
    rw [effect.nextDone]
    cases effect.moves with
    | stays _ worker => rw [worker]; exact hInv.handled
    | answers _ _ _ worker | queries _ _ _ _ _ worker => rw [worker]; simp [WorkerState.token]
    | takes command next _ channel worker token =>
      rw [worker]
      exact fun done hToken => hInv.asked command (by simp [channel]) done (token ▸ hToken)
  answered := by
    rw [effect.nextDone]
    cases effect.moves with
    | stays _ _ replies | takes _ _ _ _ _ _ replies => rw [replies]; exact hInv.answered
    | answers done _ before _ replies =>
      rw [replies]
      exact List.forall_mem_cons.mpr ⟨hInv.handled done before, hInv.answered⟩
    | queries _ done _ _ channel _ replies =>
      rw [replies]
      exact List.forall_mem_cons.mpr
        ⟨hInv.asked _ (by rw [channel]; exact List.mem_cons_self ..) done rfl, hInv.answered⟩

section

variable {old : WorkerState K} (hInv : s.Invariant) (hWorker : s.worker = old)

include hInv hWorker

/-- A worker action that keeps the wheel and the map: the timers in its hands may
come from the channel. -/
theorem workerEffect_move {channel : List (ExpireCommand K)} {replies : List Reply}
    (hAdvancing : ∀ next, old ≠ .advancing next) (hStarted : worker ≠ .starting)
    (hSound : worker.Sound s.wheel.current s.clock) (hTimers : ∀ timer, timer ∈ s.channel.flatMap
      ExpireCommand.timers ∨ timer ∈ old.timers ↔ timer ∈ channel.flatMap ExpireCommand.timers ∨
      timer ∈ worker.timers)
    (hMoves : Moves s { s with channel := channel, worker := worker, replies := replies }) :
    WorkerEffect s { s with channel := channel, worker := worker, replies := replies } where
  clock := rfl
  tasks := rfl
  nextDone := rfl
  moves := hMoves
  placed := hInv.placed
  current := .inr ⟨hWorker ▸ hAdvancing, rfl⟩
  started := hStarted
  sound := hSound
  entries := fun _ _ h => h
  removes := fun _ _ hBefore hAfter => absurd hBefore hAfter
  keeps := fun timer h => .inl (h.imp_right fun h => (hTimers timer).mp (hWorker ▸ h))
  brings := by
    intro timer h
    rcases (hTimers timer).mpr (.inr h) with hChannel | hOld
    · exact .inr (.inl hChannel)
    · exact .inl (hWorker ▸ hOld)

theorem workerEffect_stay (hAdvancing : ∀ next, old ≠ .advancing next)
    (hStarted : worker ≠ .starting) (hSound : worker.Sound s.wheel.current s.clock)
    (hTimers : old.timers = worker.timers) (hToken : worker.token = old.token) :
    WorkerEffect s { s with worker := worker } :=
  workerEffect_move hInv hWorker hAdvancing hStarted hSound (fun _ => by rw [hTimers])
    (.stays rfl (hWorker ▸ hToken) rfl)

/-- The callback, from either of its two callers: the timer in hand is done with. -/
theorem workerEffect_remove {item : TimerItem K} {now : Nat}
    (hAdvancing : ∀ next, old ≠ .advancing next) (hStarted : worker ≠ .starting)
    (hSound : worker.Sound s.wheel.current s.clock) (hDue : item.expireAt ≤ now)
    (hNow : now ≤ s.clock) (hTimers : old.timers = item :: worker.timers)
    (hToken : worker.token = old.token) :
    WorkerEffect s { s with
      map := s.map.removeIfCurrent item.key item.expireAt now, worker := worker } where
  clock := rfl
  tasks := rfl
  nextDone := rfl
  moves := .stays rfl (hWorker ▸ hToken) rfl
  placed := hInv.placed
  current := .inr ⟨hWorker ▸ hAdvancing, rfl⟩
  started := hStarted
  sound := hSound
  entries := fun _ _ h => Table.lookup_removeIfCurrent_some h
  removes := fun _ _ hBefore hAfter => Table.expired_of_removed hBefore hAfter hNow
  keeps := by
    rintro timer (h | h | h)
    · exact .inl (.inl h)
    · exact .inl (.inr (.inl h))
    · rw [hWorker, hTimers] at h
      rcases List.mem_cons.mp h with rfl | h
      · exact .inr fun entry hLookup => (Table.lookup_removeIfCurrent hDue hLookup).2
      · exact .inl (.inr (.inr h))
  brings := fun timer h => .inl (by rw [hWorker, hTimers]; exact List.mem_cons_of_mem _ h)

end

theorem workerStep_effect (hInv : s.Invariant) (hStep : s.workerStep = some s') :
    WorkerEffect s s' := by
  have hSound := hInv.worker
  unfold workerStep at hStep
  generalize hWorker : s.worker = worker at hStep hSound
  cases worker with
  | starting =>
    cases hStep
    refine ⟨rfl, rfl, rfl, .stays rfl (by rw [hWorker]; rfl) rfl,
      HierarchicalTimeWheel.placed_new _,
      .inl rfl, by simp, trivial, fun _ _ h => h, fun _ _ h hGone => absurd h hGone,
        ?_, by simp [WorkerState.timers]⟩
    rintro timer (h | h | h)
    · rw [hInv.fresh hWorker] at h
      simp [HierarchicalTimeWheel.pending, HierarchicalTimeWheel.new,
        Library.Buckets.contents_empty] at h
    · exact .inl (.inr (.inl h))
    · rw [hWorker] at h
      cases h
  | idle =>
    dsimp only at hStep
    split at hStep
    · cases hStep
    next command rest hChannel =>
      cases hStep
      have hTaken (worker : WorkerState K) (hTimers : worker.timers = command.timers)
          (timer : TimerItem K) :
          timer ∈ s.channel.flatMap ExpireCommand.timers ∨
            timer ∈ (WorkerState.idle : WorkerState K).timers ↔
              timer ∈ rest.flatMap ExpireCommand.timers ∨ timer ∈ worker.timers := by
        rw [hChannel, hTimers, List.flatMap_cons, List.mem_append,
          or_comm (a := timer ∈ command.timers)]
        exact or_iff_left List.not_mem_nil
      cases command with
      | schedule key expireAt | scheduleBatch items | advance | advanceAndWait done =>
        exact workerEffect_move hInv hWorker (by simp) (by simp) trivial (hTaken _ rfl)
          (.takes _ _ hWorker hChannel rfl rfl rfl)
      | hasExpiredByLocalClock now done =>
        exact workerEffect_move hInv hWorker (by simp) (by simp) trivial (hTaken _ rfl)
          (.queries now done _ hWorker hChannel rfl rfl)
  | advancing next =>
    cases hStep
    have hAdvance := HierarchicalTimeWheel.advanceTo_advances hInv.placed s.clock
    rw [Nat.max_eq_right hInv.current] at hAdvance
    have hExpired (timer : TimerItem K) : timer ∈ (s.wheel.advanceTo s.clock).1 ↔
        timer ∈ s.wheel.pending ∧ timer.expireAt ≤ s.clock := by
      rw [← Multiset.mem_coe, hAdvance.expired, Multiset.mem_filter]
    refine ⟨rfl, rfl, rfl, .stays rfl (by rw [hWorker]; rfl) rfl, hAdvance.placed,
      .inl hAdvance.current, by simp, fun item hItem => ((hExpired item).mp hItem).2,
      fun _ _ h => h, fun _ _ h hGone => absurd h hGone, ?_, fun timer hTimer => ?_⟩
    · rintro timer (h | h | h)
      · by_cases hDue : timer.expireAt ≤ s.clock
        · exact .inl (.inr (.inr (List.mem_append_left _ ((hExpired timer).mpr ⟨h, hDue⟩))))
        · refine .inl (.inl ?_)
          rw [hAdvance.pending]
          exact Multiset.mem_filter.mpr ⟨h, Nat.not_le.mp hDue⟩
      · exact .inl (.inr (.inl h))
      · rw [hWorker] at h
        exact .inl (.inr (.inr (List.mem_append_right _ h)))
    · rcases List.mem_append.mp hTimer with hItem | hNext
      · exact .inr (.inr ((hExpired timer).mp hItem))
      · exact .inl (by rw [hWorker]; exact hNext)
  | expiring items next =>
    cases items with
    | nil =>
      cases hStep
      cases next with
      | nothing | place items =>
        exact workerEffect_stay hInv hWorker (by simp) (by simp) trivial rfl rfl
      | reply done =>
        exact workerEffect_move hInv hWorker (by simp) (by simp) trivial (fun _ => .rfl)
          (.answers done rfl (by rw [hWorker]; rfl) rfl rfl)
    | cons item items =>
      cases hStep
      obtain ⟨hItem, hItems⟩ := List.forall_mem_cons.mp hSound
      exact workerEffect_stay hInv hWorker (by simp)
        (by simp) ⟨hItem, Nat.le_refl _, hItems⟩ rfl rfl
  | removing item now items next =>
    cases hStep
    exact workerEffect_remove hInv hWorker (by simp)
      (by simp) hSound.2.2 hSound.1 hSound.2.1 rfl rfl
  | loading items =>
    cases hStep
    exact workerEffect_stay hInv hWorker (by simp) (by simp) ⟨hInv.current, Nat.le_refl _⟩ rfl rfl
  | placing now items =>
    cases items with
    | nil =>
      cases hStep
      exact workerEffect_stay hInv hWorker (by simp) (by simp) trivial rfl rfl
    | cons item items =>
      obtain ⟨hCurrent, hNow⟩ := hSound
      dsimp only at hStep
      split_ifs at hStep with hDue
      · cases hStep
        exact workerEffect_stay hInv hWorker (by simp) (by simp)
          ⟨hDue.trans hNow, Nat.le_refl _, hCurrent, hNow⟩ rfl rfl
      · cases hStep
        refine ⟨rfl, rfl, rfl, .stays rfl (by rw [hWorker]; rfl) rfl, hInv.placed.insert (by omega),
          .inr ⟨by simp [hWorker], by simp⟩, by simp, ⟨by simpa using hCurrent, hNow⟩,
          fun _ _ h => h, fun _ _ h hGone => absurd h hGone, ?_, fun timer h => .inl ?_⟩
        · rintro timer (h | h | h)
          · exact .inl (.inl (by simp [h]))
          · exact .inl (.inr (.inl h))
          · rw [hWorker] at h
            rcases List.mem_cons.mp h with rfl | h
            · exact .inl (.inl (by simp))
            · exact .inl (.inr (.inr h))
        · rw [hWorker]
          exact List.mem_cons_of_mem _ h
  | removingPast item loaded now items =>
    cases hStep
    exact workerEffect_remove hInv hWorker (by simp)
      (by simp) hSound.2.2 hSound.1 hSound.2.1 rfl rfl

/-! Whole runs -/

theorem callStep_effect {call : StoreCall K V} (hStep : s.step (.call thread call) = some s') :
    ∃ sent, ClientEffect s s' thread call.writes sent := by
  simp only [step] at hStep
  split at hStep
  next hTask =>
    cases hStep
    exact clientEffect_setTask hTask _ trivial (List.nil_subset _) id
  next => cases hStep

theorem step_invariant (label : Label K V) (hInv : s.Invariant) (hStep : s.step label = some s') :
    s'.Invariant := by
  cases label with
  | call thread call =>
    obtain ⟨sent, hEffect⟩ := callStep_effect hStep
    exact hEffect.invariant hInv
  | client thread =>
    obtain ⟨sent, hEffect⟩ := clientStep_effect rfl (hInv.tasks thread) hStep
    exact hEffect.invariant hInv
  | worker => exact (workerStep_effect hInv hStep).invariant hInv
  | tick clock =>
    simp only [step] at hStep
    split_ifs at hStep with hLe
    cases hStep
    exact { hInv with
      current := hInv.current.trans hLe
      worker := hInv.worker.mono hLe
      tasks := fun thread => (hInv.tasks thread).mono hLe }

theorem reachable_invariant {clock : Nat} (h : Library.Reachable step (new clock) s) :
    s.Invariant :=
  h.invariant Invariant (invariant_new clock) fun _ label _ => step_invariant label

end System

end CacheCat.Mocha
