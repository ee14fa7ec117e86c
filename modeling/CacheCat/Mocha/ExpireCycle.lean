import CacheCat.Mocha.Expiry

/-! One blocking expiry cycle. The request travels through the channel behind all
timers sent before it, so when it is answered and nothing has written meanwhile,
no timer is left outside the wheel and the wheel stands at the clock. -/
namespace CacheCat.Mocha

variable {K V : Type}

/-- Labels without a writer: no new writing call and no move of the clock, which
only an applied write makes. -/
def Label.Quiet : Label K V → Prop
  | .call _ operation => operation.writes = false
  | .client _ | .worker => True
  | .tick _ => False

namespace System

variable {s s' : System K V} {timer : TimerItem K}

theorem timers_of_not_writes {task : Task K V} (h : task.writes = false) : task.timers = [] := by
  cases task <;> first | rfl | cases h

/-- How far the cycle that is answered on `done` has come, when nothing writes
after it was requested at clock `now`. -/
inductive Phase (s : System K V) (done now : Nat) : Prop where
  | queued (before after : List (ExpireCommand K))
      (channel : s.channel = before ++ .advanceAndWait done :: after)
      (ahead : ∀ command ∈ before, command.token ≠ some done)
      (behind : ∀ command ∈ after, command.token ≠ some done ∧ command.timers = [])
      (worker : s.worker.token ≠ some done) (unanswered : ∀ reply ∈ s.replies, reply.done ≠ done)
  | handled (channel : ∀ command ∈ s.channel, command.token ≠ some done ∧ command.timers = [])
      (worker : s.worker.token = some done) (unanswered : ∀ reply ∈ s.replies, reply.done ≠ done)
      (current : (∃ next, s.worker = .advancing next) ∨ s.wheel.current = now)
  | answered (channel : ∀ command ∈ s.channel, command.timers = [])
      (worker : s.worker.timers = []) (current : s.wheel.current = now)

structure Cycle (s : System K V) (done now : Nat) : Prop where
  clock : s.clock = now
  quiet : ∀ thread, (s.tasks thread).writes = false
  issued : done < s.nextDone
  phase : s.Phase done now

variable [DecidableEq K] {done now : Nat}

/-- A client action outside a write starts no write. -/
theorem ClientEffect.reads {thread : Nat} {sent : List (ExpireCommand K)}
    (effect : ClientEffect s s' thread false sent)
    (hQuiet : ∀ other, (s.tasks other).writes = false)
    (other : Nat) : (s'.tasks other).writes = false := by
  by_cases hOther : other = thread
  · rw [hOther]
    exact (effect.quiet rfl).1
  · rw [effect.others other hOther]
    exact hQuiet other

/-- A command sent later sits behind the request and carries no timer. -/
theorem Phase.send {thread : Nat} {sent : List (ExpireCommand K)} (h : s.Phase done now)
    (hIssued : done < s.nextDone) (effect : ClientEffect s s' thread false sent) :
    s'.Phase done now := by
  have hTimers := (effect.quiet rfl).2
  have hSent : ∀ command ∈ sent, command.token ≠ some done ∧ command.timers = [] := by
    intro command hCommand
    refine ⟨fun hToken => ?_, hTimers command hCommand⟩
    exact absurd hIssued (Nat.not_lt.mpr (effect.tokens command hCommand done hToken).1)
  cases h with
  | queued before after channel ahead behind worker unanswered =>
    refine .queued before (after ++ sent) (by rw [effect.channel, channel]; simp) ahead ?_
      (by rwa [effect.worker]) (by rwa [effect.replies])
    exact List.forall_mem_append.mpr ⟨behind, hSent⟩
  | handled channel worker unanswered current =>
    refine .handled ?_ (by rwa [effect.worker]) (by rwa [effect.replies])
      (by rwa [effect.worker, effect.wheel])
    rw [effect.channel]
    exact List.forall_mem_append.mpr ⟨channel, hSent⟩
  | answered channel worker current =>
    refine .answered ?_ (by rwa [effect.worker]) (by rwa [effect.wheel])
    rw [effect.channel]
    exact List.forall_mem_append.mpr ⟨channel, hTimers⟩

/-- With the wheel at the clock and no timer in the channel, none appears. -/
theorem WorkerEffect.timers (effect : WorkerEffect s s') (hInv : s.Invariant)
    (hWorker : s.worker.timers = []) (hChannel : ∀ command ∈ s.channel, command.timers = [])
    (hCurrent : s.wheel.current = s.clock) : s'.worker.timers = [] := by
  refine List.eq_nil_iff_forall_not_mem.mpr fun timer hTimer => ?_
  rcases effect.brings timer hTimer with h | h | ⟨h, hDue⟩
  · rw [hWorker] at h
    cases h
  · obtain ⟨command, hCommand, hTimer⟩ := List.mem_flatMap.mp h
    rw [hChannel command hCommand] at hTimer
    cases hTimer
  · have hAhead := hInv.placed.current_lt h
    omega

theorem Phase.workerStep (h : s.Phase done now) (hInv : s.Invariant) (hClock : s.clock = now)
    (effect : WorkerEffect s s') : s'.Phase done now := by
  cases h with
  | queued before after channel ahead behind worker unanswered =>
    cases effect.moves with
    | stays channel' worker' replies =>
      exact .queued before after (channel'.trans channel) ahead behind (by rwa [worker'])
        (by rwa [replies])
    | answers other channel' hOther worker' replies =>
      refine .queued before after (channel'.trans channel) ahead behind
        (by rw [worker']; simp [WorkerState.token]) ?_
      rw [replies]
      refine List.forall_mem_cons.mpr ⟨fun hEq => worker ?_, unanswered⟩
      rw [hOther, ← hEq]
    | takes command next idle channel' worker' token replies =>
      rw [channel] at channel'
      cases before with
      | nil =>
        obtain ⟨rfl, rfl⟩ := List.cons.inj channel'
        exact .handled behind (by rw [worker']; exact token) (by rwa [replies])
          (Or.inl ⟨next, worker'⟩)
      | cons first before =>
        obtain ⟨rfl, hRest⟩ := List.cons.inj channel'
        obtain ⟨hFirst, hAhead⟩ := List.forall_mem_cons.mp ahead
        exact .queued before after hRest.symm hAhead behind
          (by rw [worker']; exact fun hToken => hFirst (token ▸ hToken)) (by rwa [replies])
    | queries time other expired idle channel' worker' replies =>
      rw [channel] at channel'
      cases before with
      | nil => cases channel'
      | cons first before =>
        obtain ⟨rfl, hRest⟩ := List.cons.inj channel'
        obtain ⟨hFirst, hAhead⟩ := List.forall_mem_cons.mp ahead
        refine .queued before after hRest.symm hAhead behind
          (by rw [worker']; simp [WorkerState.token]) ?_
        rw [replies]
        exact List.forall_mem_cons.mpr
          ⟨fun hEq => hFirst (congrArg some hEq), unanswered⟩
  | handled channel worker unanswered current =>
    have hBusy : s.worker ≠ .idle := by rintro hIdle; rw [hIdle] at worker; cases worker
    have hCurrent : s'.wheel.current = now := by
      rcases effect.current with h | ⟨hNot, h⟩
      · exact h.trans hClock
      · exact h.trans (current.resolve_left (not_exists.mpr hNot))
    cases effect.moves with
    | stays channel' worker' replies =>
      exact .handled (by rwa [channel']) (by rwa [worker']) (by rwa [replies]) (Or.inr hCurrent)
    | answers other channel' hOther worker' replies =>
      exact .answered (by rw [channel']; exact fun command h => (channel command h).2)
        (by rw [worker']; rfl) hCurrent
    | takes command next idle | queries time other expired idle => exact absurd idle hBusy
  | answered channel worker current =>
    have hCurrent : s'.wheel.current = now := by
      rcases effect.current with h | ⟨-, h⟩
      · exact h.trans hClock
      · exact h.trans current
    refine .answered ?_ (effect.timers hInv worker channel (current.trans hClock.symm)) hCurrent
    cases effect.moves with
    | stays channel' | answers other channel' => rwa [channel']
    | takes command next idle channel' | queries time other expired idle channel' =>
      rw [channel'] at channel
      exact (List.forall_mem_cons.mp channel).2

theorem Cycle.send {thread : Nat} {sent : List (ExpireCommand K)} (h : s.Cycle done now)
    (effect : ClientEffect s s' thread false sent) : s'.Cycle done now where
  clock := effect.clock.trans h.clock
  quiet := effect.reads h.quiet
  issued := h.issued.trans_le effect.nextDone
  phase := h.phase.send h.issued effect

/-- The invariant of the store together with the progress of one cycle. -/
def InCycle (done now : Nat) (s : System K V) : Prop :=
  s.Invariant ∧ s.Cycle done now

theorem step_inCycle (label : Label K V) (hLabel : label.Quiet) (h : s.InCycle done now)
    (hStep : s.step label = some s') : s'.InCycle done now := by
  obtain ⟨hInv, hCycle⟩ := h
  refine ⟨step_invariant label hInv hStep, ?_⟩
  cases label with
  | call thread call =>
    obtain ⟨sent, hEffect⟩ := callStep_effect hStep
    exact hCycle.send (hLabel ▸ hEffect)
  | client thread =>
    obtain ⟨sent, hEffect⟩ := clientStep_effect rfl (hInv.tasks thread) hStep
    exact hCycle.send (hCycle.quiet thread ▸ hEffect)
  | worker =>
    have hEffect := workerStep_effect hInv hStep
    exact ⟨hEffect.clock.trans hCycle.clock, by rw [hEffect.tasks]; exact hCycle.quiet,
      by rw [hEffect.nextDone]; exact hCycle.issued,
        hCycle.phase.workerStep hInv hCycle.clock hEffect⟩
  | tick clock => exact absurd hLabel id

/-- When the answer is there, every timer left is in the wheel, ahead of the clock. -/
theorem InCycle.no_expired (h : s.InCycle done now)
    (hReply : s.replies.any (·.done = done) = true) {key : K} {entry : EntrySnapshot V}
    (hLookup : s.map.lookup key = some entry) : entry.expired s.clock = false := by
  obtain ⟨hInv, hCycle⟩ := h
  have hAnswered : ∃ reply ∈ s.replies, reply.done = done := by simpa using hReply
  obtain ⟨reply, hMem, hDone⟩ := hAnswered
  cases hCycle.phase with
  | queued _ _ _ _ _ _ unanswered | handled _ _ unanswered =>
    exact absurd hDone (unanswered reply hMem)
  | answered channel worker current =>
    by_contra hExpired
    obtain ⟨expireAt, hDeadline, hDue⟩ : ∃ expireAt, entry.expireAt = some expireAt ∧
        expireAt ≤ s.clock := by
      simpa [EntrySnapshot.expired, Option.any_eq_true] using hExpired
    rcases hInv.armed key entry expireAt hLookup hDeadline with (h | h | h) | ⟨thread, h⟩
    · have hAhead := hInv.placed.current_lt h
      rw [current, ← hCycle.clock] at hAhead
      exact absurd hDue (Nat.not_le.mpr hAhead)
    · obtain ⟨command, hCommand, hTimer⟩ := List.mem_flatMap.mp h
      rw [channel command hCommand] at hTimer
      cases hTimer
    · rw [worker] at h
      cases h
    · rw [timers_of_not_writes (hCycle.quiet thread)] at h
      cases h

/-- In every run, the worker and lazy reads remove only entries whose current
deadline the clock has reached, and a blocking expiry cycle that nothing writes
into leaves no expired entry behind when it returns. -/
theorem expiry_sound_and_complete {clock : Nat} {s : System K V}
    (hReach : Library.Reachable step (new clock) s) :
    (∀ label s' key entry, s.step label = some s' →
      (label = .worker ∨ ∃ thread, label = .client thread ∧ (s.tasks thread).writes = false) →
      s.map.lookup key = some entry → s'.map.lookup key ≠ some entry →
      ∃ expireAt, entry.expireAt = some expireAt ∧ expireAt ≤ s.clock) ∧
    (∀ thread labels requested waiting returned,
      s.tasks thread = .called .activeExpireCycleBlocking →
      (∀ thread, (s.tasks thread).writes = false) →
      s.step (.client thread) = some requested →
      (∀ label ∈ labels, label.Quiet) → Library.run step requested labels = some waiting →
      waiting.tasks thread = .awaiting s.nextDone →
      waiting.step (.client thread) = some returned →
      ∀ key entry, returned.map.lookup key = some entry →
        ∀ expireAt, entry.expireAt = some expireAt → returned.clock < expireAt) := by
  have hInv := reachable_invariant hReach
  constructor
  · intro label s' key entry hStep hLabel hBefore hAfter
    have hExpired : entry.expired s.clock = true := by
      rcases hLabel with rfl | ⟨thread, rfl, hTask⟩
      · exact (workerStep_effect hInv hStep).removes key entry hBefore hAfter
      · obtain ⟨sent, hEffect⟩ := clientStep_effect rfl (hInv.tasks thread) hStep
        exact hEffect.removes hTask key entry hBefore hAfter
    simpa [EntrySnapshot.expired, Option.any_eq_true] using hExpired
  · intro thread labels requested waiting returned hCall hQuiet hRequest hLabels hRun hWaiting
      hReturn key entry hLookup expireAt hDeadline
    have hStart : requested.InCycle s.nextDone s.clock := by
      refine ⟨step_invariant _ hInv hRequest, ?_⟩
      obtain ⟨sent, hEffect⟩ := clientStep_effect rfl (hInv.tasks thread) hRequest
      have hTasks := (hQuiet thread ▸ hEffect).reads hQuiet
      simp only [step, clientStep, hCall] at hRequest
      obtain rfl := Option.some.inj hRequest
      exact ⟨rfl, hTasks, Nat.lt_succ_self _,
        .queued s.channel [] rfl
          (fun command hCommand hToken =>
            absurd (hInv.asked command hCommand _ hToken) (Nat.lt_irrefl _))
          (by simp) (fun hToken => absurd (hInv.handled _ hToken) (Nat.lt_irrefl _))
          (fun reply hReply hDone =>
            absurd (hDone ▸ hInv.answered reply hReply) (Nat.lt_irrefl _))⟩
    have hEnd : waiting.InCycle s.nextDone s.clock :=
      Library.run_invariant Label.Quiet (InCycle s.nextDone s.clock)
        (fun _ label _ hLabel h => step_inCycle label hLabel h) hRun hLabels hStart
    simp only [step, clientStep, hWaiting] at hReturn
    split_ifs at hReturn with hReply
    obtain rfl := Option.some.inj hReturn
    have hLive : entry.expired waiting.clock = false := hEnd.no_expired hReply hLookup
    change waiting.clock < expireAt
    simpa [EntrySnapshot.expired, hDeadline] using hLive

/-- Writes with deadlines 2 and 9 are on their way to the wheel when an expiry cycle is
called at clock 3. -/
def cycleSchedule : List (Label Nat Nat) :=
  [.call 0 (.insertEntry 7 70 (.absolute 2)), .client 0, .client 0, .client 0,
    .call 0 (.insertEntry 8 80 (.absolute 9)), .client 0, .client 0, .client 0, .tick 3,
    .call 1 .activeExpireCycleBlocking]

def cycleStart : System Nat Nat :=
  (Library.run step (new 0) cycleSchedule).get (by decide +kernel)

def cycleRequested : System Nat Nat :=
  (cycleStart.step (.client 1)).get (by decide +kernel)

def cycleWaiting : System Nat Nat :=
  (Library.run step cycleRequested (List.replicate 17 .worker)).get (by decide +kernel)

/-- The cycle removes the first entry and keeps the second. -/
theorem expiry_sound_and_complete_cycle :
    ∃ returned, cycleWaiting.step (.client 1) = some returned ∧
      (cycleStart.map.lookup 7).isSome ∧ returned.map.lookup 7 = none ∧
      (returned.map.lookup 8).isSome ∧
      ∀ key entry, returned.map.lookup key = some entry →
        ∀ expireAt, entry.expireAt = some expireAt → returned.clock < expireAt := by
  have hStart : Library.Reachable step (new 0) cycleStart :=
    ⟨cycleSchedule, (Option.some_get _).symm⟩
  have hReturn : (cycleWaiting.step (.client 1)).any fun returned =>
      (returned.map.lookup 7).isNone && (returned.map.lookup 8).isSome := by
    decide +kernel
  simp only [Option.any_eq_true, Bool.and_eq_true, Option.isNone_iff_eq_none] at hReturn
  obtain ⟨returned, hReturned, hFirst, hSecond⟩ := hReturn
  have hQuiet : ∀ thread, (cycleStart.tasks thread).writes = false := by
    intro thread
    match thread with
    | 0 => rfl
    | 1 => rfl
    | thread + 2 => rfl
  refine ⟨returned, hReturned, by decide +kernel, hFirst, hSecond, ?_⟩
  exact (expiry_sound_and_complete hStart).2 1 (List.replicate 17 .worker)
    cycleRequested cycleWaiting returned (by decide +kernel) hQuiet (Option.some_get _).symm
    (by simp [Label.Quiet]) (Option.some_get _).symm (by decide +kernel) hReturned

end System

end CacheCat.Mocha
