import CacheCat.Library.Contract
import CacheCat.Library.Run

/-! Programs that run side by side on one state. Each worker runs its jobs one after the
other, and between any two queries of one worker the others may ask theirs. If a worker's
view of the state is changed by nobody else, its programs can be verified as if they ran
alone. -/
namespace Library

structure Pool (State Worker Job Query : Type) (Answer : Query → Type) (Result : Type) where
  state : State
  running : Worker → Option (Job × Program Query Answer Result)
  finished : List (Worker × Job × Result)

namespace Pool

/-- The choice resolves what the surroundings decide about the answer. -/
inductive Label (Worker Job Choice : Type)
  | start (worker : Worker) (job : Job)
  | advance (worker : Worker) (choice : Choice)

variable {State Worker Job Choice Query View : Type} {Answer : Query → Type} {Result : Type}

def new (s : State) : Pool State Worker Job Query Answer Result := ⟨s, fun _ => none, []⟩

variable [DecidableEq Worker]
    (handle : Choice → State → (query : Query) → Option (State × Answer query))
      (program : Worker → Job → Program Query Answer Result)

/-- The jobs that a worker has finished, with their results. -/
def past (pool : Pool State Worker Job Query Answer Result) (worker : Worker) :
    List (Job × Result) :=
  (pool.finished.filter (·.1 = worker)).map Prod.snd

def step (pool : Pool State Worker Job Query Answer Result) :
    Label Worker Job Choice → Option (Pool State Worker Job Query Answer Result)
  | .start worker job =>
    match pool.running worker with
    | some _ => none
    | none =>
      some { pool with
        running := Function.update pool.running worker (some (job, program worker job)) }
  | .advance worker choice =>
    match pool.running worker with
    | none => none
    | some (job, .done result) =>
      some ⟨pool.state, Function.update pool.running worker none,
        pool.finished ++ [(worker, job, result)]⟩
    | some (job, .ask query next) =>
      (handle choice pool.state query).map fun after =>
        { pool with
          state := after.1
          running := Function.update pool.running worker (some (job, next after.2)) }

variable {handle program}

variable {next : Pool State Worker Job Query Answer Result}

/-- What one step does. -/
theorem step_cases {pool : Pool State Worker Job Query Answer Result}
    {label : Label Worker Job Choice} (hStep : pool.step handle program label = some next) :
    (∃ worker job, pool.running worker = none ∧
      next = { pool with
        running := Function.update pool.running worker (some (job, program worker job)) }) ∨
    (∃ worker job result, pool.running worker = some (job, .done result) ∧
      next = ⟨pool.state, Function.update pool.running worker none,
        pool.finished ++ [(worker, job, result)]⟩) ∨
    (∃ worker job query rest choice s answer, pool.running worker = some (job, .ask query rest) ∧
      handle choice pool.state query = some (s, answer) ∧
      next = { pool with
        state := s
        running := Function.update pool.running worker (some (job, rest answer)) }) := by
  cases label with
  | start worker job =>
    cases hRunning : pool.running worker with
    | some task => simp [step, hRunning] at hStep
    | none =>
      simp only [step, hRunning, Option.some.injEq] at hStep
      exact .inl ⟨worker, job, hRunning, hStep.symm⟩
  | advance worker choice =>
    match hRunning : pool.running worker with
    | none => simp [step, hRunning] at hStep
    | some (job, .done result) =>
      simp only [step, hRunning, Option.some.injEq] at hStep
      exact .inr (.inl ⟨worker, job, result, hRunning, hStep.symm⟩)
    | some (job, .ask query rest) =>
      simp only [step, hRunning, Option.map_eq_some_iff] at hStep
      obtain ⟨⟨s, answer⟩, hHandle, rfl⟩ := hStep
      exact .inr (.inr ⟨worker, job, query, rest, choice, s, answer, hRunning, hHandle, rfl⟩)

/-- The state alone: what every query keeps holds in every pool. -/
theorem state_invariant {s : State} {pool : Pool State Worker Job Query Answer Result}
    (hRun : Reachable (step handle program) (new s) pool) (Inv : State → Prop) (hInit : Inv s)
    (hHandle : ∀ choice s query t answer, Inv s →
      handle choice s query = some (t, answer) → Inv t) :
    Inv pool.state := by
  refine hRun.invariant (fun pool => Inv pool.state) hInit fun pool label next hInv hStep => ?_
  obtain ⟨worker, job, -, rfl⟩ | ⟨worker, job, result, -, rfl⟩ |
    ⟨worker, job, query, rest, choice, t, answer, -, hAnswer, rfl⟩ := step_cases hStep
  · exact hInv
  · exact hInv
  · exact hHandle choice pool.state query t answer hInv hAnswer

/-- A query of a worker acts on its view as the effect says, and shows in nobody
else's view. -/
structure Separates (handle : Choice → State → (query : Query) → Option (State × Answer query))
    (asks : Worker → Query → Prop) (view : Worker → State → View)
    (effect : Effect View Query Answer) : Prop where
  own : ∀ choice s worker query t answer, asks worker query →
    handle choice s query = some (t, answer) → effect (view worker s) query (view worker t) answer
  other : ∀ choice s worker other query t answer, asks worker query → other ≠ worker →
    handle choice s query = some (t, answer) → view other t = view other s

section

variable {asks : Worker → Query → Prop} {view : Worker → State → View}
    {effect : Effect View Query Answer} (Rel : Worker → List (Job × Result) → View → Prop)

/-- An idle worker is related to what it has done; a busy one was, and will be once the
rest of its program is through. -/
def Stands (asks : Worker → Query → Prop) (view : Worker → State → View)
    (effect : Effect View Query Answer) (pool : Pool State Worker Job Query Answer Result)
    (worker : Worker) : Prop :=
  match pool.running worker with
  | none => Rel worker (pool.past worker) (view worker pool.state)
  | some (job, rest) => (∃ before, Rel worker (pool.past worker) before) ∧ rest.Asks (asks worker) ∧
      rest.Yields effect (fun after result => Rel worker (pool.past worker ++ [(job, result)])
        after) (view worker pool.state)

variable {Rel}

variable {pool : Pool State Worker Job Query Answer Result} {worker : Worker}

theorem stands_of_idle (hIdle : pool.running worker = none) :
    pool.Stands Rel asks view effect worker ↔ Rel worker (pool.past worker)
    (view worker pool.state) := by
  rw [Stands, hIdle]

theorem stands_of_busy {job : Job} {rest : Program Query Answer Result}
    (hBusy : pool.running worker = some (job, rest)) :
    pool.Stands Rel asks view effect worker ↔
      (∃ before, Rel worker (pool.past worker) before) ∧ rest.Asks (asks worker) ∧
      rest.Yields effect (fun after result => Rel worker (pool.past worker ++ [(job, result)])
        after) (view worker pool.state) := by
  rw [Stands, hBusy]

/-- A step of somebody else. -/
theorem Stands.congr (hStands : pool.Stands Rel asks view effect worker)
    (hRunning : next.running worker = pool.running worker)
    (hPast : next.past worker = pool.past worker)
    (hView : view worker next.state = view worker pool.state) :
    next.Stands Rel asks view effect worker := by
  unfold Stands
  rw [hRunning, hPast, hView]
  exact hStands

theorem past_finish (pool : Pool State Worker Job Query Answer Result) (worker other : Worker)
    (job : Job) (result : Result) (running : Worker → Option (Job × Program Query Answer Result)) :
    past ⟨pool.state, running, pool.finished ++ [(worker, job, result)]⟩ other =
      if other = worker then pool.past worker ++ [(job, result)] else pool.past other := by
  unfold past
  split
  next hSame => simp [hSame]
  next hOther => simp [Ne.symm hOther]

theorem Stands.step (separates : Separates handle asks view effect)
    (hAsks : ∀ worker job, (program worker job).Asks (asks worker)) (hJob : ∀ worker job past view,
      Rel worker past view → (program worker job).Yields effect (fun after result => Rel worker
      (past ++ [(job, result)]) after) view) {label : Label Worker Job Choice}
    (hStep : pool.step handle program label = some next)
    (hStands : ∀ worker, pool.Stands Rel asks view effect worker) (worker : Worker) :
    next.Stands Rel asks view effect worker := by
  obtain ⟨actor, job, hIdle, rfl⟩ | ⟨actor, job, result, hDone, rfl⟩ |
    ⟨actor, job, query, rest, choice, s, answer, hBusy, hHandle, rfl⟩ := step_cases hStep
  · by_cases hActor : worker = actor
    · subst hActor
      rw [stands_of_busy (Function.update_self ..)]
      have hRel := (stands_of_idle hIdle).mp (hStands worker)
      exact ⟨⟨_, hRel⟩, hAsks worker job, hJob _ _ _ _ hRel⟩
    · exact (hStands worker).congr (Function.update_of_ne hActor _ _) rfl rfl
  · by_cases hActor : worker = actor
    · subst hActor
      rw [stands_of_idle (Function.update_self ..), past_finish, if_pos rfl]
      exact ((stands_of_busy hDone).mp (hStands worker)).2.2
    · refine (hStands worker).congr (Function.update_of_ne hActor _ _) ?_ rfl
      rw [past_finish, if_neg hActor]
  · obtain ⟨hBefore, hAllowed, hYields⟩ := (stands_of_busy hBusy).mp (hStands actor)
    by_cases hActor : worker = actor
    · subst hActor
      rw [stands_of_busy (Function.update_self ..)]
      refine ⟨hBefore, hAllowed.2 answer trivial, hYields _ answer ?_⟩
      exact separates.own choice _ _ query _ answer hAllowed.1 hHandle
    · refine (hStands worker).congr (Function.update_of_ne hActor _ _) rfl ?_
      exact separates.other choice _ _ _ query _ answer hAllowed.1 hActor hHandle

variable (Rel) in
/-- If every program, run alone, takes what is related to the jobs before it to what is
related to the jobs with it, then so it is among all the others: an idle worker's view is
related to its jobs, and a busy one's was. -/
theorem related (separates : Separates handle asks view effect)
    (hAsks : ∀ worker job, (program worker job).Asks (asks worker))
    (hJob : ∀ worker job past view, Rel worker past view → (program worker job).Yields effect
      (fun after result => Rel worker (past ++ [(job, result)]) after) view) {s : State}
    (hInit : ∀ worker, Rel worker [] (view worker s))
    (hRun : Reachable (Pool.step handle program) (new s) pool) (worker : Worker) :
    (∃ before, Rel worker (pool.past worker) before) ∧
      (pool.running worker = none → Rel worker (pool.past worker) (view worker pool.state)) := by
  have hStands : ∀ worker, pool.Stands Rel asks view effect worker := by
    refine hRun.invariant (fun pool => ∀ worker, pool.Stands Rel asks view effect worker) ?_ ?_
    · intro worker
      exact (stands_of_idle rfl).mpr (hInit worker)
    · intro pool label next hInv hStep
      exact Stands.step separates hAsks hJob hStep hInv
  cases hRunning : pool.running worker with
  | none =>
    have hRel := (stands_of_idle hRunning).mp (hStands worker)
    exact ⟨⟨_, hRel⟩, fun _ => hRel⟩
  | some task => exact ⟨((stands_of_busy hRunning).mp (hStands worker)).1, nofun⟩

end

end Pool
end Library
