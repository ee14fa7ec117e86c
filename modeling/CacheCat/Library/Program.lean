import Mathlib.Control.Monad.Basic
import Mathlib.Data.List.Forall2

/-! Programs that work by asking. A query is answered either by the state they
run on, or, when it names one of their own procedures, by a run of its body, so
that recursion needs no bound: a run is a finite derivation. Between any two
queries the surroundings may disturb the state.

Two programs are compared query by query. `Agrees` says that they ask alike
queries as long as the answers they have received agree; from it follows that
their runs keep related states related. -/
namespace Library

inductive Program (Query : Type) (Answer : Query → Type) (Result : Type) : Type
  | done (result : Result)
  | ask (query : Query) (next : Answer query → Program Query Answer Result)

variable {C : Type}

namespace Program

variable {Query : Type} {Answer : Query → Type} {A B : Type}

protected def bind : Program Query Answer A → (A → Program Query Answer B) → Program Query Answer B
  | .done result, rest => rest result
  | .ask query next, rest => .ask query fun answer => (next answer).bind rest

instance : Monad (Program Query Answer) where
  pure := .done
  bind := Program.bind

/-- The program that asks once and returns the answer. -/
def call (query : Query) : Program Query Answer (Answer query) :=
  .ask query .done

@[simp] theorem pure_eq_done (result : A) : (pure result : Program Query Answer A) = .done result :=
  rfl

@[simp] theorem done_bind (result : A) (rest : A → Program Query Answer B) :
    (.done result : Program Query Answer A) >>= rest = rest result := rfl

@[simp] theorem ask_bind (query : Query) (next : Answer query → Program Query Answer A)
    (rest : A → Program Query Answer B) :
    .ask query next >>= rest = .ask query fun answer => next answer >>= rest := rfl

theorem bind_done (program : Program Query Answer A) : program.bind .done = program := by
  induction program with
  | done result => rfl
  | ask query next ih => exact congrArg (Program.ask query) (funext ih)

theorem bind_assoc (program : Program Query Answer A) (middle : A → Program Query Answer B)
    (rest : B → Program Query Answer C) :
    (program.bind middle).bind rest = program.bind fun a => (middle a).bind rest := by
  induction program with
  | done result => rfl
  | ask query next ih => exact congrArg (Program.ask query) (funext ih)

instance : LawfulMonad (Program Query Answer) :=
  LawfulMonad.mk' _ bind_done (fun _ _ => rfl) bind_assoc

/-! ### What a program may ask and return -/

/-- As long as the answers satisfy `rely`, the program asks only what is allowed, and its
result satisfies `post`. -/
def Ensures (rely : (query : Query) → Answer query → Prop) (allowed : Query → Prop)
    (post : A → Prop) : Program Query Answer A → Prop
  | .done result => post result
  | .ask query next =>
    allowed query ∧ ∀ answer, rely query answer → (next answer).Ensures rely allowed post

abbrev Relies (rely : (query : Query) → Answer query → Prop) (allowed : Query → Prop)
    (program : Program Query Answer A) : Prop :=
  program.Ensures rely allowed fun _ => True

abbrev Returns (rely : (query : Query) → Answer query → Prop) (post : A → Prop)
    (program : Program Query Answer A) : Prop :=
  program.Ensures rely (fun _ => True) post

/-- Whatever it is answered, the program asks only what is allowed. -/
abbrev Asks (allowed : Query → Prop) (program : Program Query Answer A) : Prop :=
  program.Relies (fun _ _ => True) allowed

section

variable {allowed : Query → Prop} {post : A → Prop} {program : Program Query Answer A}

variable {rest : A → Program Query Answer B} {rely : (query : Query) → Answer query → Prop}
    {asked : List (Sigma Answer)}

theorem Ensures.bind {postRest : B → Prop} (hProgram : program.Ensures rely allowed post)
    (hRest : ∀ a, post a → (rest a).Ensures rely allowed postRest) :
    (program >>= rest).Ensures rely allowed postRest := by
  induction program with
  | done result => exact hRest result hProgram
  | ask query next ih =>
    exact ⟨hProgram.1, fun answer hAnswer => ih answer (hProgram.2 answer hAnswer)⟩

theorem Relies.bind (hProgram : program.Relies rely allowed)
    (hRest : ∀ a, (rest a).Relies rely allowed) : (program >>= rest).Relies rely allowed :=
  Ensures.bind hProgram fun a _ => hRest a

theorem Relies.mono {stronger : (query : Query) → Answer query → Prop} {wider : Query → Prop}
    (hProgram : program.Relies rely allowed) (hQuery : ∀ query, allowed query → wider query)
    (hRely : ∀ query answer, stronger query answer → rely query answer) :
    program.Relies stronger wider := by
  induction program with
  | done result => trivial
  | ask query next ih =>
    exact ⟨hQuery query hProgram.1,
      fun answer hAnswer => ih answer (hProgram.2 answer (hRely _ _ hAnswer))⟩

theorem Relies.mapM {body : C → Program Query Answer A} (hBody : ∀ x, (body x).Relies rely allowed)
    {xs : List C} : (xs.mapM body).Relies rely allowed := by
  induction xs with
  | nil =>
    trivial
  | cons x xs ih =>
    rw [List.mapM_cons]
    exact (hBody x).bind fun _ => ih.bind fun _ => trivial

theorem Relies.forM {body : C → Program Query Answer PUnit} {xs : List C}
    (hBody : ∀ x ∈ xs, (body x).Relies rely allowed) : (xs.forM body).Relies rely allowed := by
  induction xs with
  | nil => trivial
  | cons x xs ih =>
    refine (hBody x List.mem_cons_self).bind fun _ => ih fun y hMem => ?_
    exact hBody y (List.mem_cons_of_mem _ hMem)

/-- Every program returns something. -/
theorem Returns.trivial (program : Program Query Answer A) :
    program.Returns rely fun _ => True := by
  induction program with
  | done result => trivial
  | ask query next ih => exact ⟨True.intro, fun answer _ => ih answer⟩

/-- What a sequence returns is decided by its last part. -/
theorem Returns.last (program : Program Query Answer A) {postRest : B → Prop}
    (hRest : ∀ a, (rest a).Returns rely postRest) : (program >>= rest).Returns rely postRest :=
  Ensures.bind (Returns.trivial program) fun a _ => hRest a

/-- One execution of a program, with the queries it made and the answers it got. -/
inductive Transcript : Program Query Answer A → List (Sigma Answer) → A → Prop
  | done (result : A) : Transcript (.done result) [] result
  | ask {query : Query} {next : Answer query → Program Query Answer A} {answer : Answer query}
      {asked : List (Sigma Answer)} {result : A} (hRest : Transcript (next answer) asked result) :
      Transcript (.ask query next) (⟨query, answer⟩ :: asked) result

theorem Transcript.of_done {result final : A}
    (hRun : (.done result : Program Query Answer A).Transcript asked final) :
    asked = [] ∧ final = result := by
  cases hRun
  exact ⟨rfl, rfl⟩

theorem Transcript.of_ask {query : Query} {next : Answer query → Program Query Answer A} {final : A}
    (hRun : (Program.ask query next).Transcript asked final) :
    ∃ answer rest, asked = ⟨query, answer⟩ :: rest ∧ (next answer).Transcript rest final := by
  cases hRun with
  | ask hRest => exact ⟨_, _, rfl, hRest⟩

theorem Transcript.ensures {result : A} (hRun : program.Transcript asked result)
    (hAnswers : ∀ exchange ∈ asked, rely exchange.1 exchange.2)
    (hEnsures : program.Ensures rely allowed post) :
    (∀ exchange ∈ asked, allowed exchange.1) ∧ post result := by
  induction hRun with
  | done result => exact ⟨by simp, hEnsures⟩
  | ask _ ih =>
    simp only [List.mem_cons, forall_eq_or_imp] at hAnswers ⊢
    obtain ⟨hAsked, hResult⟩ := ih hAnswers.2 (hEnsures.2 _ hAnswers.1)
    exact ⟨⟨hEnsures.1, hAsked⟩, hResult⟩

end

end Program

/-- What programs run on. A query without a procedure is performed by the state;
`perform` is a relation because the surroundings choose some of the answers. -/
structure Machine (State Query : Type) (Answer : Query → Type) where
  procedure : (query : Query) → Option (Program Query Answer (Answer query))
  perform : State → (query : Query) → State → Answer query → Prop
  disturb : State → State → Prop

namespace Machine

variable {State Query : Type} {Answer : Query → Type} {A B : Type}

inductive Runs (machine : Machine State Query Answer) :
    {Result : Type} → State → Program Query Answer Result → State → Result → Prop
  | done {Result : Type} (s : State) (result : Result) : Runs machine s (.done result) s result
  | disturb {Result : Type} {s middle t : State} {program : Program Query Answer Result}
      {result : Result} (hDisturb : machine.disturb s middle)
      (hRest : Runs machine middle program t result) : Runs machine s program t result
  | perform {Result : Type} {s middle t : State} {query : Query} {answer : Answer query}
      {next : Answer query → Program Query Answer Result} {result : Result}
      (hQuery : machine.procedure query = none) (hPerform : machine.perform s query middle answer)
      (hRest : Runs machine middle (next answer) t result) :
      Runs machine s (.ask query next) t result
  | procedure {Result : Type} {s middle t : State} {query : Query} {answer : Answer query}
      {body : Program Query Answer (Answer query)}
      {next : Answer query → Program Query Answer Result} {result : Result}
      (hQuery : machine.procedure query = some body) (hBody : Runs machine s body middle answer)
      (hRest : Runs machine middle (next answer) t result) :
      Runs machine s (.ask query next) t result

variable {machine : Machine State Query Answer}

variable {s middle t : State} {program : Program Query Answer A} {a : A}
    {rest : A → Program Query Answer B} {rely : (query : Query) → Answer query → Prop}
    {allowed : Query → Prop} {asked : Query}

theorem Runs.bind {b : B} (hFirst : machine.Runs s program middle a)
    (hRest : machine.Runs middle (rest a) t b) : machine.Runs s (program >>= rest) t b := by
  induction hFirst with
  | done s result => exact hRest
  | disturb hDisturb _ ih => exact .disturb hDisturb (ih hRest)
  | perform hQuery hPerform _ ih => exact .perform hQuery hPerform (ih hRest)
  | procedure hQuery hBody _ _ ih => exact .procedure hQuery hBody (ih hRest)

/-- A finished run of a sequence passes through an end of its first part. -/
theorem Runs.exists_of_bind {b : B} (hRun : machine.Runs s (program >>= rest) t b) :
    ∃ middle a, machine.Runs s program middle a ∧ machine.Runs middle (rest a) t b := by
  generalize hEq : program >>= rest = whole at hRun
  induction hRun generalizing program with
  | done s result =>
    cases program with
    | done a =>
      exact ⟨s, a, .done s a, by rw [← Program.done_bind a rest, hEq]; exact .done s result⟩
    | ask query next => cases hEq
  | disturb hDisturb _ ih =>
    obtain ⟨middle, a, hFirst, hRest⟩ := ih hEq
    exact ⟨middle, a, .disturb hDisturb hFirst, hRest⟩
  | perform hQuery hPerform hNext ih =>
    cases program with
    | done a =>
      exact ⟨_, a, .done _ a, by
        rw [← Program.done_bind a rest, hEq]
        exact .perform hQuery hPerform hNext⟩
    | ask query next =>
      cases hEq
      obtain ⟨middle, a, hFirst, hRest⟩ := ih rfl
      exact ⟨middle, a, .perform hQuery hPerform hFirst, hRest⟩
  | procedure hQuery hBody hNext _ ih =>
    cases program with
    | done a =>
      exact ⟨_, a, .done _ a, by
        rw [← Program.done_bind a rest, hEq]
        exact .procedure hQuery hBody hNext⟩
    | ask query next =>
      cases hEq
      obtain ⟨middle, a, hFirst, hRest⟩ := ih rfl
      exact ⟨middle, a, .procedure hQuery hBody hFirst, hRest⟩

theorem Runs.call {query : Query} {answer : Answer query} (hQuery : machine.procedure query = none)
    (hPerform : machine.perform s query t answer) :
    machine.Runs s (Program.call query) t answer :=
  .perform hQuery hPerform (.done t answer)

/-- The surroundings may also disturb the state a run ends in. -/
theorem Runs.then_disturb (hRun : machine.Runs s program middle a)
    (hDisturb : machine.disturb middle t) :
    machine.Runs s program t a :=
  bind_pure program ▸ hRun.bind (.disturb hDisturb (.done t a))

/-- A program that is over is still disturbed. -/
theorem Runs.of_done {result : A} (hRun : machine.Runs s (.done result) t a) :
    a = result ∧ Relation.ReflTransGen machine.disturb s t := by
  generalize hEq : Program.done result = program at hRun
  induction hRun with
  | done s result => exact ⟨(Program.done.inj hEq).symm, .refl⟩
  | disturb hDisturb _ ih => exact ⟨(ih hEq).1, .head hDisturb (ih hEq).2⟩
  | perform | procedure => cases hEq

/-- A query is performed after the surroundings have disturbed the state for a
while. -/
theorem Runs.of_ask {query : Query} {next : Answer query → Program Query Answer A}
    (hQuery : machine.procedure query = none) (hRun : machine.Runs s (.ask query next) t a) :
    ∃ before middle answer, Relation.ReflTransGen machine.disturb s before ∧
      machine.perform before query middle answer ∧ machine.Runs middle (next answer) t a := by
  generalize hEq : Program.ask query next = program at hRun
  induction hRun with
  | done s result => cases hEq
  | disturb hDisturb _ ih =>
    obtain ⟨before, middle, answer, hBefore, hPerform, hRest⟩ := ih hEq
    exact ⟨before, middle, answer, .head hDisturb hBefore, hPerform, hRest⟩
  | perform _ hPerform hRest _ =>
    cases hEq
    exact ⟨_, _, _, .refl, hPerform, hRest⟩
  | procedure hBody _ _ _ _ =>
    cases hEq
    rw [hQuery] at hBody
    cases hBody

/-- The last step of a sequence only reshapes the result. -/
theorem Runs.of_bind_done {f : A → B} {b : B}
    (hRun : machine.Runs s (program >>= fun a => .done (f a)) t b) :
    ∃ a, b = f a ∧ machine.Runs s program t a := by
  obtain ⟨middle, a, hFirst, hLast⟩ := hRun.exists_of_bind
  clear hRun
  refine ⟨a, ?_⟩
  generalize hEq : (.done (f a) : Program Query Answer B) = last at hLast
  induction hLast with
  | done s result => cases hEq; exact ⟨rfl, hFirst⟩
  | disturb hDisturb _ ih => exact ih (hFirst.then_disturb hDisturb) hEq
  | perform _ _ _ _ | procedure _ _ _ _ _ => cases hEq

variable (Inv : State → Prop)

/-- A program runs to its end if all its queries are answered as it relies on. -/
theorem Runs.exists_of_relies
    (hAnswer : ∀ s query, Inv s → allowed query → machine.procedure query = none ∧
      ∃ t answer, machine.perform s query t answer ∧ rely query answer ∧ Inv t)
    (hRelies : program.Relies rely allowed) (hInv : Inv s) :
    ∃ t a, machine.Runs s program t a ∧ Inv t := by
  induction program generalizing s with
  | done result => exact ⟨s, result, .done s result, hInv⟩
  | ask query next ih =>
    obtain ⟨hQuery, middle, answer, hPerform, hRely, hMiddle⟩ := hAnswer s query hInv hRelies.1
    obtain ⟨t, a, hRest, hEnd⟩ := ih answer (hRelies.2 answer hRely) hMiddle
    exact ⟨t, a, .perform hQuery hPerform hRest, hEnd⟩

/-- What each allowed query and each disturbance keeps, a run keeps, and it returns what
the program ensures, if the answers are those that it relies on. The bodies of its
procedures ask nothing else and return such answers. -/
theorem Runs.ensures
    (hProcedure : ∀ query body, allowed query → machine.procedure query = some body →
      body.Ensures rely allowed (rely query))
    (hPerform : ∀ s query t answer, Inv s → allowed query → machine.perform s query t answer →
      rely query answer ∧ Inv t) (hDisturb : ∀ s t, Inv s → machine.disturb s t → Inv t)
    (hRun : machine.Runs s program t a) {post : A → Prop}
    (hEnsures : program.Ensures rely allowed post)
    (hInv : Inv s) : post a ∧ Inv t := by
  induction hRun with
  | done s result => exact ⟨hEnsures, hInv⟩
  | disturb h _ ih => exact ih hEnsures (hDisturb _ _ hInv h)
  | perform _ h _ ih =>
    obtain ⟨hRely, hMiddle⟩ := hPerform _ _ _ _ hInv hEnsures.1 h
    exact ih (hEnsures.2 _ hRely) hMiddle
  | procedure hQuery _ _ ihBody ih =>
    obtain ⟨hAnswer, hMiddle⟩ := ihBody (hProcedure _ _ hEnsures.1 hQuery) hInv
    exact ih (hEnsures.2 _ hAnswer) hMiddle

/-- While the program runs, in whatever number of steps, `query` is asked in state
`t`; it need not be answered. -/
inductive Reaches (machine : Machine State Query Answer) :
    {Result : Type} → State → Program Query Answer Result → State → Query → Prop
  | here {Result : Type} (s : State) (query : Query)
      (next : Answer query → Program Query Answer Result) :
      Reaches machine s (.ask query next) s query
  | disturb {Result : Type} {s middle t : State} {program : Program Query Answer Result}
      {asked : Query} (hDisturb : machine.disturb s middle)
      (hRest : Reaches machine middle program t asked) : Reaches machine s program t asked
  | perform {Result : Type} {s middle t : State} {query asked : Query} {answer : Answer query}
      {next : Answer query → Program Query Answer Result}
      (hQuery : machine.procedure query = none) (hPerform : machine.perform s query middle answer)
      (hRest : Reaches machine middle (next answer) t asked) :
      Reaches machine s (.ask query next) t asked
  | enter {Result : Type} {s t : State} {query asked : Query}
      {body : Program Query Answer (Answer query)}
      {next : Answer query → Program Query Answer Result}
      (hQuery : machine.procedure query = some body) (hBody : Reaches machine s body t asked) :
      Reaches machine s (.ask query next) t asked
  | leave {Result : Type} {s middle t : State} {query asked : Query} {answer : Answer query}
      {body : Program Query Answer (Answer query)}
      {next : Answer query → Program Query Answer Result}
      (hQuery : machine.procedure query = some body) (hBody : machine.Runs s body middle answer)
      (hRest : Reaches machine middle (next answer) t asked) :
      Reaches machine s (.ask query next) t asked

/-- If all answers given on the way satisfy `rely`, and the procedures ask only what
is allowed, then so does the whole run. -/
theorem Reaches.allowed_of_relies
    (hProcedure : ∀ query body, allowed query → machine.procedure query = some body →
      body.Relies rely allowed ∧ ∀ answer, rely query answer)
    (hReach : machine.Reaches s program t asked) (hProgram : program.Relies rely allowed)
    (hAnswers : ∀ before query after answer, allowed query →
      machine.Reaches s program before query →
      machine.perform before query after answer → rely query answer) : allowed asked := by
  induction hReach with
  | here s query next => exact hProgram.1
  | disturb hDisturb _ ih =>
    refine ih hProgram fun before query after answer hAllowed hBefore => ?_
    exact hAnswers before query after answer hAllowed (.disturb hDisturb hBefore)
  | perform hQuery hPerform _ ih =>
    have hAnswer := hAnswers _ _ _ _ hProgram.1 (.here _ _ _) hPerform
    refine ih (hProgram.2 _ hAnswer) fun before query after answer hAllowed hBefore => ?_
    exact hAnswers before query after answer hAllowed (.perform hQuery hPerform hBefore)
  | enter hQuery _ ih =>
    refine ih (hProcedure _ _ hProgram.1 hQuery).1
      fun before query after answer hAllowed hBefore => ?_
    exact hAnswers before query after answer hAllowed (.enter hQuery hBefore)
  | leave hQuery hBody _ ih =>
    refine ih (hProgram.2 _ ((hProcedure _ _ hProgram.1 hQuery).2 _))
      fun before query after answer hAllowed hBefore => ?_
    exact hAnswers before query after answer hAllowed (.leave hQuery hBody hBefore)

theorem Reaches.after_disturbs (hDisturbs : Relation.ReflTransGen machine.disturb s middle)
    (hReach : machine.Reaches middle program t asked) : machine.Reaches s program t asked := by
  induction hDisturbs using Relation.ReflTransGen.head_induction_on with
  | refl => exact hReach
  | head hDisturb _ ih => exact .disturb hDisturb ih

/-- Either the first query is meant, or one after it has been performed. -/
theorem Reaches.of_ask {query : Query} {next : Answer query → Program Query Answer A}
    (hQuery : machine.procedure query = none)
    (hReach : machine.Reaches s (.ask query next) t asked) :
    ∃ before, Relation.ReflTransGen machine.disturb s before ∧
      ((t = before ∧ asked = query) ∨ ∃ middle answer, machine.perform before query middle answer ∧
        machine.Reaches middle (next answer) t asked) := by
  generalize hEq : Program.ask query next = program at hReach
  induction hReach with
  | here s query next =>
    cases hEq
    exact ⟨s, .refl, .inl ⟨rfl, rfl⟩⟩
  | disturb hDisturb _ ih =>
    obtain ⟨before, hBefore, hRest⟩ := ih hEq
    exact ⟨before, .head hDisturb hBefore, hRest⟩
  | perform _ hPerform hRest _ =>
    cases hEq
    exact ⟨_, .refl, .inr ⟨_, _, hPerform, hRest⟩⟩
  | enter hBody _ _ | leave hBody _ _ _ =>
    cases hEq
    rw [hQuery] at hBody
    cases hBody

/-- What is asked in the first part of a sequence is asked in the sequence. -/
theorem Reaches.bind (hReach : machine.Reaches s program t asked) :
    machine.Reaches s (program >>= rest) t asked := by
  induction hReach with
  | here s query next => exact .here s query _
  | disturb hDisturb _ ih => exact .disturb hDisturb ih
  | perform hQuery hPerform _ ih => exact .perform hQuery hPerform ih
  | enter hQuery hBody _ => exact .enter hQuery hBody
  | leave hQuery hBody _ ih => exact .leave hQuery hBody ih

/-- What is asked after a finished part of a sequence is asked in the sequence. -/
theorem Runs.then_reaches (hFirst : machine.Runs s program middle a)
    (hRest : machine.Reaches middle (rest a) t asked) :
    machine.Reaches s (program >>= rest) t asked := by
  induction hFirst with
  | done s result => exact hRest
  | disturb hDisturb _ ih => exact .disturb hDisturb (ih hRest)
  | perform hQuery hPerform _ ih => exact .perform hQuery hPerform (ih hRest)
  | procedure hQuery hBody _ _ ih => exact .leave hQuery hBody (ih hRest)

/-- The same machine in a calmer world: only the exchanges and the disturbances
that are let through happen. -/
def restrict (machine : Machine State Query Answer)
    (exchange : State → (query : Query) → Answer query → Prop)
    (disturbance : State → State → Prop) : Machine State Query Answer where
  procedure := machine.procedure
  perform s query t answer := machine.perform s query t answer ∧ exchange s query answer
  disturb s t := machine.disturb s t ∧ disturbance s t

theorem Runs.of_restrict {exchange : State → (query : Query) → Answer query → Prop}
    {disturbance : State → State → Prop}
    (hRun : (machine.restrict exchange disturbance).Runs s program t a) :
    machine.Runs s program t a := by
  induction hRun with
  | done s result => exact .done s result
  | disturb hDisturb _ ih => exact .disturb hDisturb.1 ih
  | perform hQuery hPerform _ ih => exact .perform hQuery hPerform.1 ih
  | procedure hQuery _ _ ihBody ih => exact .procedure hQuery ihBody ih

/-- A run all of whose exchanges are let through. -/
theorem Runs.restrict {exchange : State → (query : Query) → Answer query → Prop}
    (hRun : machine.Runs s program t a)
    (hExchange : ∀ before query after answer, machine.Reaches s program before query →
      machine.perform before query after answer → exchange before query answer) :
    (machine.restrict exchange fun _ _ => True).Runs s program t a := by
  induction hRun with
  | done s result => exact .done s result
  | disturb hDisturb _ ih =>
    refine .disturb ⟨hDisturb, trivial⟩ (ih fun before query after answer hReach => ?_)
    exact hExchange before query after answer (.disturb hDisturb hReach)
  | perform hQuery hPerform _ ih =>
    have hFirst := hExchange _ _ _ _ (.here _ _ _) hPerform
    refine .perform hQuery ⟨hPerform, hFirst⟩ (ih fun before query after answer hReach => ?_)
    exact hExchange before query after answer (.perform hQuery hPerform hReach)
  | procedure hQuery hBody _ ihBody ih =>
    refine .procedure hQuery (ihBody fun before query after answer hReach => ?_)
      (ih fun before query after answer hReach => ?_)
    · exact hExchange before query after answer (.enter hQuery hReach)
    · exact hExchange before query after answer (.leave hQuery hBody hReach)

/-- Run a program with a handler that chooses one answer to each query; `fuel`
bounds the depth. -/
def interpret (machine : Machine State Query Answer)
    (handle : State → (query : Query) → Option (State × Answer query)) :
    Nat → {Result : Type} → State → Program Query Answer Result → Option (State × Result)
  | 0, _, _, _ => none
  | _ + 1, _, s, .done result => some (s, result)
  | fuel + 1, _, s, .ask query next =>
    (match machine.procedure query with
      | none => handle s query
      | some body => machine.interpret handle fuel s body).bind fun after =>
    machine.interpret handle fuel after.1 (next after.2)

/-- What the interpreter computes is a run without disturbances. -/
theorem runs_of_interpret {handle : State → (query : Query) → Option (State × Answer query)}
    (hHandle : ∀ s query t answer, handle s query = some (t, answer) →
      machine.perform s query t answer) {fuel : Nat}
    (hRun : machine.interpret handle fuel s program = some (t, a)) :
    machine.Runs s program t a := by
  induction fuel generalizing A s t with
  | zero => cases hRun
  | succ fuel ih =>
    cases program with
    | done result =>
      cases hRun
      exact .done _ _
    | ask query next =>
      rw [interpret, Option.bind_eq_some_iff] at hRun
      obtain ⟨after, hFirst, hRest⟩ := hRun
      cases hQuery : machine.procedure query with
      | none =>
        rw [hQuery] at hFirst
        exact .perform hQuery (hHandle _ _ _ _ hFirst) (ih hRest)
      | some body =>
        rw [hQuery] at hFirst
        exact .procedure hQuery (ih hFirst) (ih hRest)

/-- Programs run one after the other, with the state and the result after each. -/
inductive Unfolds (machine : Machine State Query Answer) {Label : Type}
    (program : Label → Program Query Answer A) :
    State → List Label → List (Label × State × A) → Prop
  | nil (s : State) : Unfolds machine program s [] []
  | cons {s t : State} {label : Label} {a : A} {labels : List Label}
      {rest : List (Label × State × A)} (hFirst : machine.Runs s (program label) t a)
      (hRest : Unfolds machine program t labels rest) :
      Unfolds machine program s (label :: labels) ((label, t, a) :: rest)

/-- The same, computed with a handler. -/
def unfold (machine : Machine State Query Answer)
    (handle : State → (query : Query) → Option (State × Answer query)) (fuel : Nat) {Label : Type}
    (program : Label → Program Query Answer A) :
    State → List Label → Option (List (Label × State × A))
  | _, [] => some []
  | s, label :: labels =>
    (machine.interpret handle fuel s (program label)).bind fun after =>
      (machine.unfold handle fuel program after.1 labels).map ((label, after.1, after.2) :: ·)

theorem unfolds_of_unfold {handle : State → (query : Query) → Option (State × Answer query)}
    (hHandle : ∀ s query t answer, handle s query = some (t, answer) →
      machine.perform s query t answer) {fuel : Nat} {Label : Type}
    {program : Label → Program Query Answer A} {labels : List Label}
    {trace : List (Label × State × A)}
    (h : machine.unfold handle fuel program s labels = some trace) :
    machine.Unfolds program s labels trace := by
  induction labels generalizing s trace with
  | nil =>
    cases h
    exact .nil s
  | cons label labels ih =>
    rw [unfold, Option.bind_eq_some_iff] at h
    obtain ⟨after, hFirst, hRest⟩ := h
    rw [Option.map_eq_some_iff] at hRest
    obtain ⟨rest, hRest, rfl⟩ := hRest
    exact .cons (runs_of_interpret hHandle hFirst) (ih hRest)

/-- The machine answers a query, by performing it or by running its body. -/
inductive Answers (machine : Machine State Query Answer) (s : State) (query : Query) (t : State)
    (answer : Answer query) : Prop
  | perform (hQuery : machine.procedure query = none) (hPerform : machine.perform s query t answer)
  | procedure {body : Program Query Answer (Answer query)}
      (hQuery : machine.procedure query = some body) (hBody : machine.Runs s body t answer)

end Machine

/-- How two runs are compared: which states and answers count as the same, which
queries may stand opposite each other, and which may be asked on one side only. -/
structure Comparison (State Query : Type) (Answer : Query → Type) where
  states : State → State → Prop
  queries : Query → Query → Prop
  answers : (query query' : Query) → Answer query → Answer query' → Prop
  silent : Query → Prop

section

variable {State Query : Type} {Answer : Query → Type} {A B : Type}

inductive Agrees (comparison : Comparison State Query Answer) {A B : Type}
    (results : A → B → Prop) : Program Query Answer A → Program Query Answer B → Prop
  | done {a : A} {b : B} (hResults : results a b) : Agrees comparison results (.done a) (.done b)
  | ask {query query' : Query} {next : Answer query → Program Query Answer A}
      {next' : Answer query' → Program Query Answer B} (hQueries : comparison.queries query query')
      (hNext : ∀ answer answer', comparison.answers query query' answer answer' →
        Agrees comparison results (next answer) (next' answer')) :
      Agrees comparison results (.ask query next) (.ask query' next')
  | left {query : Query} {next : Answer query → Program Query Answer A}
      {program : Program Query Answer B} (hSilent : comparison.silent query)
      (hNext : ∀ answer, Agrees comparison results (next answer) program) :
      Agrees comparison results (.ask query next) program
  | right {query : Query} {next : Answer query → Program Query Answer B}
      {program : Program Query Answer A} (hSilent : comparison.silent query)
      (hNext : ∀ answer, Agrees comparison results program (next answer)) :
      Agrees comparison results program (.ask query next)

/-- The comparison is justified on a machine: each query that is performed keeps
the states related and gets agreeing answers, disturbances and silent queries
change nothing that is compared, and the bodies of alike procedures agree. -/
structure Comparison.Sound (comparison : Comparison State Query Answer)
    (machine : Machine State Query Answer) : Prop where
  disturbLeft : ∀ s t middle, comparison.states s t → machine.disturb s middle →
    comparison.states middle t
  disturbRight : ∀ s t middle, comparison.states s t → machine.disturb t middle →
    comparison.states s middle
  silent : ∀ query, comparison.silent query → machine.procedure query = none
  silentLeft : ∀ s t query middle answer, comparison.silent query → comparison.states s t →
    machine.perform s query middle answer → comparison.states middle t
  silentRight : ∀ s t query middle answer, comparison.silent query → comparison.states s t →
    machine.perform t query middle answer → comparison.states s middle
  perform : ∀ s t query query' s' t' answer answer', comparison.queries query query' →
    comparison.states s t → machine.perform s query s' answer →
      machine.perform t query' t' answer' →
    comparison.states s' t' ∧ comparison.answers query query' answer answer'
  procedure : ∀ query query', comparison.queries query query' →
    Option.Rel (Agrees comparison (comparison.answers query query'))
      (machine.procedure query) (machine.procedure query')

/-- A comparison with more pairs of queries, which tells at least as much about the
answers. -/
structure Comparison.Extends {States : Type} (wider : Comparison State Query Answer)
    (comparison : Comparison States Query Answer) : Prop where
  queries : ∀ query query', comparison.queries query query' → wider.queries query query'
  answers : ∀ query query' answer answer', comparison.queries query query' →
    wider.answers query query' answer answer' → comparison.answers query query' answer answer'
  silent : ∀ query, comparison.silent query → wider.silent query

theorem Comparison.Extends.refl (comparison : Comparison State Query Answer) :
    comparison.Extends comparison :=
  ⟨fun _ _ hQueries => hQueries, fun _ _ _ _ _ hAnswers => hAnswers, fun _ hSilent => hSilent⟩

namespace Agrees

variable {comparison : Comparison State Query Answer} {results : A → B → Prop}

variable {p : Program Query Answer A} {q : Program Query Answer B}

theorem mono {weaker : A → B → Prop} (hAgrees : Agrees comparison results p q)
    (hWeaker : ∀ a b, results a b → weaker a b) :
    Agrees comparison weaker p q := by
  induction hAgrees with
  | done hResults => exact .done (hWeaker _ _ hResults)
  | ask hQueries _ ih => exact .ask hQueries ih
  | left hSilent _ ih => exact .left hSilent ih
  | right hSilent _ ih => exact .right hSilent ih

theorem bind {D : Type} {final : C → D → Prop} {rest : A → Program Query Answer C}
    {rest' : B → Program Query Answer D} (hAgrees : Agrees comparison results p q)
    (hRest : ∀ a b, results a b → Agrees comparison final (rest a) (rest' b)) :
    Agrees comparison final (p >>= rest) (q >>= rest') := by
  induction hAgrees with
  | done hResults => exact hRest _ _ hResults
  | ask hQueries _ ih => exact .ask hQueries ih
  | left hSilent _ ih => exact .left hSilent ih
  | right hSilent _ ih => exact .right hSilent ih

theorem call {query query' : Query} (hQueries : comparison.queries query query') :
    Agrees comparison (comparison.answers query query') (Program.call query)
      (Program.call query') :=
  .ask hQueries fun _ _ => .done

theorem extend {States : Type} {wider : Comparison States Query Answer}
    (hWider : wider.Extends comparison) (hAgrees : Agrees comparison results p q) :
    Agrees wider results p q := by
  induction hAgrees with
  | done hResults => exact .done hResults
  | ask hQueries _ ih =>
    refine .ask (hWider.queries _ _ hQueries) fun answer answer' hAnswers => ?_
    exact ih answer answer' (hWider.answers _ _ _ _ hQueries hAnswers)
  | left hSilent _ ih => exact .left (hWider.silent _ hSilent) ih
  | right hSilent _ ih => exact .right (hWider.silent _ hSilent) ih

/-- Loops over two lists with agreeing bodies. -/
theorem mapM₂ {D : Type} {related : C → D → Prop} {f : C → Program Query Answer A}
    {g : D → Program Query Answer B} {xs : List C} {ys : List D}
    (hLists : List.Forall₂ related xs ys)
    (hBody : ∀ x ∈ xs, ∀ y ∈ ys, related x y → Agrees comparison results (f x) (g y)) :
    Agrees comparison (List.Forall₂ results) (xs.mapM f) (ys.mapM g) := by
  induction hLists with
  | nil =>
    exact .done .nil
  | cons hHead _ ih =>
    rw [List.mapM_cons, List.mapM_cons]
    have hFirst := hBody _ (List.mem_cons_self ..) _ (List.mem_cons_self ..) hHead
    have hRest := ih fun x hx y hy =>
      hBody x (List.mem_cons_of_mem _ hx) y (List.mem_cons_of_mem _ hy)
    exact hFirst.bind fun _ _ hResult => hRest.bind fun _ _ hResults =>
      .done (.cons hResult hResults)

theorem mapM {f : C → Program Query Answer A} {g : C → Program Query Answer B} (xs : List C)
    (hBody : ∀ x, Agrees comparison results (f x) (g x)) :
    Agrees comparison (List.Forall₂ results) (xs.mapM f) (xs.mapM g) :=
  mapM₂ (List.forall₂_same.mpr fun _ _ => rfl) fun x _ _ _ hEq => hEq ▸ hBody x

theorem forM {f g : C → Program Query Answer PUnit} (xs : List C)
    (hBody : ∀ x, Agrees comparison (fun _ _ => True) (f x) (g x)) :
    Agrees comparison (fun _ _ => True) (xs.forM f) (xs.forM g) := by
  induction xs with
  | nil => exact .done trivial
  | cons x xs ih => exact (hBody x).bind fun _ _ _ => ih

variable {machine : Machine State Query Answer} {s s' t t' : State}

variable (sound : comparison.Sound machine)

include sound

/-- When the left program is over, the right one can only ask silently. -/
theorem runs_of_done {a : A} {b : B} (hAgrees : Agrees comparison results (.done a) q)
    (hStates : comparison.states s t) (hRight : machine.Runs t q t' b) :
    comparison.states s t' ∧ results a b := by
  induction hRight with
  | done t b =>
    cases hAgrees with
    | done hResults => exact ⟨hStates, hResults⟩
  | disturb hDisturb _ ih => exact ih hAgrees (sound.disturbRight _ _ _ hStates hDisturb)
  | perform hQuery hPerform _ ih =>
    cases hAgrees with
    | right hSilent hNext =>
      exact ih (hNext _) (sound.silentRight _ _ _ _ _ hSilent hStates hPerform)
  | procedure hQuery _ _ _ _ =>
    cases hAgrees with
    | right hSilent _ => exact absurd (sound.silent _ hSilent) (by simp [hQuery])

/-- Where the left program asks, the right run gets to a point where either the
left query is a silent one, or the right program asks an alike query. -/
theorem reaches_query {query : Query} {next : Answer query → Program Query Answer A} {b : B}
    (hAgrees : Agrees comparison results (.ask query next) q) (hStates : comparison.states s t)
    (hRight : machine.Runs t q t' b) :
    (∃ middle rest, comparison.silent query ∧ comparison.states s middle ∧
      (∀ answer, Agrees comparison results (next answer) rest) ∧ machine.Runs middle rest t' b) ∨
    ∃ (query' : Query) (next' : Answer query' → Program Query Answer B) (before after : State)
      (answer' : Answer query'), comparison.queries query query' ∧ comparison.states s before ∧
      (∀ a a', comparison.answers query query' a a' →
        Agrees comparison results (next a) (next' a')) ∧
      machine.Answers before query' after answer' ∧ machine.Runs after (next' answer') t' b := by
  induction hRight with
  | done t b =>
    cases hAgrees with
    | left hSilent hNext => exact .inl ⟨t, .done b, hSilent, hStates, hNext, .done t b⟩
  | disturb hDisturb _ ih => exact ih hAgrees (sound.disturbRight _ _ _ hStates hDisturb)
  | perform hQuery hPerform hRest ih =>
    cases hAgrees with
    | ask hQueries hNext =>
      exact .inr ⟨_, _, _, _, _, hQueries, hStates, hNext, .perform hQuery hPerform, hRest⟩
    | left hSilent hNext =>
      exact .inl ⟨_, _, hSilent, hStates, hNext, .perform hQuery hPerform hRest⟩
    | right hSilent hNext =>
      exact ih (hNext _) (sound.silentRight _ _ _ _ _ hSilent hStates hPerform)
  | procedure hQuery hBody hRest _ ih =>
    cases hAgrees with
    | ask hQueries hNext =>
      exact .inr ⟨_, _, _, _, _, hQueries, hStates, hNext, .procedure hQuery hBody, hRest⟩
    | left hSilent hNext =>
      exact .inl ⟨_, _, hSilent, hStates, hNext, .procedure hQuery hBody hRest⟩
    | right hSilent _ => exact absurd (sound.silent _ hSilent) (by simp [hQuery])

/-- Two runs of agreeing programs keep the states related. The induction is on
the left run, because the runs of the procedures' bodies are part of it. -/
theorem runs {a : A} {b : B} (hAgrees : Agrees comparison results p q)
    (hStates : comparison.states s t) (hLeft : machine.Runs s p s' a)
    (hRight : machine.Runs t q t' b) : comparison.states s' t' ∧ results a b := by
  induction hLeft generalizing B q t t' b with
  | done s a => exact runs_of_done sound hAgrees hStates hRight
  | disturb hDisturb _ ih => exact ih hAgrees (sound.disturbLeft _ _ _ hStates hDisturb) hRight
  | @perform _ _ _ _ query _ _ _ hQuery hPerform _ ih =>
    obtain ⟨middle, rest, hSilent, hMiddle, hNext, hRest⟩ |
      ⟨query', next', before, after, answer', hQueries, hBefore, hNext, hAnswers, hRest⟩ :=
        reaches_query sound hAgrees hStates hRight
    · exact ih (hNext _) (sound.silentLeft _ _ _ _ _ hSilent hMiddle hPerform) hRest
    · have hProcedure := sound.procedure query query' hQueries
      cases hAnswers with
      | perform _ hPerform' =>
        have hAfter := sound.perform _ _ _ _ _ _ _ _ hQueries hBefore hPerform hPerform'
        exact ih (hNext _ _ hAfter.2) hAfter.1 hRest
      | procedure hQuery' _ =>
        rw [hQuery, hQuery'] at hProcedure
        cases hProcedure
  | @procedure _ _ _ _ query _ _ _ _ hQuery _ _ ihBody ih =>
    obtain ⟨_, _, hSilent, _⟩ |
      ⟨query', next', before, after, answer', hQueries, hBefore, hNext, hAnswers, hRest⟩ :=
        reaches_query sound hAgrees hStates hRight
    · exact absurd (sound.silent _ hSilent) (by simp [hQuery])
    · have hProcedure := sound.procedure query query' hQueries
      cases hAnswers with
      | perform hQuery' _ =>
        rw [hQuery, hQuery'] at hProcedure
        cases hProcedure
      | procedure hQuery' hBody' =>
        rw [hQuery, hQuery'] at hProcedure
        cases hProcedure with
        | some hBodies =>
          have hAfter := ihBody hBodies hBefore hBody'
          exact ih (hNext _ _ hAfter.2) hAfter.1 hRest

/-- Two sequences of agreeing programs are in related states after every program. -/
theorem unfolds {Label Label' : Type} {related : Label → Label' → Prop}
    {same : Label → Label' → A → B → Prop} {program : Label → Program Query Answer A}
    {program' : Label' → Program Query Answer B} (hAgrees : ∀ label label', related label label' →
      Agrees comparison (same label label') (program label) (program' label')) {labels : List Label}
    {labels' : List Label'} (hLabels : List.Forall₂ related labels labels')
    {trace : List (Label × State × A)} {trace' : List (Label' × State × B)}
    (hStates : comparison.states s t) (hLeft : machine.Unfolds program s labels trace)
    (hRight : machine.Unfolds program' t labels' trace') :
    List.Forall₂ (fun x y => comparison.states x.2.1 y.2.1 ∧ same x.1 y.1 x.2.2 y.2.2) trace
      trace' := by
  induction hLabels generalizing s t trace trace' with
  | nil =>
    cases hLeft
    cases hRight
    exact .nil
  | cons hHead _ ih =>
    cases hLeft with
    | cons hFirst hRest =>
      cases hRight with
      | cons hFirst' hRest' =>
        have hAfter := (hAgrees _ _ hHead).runs sound hStates hFirst hFirst'
        exact .cons hAfter (ih hAfter.1 hRest hRest')

end Agrees

end
end Library
