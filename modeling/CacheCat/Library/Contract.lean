import CacheCat.Library.Program

/-! Pre- and postconditions of programs. What is known of a state is a view of it,
and what a query does is told on views by a relation, which leaves open what the
surroundings choose. A program settles a postcondition if it ends, whatever it is
answered, in a view and with a result that satisfy it. It yields the postcondition
if this is so whenever it ends; then its queries may also name procedures, whose
effect is what their bodies yield. -/
namespace Library

variable {View Query : Type} {Answer : Query → Type} {A B : Type}

/-- What a query may do to a view and what it may be answered. -/
abbrev Effect (View Query : Type) (Answer : Query → Type) :=
  View → (query : Query) → View → Answer query → Prop

namespace Program

def Settles (effect : Effect View Query Answer) (post : View → A → Prop) :
    Program Query Answer A → View → Prop
  | .done result, view => post view result
  | .ask query next, view =>
    (∃ after answer, effect view query after answer) ∧
      ∀ after answer, effect view query after answer → (next answer).Settles effect post after

variable {effect : Effect View Query Answer} {post : View → A → Prop}
    {program : Program Query Answer A} {view : View}

@[simp] theorem settles_done (result : A) :
    (.done result : Program Query Answer A).Settles effect post view ↔ post view result :=
  Iff.rfl

@[simp] theorem settles_ask (query : Query) (next : Answer query → Program Query Answer A) :
    (Program.ask query next).Settles effect post view ↔
      (∃ after answer, effect view query after answer) ∧
        ∀ after answer, effect view query after answer → (next answer).Settles effect post after :=
  Iff.rfl

@[simp] theorem settles_bind {rest : A → Program Query Answer B} {postRest : View → B → Prop} :
    (program >>= rest).Settles effect postRest view ↔
      program.Settles effect (fun after a => (rest a).Settles effect postRest after) view := by
  induction program generalizing view with
  | done result => rfl
  | ask query next ih => simp [ih]

variable {weaker : View → A → Prop}

theorem Settles.mono (hProgram : program.Settles effect post view)
    (hPost : ∀ after a, post after a → weaker after a) : program.Settles effect weaker view := by
  induction program generalizing view with
  | done result => exact hPost view result hProgram
  | ask query next ih =>
    exact ⟨hProgram.1, fun after answer hEffect => ih answer (hProgram.2 after answer hEffect)⟩

/-- A query with one outcome. -/
theorem settles_call {query : Query} {target : View} {given : Answer query}
    {post : View → Answer query → Prop}
    (hEffect : ∀ after answer, effect view query after answer ↔ after = target ∧ answer = given) :
    (Program.call query).Settles effect post view ↔ post target given := by
  simp only [call, settles_ask, settles_done, hEffect]
  constructor
  · intro h
    exact h.2 target given ⟨rfl, rfl⟩
  · intro h
    refine ⟨⟨target, given, rfl, rfl⟩, ?_⟩
    rintro after answer ⟨rfl, rfl⟩
    exact h

/-- A loop whose body takes every view of a certain kind to a known one. -/
theorem settles_forM {C : Type} {body : C → Program Query Answer PUnit} (step : View → C → View)
    (Inv : View → Prop) (hStep : ∀ view x, Inv view → Inv (step view x))
    (hBody : ∀ view x (post : View → PUnit → Prop), Inv view →
      ((body x).Settles effect post view ↔ post (step view x) ⟨⟩))
    (xs : List C) {postLoop : View → PUnit → Prop} (hInv : Inv view) :
    (xs.forM body).Settles effect postLoop view ↔ postLoop (xs.foldl step view) ⟨⟩ := by
  induction xs generalizing view with
  | nil => rfl
  | cons x xs ih =>
    change (body x >>= fun _ => xs.forM body).Settles effect postLoop view ↔ _
    rw [settles_bind, hBody _ _ _ hInv, ih (hStep _ _ hInv), List.foldl_cons]

/-- A loop whose body only looks something up. -/
theorem settles_mapM {C B : Type} {body : C → Program Query Answer B} {found : C → B}
    (hBody : ∀ x (post : View → B → Prop), (body x).Settles effect post view ↔ post view (found x))
    (xs : List C) {postLoop : View → List B → Prop} :
    (xs.mapM body).Settles effect postLoop view ↔ postLoop view (xs.map found) := by
  induction xs generalizing postLoop with
  | nil => rfl
  | cons x xs ih =>
    rw [List.mapM_cons, settles_bind, hBody, settles_bind, ih]
    rfl

/-! ### If it ends -/

def Yields (effect : Effect View Query Answer) (post : View → A → Prop) :
    Program Query Answer A → View → Prop
  | .done result, view => post view result
  | .ask query next, view =>
    ∀ after answer, effect view query after answer → (next answer).Yields effect post after

@[simp] theorem yields_ask (query : Query) (next : Answer query → Program Query Answer A) :
    (Program.ask query next).Yields effect post view ↔
      ∀ after answer, effect view query after answer → (next answer).Yields effect post after :=
  Iff.rfl

@[simp] theorem yields_bind {rest : A → Program Query Answer B} {postRest : View → B → Prop} :
    (program >>= rest).Yields effect postRest view ↔
      program.Yields effect (fun after a => (rest a).Yields effect postRest after) view := by
  induction program generalizing view with
  | done result => rfl
  | ask query next ih => simp [ih]

theorem Yields.mono (hProgram : program.Yields effect post view)
    (hPost : ∀ after a, post after a → weaker after a) : program.Yields effect weaker view := by
  induction program generalizing view with
  | done result => exact hPost view result hProgram
  | ask query next ih =>
    exact fun after answer hEffect => ih answer (hProgram after answer hEffect)

theorem yields_of_forall (hPost : ∀ after a, post after a) : program.Yields effect post view := by
  induction program generalizing view with
  | done result => exact hPost view result
  | ask query next ih => exact fun after answer _ => ih answer

/-- As `Yields`, and every view on the way satisfies `inv`. -/
def Keeps (effect : Effect View Query Answer) (inv : View → Prop) (post : View → A → Prop) :
    Program Query Answer A → View → Prop
  | .done result, view => post view result
  | .ask query next, view => ∀ after answer, effect view query after answer →
      inv after ∧ (next answer).Keeps effect inv post after

theorem Keeps.yields {inv : View → Prop} (hProgram : program.Keeps effect inv post view) :
    program.Yields effect post view := by
  induction program generalizing view with
  | done result => exact hProgram
  | ask query next ih =>
    exact fun after answer hEffect => ih answer (hProgram after answer hEffect).2

/-- A property of views that the allowed queries keep, and that makes their answers
satisfy `rely`, is kept by the program. -/
theorem Relies.yields {rely : (query : Query) → Answer query → Prop} {allowed : Query → Prop}
    {Inv : View → Prop} (hProgram : program.Relies rely allowed)
    (hKeeps : ∀ view query after answer, Inv view → allowed query →
      effect view query after answer → rely query answer ∧ Inv after) (hInv : Inv view) :
    program.Yields effect (fun after _ => Inv after) view := by
  induction program generalizing view with
  | done result => exact hInv
  | ask query next ih =>
    intro after answer hEffect
    obtain ⟨hAnswer, hAfter⟩ := hKeeps view query after answer hInv hProgram.1 hEffect
    exact ih answer (hProgram.2 answer hAnswer) hAfter

/-- What is settled is yielded, also under a wider effect that says the same of the
queries the program makes. -/
theorem Settles.yields {wider : Effect View Query Answer}
    (hProgram : program.Settles effect post view)
    (hWider : ∀ view query after answer, (∃ after answer, effect view query after answer) →
      wider view query after answer → effect view query after answer) :
    program.Yields wider post view := by
  induction program generalizing view with
  | done result => exact hProgram
  | ask query next ih =>
    intro after answer hEffect
    exact ih answer (hProgram.2 after answer (hWider _ _ _ _ hProgram.1 hEffect))

end Program

namespace Machine

variable {State : Type}

/-- On this machine the effects describe the queries that have one: they are
performed and answered, and never otherwise than the effect says. Disturbances do
not show in the view. -/
structure Shows (machine : Machine State Query Answer) (view : State → View)
    (effect : Effect View Query Answer) : Prop where
  disturb : ∀ s t, machine.disturb s t → view t = view s
  answered : ∀ s query after answer, effect (view s) query after answer →
    machine.procedure query = none ∧ ∃ t answer, machine.perform s query t answer
  perform : ∀ s query t answer, machine.perform s query t answer →
    (∃ after answer, effect (view s) query after answer) → effect (view s) query (view t) answer

variable {machine : Machine State Query Answer} {view : State → View}
    {effect : Effect View Query Answer} {post : View → A → Prop}
    {program : Program Query Answer A}

variable {s : State}

section

variable (shows : machine.Shows view effect)

include shows

theorem Runs.settles {t : State} {a : A} (hRun : machine.Runs s program t a)
    (hSettles : program.Settles effect post (view s)) : post (view t) a := by
  induction hRun with
  | done s result => exact hSettles
  | disturb hDisturb _ ih =>
    rw [← shows.disturb _ _ hDisturb] at hSettles
    exact ih hSettles
  | perform _ hPerform _ ih =>
    exact ih (hSettles.2 _ _ (shows.perform _ _ _ _ hPerform hSettles.1))
  | procedure hQuery _ _ _ _ =>
    obtain ⟨after, answer, hEffect⟩ := hSettles.1
    rw [(shows.answered _ _ _ _ hEffect).1] at hQuery
    cases hQuery

/-- What settles a postcondition does run to its end. -/
theorem Shows.exists_run (hSettles : program.Settles effect post (view s)) :
    ∃ t a, machine.Runs s program t a := by
  induction program generalizing s with
  | done result => exact ⟨s, result, .done s result⟩
  | ask query next ih =>
    obtain ⟨after, answer, hEffect⟩ := hSettles.1
    obtain ⟨hQuery, middle, given, hPerform⟩ := shows.answered _ _ _ _ hEffect
    have hGiven := shows.perform _ _ _ _ hPerform hSettles.1
    obtain ⟨t, a, hRest⟩ := ih given (hSettles.2 _ _ hGiven)
    exact ⟨t, a, .perform hQuery hPerform hRest⟩

/-- The program does run, and every run ends as `post` says. -/
def EveryRun (machine : Machine State Query Answer) (s : State) (program : Program Query Answer A)
    (post : State → A → Prop) : Prop :=
  (∃ t a, machine.Runs s program t a) ∧ ∀ t a, machine.Runs s program t a → post t a

theorem Shows.everyRun {post : View → A → Prop} (hSettles : program.Settles effect post (view s)) :
    machine.EveryRun s program fun t a => post (view t) a :=
  ⟨shows.exists_run hSettles, fun _ _ hRun => hRun.settles shows hSettles⟩

/-- A program that has one outcome. -/
theorem Shows.everyRun_iff {after : View} {result : A}
    (hSettles : program.Settles effect (fun v a => v = after ∧ a = result) (view s))
    (post : View → A → Prop) :
    (machine.EveryRun s program fun t a => post (view t) a) ↔ post after result := by
  have hRuns := shows.everyRun hSettles
  constructor
  · rintro ⟨⟨t, a, hRun⟩, hPost⟩
    obtain ⟨rfl, rfl⟩ := hRuns.2 t a hRun
    exact hPost t _ hRun
  · intro hPost
    refine ⟨hRuns.1, fun t a hRun => ?_⟩
    obtain ⟨hView, rfl⟩ := hRuns.2 t a hRun
    rwa [hView]

end

/-- Whatever happens on this machine is within the effects; the procedures yield
theirs. -/
structure Confines (machine : Machine State Query Answer) (view : State → View)
    (effect : Effect View Query Answer) : Prop where
  disturb : ∀ s t, machine.disturb s t → view t = view s
  perform : ∀ s query t answer, machine.procedure query = none →
    machine.perform s query t answer → effect (view s) query (view t) answer
  procedure : ∀ query body view, machine.procedure query = some body →
    body.Yields effect (effect view query) view

theorem Runs.yields (confines : machine.Confines view effect) {t : State} {a : A}
    (hRun : machine.Runs s program t a) (hYields : program.Yields effect post (view s)) :
    post (view t) a := by
  induction hRun with
  | done s result => exact hYields
  | disturb hDisturb _ ih =>
    rw [← confines.disturb _ _ hDisturb] at hYields
    exact ih hYields
  | perform hQuery hPerform _ ih =>
    exact ih (hYields _ _ (confines.perform _ _ _ _ hQuery hPerform))
  | procedure hQuery _ _ ihBody ih =>
    exact ih (hYields _ _ (ihBody (confines.procedure _ _ _ hQuery)))

end Machine
end Library
