import Mathlib.Data.List.Basic
import Mathlib.Data.Option.Basic
import Mathlib.Logic.Relation

/-! Runs of a labelled transition function. A label resolves every choice that
the surroundings make, so one step is a partial function and a schedule is a list
of labels. The induction over a schedule is done here once. -/
namespace Library

variable {State Label : Type}

/-- Perform the labels in order; a label that is not enabled ends the attempt. -/
def run (step : State → Label → Option State) (s : State) (labels : List Label) : Option State :=
  labels.foldlM step s

section

variable {step : State → Label → Option State} {s s' : State}

@[simp] theorem run_cons (label : Label) (labels : List Label) :
    run step s (label :: labels) = (step s label).bind fun middle => run step middle labels := rfl

/-- A property kept by every step whose label is allowed is kept by every run
made of allowed labels. -/
theorem run_invariant (allowed : Label → Prop) (Inv : State → Prop)
    (hStep : ∀ s label s', allowed label → Inv s → step s label = some s' → Inv s')
    {labels : List Label} (hRun : run step s labels = some s')
    (hAllowed : ∀ label ∈ labels, allowed label) (hInv : Inv s) : Inv s' := by
  induction labels generalizing s with
  | nil =>
    cases hRun
    exact hInv
  | cons label labels ih =>
    rw [run_cons, Option.bind_eq_some_iff] at hRun
    obtain ⟨middle, hFirst, hRest⟩ := hRun
    have hMiddle := hStep s label middle (hAllowed label (List.mem_cons_self ..)) hInv hFirst
    exact ih hRest (fun l hl => hAllowed l (List.mem_cons_of_mem _ hl)) hMiddle

/-- The states of a run, as a path of a relation that every step is in. -/
theorem reflTransGen_of_run {related : State → State → Prop}
    (hStep : ∀ s label s', step s label = some s' → related s s') {labels : List Label}
    (hRun : run step s labels = some s') : Relation.ReflTransGen related s s' :=
  run_invariant (fun _ => True) (Relation.ReflTransGen related s)
    (fun _ _ _ _ hPath hNext => hPath.tail (hStep _ _ _ hNext)) hRun (fun _ _ => trivial) .refl

end

/-- The states after `s` that the labels lead through. -/
def visited (step : State → Label → Option State) (s : State) : List Label → List State
  | [] => []
  | label :: labels =>
    match step s label with
    | none => []
    | some next => next :: visited step next labels

theorem isChain_visited {step : State → Label → Option State} {related : State → State → Prop}
    (hStep : ∀ s label s', step s label = some s' → related s s') (s : State)
    (labels : List Label) :
    (s :: visited step s labels).IsChain related := by
  induction labels generalizing s with
  | nil => exact .singleton s
  | cons label labels ih =>
    rw [visited]
    split
    · exact .singleton s
    next next hNext => exact .cons_cons (hStep s label next hNext) (ih next)

/-- Some schedule leads from `init` to `s`. -/
def Reachable (step : State → Label → Option State) (init s : State) : Prop :=
  ∃ labels, run step init labels = some s

/-- Safety: what holds at the start and is kept by every step holds wherever a
schedule leads. -/
theorem Reachable.invariant {step : State → Label → Option State} {init s : State}
    (h : Reachable step init s) (Inv : State → Prop) (hInit : Inv init)
    (hStep : ∀ s label s', Inv s → step s label = some s' → Inv s') : Inv s := by
  obtain ⟨labels, hRun⟩ := h
  exact run_invariant (fun _ => True) Inv (fun s label s' _ => hStep s label s') hRun
    (fun _ _ => trivial) hInit

end Library
