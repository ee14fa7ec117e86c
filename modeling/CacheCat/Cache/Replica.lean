import CacheCat.Cache.Request
import CacheCat.Cache.Visible

/-! Two nodes side by side. Their states count as alike when they show the same
visible state and write clock; versions, the queue of a snapshot and entries that
wait to be reclaimed may differ. Here is which queries may stand opposite each
other on two such nodes, and that their answers agree. -/
namespace CacheCat.Cache

open Mocha (ExpirePolicy)
open Library (Comparison)

/-- The same update, except for the mode: neither node is replaying a queue. -/
structure Update.Alike (a b : Update) : Prop where
  dbNumber : a.dbNumber = b.dbNumber
  writeClock : a.writeClock = b.writeClock
  forScript : a.forScript = b.forScript
  left : ∀ version, a.updateType ≠ .cas version
  right : ∀ version, b.updateType ≠ .cas version

/-- The queries that only a script makes. -/
def Query.isScript : Query → Bool
  | len forScript _ => forScript
  | reply forScript _ => forScript
  | beginScript => true
  | enterScript _ => true
  | advanceScript => true
  | resumeScript _ => true
  | interrupted => true
  | endScript _ => true
  | runScript _ => true
  | _ => false

/-- The queries that may be asked on both nodes; `scripts` says whether those of
scripts are among them. -/
def Query.Comparable (scripts : Prop) : Query → Prop
  | len forScript _ => forScript = true → scripts
  | reply forScript _ => forScript = true → scripts
  | beginScript => scripts
  | enterScript _ => scripts
  | advanceScript => scripts
  | resumeScript _ => scripts
  | interrupted => scripts
  | endScript _ => scripts
  | runScript _ => False
  | _ => True

theorem Query.isScript_of_comparable {query : Query} (h : query.Comparable False) :
    query.isScript = false := by
  cases query <;> simp_all [Comparable, isScript]

section

variable {Vm : Type} (vms : Vm → Vm → Prop) (scripts : Prop)

/-- The nodes agree in what is visible, and, if scripts are compared at all, in
what a script can notice of its Lua machine. -/
structure State.Alike (s t : State Vm) : Prop where
  count : s.count = t.count
  writeClock : s.writeClock = t.writeClock
  visible : s.visible = t.visible
  vm : scripts → vms s.vm t.vm
  running : scripts → s.running = t.running
  interruptFlag : scripts → 0 < s.running → s.interruptFlag = t.interruptFlag

inductive Query.Alike : Query → Query → Prop
  | same (query : Query) (hComparable : query.Comparable scripts) : Query.Alike query query
  | insert (db : Nat) (key : Bytes) {a b : MyValue} (policy : ExpirePolicy)
      (hData : a.data = b.data) :
      Query.Alike (.insertEntry db key a policy) (.insertEntry db key b policy)
  | runScript {a b : Update} (hScript : scripts) (hUpdate : a.Alike b) :
      Query.Alike (.runScript a) (.runScript b)

end

/-- What the answers have in common. Nothing is known of the surroundings, and of
the replies of reads only if they go to a script. -/
def Query.AnswersAlike : (query query' : Query) → query.Answer → query'.Answer → Prop
  | databaseCount, databaseCount => Eq
  | getEntry .., getEntry .. => Option.Rel Entry.Same
  | remove .., remove .. => fun a b => a.isSome = b.isSome
  | unlink .., unlink .. => Eq
  | liveKeys .., liveKeys .. => Eq
  | len forScript _, len .. => fun a b => forScript = true → a = b
  | reply forScript _, reply .. => fun a b => forScript = true → a = b
  | setWriteClock _, setWriteClock _ => Eq
  | enterScript _, enterScript _ => Eq
  | advanceScript, advanceScript => Eq
  | interrupted, interrupted => Eq
  | runScript _, runScript _ => Eq
  | _, _ => fun _ _ => True

/-- The comparison of two nodes. In snapshot mode a node makes some lookups more,
and pushes requests to its queue. -/
def replicas {Vm : Type} (vms : Vm → Vm → Prop) (scripts : Prop) :
    Comparison (State Vm) Query Query.Answer where
  states := State.Alike vms scripts
  queries := Query.Alike scripts
  answers := Query.AnswersAlike
  silent
    | .getEntry .. => True
    | .push _ => True
    | _ => False

/-! ### Queries without scripts -/

section

variable {Vm : Type} {vms : Vm → Vm → Prop} {scripts : Prop} {s t : State Vm}

namespace State.Alike

/-- New databases on both sides, with the same visible outcome. -/
theorem setDatabase (h : s.Alike vms scripts t) (db : Nat) (map map' : Mocha.Table Bytes MyValue)
    (hVisible : (s.setDatabase db map).visible = (t.setDatabase db map').visible) :
    (s.setDatabase db map).Alike vms scripts (t.setDatabase db map') :=
  { h with visible := hVisible }

/-- Without scripts nothing is compared that has a direction. -/
theorem symm (h : s.Alike vms False t) : t.Alike vms False s :=
  ⟨h.count.symm, h.writeClock.symm, h.visible.symm, False.elim, False.elim, False.elim⟩

theorem live (h : s.Alike vms scripts t) (db : Nat) (key : Bytes) :
    Option.Rel Entry.Same (s.live db key) (t.live db key) := by
  rw [same_iff_view, ← State.visible_eq, ← State.visible_eq, h.visible]

theorem live_isSome (h : s.Alike vms scripts t) (db : Nat) (key : Bytes) :
    (s.live db key).isSome = (t.live db key).isSome :=
  rel_isSome (h.live db key)

end State.Alike

section

variable (s t : State Vm) (db : Nat) (key : Bytes)

theorem visible_dropExpired : (s.dropExpired db key).visible = s.visible := by
  funext other k
  rw [State.visible_eq, State.live_dropExpired, State.visible_eq]

theorem visible_reclaimed : (s.setDatabase db (s.reclaimed db)).visible = s.visible := by
  funext other k
  rw [State.visible_eq, State.live_reclaimed, State.visible_eq]

variable {s t : State Vm}

/-- Every query that takes a key away has this effect. -/
theorem visible_without {s' t' : State Vm} {gone : Nat → Bytes → Prop}
    [∀ other k, Decidable (gone other k)] (hVisible : s.visible = t.visible)
    (hLeft : ∀ other k, s'.live other k = if gone other k then none else s.live other k)
    (hRight : ∀ other k, t'.live other k = if gone other k then none else t.live other k) :
    s'.visible = t'.visible := by
  funext other k
  rw [State.visible_eq, State.visible_eq, hLeft, hRight]
  split
  · rfl
  · rw [← State.visible_eq, ← State.visible_eq, hVisible]

theorem visible_insert (hVisible : s.visible = t.visible) (hClock : s.writeClock = t.writeClock)
    {a b : Entry} (hSame : Entry.Same a b) :
    (s.setDatabase db ((s.databases db).insert key a)).visible =
      (t.setDatabase db ((t.databases db).insert key b)).visible := by
  funext other k
  rw [State.visible_eq, State.visible_eq, State.live_insert, State.live_insert, hClock]
  split
  · rw [← same_iff_view]
    exact rel_filter (fun a b hSame => by rw [expired_congr hSame.2]) (.some hSame)
  · rw [← State.visible_eq, ← State.visible_eq, hVisible]

/-- What a later clock leaves visible depends on what was visible. -/
theorem visible_setWriteClock (hVisible : s.visible = t.visible) (clock : Nat)
    (hLeft : s.writeClock ≤ clock) (hRight : t.writeClock ≤ clock) :
    ({ s with writeClock := clock } : State Vm).visible =
      ({ t with writeClock := clock } : State Vm).visible := by
  have hView (s : State Vm) (hClock : s.writeClock ≤ clock) (other : Nat) (k : Bytes) :
      ({ s with writeClock := clock } : State Vm).visible other k =
        (s.visible other k).filter fun view => !view.2.any (· ≤ clock) := by
    rw [State.visible_eq, State.live_setWriteClock _ _ _ _ hClock, State.visible_eq,
      Option.filter_map]
    rfl
  funext other k
  rw [hView s hLeft, hView t hRight, hVisible]

theorem mem_unhidden_keys (readClock : Option Nat) :
    key ∈ (s.unhidden db readClock).keys ↔
      ∃ view ∈ s.visible db key, (readClock.any fun clock => view.2.any (· ≤ clock)) = false := by
  rw [Finmap.mem_keys, Finmap.mem_iff, State.unhidden]
  simp only [Mocha.Table.lookup_retain, State.visible, State.live]
  cases (s.databases db).lookup key with
  | none => simp
  | some entry =>
    by_cases hExpired : entry.expired s.writeClock = true
    · simp [Option.filter_some, Mocha.EntrySnapshot.hidden, hExpired]
    · have hTest : (fun clock => entry.expireAt.any (· ≤ clock)) = entry.expired := rfl
      simp [Option.filter_some, Mocha.EntrySnapshot.hidden, hExpired, hTest]

theorem unhidden_keys (hVisible : s.visible = t.visible) (readClock : Option Nat) :
    (s.unhidden db readClock).keys = (t.unhidden db readClock).keys := by
  ext key
  rw [mem_unhidden_keys, mem_unhidden_keys, hVisible]

end

theorem State.Alike.dropExpired_left (h : s.Alike vms scripts t) (db : Nat) (key : Bytes) :
    (s.dropExpired db key).Alike vms scripts t := by
  have hVisible := (visible_dropExpired s db key).trans h.visible
  unfold State.dropExpired at hVisible ⊢
  split_ifs at hVisible ⊢
  · exact { h with visible := hVisible }
  · exact h

theorem State.Alike.dropExpired_right (h : s.Alike vms scripts t) (db : Nat) (key : Bytes) :
    s.Alike vms scripts (t.dropExpired db key) := by
  have hVisible := h.visible.trans (visible_dropExpired t db key).symm
  unfold State.dropExpired at hVisible ⊢
  split_ifs at hVisible ⊢
  · exact { h with visible := hVisible }
  · exact h

variable {lua : LuaMachine Vm} {env env' : Env} {s' t' : State Vm}

theorem insert_alike (h : s.Alike vms scripts t) (db : Nat) (key : Bytes) {a b : MyValue}
    (policy : ExpirePolicy) (hData : a.data = b.data)
    (hLeft : handle lua env s (.insertEntry db key a policy) = some (s', ()))
    (hRight : handle lua env' t (.insertEntry db key b policy) = some (t', ())) :
    s'.Alike vms scripts t' := by
  cases hLeft
  cases hRight
  refine h.setDatabase _ _ _ (visible_insert db key h.visible h.writeClock ⟨hData, ?_⟩)
  rw [h.writeClock]

variable {query : Query}

/-- The same query on both nodes, without scripts. -/
theorem handle_alike (h : s.Alike vms scripts t) (hScript : query.isScript = false)
    {answer answer' : query.Answer} (hLeft : handle lua env s query = some (s', answer))
    (hRight : handle lua env' t query = some (t', answer')) :
    s'.Alike vms scripts t' ∧ query.AnswersAlike query answer answer' := by
  cases query
  case beginScript | enterScript | advanceScript | resumeScript | interrupted | endScript
    | runScript => cases hScript
  case insertEntry db key value policy =>
    exact ⟨insert_alike h db key policy rfl hLeft hRight, trivial⟩
  case lockReaders =>
    simp only [handle] at hLeft hRight
    split_ifs at hLeft hRight
    cases hLeft
    cases hRight
    exact ⟨{ h with }, trivial⟩
  all_goals cases hLeft <;> cases hRight
  case databaseCount => exact ⟨h, h.count⟩
  case getEntry db key =>
    exact ⟨(h.dropExpired_left db key).dropExpired_right db key, h.live db key⟩
  case remove db key =>
    refine ⟨h.setDatabase _ _ _ (visible_without h.visible (s.live_erase db · key)
      (t.live_erase db · key)), ?_⟩
    simpa [Query.AnswersAlike] using h.live_isSome db key
  case unlink db key =>
    refine ⟨h.setDatabase _ _ _ (visible_without h.visible (s.live_unlinked db · key)
      (t.live_unlinked db · key)), ?_⟩
    simpa [Query.AnswersAlike, State.unlinked_snd] using h.live_isSome db key
  case clear db =>
    exact ⟨h.setDatabase _ _ _ (visible_without h.visible (s.live_clear db) (t.live_clear db)),
      trivial⟩
  case liveKeys db readClock => exact ⟨h, unhidden_keys db h.visible readClock⟩
  case activeExpireCycle db =>
    refine ⟨h.setDatabase _ _ _ ?_, trivial⟩
    rw [visible_reclaimed, visible_reclaimed, h.visible]
  case len forScript db | reply forScript execute =>
    exact ⟨h, fun hLabel => by simp_all [Query.isScript]⟩
  case environment | push | unlockReaders => exact ⟨{ h with }, trivial⟩
  case setWriteClock clock =>
    rw [← h.writeClock]
    have hVisible := visible_setWriteClock h.visible (max s.writeClock clock) (le_max_left ..)
      (h.writeClock ▸ le_max_left ..)
    exact ⟨{ h with writeClock := rfl, visible := hVisible }, rfl⟩

/-- A lookup or a push on one node alone. -/
theorem silent_left (h : s.Alike vms scripts t) (hSilent : (replicas vms scripts).silent query)
    {answer : query.Answer} (hLeft : handle lua env s query = some (s', answer)) :
    s'.Alike vms scripts t := by
  cases query with
  | getEntry db key =>
    cases hLeft
    exact h.dropExpired_left db key
  | push request =>
    cases hLeft
    exact { h with }
  | _ => cases hSilent

theorem silent_right (h : s.Alike vms scripts t) (hSilent : (replicas vms scripts).silent query)
    {answer : query.Answer} (hRight : handle lua env t query = some (t', answer)) :
    s.Alike vms scripts t' := by
  cases query with
  | getEntry db key =>
    cases hRight
    exact h.dropExpired_right db key
  | push request =>
    cases hRight
    exact { h with }
  | _ => cases hSilent

theorem procedure_of_silent (hSilent : (replicas vms scripts).silent query) :
    procedure query = none := by
  cases query with
  | getEntry | push => rfl
  | _ => cases hSilent

variable (vms)

/-- Without scripts, nothing at all is assumed of the two Lua machines. -/
theorem replicas_sound (lua : LuaMachine Vm) : (replicas vms False).Sound (machine lua) where
  disturbLeft s t middle h hDisturb := by
    cases hDisturb with
    | expire db key => exact h.dropExpired_left db key
    | interrupt => exact { h with interruptFlag := False.elim }
  disturbRight s t middle h hDisturb := by
    cases hDisturb with
    | expire db key => exact h.dropExpired_right db key
    | interrupt => exact { h with interruptFlag := False.elim }
  silent _ hSilent := procedure_of_silent hSilent
  silentLeft _ _ _ _ _ hSilent h hPerform := silent_left h hSilent hPerform.choose_spec
  silentRight _ _ _ _ _ hSilent h hPerform := silent_right h hSilent hPerform.choose_spec
  perform s t query query' s' t' answer answer' hQueries h hLeft hRight := by
    obtain ⟨env, hLeft⟩ := hLeft
    obtain ⟨env', hRight⟩ := hRight
    cases hQueries with
    | same _ hComparable =>
      exact handle_alike h (Query.isScript_of_comparable hComparable) hLeft hRight
    | insert db key policy hData => exact ⟨insert_alike h db key policy hData hLeft hRight, trivial⟩
    | runScript hScript => exact hScript.elim
  procedure query query' hQueries := by
    cases hQueries with
    | same query hComparable =>
      cases query with
      | runScript update => exact hComparable.elim
      | _ => exact .none
    | insert => exact .none
    | runScript hScript => exact hScript.elim

end
end CacheCat.Cache
