import CacheCat.Cache.Holding

/-! Which writes to one key leave an empty collection behind. -/
namespace CacheCat

open Mocha (MochaOperation)

/-- A list, hash, sorted set or set has something in it. -/
def ValueObject.NonEmpty : ValueObject → Prop
  | .list items => items ≠ []
  | .hash fields => ∃ field, field ∈ fields
  | .zset members => members.isEmpty = false
  | .set members => members.Nonempty
  | .int _ | .string _ => True

/-! ### Updates of the collections -/

theorem foldl_of_step {S E : Type} {P : S → Prop} {step : S → E → S} {elements : List E}
    (hElements : elements ≠ []) (hStep : ∀ s e, P (step s e)) (s : S) :
    P (elements.foldl step s) := by
  cases elements with
  | nil => exact absurd rfl hElements
  | cons e rest => exact List.foldlRecOn rest step (hStep s e) fun s _ e _ => hStep s e

theorem SAddReq.nonempty_foldl {members : List Bytes} (hMembers : members ≠ [])
    (set : Finset Bytes) : (members.foldl insertMember (set, 0)).1.Nonempty :=
  foldl_of_step (P := fun state : Finset Bytes × Nat => state.1.Nonempty) hMembers
    (fun state member => Finset.insert_nonempty member state.1) (set, 0)

/-- A loop that counts what it changes has changed nothing if it has counted nothing. -/
theorem foldl_of_counted {S E : Type} {step : S × Nat → E → S × Nat}
    (hStep : ∀ state e, (step state e).2 = state.2 + 1 ∨ step state e = state) (elements : List E)
    (state : S × Nat) :
    state.2 ≤ (elements.foldl step state).2 ∧
      ((elements.foldl step state).2 = state.2 → elements.foldl step state = state) := by
  induction elements generalizing state with
  | nil => exact ⟨le_rfl, fun _ => rfl⟩
  | cons e rest ih =>
    obtain ⟨hLe, hSame⟩ := ih (step state e)
    rw [List.foldl_cons]
    rcases hStep state e with hCounted | hState
    · exact ⟨by omega, fun hCount => by omega⟩
    · rw [hState] at hLe hSame ⊢
      exact ⟨hLe, hSame⟩

theorem SortedSet.isEmpty_eq_false_iff (zset : SortedSet) :
    zset.isEmpty = false ↔ ∃ member, member ∈ zset.hash := by
  rw [← Bool.not_eq_true, isEmpty, decide_eq_true_iff, len, Finset.card_eq_zero, ← Ne,
    ← Finset.nonempty_iff_ne_empty]
  simp only [Finset.Nonempty, Finmap.mem_keys]

variable {args : ZAddArgs} {items : List Value}

theorem SortedSet.zaddMember_mem {state : SortedSet × Nat × Nat} (item : Bytes × Float)
    {member : Bytes} (hMember : member ∈ state.1.hash) :
    member ∈ (zaddMember args state item).1.hash := by
  obtain ⟨zset, added, changed⟩ := state
  cases hLookup : zset.hash.lookup item.1 <;> simp only [zaddMember, hLookup] <;> split_ifs
  all_goals first | exact hMember | exact Finmap.mem_insert.mpr (.inr hMember)

theorem SortedSet.mem_zaddMember (hXx : args.xx = false) (state : SortedSet × Nat × Nat)
    (item : Bytes × Float) :
    item.1 ∈ (zaddMember args state item).1.hash := by
  cases hLookup : state.1.hash.lookup item.1 with
  | some score => exact zaddMember_mem item (Finmap.mem_of_lookup_eq_some hLookup)
  | none =>
    simp only [zaddMember, hLookup, hXx, Bool.false_eq_true, if_false]
    exact Finmap.mem_insert.mpr (.inl rfl)

theorem SortedSet.isEmpty_zadd {zset : SortedSet} (args : ZAddArgs) (hZset : zset.isEmpty = false) :
    (zset.zadd args).1.isEmpty = false := by
  rw [isEmpty_eq_false_iff] at hZset ⊢
  obtain ⟨member, hMember⟩ := hZset
  refine ⟨member, List.foldlRecOn (motive := fun state => member ∈ state.1.hash) args.members
    (zaddMember args) ?_ fun state hState item _ => zaddMember_mem item hState⟩
  exact hMember

theorem SortedSet.isEmpty_zadd_new_iff (hMembers : args.members ≠ []) :
    (new.zadd args).1.isEmpty = false ↔ args.xx = false := by
  constructor
  · intro hAdded
    by_contra hXx
    rw [Bool.not_eq_false] at hXx
    have hEmpty : (args.members.foldl (zaddMember args) (new, 0, 0)).1 = new := by
      refine List.foldlRecOn (motive := fun state => state.1 = new) args.members
        (zaddMember args) ?_ fun state hState item _ => ?_
      · rfl
      · have hLookup : state.1.hash.lookup item.1 = none := by rw [hState]; rfl
        simp only [zaddMember, hLookup, hXx, if_true]
        exact hState
    have hNew : (new.zadd args).1 = new := hEmpty
    rw [hNew] at hAdded
    cases hAdded
  · intro hXx
    rw [isEmpty_eq_false_iff]
    exact foldl_of_step (P := fun state : SortedSet × Nat × Nat => ∃ member, member ∈ state.1.hash)
      hMembers (fun state item => ⟨item.1, mem_zaddMember hXx state item⟩) (new, 0, 0)

theorem SortedSet.isEmpty_of_zincrby {zset after : SortedSet} {member : Bytes}
    {increment score : Float} (hAfter : zset.zincrby member increment = some (after, score)) :
    after.isEmpty = false := by
  rw [isEmpty_eq_false_iff]
  refine ⟨member, ?_⟩
  unfold zincrby at hAfter
  cases hLookup : zset.hash.lookup member <;> simp only [hLookup] at hAfter <;>
    split_ifs at hAfter <;> cases hAfter
  all_goals first
    | exact Finmap.mem_of_lookup_eq_some hLookup
    | exact Finmap.mem_insert.mpr (.inl rfl)

theorem SetReq.nonEmpty_data (req : SetReq) : req.data.NonEmpty := by
  unfold data
  split <;> trivial

variable (state : HashObject × Nat) (field : Bytes)

theorem HDelReq.mem_removeField (other : Bytes) :
    other ∈ (removeField state field).1 ↔ other ∈ state.1 ∧ other ≠ field := by
  unfold removeField
  split
  · rw [Finmap.mem_erase, and_comm]
  next hMissing =>
    have hField : field ∉ state.1 := by simpa [← Finmap.lookup_eq_none] using hMissing
    exact ⟨fun hOther => ⟨hOther, fun hEq => hField (hEq ▸ hOther)⟩, And.left⟩

theorem HDelReq.mem_foldl_removeField (fields : List Bytes) (state : HashObject × Nat)
    (field : Bytes) :
    field ∈ (fields.foldl removeField state).1 ↔ field ∈ state.1 ∧ field ∉ fields := by
  induction fields generalizing state with
  | nil => simp
  | cons first rest ih =>
    rw [List.foldl_cons, ih, mem_removeField, List.mem_cons, not_or, and_assoc]

theorem HDelReq.removeField_counted :
    (removeField state field).2 = state.2 + 1 ∨ removeField state field = state := by
  unfold removeField
  split
  · exact .inl rfl
  · exact .inr rfl

theorem SRemReq.removeMember_counted (state : Finset Bytes × Nat) (member : Bytes) :
    (removeMember state member).2 = state.2 + 1 ∨ removeMember state member = state := by
  by_cases hMember : member ∈ state.1
  · exact .inl (if_pos hMember)
  · exact .inr (by simp [removeMember, hMember])

/-! ### Operations -/

/-- The collection of a certain kind under a key. -/
def Cache.View.contents {Collection : Type} (view : View)
    (kind : ValueObject → Option Collection) (db : Nat) (key : Bytes) : Option Collection :=
  (view.live db key).bind fun entry => kind entry.value.data

variable {key : Bytes} {entry : Entry}

theorem Cache.View.contents_of_live {Collection : Type} (view : View)
    {kind : ValueObject → Option Collection} {db : Nat} (hLive : view.live db key = some entry) :
    view.contents kind db key = kind entry.value.data := by
  simp [contents, hLive]

/-- What the parsers make of a request: the commands that add to a collection name
something to add, and an insert is made by other commands only. -/
def BaseOperation.Proper : BaseOperation → Prop
  | .lPush req => req.elements ≠ []
  | .rPush req => req.elements ≠ []
  | .hSet req => req.elements ≠ []
  | .hMSet req => req.fields ≠ []
  | .sAdd req => req.elements ≠ []
  | .zAdd req => req.args.members ≠ []
  | .insert _ => False
  | _ => True

/-- Such operations stand alone or in a transaction, which is no part of another. -/
def Operation.Proper : Operation → Prop
  | .base operation => operation.Proper
  | .redis (.redisExec _) => False
  | _ => True

/-- The commands that insert what they have taken something from leave something in
it, and ZADD XX does not meet a missing key. -/
def BaseOperation.LeavesSome (view : Cache.View) (db : Nat) : BaseOperation → Prop
  | .lPop req => ∀ list, view.contents ValueObject.asList db req.key = some list → 1 < list.length
  | .rPop req => ∀ list, view.contents ValueObject.asList db req.key = some list → 1 < list.length
  | .lRem req => ∀ list, view.contents ValueObject.asList db req.key = some list →
      (req.removeElements list).1 ≠ []
  | .lTrim req => ∀ list, view.contents ValueObject.asList db req.key = some list →
      req.trimmed list ≠ []
  | .hDel req => ∀ map, view.contents ValueObject.asHash db req.key = some map →
      ∃ field, field ∈ map ∧ field ∉ req.fields
  | .zPopMin req => ∀ zset, view.contents ValueObject.asZSet db req.key = some zset →
      (zset.zpopMin req.count).1.isEmpty = false
  | .zAdd req => view.live db req.key = none → req.args.xx = false
  | _ => True

/-! ### Requests -/

open Parsed (argument error_bind guard_eq_ok bind_eq_ok map_eq_ok okOr_eq_ok)

theorem restArguments_ne_nil {start : Nat} {name : String} {arguments : List Bytes}
    (hLength : start < items.length) (hArguments : restArguments items start name = .ok arguments) :
    arguments ≠ [] := by
  have hMap := okOr_eq_ok.mp hArguments
  rw [List.drop_eq_getElem_cons hLength, List.mapM_cons] at hMap
  obtain ⟨first, -, hMap⟩ := Option.bind_eq_some_iff.mp hMap
  obtain ⟨rest, -, hMap⟩ := Option.bind_eq_some_iff.mp hMap
  cases hMap
  exact List.cons_ne_nil first rest

theorem parseFields_ne_nil {fields : List (Bytes × Bytes)} (hLength : 1 < items.length)
    (hFields : parseFields items = .ok fields) : fields ≠ [] := by
  match items, hLength with
  | field :: value :: rest, _ =>
    obtain ⟨_, -, hFields⟩ := bind_eq_ok.mp hFields
    obtain ⟨_, -, hFields⟩ := bind_eq_ok.mp hFields
    obtain ⟨_, -, hFields⟩ := bind_eq_ok.mp hFields
    cases hFields
    exact List.cons_ne_nil _ _

theorem ZAddReq.parseMembers_ne_nil {members : List (Bytes × Float)} (hLength : 1 < items.length)
    (hMembers : parseMembers items = .ok members) : members ≠ [] := by
  match items, hLength with
  | score :: member :: rest, _ =>
    obtain ⟨_, -, hMembers⟩ := bind_eq_ok.mp hMembers
    obtain ⟨_, -, hMembers⟩ := bind_eq_ok.mp hMembers
    obtain ⟨_, -, hMembers⟩ := bind_eq_ok.mp hMembers
    cases hMembers
    exact List.cons_ne_nil _ _

/-- The parsers of LPUSH, RPUSH and SADD: a key and at least one more item. -/
theorem parse_rest_ne_nil {Req : Type} {make : Bytes → List Bytes → Req} {command name : String}
    {req : Req} (hParse : (do
      if items.length < 3 then .error (.wrongArgCount command)
      let key ← argument items 1 "key"
      pure (make key (← restArguments items 2 name)) : Parsed Req) = .ok req) :
    ∃ key arguments, arguments ≠ [] ∧ req = make key arguments := by
  simp only [error_bind, guard_eq_ok, bind_eq_ok] at hParse
  obtain ⟨hLength, key, -, arguments, hArguments, hReq⟩ := hParse
  cases hReq
  exact ⟨key, arguments, restArguments_ne_nil (by omega) hArguments, rfl⟩

theorem HSetReq.elements_ne_nil {req : HSetReq} (hParse : parse items = .ok req) :
    req.elements ≠ [] := by
  simp only [parse, error_bind, guard_eq_ok, bind_eq_ok] at hParse
  obtain ⟨hLength, key, -, -, fields, hFields, hReq⟩ := hParse
  cases hReq
  exact parseFields_ne_nil (by rw [List.length_drop]; omega) hFields

theorem HMSetReq.fields_ne_nil {req : HMSetReq} (hParse : parse items = .ok req) :
    req.fields ≠ [] := by
  simp only [parse, error_bind, guard_eq_ok, bind_eq_ok] at hParse
  obtain ⟨hLength, key, -, fields, hFields, hReq⟩ := hParse
  cases hReq
  have hLong : ¬ items.length < 4 := fun hShort => hLength (by simp [hShort])
  exact parseFields_ne_nil (by rw [List.length_drop]; omega) hFields

theorem ZAddReq.members_ne_nil {req : ZAddReq} (hParse : parse items = .ok req) :
    req.args.members ≠ [] := by
  simp only [parse, error_bind, guard_eq_ok, bind_eq_ok] at hParse
  obtain ⟨-, key, -, -, -, hPairs, members, hMembers, hReq⟩ := hParse
  cases hReq
  refine parseMembers_ne_nil ?_ hMembers
  simp only [Bool.or_eq_true, List.isEmpty_iff_length_eq_zero, decide_eq_true_eq] at hPairs
  omega

/-- Every request stands for a proper operation. -/
theorem RaftCommand.proper_raftRequest {command : RaftCommand} {operation : Operation}
    (hRequest : command.raftRequest items = .ok operation) :
    operation.Proper := by
  cases command with
  | lPush | rPush | sAdd =>
    obtain ⟨req, hParse, rfl⟩ := map_eq_ok.mp hRequest
    obtain ⟨key, arguments, hArguments, rfl⟩ := parse_rest_ne_nil hParse
    exact hArguments
  | hSet | hMSet | zAdd =>
    obtain ⟨req, hParse, rfl⟩ := map_eq_ok.mp hRequest
    first
      | exact HSetReq.elements_ne_nil hParse
      | exact HMSetReq.fields_ne_nil hParse
      | exact ZAddReq.members_ne_nil hParse
  | del | unlink =>
    obtain ⟨params, -, rfl⟩ := map_eq_ok.mp hRequest
    unfold oneOrMany
    split <;> trivial
  | _ =>
    obtain ⟨req, -, rfl⟩ := map_eq_ok.mp hRequest
    trivial

theorem RaftCommand.proper_parseRequest {operation : Operation}
    (hRequest : parseRequest items = .ok operation) : operation.Proper := by
  simp only [parseRequest] at hRequest
  split at hRequest
  · cases hRequest
  · split at hRequest
    · exact proper_raftRequest hRequest
    · cases hRequest

namespace Cache

variable {clock : Nat}

section

variable {Collection : Type} {Good : ValueObject → Prop} {key : Bytes}
    {kind : ValueObject → Option Collection} {wrap : Collection → ValueObject} {wrongType : Value}
    {update : Nat → Collection → Outcome Collection × Value} {init : MochaOperation MyValue × Value}

theorem stores_collectionCommand (hKeep : ∀ content kept, kind entry.value.data = some content →
      (update clock content).1 = .keep kept → Good (wrap kept)) :
    Stores Good ((collectionCommand key kind wrap wrongType update init).mutate entry clock).1 := by
  cases hContent : kind entry.value.data with
  | none => simp only [collectionCommand, hContent, Stores]
  | some content =>
    simp only [collectionCommand, hContent]
    cases hOutcome : (update clock content).1 with
    | keep kept => exact hKeep content kept hContent hOutcome
    | drop | refuse => trivial

theorem stores_expireCommand {deadline : Nat → Nat} {condition : Option ExpireCondition}
    (hEntry : Good entry.value.data) :
    Stores Good ((expireCommand key deadline condition).mutate entry clock).1 := by
  simp only [expireCommand]
  split
  · exact hEntry
  · trivial

end

section

variable {view : View} {db : Nat} {order : HashOrder} {operation : BaseOperation}
    {command : ComputeCommand}

theorem stores_counterCommand {step : Int → Int} {start : Int} :
    Stores ValueObject.NonEmpty ((counterCommand key step start).mutate entry clock).1 := by
  simp only [counterCommand]
  split
  · trivial
  · split <;> trivial
  · trivial

/-- On a missing key nothing empty is made, ZADD XX apart. -/
theorem stores_init_nonEmpty (hCommand : operation.computeCommand order = some command)
    (hProper : operation.Proper) (hLeaves : operation.LeavesSome view db)
    (hMissing : view.live db command.key = none) : Stores ValueObject.NonEmpty command.init.1 := by
  cases operation <;> obtain ⟨⟩ := hCommand
  case lPush req | rPush req => exact hProper
  case hSet req =>
    exact foldl_of_step (P := fun state : HashObject × Nat => ∃ field, field ∈ state.1) hProper
      (fun state element => ⟨element.1, Finmap.mem_insert.mpr (.inl rfl)⟩) (∅, 0)
  case hMSet req =>
    exact foldl_of_step (P := fun map : HashObject => ∃ field, field ∈ map) hProper
      (fun map field => ⟨field.1, Finmap.mem_insert.mpr (.inl rfl)⟩) ∅
  case hSetNx req | hIncr req => exact ⟨req.field, (Finmap.mem_singleton ..).mpr rfl⟩
  case sAdd req =>
    exact SAddReq.nonempty_foldl hProper ∅
  case zAdd req => exact (SortedSet.isEmpty_zadd_new_iff hProper).mpr (hLeaves hMissing)
  case zIncrBy req =>
    simp only [ZIncrByReq.computeCommand, collectionCommand]
    split
    next hAfter => exact SortedSet.isEmpty_of_zincrby hAfter
    · trivial
  case insert req => exact hProper.elim
  case bitField req =>
    simp only [BitFieldReq.computeCommand]
    split <;> trivial
  case set req => exact req.nonEmpty_data
  all_goals trivial

/-- Of a collection that is not empty nothing empty is made by a command that leaves
something. -/
theorem stores_mutate_nonEmpty (hCommand : operation.computeCommand order = some command)
    (hProper : operation.Proper) (hLeaves : operation.LeavesSome view db)
    (hLive : view.live db command.key = some entry) (hEntry : entry.value.data.NonEmpty)
    (clock : Nat) : Stores ValueObject.NonEmpty (command.mutate entry clock).1 := by
  obtain ⟨⟨version, data⟩, expireAt⟩ := entry
  cases operation <;> obtain ⟨⟩ := hCommand
  case set req => exact req.nonEmpty_data
  case expire req | pExpire req => exact stores_expireCommand hEntry
  case persist req =>
    simp only [PersistReq.computeCommand]
    split
    · trivial
    · exact hEntry
  case incr req | incrBy req | decr req | decrBy req => exact stores_counterCommand
  case append req | setBit req | bitField req | pfAdd req =>
    simp only [AppendReq.computeCommand, SetBitReq.computeCommand, BitFieldReq.computeCommand,
      PfAddReq.computeCommand]
    repeat' split
    all_goals trivial
  case lPush req | rPush req =>
    refine stores_collectionCommand fun list kept hList hKeep => ?_
    cases hKeep
    exact foldl_of_step (P := (· ≠ [])) hProper (fun list element => by simp) list
  case lPop req | rPop req =>
    refine stores_collectionCommand fun list kept hList hKeep => ?_
    cases hKeep
    have hLength := hLeaves list ((view.contents_of_live hLive).trans hList)
    exact List.ne_nil_of_length_pos (by simp only [List.length_tail, List.length_dropLast]; omega)
  case lRem req | lTrim req =>
    refine stores_collectionCommand fun list kept hList hKeep => ?_
    cases hKeep
    exact hLeaves list ((view.contents_of_live hLive).trans hList)
  case lSet req =>
    refine stores_collectionCommand fun list kept hList hKeep => ?_
    cases data with
    | list items =>
      cases hList
      simp only at hKeep
      split_ifs at hKeep
      cases hKeep
      simpa [ValueObject.NonEmpty] using hEntry
    | _ => cases hList
  case hSet req =>
    refine stores_collectionCommand fun map kept hMap hKeep => ?_
    cases hKeep
    exact foldl_of_step (P := fun state : HashObject × Nat => ∃ field, field ∈ state.1) hProper
      (fun state element => ⟨element.1, Finmap.mem_insert.mpr (.inl rfl)⟩) (map, 0)
  case hMSet req =>
    refine stores_collectionCommand fun map kept hMap hKeep => ?_
    cases hKeep
    exact foldl_of_step (P := fun map : HashObject => ∃ field, field ∈ map) hProper
      (fun map field => ⟨field.1, Finmap.mem_insert.mpr (.inl rfl)⟩) map
  case hSetNx req =>
    refine stores_collectionCommand fun map kept hMap hKeep => ?_
    split_ifs at hKeep
    cases hKeep
    exact ⟨req.field, Finmap.mem_insert.mpr (.inl rfl)⟩
  case hIncr req =>
    refine stores_collectionCommand fun map kept hMap hKeep => ?_
    split at hKeep <;> cases hKeep
    all_goals exact ⟨req.field, Finmap.mem_insert.mpr (.inl rfl)⟩
  case hDel req =>
    refine stores_collectionCommand fun map kept hMap hKeep => ?_
    simp only at hKeep
    split_ifs at hKeep
    cases hKeep
    obtain ⟨field, hField⟩ := hLeaves map ((view.contents_of_live hLive).trans hMap)
    exact ⟨field, (HDelReq.mem_foldl_removeField ..).mpr hField⟩
  case zAdd req =>
    refine stores_collectionCommand fun zset kept hZset hKeep => ?_
    cases hKeep
    cases data with
    | zset members =>
      cases hZset
      exact SortedSet.isEmpty_zadd req.args hEntry
    | _ => cases hZset
  case zRem req =>
    refine stores_collectionCommand fun zset kept hZset hKeep => ?_
    simp only at hKeep
    split_ifs at hKeep with hEmpty
    cases hKeep
    exact Bool.eq_false_of_not_eq_true hEmpty
  case zPopMin req =>
    refine stores_collectionCommand fun zset kept hZset hKeep => ?_
    cases hKeep
    exact hLeaves zset ((view.contents_of_live hLive).trans hZset)
  case zIncrBy req =>
    refine stores_collectionCommand fun zset kept hZset hKeep => ?_
    split at hKeep
    next hAfter =>
      cases hKeep
      exact SortedSet.isEmpty_of_zincrby hAfter
    · cases hKeep
  case sAdd req =>
    refine stores_collectionCommand fun set kept hSet hKeep => ?_
    cases hKeep
    exact SAddReq.nonempty_foldl hProper set
  case sRem req =>
    refine stores_collectionCommand fun set kept hSet hKeep => ?_
    simp only at hKeep
    split_ifs at hKeep with hNone hEmpty
    · cases hKeep
      cases data with
      | set members =>
        cases hSet
        have hSame := (foldl_of_counted SRemReq.removeMember_counted req.members (set, 0)).2
        rw [hSame hNone]
        exact hEntry
      | _ => cases hSet
    · cases hKeep
      exact Finset.nonempty_iff_ne_empty.mpr hEmpty
  case sPop req =>
    refine stores_collectionCommand fun set kept hSet hKeep => ?_
    simp only at hKeep
    split_ifs at hKeep with hCount hSet hRest
    cases hKeep
    exact Finset.nonempty_iff_ne_empty.mpr hRest
  case insert req => exact hProper.elim

/-- What is visible has the property, in a view with the property. -/
theorem View.Holds.of_visible {Good : ValueObject → Prop} (hView : view.Holds Good)
    {data : ValueObject} {deadline : Option Nat}
    (hVisible : view.visible db key = some (data, deadline)) : Good data := by
  obtain ⟨entry, hLive, hEntry⟩ := Option.map_eq_some_iff.mp hVisible
  cases hEntry
  exact hView db key entry hLive

theorem View.Holds.of_contents_hash (hView : view.Holds ValueObject.NonEmpty) {map : HashObject}
    (hMap : view.contents ValueObject.asHash db key = some map) : ∃ field, field ∈ map := by
  obtain ⟨entry, hLive, hKind⟩ := Option.bind_eq_some_iff.mp hMap
  have hEntry := hView db key entry hLive
  cases hData : entry.value.data with
  | hash fields =>
    rw [hData] at hKind hEntry
    cases hKind
    exact hEntry
  | _ =>
    rw [hData] at hKind
    cases hKind

section

variable {update : Update}

/-- A collection that an update keeps is visible afterwards. -/
theorem View.Holds.of_compute_keep {Collection : Type} {Good : ValueObject → Prop}
    {kind : ValueObject → Option Collection} {wrap : Collection → ValueObject} {wrongType : Value}
    {change : Nat → Collection → Outcome Collection × Value} {init : MochaOperation MyValue × Value}
    (hUnexpired : view.Unexpired) {content kept : Collection} (hAfter : (view.compute update
      (collectionCommand key kind wrap wrongType change init)).1.Holds Good)
    (hContent : view.contents kind update.dbNumber key = some content)
    (hKeep : (change update.writeClock content).1 = .keep kept) : Good (wrap kept) := by
  obtain ⟨entry, hLive, hKind⟩ := Option.bind_eq_some_iff.mp hContent
  have hMutate : (collectionCommand key kind wrap wrongType change init).mutate entry
      update.writeClock = (.insert { entry.value with data := wrap kept } entry.getExpirePolicy,
        (change update.writeClock content).2) := by
    simp only [collectionCommand, hKind, hKeep, Outcome.operation]
  exact hAfter.of_visible (hUnexpired.compute_keep hLive hMutate)

/-- A command that leaves nothing makes an empty collection visible. -/
theorem leavesSome_of_compute (hCommand : operation.computeCommand order = some command)
    (hProper : operation.Proper) (hView : view.Holds ValueObject.NonEmpty)
    (hUnexpired : view.Unexpired)
    (hAfter : (view.compute update command).1.Holds ValueObject.NonEmpty) :
    operation.LeavesSome view update.dbNumber := by
  cases operation <;> obtain ⟨⟩ := hCommand
  case lPop req | rPop req =>
    intro list hList
    have hLength := List.length_pos_of_ne_nil (hAfter.of_compute_keep hUnexpired hList rfl)
    simp only [List.length_tail, List.length_dropLast] at hLength
    omega
  case lRem req | lTrim req =>
    intro list hList
    exact hAfter.of_compute_keep hUnexpired hList rfl
  case hDel req =>
    intro map hMap
    by_cases hNone : (req.fields.foldl HDelReq.removeField (map, 0)).2 = 0
    · -- no field is there to be removed
      have hSame := (foldl_of_counted HDelReq.removeField_counted req.fields (map, 0)).2 hNone
      have hFields : ∃ field, field ∈ map := hView.of_contents_hash hMap
      obtain ⟨field, hField⟩ := hFields
      refine ⟨field, (HDelReq.mem_foldl_removeField req.fields (map, 0) field).mp ?_⟩
      rw [hSame]
      exact hField
    · have hRest : ∃ field, field ∈ (req.fields.foldl HDelReq.removeField (map, 0)).1 :=
        hAfter.of_compute_keep hUnexpired hMap (by simp only [if_neg hNone])
      obtain ⟨field, hField⟩ := hRest
      exact ⟨field, (HDelReq.mem_foldl_removeField ..).mp hField⟩
  case zPopMin req =>
    intro zset hZset
    exact hAfter.of_compute_keep hUnexpired hZset rfl
  case zAdd req =>
    intro hMissing
    have hMade := hAfter.of_visible (compute_of_missing hMissing rfl).2
    exact (SortedSet.isEmpty_zadd_new_iff hProper).mp hMade
  all_goals trivial

end
end
end Cache
end CacheCat
