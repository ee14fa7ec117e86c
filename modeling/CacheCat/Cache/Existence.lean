import CacheCat.Cache.Effect
import CacheCat.Data.GlobLanguage

/-! Which keys the reads find. Entries that a clock has passed stay in the map until a
worker or a lookup takes them out; all reads skip them, but DBSIZE counts them. -/
namespace CacheCat.Cache

open Library (Program Machine)

variable {Vm : Type}

/-! ### What the reads are shown -/

/-- The databases without what has expired at the write clock. -/
structure Listing where
  count : Nat
  table : Nat → Mocha.Table Bytes MyValue

def State.listing (s : State Vm) : Listing := ⟨s.count, s.reclaimed⟩

namespace Listing

variable (listing : Listing) (db : Nat) (readClock : Option Nat)

/-- What the read clock leaves of it. -/
def shown : Mocha.Table Bytes MyValue :=
  (listing.table db).retain fun entry => !readClock.any entry.expired

/-- The queries of the reads, apart from the physical size of a map. -/
def effect (listing : Listing) : (query : Query) → Listing → query.Answer → Prop
  | .databaseCount, after, answer => after = listing ∧ answer = listing.count
  | .getEntry db key, after, answer => after = listing ∧ answer = (listing.table db).lookup key
  | .liveKeys db readClock, after, answer =>
    after = listing ∧ answer = (listing.shown db readClock).keys
  | .reply _ execute, after, answer => after = listing ∧ ∃ env, answer = execute env
  | _, _, _ => False

end Listing

variable (s : State Vm) (db : Nat) (key : Bytes)

theorem State.lookup_reclaimed : (s.reclaimed db).lookup key = s.live db key := by
  simp [State.reclaimed, State.live]

theorem State.shown_eq_unhidden (readClock : Option Nat) :
    s.listing.shown db readClock = s.unhidden db readClock := by
  refine Finmap.ext_lookup fun key => ?_
  simp only [Listing.shown, State.listing, State.unhidden, State.reclaimed,
    Mocha.Table.lookup_retain, Option.filter_filter, Mocha.EntrySnapshot.hidden, Bool.not_or]

theorem listing_dropExpired : (s.dropExpired db key).listing = s.listing := by
  have hTable : (s.dropExpired db key).reclaimed = s.reclaimed := by
    funext other
    refine Finmap.ext_lookup fun k => ?_
    rw [State.lookup_reclaimed, State.lookup_reclaimed, State.live_dropExpired]
  have hCount : (s.dropExpired db key).count = s.count :=
    congrArg View.count (view_dropExpired s db key)
  simp only [State.listing, hTable, hCount]

theorem shows_listing (lua : LuaMachine Vm) : (machine lua).Shows State.listing Listing.effect where
  disturb s t hDisturb := by
    cases hDisturb with
    | expire db key => exact listing_dropExpired s db key
    | interrupt => rfl
  answered s query after answer hEffect := by
    cases query with
    | databaseCount | getEntry | liveKeys | reply => exact ⟨rfl, _, _, .quiet, rfl⟩
    | _ => exact hEffect.elim
  perform s query t answer hPerform hEffect := by
    obtain ⟨env, hHandle⟩ := hPerform
    cases query with
    | databaseCount =>
      cases hHandle
      exact ⟨rfl, rfl⟩
    | getEntry db key =>
      cases hHandle
      exact ⟨listing_dropExpired s db key, (s.lookup_reclaimed db key).symm⟩
    | liveKeys db readClock =>
      cases hHandle
      exact ⟨rfl, by rw [State.shown_eq_unhidden]⟩
    | reply forScript execute =>
      cases hHandle
      exact ⟨rfl, env, rfl⟩
    | _ =>
      obtain ⟨_, _, hFalse⟩ := hEffect
      exact hFalse.elim

/-! ### What the reads reply -/

section

variable {listing : Listing} {db : Nat} {readClock : Option Nat} {forScript : Bool}

theorem settles_getWithReadClock {post : Listing → Option Entry → Prop} (key : Bytes) :
    (getWithReadClock db key readClock).Settles Listing.effect post listing ↔
      post listing ((listing.shown db readClock).lookup key) := by
  have hGet {post : Listing → Option Entry → Prop} :
      (ask (.getEntry db key)).Settles Listing.effect post listing ↔
        post listing ((listing.table db).lookup key) := Program.settles_call fun _ _ => Iff.rfl
  rw [getWithReadClock, Program.settles_bind, hGet, Listing.shown, Mocha.Table.lookup_retain]
  rfl

variable {post : Listing → Value → Prop}

theorem settles_replyOf (execute : Env → Value) (hPost : ∀ env, post listing (execute env)) :
    (ask (.reply forScript execute)).Settles Listing.effect post listing := by
  refine ⟨⟨listing, execute .quiet, rfl, .quiet, rfl⟩, ?_⟩
  rintro after answer ⟨rfl, env, rfl⟩
  exact hPost env

theorem settles_inDatabase {missing : Value} {body : Action Value} (hDb : db < listing.count)
    (hBody : body.Settles Listing.effect post listing) :
    (withDatabase db missing body).Settles Listing.effect post listing := by
  have hCount : (ask .databaseCount).Settles Listing.effect
      (fun after count => (if db < count then body else return missing).Settles Listing.effect post
        after) listing := by
    refine (Program.settles_call fun _ _ => Iff.rfl).mpr ?_
    rwa [if_pos hDb]
  exact Program.settles_bind.mpr hCount

theorem settles_getAll {post : Listing → List (Option Entry) → Prop} (keys : List Bytes) :
    (keys.mapM fun key => getWithReadClock db key readClock).Settles Listing.effect post listing ↔
      post listing (keys.map fun key => (listing.shown db readClock).lookup key) := by
  induction keys generalizing post with
  | nil => rfl
  | cons key keys ih =>
    simp only [List.mapM_cons, Program.settles_bind, settles_getWithReadClock, ih]
    rfl

/-- A read of one key is shown what the two clocks leave of it. -/
theorem settles_executeRead_listing {command : ReadCommand} (hDb : db < listing.count)
    (hPost : ∀ env, post listing
      (command.execute ((listing.shown db readClock).lookup command.key) env)) :
    (executeRead forScript db readClock command).Settles Listing.effect post listing := by
  refine settles_inDatabase hDb ?_
  rw [Program.settles_bind, settles_getWithReadClock]
  exact settles_replyOf _ hPost

theorem settles_executeMultiRead_listing {command : MultiReadCommand} (hDb : db < listing.count)
    (hPost : ∀ env, post listing (command.execute
      (command.keys.map fun key => (listing.shown db readClock).lookup key) env)) :
    (executeMultiRead forScript db readClock command).Settles Listing.effect post listing := by
  refine settles_inDatabase hDb ?_
  rw [Program.settles_bind, settles_getAll]
  exact settles_replyOf _ hPost

/-- KEYS * lists all that is shown, and its matcher does not panic. -/
theorem settles_keys_star (hDb : db < listing.count) (hPost : ∀ env : Env,
      post listing (.ofBytesList (env.order.list (listing.shown db readClock).keys))) :
    (keys forScript db readClock ⟨bytes "*"⟩).Settles Listing.effect post listing := by
  refine settles_inDatabase hDb ?_
  refine (Program.settles_call fun _ _ => Iff.rfl).mpr ?_
  simp only [Glob.isMatch_star, reduceCtorEq, and_false, exists_false, if_false]
  refine settles_replyOf _ fun env => ?_
  rw [List.filter_eq_self.mpr fun key _ => decide_eq_true (Glob.isMatch_star key)]
  exact hPost env

end

section

variable (lua : LuaMachine Vm) (s : State Vm) (db : Nat) (readClock : Option Nat)

/-- The read comes to a reply, and all its replies are of this form. -/
def AlwaysReplies (operation : ReadOperation) (expected : Value → Prop) : Prop :=
  ∀ forScript,
    (∃ t reply, (machine lua).Runs s (readRequest forScript db readClock operation) t reply) ∧
    ∀ t reply, (machine lua).Runs s (readRequest forScript db readClock operation) t reply →
      expected reply

/-- All reads go by one notion of which entries there are. -/
structure ReadsAgree (found : Bytes → Option Entry) : Prop where
  single : ∀ operation command, readHandler operation = .one command →
    AlwaysReplies lua s db readClock operation fun reply =>
      ∃ env, reply = command.execute (found command.key) env
  exists_eq : ∀ key, AlwaysReplies lua s db readClock (.exists ⟨[key]⟩) fun reply =>
    reply = .integer (if (found key).isSome then 1 else 0)
  keys_eq : AlwaysReplies lua s db readClock (.keys ⟨bytes "*"⟩) fun reply =>
    ∃ listed : List Bytes, reply = .ofBytesList listed ∧ listed.Nodup ∧
      ∀ key, key ∈ listed ↔ (found key).isSome
  dbSize_eq : AlwaysReplies lua s db readClock (.dbSize ⟨[]⟩) fun reply =>
    ∀ forScript t listed, (machine lua).Runs s
        (readRequest forScript db readClock (.keys ⟨bytes "*"⟩)) t (.ofBytesList listed) →
      reply = .integer listed.length

/-- No entry of the database is passed by the write clock or by the read clock. -/
def State.NothingHidden (s : State Vm) (db : Nat) (readClock : Option Nat) : Prop :=
  ∀ key entry, (s.databases db).lookup key = some entry →
    entry.hidden s.writeClock readClock = false

end

section

variable {lua : LuaMachine Vm} {s t : State Vm} {db : Nat} {readClock : Option Nat}
    {operation : ReadOperation} {expected : Value → Prop}

theorem alwaysReplies_of_settles
    (hSettles : ∀ forScript, (readRequest forScript db readClock operation).Settles Listing.effect
      (fun _ reply => expected reply) s.listing) :
    AlwaysReplies lua s db readClock operation expected := fun forScript =>
  ⟨(shows_listing lua).exists_run (hSettles forScript), fun _ _ hRun =>
    hRun.settles (shows_listing lua) (hSettles forScript)⟩

/-- Apart from DBSIZE the reads agree in every state. -/
theorem alwaysReplies_single (hDb : db < s.count) {command : ReadCommand}
    (hHandler : readHandler operation = .one command) :
    AlwaysReplies lua s db readClock operation fun reply =>
      ∃ env, reply = command.execute ((s.unhidden db readClock).lookup command.key) env := by
  refine alwaysReplies_of_settles fun forScript => ?_
  simp only [readRequest, hHandler]
  refine settles_executeRead_listing hDb fun env => ⟨env, ?_⟩
  rw [s.shown_eq_unhidden]

theorem alwaysReplies_many (hDb : db < s.count) {command : MultiReadCommand}
    (hHandler : readHandler operation = .many command) :
    AlwaysReplies lua s db readClock operation fun reply => ∃ env, reply = command.execute
      (command.keys.map fun key => (s.unhidden db readClock).lookup key) env := by
  refine alwaysReplies_of_settles fun forScript => ?_
  simp only [readRequest, hHandler]
  refine settles_executeMultiRead_listing hDb fun env => ⟨env, ?_⟩
  rw [s.shown_eq_unhidden]

theorem AlwaysReplies.mono {weaker : Value → Prop}
    (hReplies : AlwaysReplies lua s db readClock operation expected)
    (hWeaker : ∀ reply, expected reply → weaker reply) :
    AlwaysReplies lua s db readClock operation weaker := fun forScript =>
  ⟨(hReplies forScript).1, fun t reply hRun => hWeaker reply ((hReplies forScript).2 t reply hRun)⟩

theorem alwaysReplies_exists (hDb : db < s.count) (key : Bytes) :
    AlwaysReplies lua s db readClock (.exists ⟨[key]⟩) fun reply =>
      reply = .integer (if ((s.unhidden db readClock).lookup key).isSome then 1 else 0) := by
  refine (alwaysReplies_many hDb rfl).mono ?_
  rintro _ ⟨env, rfl⟩
  change ExistsParams.execute [(s.unhidden db readClock).lookup key] = _
  cases (s.unhidden db readClock).lookup key <;> rfl

theorem alwaysReplies_keys (hDb : db < s.count) :
    AlwaysReplies lua s db readClock (.keys ⟨bytes "*"⟩) fun reply =>
      ∃ order : HashOrder, reply = .ofBytesList (order.list (s.unhidden db readClock).keys) := by
  refine alwaysReplies_of_settles fun forScript => ?_
  refine settles_keys_star hDb fun env => ⟨env.order, ?_⟩
  rw [s.shown_eq_unhidden]

theorem State.NothingHidden.unhidden_eq (hShown : s.NothingHidden db readClock) :
    s.unhidden db readClock = s.databases db := by
  refine Finmap.ext_lookup fun key => ?_
  rw [State.unhidden, Mocha.Table.lookup_retain]
  cases hLookup : (s.databases db).lookup key with
  | none => rfl
  | some entry => simp [Option.filter_some, hShown key entry hLookup]

theorem State.nothingHidden_of_card
    (hCard : (s.databases db).keys.card = (s.unhidden db readClock).keys.card) :
    s.NothingHidden db readClock := by
  have hSubset : (s.unhidden db readClock).keys ⊆ (s.databases db).keys := by
    intro key hKey
    rw [Finmap.mem_keys, Finmap.mem_iff] at hKey ⊢
    obtain ⟨entry, hEntry⟩ := hKey
    rw [State.unhidden, Mocha.Table.lookup_retain] at hEntry
    exact ⟨entry, (Option.filter_eq_some_iff.mp hEntry).1⟩
  have hSame := Finset.eq_of_subset_of_card_le hSubset hCard.le
  intro key entry hLookup
  have hKey : key ∈ (s.unhidden db readClock).keys := by
    rw [hSame]
    exact Finmap.mem_of_lookup_eq_some hLookup
  rw [Finmap.mem_keys, Finmap.mem_iff, State.unhidden, Mocha.Table.lookup_retain, hLookup] at hKey
  obtain ⟨shown, hEntry⟩ := hKey
  obtain ⟨hFound, hTest⟩ := Option.filter_eq_some_iff.mp hEntry
  cases hFound
  simpa using hTest

/-- Where nothing is hidden, the worker finds nothing to take out. -/
theorem State.NothingHidden.disturbs (hShown : s.NothingHidden db readClock)
    (hDisturb : Relation.ReflTransGen Disturbs s t) :
    t.databases db = s.databases db ∧ t.count = s.count ∧ t.NothingHidden db readClock := by
  induction hDisturb with
  | refl => exact ⟨rfl, rfl, hShown⟩
  | tail _ hStep ih =>
    obtain ⟨hSame, hCount, hShown⟩ := ih
    cases hStep with
    | expire other key =>
      unfold State.dropExpired
      split
      next hExpired =>
        by_cases hDb : other = db
        · -- the entry would be hidden
          subst hDb
          obtain ⟨entry, hLookup, hDue⟩ := Option.any_eq_true _ _ |>.mp hExpired
          have hEntry := hShown key entry hLookup
          simp [Mocha.EntrySnapshot.hidden, hDue] at hEntry
        · have hOther (map : Mocha.Table Bytes MyValue) (u : State Vm) :
              (u.setDatabase other map).databases db = u.databases db :=
            Function.update_of_ne (Ne.symm hDb) ..
          refine ⟨(hOther _ _).trans hSame, hCount, fun key entry hLookup => ?_⟩
          rw [hOther] at hLookup
          exact hShown key entry hLookup
      · exact ⟨hSame, hCount, hShown⟩
    | interrupt => exact ⟨hSame, hCount, hShown⟩

theorem readRequest_dbSize (forScript : Bool) : readRequest forScript db readClock (.dbSize ⟨[]⟩) =
    .ask .databaseCount fun count =>
      if db < count then .ask (.len forScript db) fun size => .done (.integer size)
      else .done dbNotExist := rfl

/-- DBSIZE counts what is in the map when it looks. -/
theorem runs_dbSize (lua : LuaMachine Vm) (s : State Vm) (hDb : db < s.count) (forScript : Bool) :
    (machine lua).Runs s (readRequest forScript db readClock (.dbSize ⟨[]⟩)) s
      (.integer (s.databases db).keys.card) := by
  rw [readRequest_dbSize]
  refine .perform rfl ⟨.quiet, rfl⟩ ?_
  rw [if_pos hDb]
  exact .perform rfl ⟨.quiet, rfl⟩ (.done _ _)

theorem State.NothingHidden.dbSize (hShown : s.NothingHidden db readClock) (hDb : db < s.count)
    {forScript : Bool} {reply : Value}
    (hRun : (machine lua).Runs s (readRequest forScript db readClock (.dbSize ⟨[]⟩)) t reply) :
    reply = .integer (s.databases db).keys.card := by
  rw [readRequest_dbSize] at hRun
  obtain ⟨before, middle, count, hBefore, ⟨env, hCount⟩, hRun⟩ := Machine.Runs.of_ask rfl hRun
  cases hCount
  obtain ⟨hSame, hNumber, hShown⟩ := hShown.disturbs hBefore
  rw [hNumber, if_pos hDb] at hRun
  obtain ⟨late, after, size, hLate, ⟨env, hSize⟩, hRun⟩ := Machine.Runs.of_ask rfl hRun
  cases hSize
  rw [(hShown.disturbs hLate).1, hSame] at hRun
  exact (view_of_runs_done hRun).2

theorem Value.ofBytesList_inj {items items' : List Bytes}
    (hSame : Value.ofBytesList items = .ofBytesList items') : items = items' := by
  have hMaps : items.map (fun item => Value.bulkString (some item)) =
      items'.map fun item => Value.bulkString (some item) := by
    simpa [Value.ofBytesList] using hSame
  exact List.map_injective_iff.mpr (fun a b hItem => by simpa using hItem) hMaps

/-- All reads agree on which keys exist exactly if the map holds no entry that a clock has
passed: the others test the clocks, DBSIZE is the size of the map. -/
theorem readsAgree_iff_nothingHidden (hDb : db < s.count) :
    (∃ found, ReadsAgree lua s db readClock found) ↔ s.NothingHidden db readClock := by
  have hListed : AlwaysReplies lua s db readClock (.keys ⟨bytes "*"⟩) fun reply =>
      ∃ order : HashOrder, reply = .ofBytesList (order.list (s.unhidden db readClock).keys) :=
    alwaysReplies_keys hDb
  have hLength (order : HashOrder) : (order.list (s.unhidden db readClock).keys).length =
      (s.unhidden db readClock).keys.card := order.length_list _
  constructor
  · rintro ⟨found, hAgree⟩
    -- one run of each: the map has as many entries as there are keys listed
    obtain ⟨⟨t, reply, hKeys⟩, hReplies⟩ := hListed false
    obtain ⟨order, rfl⟩ := hReplies t reply hKeys
    have hSize := (hAgree.dbSize_eq false).2 _ _ (runs_dbSize lua s hDb false) false t _ hKeys
    rw [hLength] at hSize
    refine State.nothingHidden_of_card ?_
    exact_mod_cast Value.integer.inj hSize
  · intro hShown
    refine ⟨fun key => (s.unhidden db readClock).lookup key, ?_, ?_, ?_, ?_⟩
    · intro operation command hHandler
      exact alwaysReplies_single hDb hHandler
    · exact alwaysReplies_exists hDb
    · intro forScript
      obtain ⟨hRun, hReplies⟩ := hListed forScript
      refine ⟨hRun, fun t reply hRun => ?_⟩
      obtain ⟨order, rfl⟩ := hReplies t reply hRun
      refine ⟨_, rfl, ?_, fun key => ?_⟩
      · rw [← Multiset.coe_nodup, order.list_val]
        exact (s.unhidden db readClock).keys.nodup
      · rw [order.mem_list, Finmap.mem_keys, Finmap.lookup_isSome]
    · intro forScript
      refine ⟨⟨s, _, runs_dbSize lua s hDb forScript⟩,
        fun t reply hRun forScript' t' listed hKeys => ?_⟩
      obtain ⟨order, hSame⟩ := (hListed forScript').2 t' _ hKeys
      rw [hShown.dbSize hDb hRun, Value.ofBytesList_inj hSame, hLength, hShown.unhidden_eq]

/-- A store with one live key. -/
theorem readsAgree_holding :
    ∃ found, ReadsAgree LuaMachine.none (holding (.int 1)) 0 (some 5) found := by
  have hDb : 0 < (holding (.int 1)).count := by decide
  refine (readsAgree_iff_nothingHidden hDb).mpr ?_
  intro key entry hLookup
  have hEntry : entry = ⟨.new (.int 1), none⟩ := by
    by_cases hKey : key = [107]
    · subst hKey
      cases hLookup
      rfl
    · have hMissing : ((holding (.int 1)).databases 0).lookup key = none :=
        (Finmap.lookup_insert_of_ne _ hKey).trans (Finmap.lookup_empty _)
      rw [hMissing] at hLookup
      cases hLookup
  subst hEntry
  rfl

/-- After UNLINK of the only key, KEYS * lists nothing and DBSIZE is one. -/
theorem dbSize_after_unlink :
    ∃ s, (machine LuaMachine.none).Runs (holding (.int 1))
        (baseRequest ⟨0, 0, .none, false⟩ (.unlink ⟨[107]⟩)) s (.integer 1) ∧
      (machine LuaMachine.none).Runs s (readRequest false 0 none (.keys ⟨bytes "*"⟩)) s
        (.ofBytesList []) ∧
      (machine LuaMachine.none).Runs s (readRequest false 0 none (.dbSize ⟨[]⟩)) s
        (.integer 1) := by
  exact ⟨_, runs_quietly 10 rfl, runs_quietly 10 rfl, runs_quietly 10 rfl⟩

end
end CacheCat.Cache
