import CacheCat.Protocol.Trip

/-! SETNX, SETEX and PSETEX against the forms of SET that they abbreviate, from the
items of the request to what is visible after it. -/
namespace CacheCat

open Parsed

/-! ### The items of the requests -/

section

variable {name key value option duration : Value} {k v : Bytes} {n : Nat}

section

variable (hKey : key.stringBytesClone = some k)

include hKey

theorem SetNxParams.parse_items : SetNxParams.parse [name, key, value] = .ok ⟨k, k⟩ := by
  simp [parse, argument, item, hKey, okOr, ok_bind]

theorem SetExParams.parse_items (hSeconds : tryParseU64 duration = .ok n) :
    SetExParams.parse [name, key, duration, value] = .ok ⟨k, k, Text.wrapU64 (n * 1000)⟩ := by
  simp [parse, argument, item, hKey, hSeconds, okOr, ok_bind]

section

variable (hValue : value.stringBytesClone = some v)

include hValue

theorem PSetExParams.parse_items (hMillis : tryParseU64 duration = .ok n) :
    PSetExParams.parse [name, key, duration, value] = .ok ⟨k, v, n⟩ := by
  simp [parse, argument, item, hKey, hValue, hMillis, okOr, ok_bind]

theorem SetParams.parse_nx (hOption : word option = .ok "NX") :
    SetParams.parse [name, key, value, option] = .ok ⟨k, v, some .nx, false, none⟩ := by
  simp [parse, argument, item, hKey, hValue, okOr, ok_bind, parseOptions, hOption, parseOption]

theorem SetParams.parse_ex (hOption : word option = .ok "EX")
    (hSeconds : tryParseU64 duration = .ok n) :
    SetParams.parse [name, key, value, option, duration] =
      .ok ⟨k, v, none, false, some (.ex n)⟩ := by
  simp [parse, argument, item, hKey, hValue, okOr, ok_bind, parseOptions, hOption, parseOption,
    parseExpiration, hSeconds, Except.map]

theorem SetParams.parse_px (hOption : word option = .ok "PX")
    (hMillis : tryParseU64 duration = .ok n) :
    SetParams.parse [name, key, value, option, duration] =
      .ok ⟨k, v, none, false, some (.px n)⟩ := by
  simp [parse, argument, item, hKey, hValue, okOr, ok_bind, parseOptions, hOption, parseOption,
    parseExpiration, hMillis, Except.map]

end

end

end

namespace Protocol

open Cache (State View LuaMachine)

variable {Vm : Type}

/-- Both commands are answered, and they leave the same visible state. -/
def SameVisible (lua : LuaMachine Vm) (clock : Nat) (client : Client) (s : State Vm)
    (first second : RaftCommand × List Value) : Prop :=
  (∃ t value, Sends lua clock client first.1 first.2 s t value) ∧
  (∃ t value, Sends lua clock client second.1 second.2 s t value) ∧
    ∀ t value t' value', Sends lua clock client first.1 first.2 s t value →
      Sends lua clock client second.1 second.2 s t' value' →
      ∀ db key, t.visible db key = t'.visible db key

section

variable {lua : LuaMachine Vm} {clock : Nat} {client : Client} {s : State Vm}

theorem sameVisible_iff {first second : RaftCommand × List Value} {view view' : View}
    (hFirst : LeadsTo lua clock client first.1 first.2 s view)
    (hSecond : LeadsTo lua clock client second.1 second.2 s view') :
    SameVisible lua clock client s first second ↔
      ∀ db key, view.visible db key = view'.visible db key := by
  constructor
  · rintro ⟨⟨t, value, hSends⟩, ⟨t', value', hSends'⟩, hSame⟩ db key
    have hVisible := hSame t value t' value' hSends hSends' db key
    change t.view.visible db key = t'.view.visible db key at hVisible
    rwa [hFirst.2 t value hSends, hSecond.2 t' value' hSends'] at hVisible
  · intro hSame
    refine ⟨hFirst.1, hSecond.1, fun t value t' value' hSends hSends' db key => ?_⟩
    change t.view.visible db key = t'.view.visible db key
    rw [hFirst.2 t value hSends, hSecond.2 t' value' hSends']
    exact hSame db key

/-- What is to be seen of a value with a deadline, zero being none. -/
def shownAt (clock : Nat) (value : Bytes) (exTime : Nat) : Option (ValueObject × Option Nat) :=
  if exTime = 0 then some (stored value, none)
  else if exTime ≤ clock then none
  else some (stored value, some exTime)

theorem visible_write_eq_shownAt (view : View) (db other : Nat) (key k value : Bytes)
    (exTime : Nat) :
    (view.write db ⟨key, value, exTime⟩).visible other k =
      if other = db ∧ k = key then shownAt view.writeClock value exTime
      else view.visible other k := by
  rw [View.visible_write]
  have hShown : ((some (SetReq.data ⟨key, value, exTime⟩,
      SetReq.deadline ⟨key, value, exTime⟩)).filter
      fun shown => !shown.2.any (· ≤ view.writeClock)) = shownAt view.writeClock value exTime := by
    unfold shownAt SetReq.deadline
    by_cases hNone : exTime = 0
    · simp [hNone, stored, SetReq.data]
    · by_cases hDue : exTime ≤ view.writeClock
      · simp [hNone, hDue]
      · simp [hNone, hDue, stored, SetReq.data]
  rw [hShown]

/-- Two writes of one key are told apart by what they leave under it. -/
theorem visible_write_eq_iff (view : View) (db : Nat) (key value value' : Bytes)
    (exTime exTime' : Nat) :
    (∀ other k, (view.write db ⟨key, value, exTime⟩).visible other k =
        (view.write db ⟨key, value', exTime'⟩).visible other k) ↔
      shownAt view.writeClock value exTime = shownAt view.writeClock value' exTime' := by
  simp only [visible_write_eq_shownAt]
  constructor
  · intro hSame
    simpa using hSame db key
  · intro hSame other k
    rw [hSame]

/-! ### The comparison -/

theorem shownAt_noExpiration_eq_iff (clock : Nat) (k v : Bytes) :
    shownAt clock k noExpiration = shownAt clock v noExpiration ↔ stored k = stored v := by
  simp [shownAt, noExpiration]

/-- A factor of a thousand more is noticed also where the deadline wraps around. -/
theorem wrapped_ne {now seconds : Nat} (hZero : seconds ≠ 0)
    (hFits : now + 1000 * seconds < 2 ^ 64) :
    (now + seconds * 1000 * 1000) % 2 ^ 64 ≠ now + 1000 * seconds := by
  intro hEq
  have hQuotient := Nat.div_add_mod (now + seconds * 1000 * 1000) (2 ^ 64)
  rw [hEq] at hQuotient
  generalize (now + seconds * 1000 * 1000) / 2 ^ 64 = quotient at hQuotient
  -- both sides of the difference have a factor of eight, and 124875 is odd
  have hOdd : 2 ^ 61 * quotient = 124875 * seconds := by
    clear hFits hZero hEq
    generalize hPower : 2 ^ 61 * quotient = product
    have hEight : 2 ^ 64 * quotient = 8 * product := by
      rw [← hPower, ← Nat.mul_assoc]
      exact congrArg (· * quotient) (by decide)
    rw [hEight] at hQuotient
    omega
  have hCoprime : Nat.Coprime (2 ^ 61) 124875 := Nat.Coprime.pow_left 61 (by decide)
  have hLarge := Nat.le_of_dvd (Nat.pos_of_ne_zero hZero)
    (hCoprime.dvd_of_dvd_mul_left (Dvd.intro quotient hOdd))
  have hSmall : 1000 * seconds < 1000 * 2 ^ 61 := by
    calc 1000 * seconds ≤ now + 1000 * seconds := Nat.le_add_left ..
      _ < 2 ^ 64 := hFits
      _ ≤ 1000 * 2 ^ 61 := by decide
  exact absurd (Nat.lt_of_mul_lt_mul_left hSmall) (Nat.not_lt.mpr hLarge)

/-- The seconds of SETEX are turned into milliseconds twice, and its value is the key: what
it leaves is never what was meant, unless it has expired at once. -/
theorem shownAt_setEx_eq_iff {now seconds : Nat} (k v : Bytes)
    (hFits : now + 1000 * seconds < 2 ^ 64) :
        shownAt now k (Text.wrapU64 (now + Text.wrapU64 (seconds * 1000) * 1000)) =
          shownAt now v (now + 1000 * seconds) ↔
      seconds = 0 ∧ (now = 0 → stored k = stored v) := by
  unfold Text.wrapU64
  have hInner : seconds * 1000 % 2 ^ 64 = seconds * 1000 := Nat.mod_eq_of_lt (by omega)
  rw [hInner]
  by_cases hZero : seconds = 0
  · subst hZero
    have hNow : (now + 0 * 1000 * 1000) % 2 ^ 64 = now := Nat.mod_eq_of_lt (by omega)
    rw [hNow]
    by_cases hStart : now = 0
    · simp [shownAt, hStart]
    · simp [shownAt, hStart]
  · have hAhead : shownAt now v (now + 1000 * seconds) =
        some (stored v, some (now + 1000 * seconds)) := by
      unfold shownAt
      rw [if_neg (by omega), if_neg (by omega)]
    have hOther := wrapped_ne hZero hFits
    rw [hAhead]
    refine iff_of_false ?_ (fun h => hZero h.1)
    unfold shownAt
    split
    · simp
    · split
      · simp
      · intro hSame
        simp only [Option.some.injEq, Prod.mk.injEq] at hSame
        exact hOther hSame.2

end

/-- From the items to the visible state: SETNX and SETEX take the item of the key for the
value, and SETEX multiplies its seconds twice; PSETEX is what it should be. -/
theorem shorthands_same_iff (lua : LuaMachine Vm) {clock : Nat} {client : Client} {s : State Vm}
    {name name' key value nx ex px duration thousandfold millis : Value} {k v : Bytes}
    {seconds n : Nat} (hQueue : client.transactionQueue = none) (hDb : client.dbNumber < s.count)
    (hKey : key.stringBytesClone = some k) (hValue : value.stringBytesClone = some v)
    (hNx : word nx = .ok "NX") (hEx : word ex = .ok "EX") (hPx : word px = .ok "PX")
    (hSeconds : tryParseU64 duration = .ok seconds)
    (hThousandfold : tryParseU64 thousandfold = .ok (1000 * seconds))
    (hMillis : tryParseU64 millis = .ok n)
    (hFits : (stamped s clock).writeClock + 1000 * seconds < 2 ^ 64) :
    (SameVisible lua clock client s (.setNx, [name, key, value])
        (.set, [name', key, value, nx]) ↔
      ((stamped s clock).live client.dbNumber k).isSome ∨ stored k = stored v) ∧
    (SameVisible lua clock client s (.setEx, [name, key, duration, value])
        (.set, [name', key, value, ex, duration]) ↔
      seconds = 0 ∧ ((stamped s clock).writeClock = 0 → stored k = stored v)) ∧
    (SameVisible lua clock client s (.setEx, [name, key, duration, value])
        (.pSetEx, [name', key, thousandfold, value]) ↔
      seconds = 0 ∧ ((stamped s clock).writeClock = 0 → stored k = stored v)) ∧
    SameVisible lua clock client s (.pSetEx, [name, key, millis, value])
      (.set, [name', key, value, px, millis]) := by
  have hSetNx : LeadsTo lua clock client .setNx [name, key, value] s _ :=
    leadsTo_redis hQueue hDb
      (congrArg (RaftCommand.redis .redisSetNx) (SetNxParams.parse_items hKey)) rfl nofun
  have hSetEx : LeadsTo lua clock client .setEx [name, key, duration, value] s _ :=
    leadsTo_redis hQueue hDb
      (congrArg (RaftCommand.redis .redisSetEx) (SetExParams.parse_items hKey hSeconds)) rfl nofun
  have hPSetEx (name duration n) (hMillis : tryParseU64 duration = .ok n) :
      LeadsTo lua clock client .pSetEx [name, key, duration, value] s _ :=
    leadsTo_redis hQueue hDb
      (congrArg (RaftCommand.redis .redisPSetEx) (PSetExParams.parse_items hKey hValue hMillis)) rfl
        nofun
  have hSet (items params) (hParse : SetParams.parse items = .ok params) :
      LeadsTo lua clock client .set items s _ :=
    leadsTo_redis hQueue hDb (congrArg (RaftCommand.redis .redisSet) hParse) rfl nofun
  have hNow : Text.wrapU64 ((stamped s clock).writeClock + 1000 * seconds) =
      (stamped s clock).writeClock + 1000 * seconds := Nat.mod_eq_of_lt hFits
  have hSwapped : Text.wrapU64 ((stamped s clock).writeClock + seconds * 1000) =
      (stamped s clock).writeClock + 1000 * seconds := by
    rw [Nat.mul_comm seconds, hNow]
  refine ⟨?_, ?_, ?_, ?_⟩
  · rw [sameVisible_iff hSetNx (hSet _ _ (SetParams.parse_nx hKey hValue hNx)), View.performRedis,
      View.performRedis, View.setNx]
    cases (stamped s clock).live client.dbNumber k with
    | some entry => simp [SetParams.refused]
    | none =>
      simp only [SetParams.refused, SetParams.request, SetParams.expiresAt, Option.isSome_none,
        Bool.false_eq_true, if_false, false_or]
      rw [visible_write_eq_iff]
      exact shownAt_noExpiration_eq_iff ..
  · rw [sameVisible_iff hSetEx (hSet _ _ (SetParams.parse_ex hKey hValue hEx hSeconds))]
    simp only [View.performRedis, SetParams.refused, SetParams.request, SetParams.expiresAt,
      Bool.false_eq_true, if_false, Cache.Expiration.expiresAt]
    rw [visible_write_eq_iff, hSwapped]
    exact shownAt_setEx_eq_iff k v hFits
  · rw [sameVisible_iff hSetEx (hPSetEx _ _ _ hThousandfold), View.performRedis, View.performRedis,
      visible_write_eq_iff, hNow]
    exact shownAt_setEx_eq_iff k v hFits
  · rw [sameVisible_iff (hPSetEx _ _ _ hMillis)
      (hSet _ _ (SetParams.parse_px hKey hValue hPx hMillis))]
    intro db other
    rfl

/-- PSETEX k 5 v and SET k v PX 5 on an empty store. -/
theorem shorthands_same_pSetEx :
    SameVisible LuaMachine.none 0 (Client.new 0 true) (State.new 1 ())
      (.pSetEx, [.null, .bulkString (some [107]), .integer 5, .bulkString (some [118])])
      (.set, [.null, .bulkString (some [107]), .bulkString (some [118]),
        .simpleString "px", .integer 5]) := by
  have hNx : word (.simpleString "nx") = .ok "NX" := by rfl
  have hEx : word (.simpleString "ex") = .ok "EX" := by rfl
  have hPx : word (.simpleString "px") = .ok "PX" := by rfl
  have hZero : tryParseU64 (.integer 0) = .ok 0 := by rfl
  have hFive : tryParseU64 (.integer 5) = .ok 5 := by rfl
  exact (shorthands_same_iff LuaMachine.none rfl (by decide) rfl rfl hNx hEx hPx hZero hZero hFive
    (by decide)).2.2.2

/-- On an empty store, SETNX k v makes k hold itself, and SETEX k 1 v gives k another
deadline than SET k v EX 1. -/
theorem shorthands_differ :
    ¬ SameVisible LuaMachine.none 0 (Client.new 0 true) (State.new 1 ())
      (.setNx, [.null, .bulkString (some [107]), .bulkString (some [118])])
      (.set, [.null, .bulkString (some [107]), .bulkString (some [118]), .simpleString "NX"]) ∧
    ¬ SameVisible LuaMachine.none 0 (Client.new 0 true) (State.new 1 ())
      (.setEx, [.null, .bulkString (some [107]), .integer 1, .bulkString (some [107])])
      (.set, [.null, .bulkString (some [107]), .bulkString (some [107]), .simpleString "EX",
        .integer 1]) := by
  have hDb : (Client.new 0 true).dbNumber < (State.new 1 ()).count := by decide
  constructor
  all_goals
    intro hSame
    have hVisible := (sameVisible_iff (leadsTo_redis rfl hDb (by rfl) rfl fun _ => rfl)
      (leadsTo_redis rfl hDb (by rfl) rfl fun _ => rfl)).mp hSame 0 [107]
    exact absurd hVisible (by decide +kernel)

end Protocol
end CacheCat
