import Mathlib.Tactic.Linarith
import CacheCat.Cache.SetFamily

/-! Deadlines in exact numbers, and what the commands make of them in wrapping `u64`
arithmetic, where a deadline of zero may stand for none. -/
namespace CacheCat

/-- The deadline that an option of SET means at this clock. -/
def Expiration.exact (clock : Nat) : Expiration → Option Nat
  | .ex seconds => some (clock + 1000 * seconds)
  | .px millis => some (clock + millis)
  | .exAt timestamp => some (1000 * timestamp)
  | .pxAt timestamp => some timestamp
  | .keepTTL => none

/-- SET computes the deadline that its option means, in `u64`. -/
theorem SetParams.expiresAt_eq {params : SetParams} {expiration : Expiration} {clock exact : Nat}
    (hExpiration : params.expiration = some expiration)
    (hExact : expiration.exact clock = some exact)
    (hFits : ∀ timestamp, expiration = .pxAt timestamp → timestamp < 2 ^ 64)
    (entry : Option Entry) :
    params.expiresAt clock entry = Text.wrapU64 exact := by
  simp only [expiresAt, hExpiration]
  cases expiration with
  | ex seconds | exAt seconds =>
    cases hExact
    simp only [Cache.Expiration.expiresAt, Nat.mul_comm]
  | px millis =>
    cases hExact
    rfl
  | pxAt timestamp =>
    cases hExact
    exact (Nat.mod_eq_of_lt (hFits _ rfl)).symm
  | keepTTL => cases hExact

/-- SETEX is parsed with its seconds in milliseconds. -/
theorem SetExParams.expiration_eq {items : List Value} {params : SetExParams} {seconds : Nat}
    (hParse : parse items = .ok params)
    (hSeconds : Parsed.tryParseU64 (Parsed.item items 2) = .ok seconds) :
    params.expiration = Text.wrapU64 (seconds * 1000) := by
  simp only [parse, Parsed.error_bind, Parsed.guard_eq_ok, Parsed.bind_eq_ok] at hParse
  obtain ⟨-, key, -, read, hRead, value, -, hParams⟩ := hParse
  cases hRead.symm.trans hSeconds
  cases hParams
  rfl

/-- PEXPIRE replaces the deadline if its condition holds of the new one. -/
theorem PExpireReq.mutate_eq (req : PExpireReq) (entry : Entry) (clock : Nat) :
    req.computeCommand.mutate entry clock =
      if ExpireCondition.holds req.condition entry.expireAt
        (Text.wrapU64 (clock + req.expiresAt)) then
        (.insert entry.value (.absolute (Text.wrapU64 (clock + req.expiresAt))), .boolean true)
      else (.abort, .boolean false) := by
  simp only [computeCommand, expireCommand, Nat.add_comm]

namespace Cache

/-- What is to be seen of a value with a deadline. -/
def dated (clock : Nat) (data : ValueObject) (deadline : Option Nat) :
    Option (ValueObject × Option Nat) :=
  (some (data, deadline)).filter fun shown => !shown.2.any (· ≤ clock)

theorem dated_none (clock : Nat) (data : ValueObject) : dated clock data none = some (data, none) :=
  rfl

theorem dated_some (clock : Nat) (data : ValueObject) (deadline : Nat) :
    dated clock data (some deadline) =
      if deadline ≤ clock then none else some (data, some deadline) := by
  by_cases hDue : deadline ≤ clock <;> simp [dated, hDue]

section

variable {clock x exact : Nat} {data : ValueObject}

/-- Two deadlines show alike if they are equal or both past. -/
theorem dated_eq_iff : dated clock data (some x) = dated clock data (some exact) ↔
    x = exact ∨ x ≤ clock ∧ exact ≤ clock := by
  rw [dated_some, dated_some]
  split <;> split <;> simp <;> omega

/-- Zero stands for no deadline. -/
theorem dated_zero_iff : dated clock data (if x = 0 then none else some x) =
    dated clock data (some exact) ↔ x ≠ 0 ∧ (x = exact ∨ x ≤ clock ∧ exact ≤ clock) := by
  split
  · next hZero =>
      rw [dated_none, dated_some]
      split <;> simp [hZero]
  · next hZero => rw [dated_eq_iff, and_iff_right hZero]

/-- A deadline in `u64` that may stand for none is right if it does not wrap and is not zero. -/
theorem dated_wrapU64_iff (hClock : clock < 2 ^ 64) :
    dated clock data (if Text.wrapU64 exact = 0 then none else some (Text.wrapU64 exact)) =
      dated clock data (some exact) ↔ 0 < exact ∧ exact < 2 ^ 64 := by
  rw [dated_zero_iff]
  unfold Text.wrapU64
  omega

/-- A deadline in `u64` that is not before the clock is right if it does not wrap. -/
theorem dated_wrapU64_later_iff (hClock : clock < 2 ^ 64) (hLater : clock ≤ exact) :
    dated clock data (some (Text.wrapU64 exact)) = dated clock data (some exact) ↔
      exact < 2 ^ 64 := by
  rw [dated_eq_iff]
  unfold Text.wrapU64
  omega

/-- SETEX multiplies by a thousand twice, and no multiple of a second makes up for it. -/
theorem dated_setEx_iff {seconds : Nat} (hClock : clock < 2 ^ 64) :
    dated clock data
        (if Text.wrapU64 (clock + Text.wrapU64 (seconds * 1000) * 1000) = 0 then none
        else some (Text.wrapU64 (clock + Text.wrapU64 (seconds * 1000) * 1000))) =
      dated clock data (some (clock + 1000 * seconds)) ↔ seconds = 0 ∧ 0 < clock := by
  rw [dated_zero_iff]
  obtain rfl | hPositive := Nat.eq_zero_or_pos seconds
  · unfold Text.wrapU64
    omega
  · refine iff_of_false ?_ (fun hZero => absurd hZero.1 hPositive.ne')
    rintro ⟨-, hEqual | hPast⟩
    · have hLess : Text.wrapU64 (clock + Text.wrapU64 (seconds * 1000) * 1000) < 2 ^ 64 :=
        Nat.mod_lt _ (Nat.two_pow_pos 64)
      rw [hEqual] at hLess
      have hInner : Text.wrapU64 (seconds * 1000) = seconds * 1000 := Nat.mod_eq_of_lt (by omega)
      rw [hInner, Text.wrapU64] at hEqual
      have hQuotient := Nat.div_add_mod (clock + seconds * 1000 * 1000) (2 ^ 64)
      rw [hEqual] at hQuotient
      generalize (clock + seconds * 1000 * 1000) / 2 ^ 64 = quotient at hQuotient
      have hDvd : 2 ^ 61 ∣ 124875 * seconds := ⟨quotient, by linarith⟩
      have hCoprime : Nat.Coprime (2 ^ 61) 124875 := by decide
      have hMultiple := Nat.le_of_dvd hPositive (hCoprime.dvd_of_dvd_mul_left hDvd)
      linarith
    · omega

end

theorem View.visible_write_self (view : View) (db : Nat) (key value : Bytes) (exTime : Nat) :
    (view.write db ⟨key, value, exTime⟩).visible db key =
      dated view.writeClock (stored value) (if exTime = 0 then none else some exTime) := by
  rw [View.visible_write, if_pos ⟨rfl, rfl⟩]
  rfl

theorem View.visible_store_absolute (view : View) (db : Nat) (key : Bytes) (value : MyValue)
    (deadline : Nat) :
    (view.store db key (.insert value (.absolute deadline))).visible db key =
      dated view.writeClock value.data (some deadline) := by
  rw [dated_some]
  by_cases hDue : deadline ≤ view.writeClock <;>
    simp [store, visible, put_live, Mocha.resolveExpireAt, Mocha.EntrySnapshot.expired, hDue,
      Option.filter_some, Entry.view]

variable {Vm : Type} {lua : LuaMachine Vm} {s : State Vm} {update : Update}

/-- The commands that set a deadline do so in wrapping arithmetic: they are exact up to the end
of `u64`, except that SETEX multiplies twice, and that SET takes zero for none. -/
theorem deadline_iff (hMode : ∀ version, update.updateType ≠ .cas version)
    (hDb : update.dbNumber < s.count) (hClock : update.writeClock = s.writeClock)
    (hWord : s.writeClock < 2 ^ 64) (external : Bool) :
    (∀ (params : SetParams) expiration exact, params.expiration = some expiration →
      expiration.exact update.writeClock = some exact →
      (∀ timestamp, expiration = .pxAt timestamp → timestamp < 2 ^ 64) →
      (((machine lua).EveryRun s (redisRequest update external (.redisSet params)) fun t _ =>
          params.refused (s.live update.dbNumber params.key) = true ∧ t.view = s.view ∨
          t.visible update.dbNumber params.key =
            dated s.writeClock (stored params.value) (some exact)) ↔
        params.refused (s.live update.dbNumber params.key) = true ∨ 0 < exact ∧ exact < 2 ^ 64)) ∧
    (∀ items params seconds, SetExParams.parse items = .ok params →
      Parsed.tryParseU64 (Parsed.item items 2) = .ok seconds →
      (((machine lua).EveryRun s (redisRequest update external (.redisSetEx params)) fun t _ =>
          t.visible update.dbNumber params.key =
            dated s.writeClock (stored params.value) (some (update.writeClock + 1000 * seconds))) ↔
        seconds = 0 ∧ 0 < update.writeClock)) ∧
    (∀ key value millis,
      ((machine lua).EveryRun s (redisRequest update external (.redisPSetEx ⟨key, value, millis⟩))
        fun t _ => t.visible update.dbNumber key =
            dated s.writeClock (stored value) (some (update.writeClock + millis))) ↔
        0 < update.writeClock + millis ∧ update.writeClock + millis < 2 ^ 64) ∧
    (∀ operation key (entry : Entry) millis condition, s.live update.dbNumber key = some entry →
      operation = .pExpire ⟨key, millis, condition⟩ ∨
        (∃ seconds, millis = 1000 * seconds ∧ operation = .expire ⟨key, seconds, condition⟩) →
      (((machine lua).EveryRun s (baseRequest update operation) fun t reply =>
          reply = .boolean false ∧ t.view = s.view ∨
          reply = .boolean true ∧ t.visible update.dbNumber key =
            dated s.writeClock entry.value.data (some (update.writeClock + millis))) ↔
        update.writeClock + millis < 2 ^ 64 ∨
          ExpireCondition.holds condition entry.expireAt
            (Text.wrapU64 (update.writeClock + millis)) = false)) ∧
    ∀ key seconds condition, ExpireReq.computeCommand ⟨key, seconds, condition⟩ =
      PExpireReq.computeCommand ⟨key, 1000 * seconds, condition⟩ := by
  have hSame (key : Bytes) (seconds : Nat) (condition : Option ExpireCondition) :
      ExpireReq.computeCommand ⟨key, seconds, condition⟩ =
        PExpireReq.computeCommand ⟨key, 1000 * seconds, condition⟩ := by
    simp only [ExpireReq.computeCommand, PExpireReq.computeCommand, Nat.mul_comm]
  have hView : s.view.writeClock = s.writeClock := rfl
  refine ⟨fun params expiration exact hExpiration hExact hFits => ?_,
    fun items params seconds hParse hSeconds => ?_, fun key value millis => ?_,
    fun operation key entry millis condition hLive hOperation => ?_, hSame⟩
  · refine ((shows_view lua).everyRun_iff ((settles_redisSet hMode hDb params).mpr ⟨rfl, rfl⟩)
      (fun after _ => params.refused (s.live update.dbNumber params.key) = true ∧ after = s.view ∨
        after.visible update.dbNumber params.key = _)).trans ?_
    by_cases hRefused : params.refused (s.view.live update.dbNumber params.key) = true
    · rw [if_pos hRefused]
      exact iff_of_true (.inl ⟨hRefused, rfl⟩) (.inl hRefused)
    · rw [if_neg hRefused]
      refine (or_iff_right fun h => hRefused h.1).trans (Iff.trans ?_ (or_iff_right hRefused).symm)
      rw [SetParams.request, View.visible_write_self, hView,
        SetParams.expiresAt_eq hExpiration hExact hFits, dated_wrapU64_iff hWord]
  · refine ((shows_view lua).everyRun_iff ((settles_redisSetEx hMode hDb _).mpr ⟨rfl, rfl⟩)
      (fun after _ => after.visible update.dbNumber params.key = _)).trans ?_
    rw [View.visible_write_self, hView, hClock, SetExParams.expiration_eq hParse hSeconds,
      dated_setEx_iff hWord]
  · refine ((shows_view lua).everyRun_iff ((settles_redisPSetEx hMode hDb _).mpr ⟨rfl, rfl⟩)
      (fun after _ => after.visible update.dbNumber key = _)).trans ?_
    rw [View.visible_write_self, hView, dated_wrapU64_iff hWord]
  · have hCommand : operation.computeCommand .sorted =
        some (PExpireReq.computeCommand ⟨key, millis, condition⟩) := by
      obtain rfl | ⟨seconds, rfl, rfl⟩ := hOperation
      · rfl
      · rw [← hSame]
        rfl
    refine (everyRun_write (fun after reply => reply = .boolean false ∧ after = s.view ∨
      reply = .boolean true ∧ after.visible update.dbNumber key = _) hCommand hMode hDb).trans ?_
    have hMutate := PExpireReq.mutate_eq ⟨key, millis, condition⟩ entry update.writeClock
    have hFound : s.view.live update.dbNumber
        (PExpireReq.computeCommand ⟨key, millis, condition⟩).key = some entry := hLive
    split at hMutate
    · next hHolds =>
        have hLater : s.writeClock ≤ update.writeClock + millis := by omega
        have hExact := @dated_wrapU64_later_iff _ _ entry.value.data hWord hLater
        rw [← hView, ← s.view.visible_store_absolute update.dbNumber key] at hExact
        have hAccepted : ¬ ExpireCondition.holds condition entry.expireAt
            (Text.wrapU64 (update.writeClock + millis)) = false := by simp [hHolds]
        rw [View.compute_of_live hFound hMutate]
        refine (or_iff_right fun hReply => ?_).trans
          ((and_iff_right rfl).trans (hExact.trans (or_iff_left hAccepted).symm))
        cases hReply.1
    · next hRefused =>
        rw [View.compute_of_live hFound hMutate]
        exact iff_of_true (.inl ⟨rfl, rfl⟩) (.inr (by simpa using hRefused))

/-- PSETEX k 5 a at the clock 0. -/
theorem deadline_iff_pSetEx :
    (machine LuaMachine.none).EveryRun (State.new 1 ()) (redisRequest ⟨0, 0, .none, false⟩ true
      (.redisPSetEx ⟨[107], [97], 5⟩)) fun t _ =>
        t.visible 0 [107] = dated 0 (stored [97]) (some (0 + 5)) := by
  have hMode (version : Nat) : (⟨0, 0, .none, false⟩ : Update).updateType ≠ .cas version := nofun
  have hWord : (State.new 1 ()).writeClock < 2 ^ 64 := by decide
  exact ((deadline_iff hMode Nat.one_pos rfl hWord true).2.2.1 [107] [97] 5).mpr (by decide)

/-- At the clock 0, EXPIRE k 18446744073709552 gives a value 384 milliseconds, SET k a PXAT 0
gives it no deadline, and SETEX k 1 a gives it a thousand seconds. -/
theorem deadlines_wrong :
    (∃ t, (machine LuaMachine.none).Runs (holding (.string [97]))
        (baseRequest ⟨0, 0, .none, false⟩ (.expire ⟨[107], 18446744073709552, none⟩)) t
        (.boolean true) ∧ t.visible 0 [107] = some (.string [97], some 384)) ∧
    (∃ t, (machine LuaMachine.none).Runs (State.new 1 ()) (redisRequest ⟨0, 0, .none, false⟩ true
        (.redisSet ⟨[107], [97], none, false, some (.pxAt 0)⟩)) t .ok ∧
      t.visible 0 [107] = some (.string [97], none)) ∧
    ∃ t, (machine LuaMachine.none).Runs (State.new 1 ()) (redisRequest ⟨0, 0, .none, false⟩ true
        (.redisSetEx ⟨[107], [97], Text.wrapU64 (1 * 1000)⟩)) t .ok ∧
      t.visible 0 [107] = some (.string [97], some 1000000) := by
  exact ⟨⟨_, runs_quietly 10 rfl, rfl⟩, ⟨_, runs_quietly 10 rfl, rfl⟩, _, runs_quietly 10 rfl, rfl⟩

/-- The replies of PTTL and TTL lie between nothing and the time that the write clock leaves, and
TTL rounds up. -/
def Sane (clock deadline : Nat) (pTtl ttl : Value) : Prop :=
  ∃ millis : Nat, pTtl = .integer millis ∧ clock + millis ≤ deadline ∧
    ttl = .integer ((millis + 999) / 1000 : Nat)

theorem sane_iff {clock deadline now : Nat} {entry : Entry}
    (hEntry : entry.expireAt = some deadline) (hDeadline : deadline < 2 ^ 64) (hNow : now < 2 ^ 64)
    (hClock : clock < deadline) :
    Sane clock deadline (PTtlParams.execute now (some entry)) (TtlParams.execute now (some entry)) ↔
      clock ≤ now ∧ now ≤ deadline ∧ deadline < now + 2 ^ 63 := by
  simp only [Sane, PTtlParams.execute, TtlParams.execute, hEntry, Value.integer.injEq]
  unfold asI64 remaining Text.wrapI64 Text.wrapU64
  constructor
  · rintro ⟨millis, hMillis, hLe, -⟩
    omega
  · rintro ⟨hLow, hHigh, hWord⟩
    refine ⟨deadline - now, ?_, by omega, ?_⟩
    · omega
    · omega

/-- TTL and PTTL are sane as long as the physical time at which they are answered lies between the
write clock and the deadline; they answer at any physical time. -/
theorem ttl_iff (lua : LuaMachine Vm) {readClock : Option Nat} {db deadline : Nat} {key : Bytes}
    {entry : Entry} (hDb : db < s.count) (hFound : s.view.found db readClock key = some entry)
    (hEntry : entry.expireAt = some deadline) (hDeadline : deadline < 2 ^ 64) (forScript : Bool) :
    (∀ post : Value → Prop,
      (((machine lua).EveryRun s (readRequest forScript db readClock (.pTtl ⟨key⟩)) fun _ reply =>
          post reply) ↔ ∀ env : Env, post (PTtlParams.execute env.nowMs (some entry))) ∧
      (((machine lua).EveryRun s (readRequest forScript db readClock (.ttl ⟨key⟩)) fun _ reply =>
          post reply) ↔ ∀ env : Env, post (TtlParams.execute env.nowMs (some entry)))) ∧
    ∀ now < 2 ^ 64,
      (Sane s.writeClock deadline (PTtlParams.execute now (some entry))
          (TtlParams.execute now (some entry)) ↔
        s.writeClock ≤ now ∧ now ≤ deadline ∧ deadline < now + 2 ^ 63) := by
  refine ⟨fun post => ⟨?_, ?_⟩, fun now hNow => sane_iff hEntry hDeadline hNow ?_⟩
  · rw [everyRun_read lua readClock post rfl hDb forScript]
    simp only [hFound]
  · rw [everyRun_read lua readClock post rfl hDb forScript]
    simp only [hFound]
  · have hLive := (Option.filter_eq_some_iff.mp hFound).1
    have hAhead : entry.expired s.writeClock = false := s.view_unexpired db key entry hLive
    simpa [Mocha.EntrySnapshot.expired, hEntry] using hAhead

/-- A store with one value that is due at 10. -/
def due : State Unit :=
  (State.new 1 ()).setDatabase 0
    (((State.new 1 ()).databases 0).insert [107] ⟨.new (.string [97]), some 10⟩)

/-- PTTL k and TTL k at the physical time 4. -/
theorem ttl_iff_due :
    Sane 0 10 (PTtlParams.execute 4 (some ⟨.new (.string [97]), some 10⟩))
      (TtlParams.execute 4 (some ⟨.new (.string [97]), some 10⟩)) := by
  have hDb : 0 < due.count := by decide
  have hFound : due.view.found 0 none [107] = some ⟨.new (.string [97]), some 10⟩ := rfl
  have hEntry : (⟨.new (.string [97]), some 10⟩ : Entry).expireAt = some 10 := rfl
  have hIff := (ttl_iff LuaMachine.none hDb hFound hEntry (by decide) false).2 4 (by decide)
  exact hIff.mpr (by decide)

/-- One millisecond after the deadline of a key that is still to be seen, TTL k replies with half
a billion years. -/
theorem ttl_underflow :
    ∃ t, (machine LuaMachine.none).Runs due (readRequest false 0 none (.ttl ⟨[107]⟩)) t
      (.integer 18446744073709552) := by
  have hRun : execute LuaMachine.none { Env.quiet with nowMs := 11 } 10 due
      (readRequest false 0 none (.ttl ⟨[107]⟩)) = some (_, .integer 18446744073709552) := rfl
  exact ⟨_, runs_of_execute hRun⟩

end Cache
end CacheCat
