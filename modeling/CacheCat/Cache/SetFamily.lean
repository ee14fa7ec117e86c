import CacheCat.Cache.Effect

/-! SET and its relatives: which of them write, what they write, and what they
reply. -/
namespace CacheCat

/-- The deadline of the stored entry. -/
def SetReq.deadline (req : SetReq) : Option Nat := if req.exTime = 0 then none else some req.exTime

theorem SetReq.resolveExpireAt_expire (req : SetReq) (clock : Nat) :
    Mocha.resolveExpireAt clock req.expire = req.deadline := by
  unfold expire deadline
  split <;> rfl

/-- What a text is stored as. -/
def stored (value : Bytes) : ValueObject := SetReq.data ⟨[], value, 0⟩

theorem SetReq.data_eq_stored (req : SetReq) : req.data = stored req.value := rfl

namespace SetParams

/-- The condition of NX or XX is not met by what is under the key. -/
def refused (params : SetParams) (found : Option Entry) : Bool :=
  match params.mode with
  | some .nx => found.isSome
  | some .xx => found.isNone
  | none => false

/-- The deadline that the options give; zero is none. -/
def expiresAt (params : SetParams) (clock : Nat) (found : Option Entry) : Nat :=
  match params.expiration with
  | some .keepTTL => (found.bind (·.expireAt)).getD noExpiration
  | some expiration => Cache.Expiration.expiresAt clock expiration
  | none => noExpiration

def request (params : SetParams) (clock : Nat) (found : Option Entry) : SetReq :=
  ⟨params.key, params.value, params.expiresAt clock found⟩

/-- What the state machine replies to a SET. -/
def response (params : SetParams) (found : Option Entry) : Value :=
  if params.get then (Cache.ExistingKey.ofEntry found).oldValue
  else if params.refused found then .bulkString none else .ok

end SetParams

namespace Cache

open Library (Program)

theorem ExistingKey.ofEntry_eq_none {found : Option Entry} :
    ExistingKey.ofEntry found = .none ↔ found = Option.none := by
  cases found with
  | none => simp [ofEntry]
  | some entry => cases hText : entry.value.data.text <;> simp [ofEntry, hText]

/-- The view after a write of SET; the version of an entry that is there counts up. -/
def View.write (view : View) (db : Nat) (req : SetReq) : View :=
  view.put db req.key
    ⟨⟨(view.live db req.key).elim 1 (·.value.version + 1), req.data⟩, req.deadline⟩

/-- The value is to be seen with its deadline as long as that lies ahead. -/
theorem View.visible_write (view : View) (db other : Nat) (req : SetReq) (k : Bytes) :
    (view.write db req).visible other k =
      if other = db ∧ k = req.key then
        (some (req.data, req.deadline)).filter fun shown => !shown.2.any (· ≤ view.writeClock)
      else view.visible other k := by
  unfold write visible
  rw [put_live]
  split
  · by_cases hDue : req.deadline.any (· ≤ view.writeClock) = true
    · simp [Mocha.EntrySnapshot.expired, hDue, Option.filter_some]
    · simp [Mocha.EntrySnapshot.expired, hDue, Option.filter_some, Entry.view]
  · rfl

section

variable {view : View} {post : View → Value → Prop} {update : Update}
    (hMode : ∀ version, update.updateType ≠ .cas version) (hDb : update.dbNumber < view.count)

include hMode hDb

theorem settles_set (req : SetReq) :
    (set update req).Settles View.effect post view ↔ post (view.write update.dbNumber req) .ok := by
  rw [set, settles_executeCompute hMode hDb]
  have hKey : req.computeCommand.key = req.key := rfl
  unfold View.compute View.write
  rw [hKey]
  cases view.live update.dbNumber req.key with
  | none | some entry => simp [SetReq.computeCommand, View.store, req.resolveExpireAt_expire]

variable (params : SetParams) (expiresAt : Nat)

theorem settles_performSet (existing : ExistingKey) :
    (performSet update params expiresAt existing).Settles View.effect post view ↔
      post (view.write update.dbNumber ⟨params.key, params.value, expiresAt⟩)
        (if params.get then existing.oldValue else .ok) := by
  rw [performSet, Program.settles_bind, settles_set hMode hDb]
  rfl

/-- The end of SET, for what is under the key, or for nothing if no option asks. -/
theorem settles_finishSet {found : Option Entry} {existing : ExistingKey}
    (hExisting : existing = .ofEntry found ∨
      existing = .none ∧ params.mode = none ∧ params.get = false) :
    (finishSet update params expiresAt existing).Settles View.effect post view ↔
      post (if params.refused found then view
          else view.write update.dbNumber ⟨params.key, params.value, expiresAt⟩)
        (params.response found) := by
  rcases hExisting with rfl | ⟨rfl, hParams, hGet⟩
  · unfold finishSet SetParams.response SetParams.refused
    simp only [ExistingKey.ofEntry_eq_none]
    cases params.mode with
    | none => simp [settles_performSet hMode hDb]
    | some mode =>
      cases mode with
      | nx => cases found <;> simp [settles_performSet hMode hDb]
      | xx =>
        cases found with
        | none => simp [ExistingKey.ofEntry, ExistingKey.oldValue]
        | some entry => simp [settles_performSet hMode hDb]
  · simp [finishSet, SetParams.response, SetParams.refused, hParams, hGet,
      settles_performSet hMode hDb]

theorem settles_lookupForSet {existing : ExistingKey}
    (hExisting : existing = .ofEntry (view.live update.dbNumber params.key) ∨ existing = .none) :
    (lookupForSet update params expiresAt existing).Settles View.effect post view ↔
      post (if params.refused (view.live update.dbNumber params.key) then view
          else view.write update.dbNumber ⟨params.key, params.value, expiresAt⟩)
        (params.response (view.live update.dbNumber params.key)) := by
  unfold lookupForSet
  split
  · simp only [settles_withDatabase, if_pos hDb, Program.settles_bind, settles_getEntry]
    exact settles_finishSet hMode hDb params expiresAt (.inl rfl)
  next hAsked =>
    refine settles_finishSet hMode hDb params expiresAt ?_
    rcases hExisting with hExisting | hNone
    · exact .inl hExisting
    · -- nothing was looked up because no option needs it
      simp only [hNone, true_and, not_or, Bool.not_eq_true, Option.isSome_eq_false_iff,
        Option.isNone_iff_eq_none] at hAsked
      exact .inr ⟨hNone, hAsked⟩

theorem settles_redisSet :
    (redisSet update params).Settles View.effect post view ↔
      post (if params.refused (view.live update.dbNumber params.key) then view
          else view.write update.dbNumber
            (params.request update.writeClock (view.live update.dbNumber params.key)))
        (params.response (view.live update.dbNumber params.key)) := by
  unfold redisSet SetParams.request SetParams.expiresAt
  cases params.expiration with
  | none => exact settles_lookupForSet hMode hDb params _ (.inr rfl)
  | some expiration =>
    cases expiration with
    | keepTTL =>
      simp only [settles_withDatabase, if_pos hDb, Program.settles_bind, settles_getEntry]
      exact settles_lookupForSet hMode hDb params _ (.inl rfl)
    | _ => exact settles_lookupForSet hMode hDb params _ (.inr rfl)

theorem settles_redisSetNx (params : SetNxParams) :
    (redisSetNx update params).Settles View.effect post view ↔
      if (view.live update.dbNumber params.key).isSome then post view (.bulkString none)
      else post (view.write update.dbNumber ⟨params.key, params.value, noExpiration⟩) .ok := by
  simp only [redisSetNx, settles_withDatabase, if_pos hDb, Program.settles_bind, settles_getEntry]
  cases view.live update.dbNumber params.key with
  | none => simp [settles_set hMode hDb]
  | some entry => simp

theorem settles_redisSetEx (params : SetExParams) :
    (redisSetEx update params).Settles View.effect post view ↔
      post (view.write update.dbNumber ⟨params.key, params.value,
        Text.wrapU64 (update.writeClock + params.expiration * 1000)⟩) .ok := by
  rw [redisSetEx, Program.settles_bind, settles_set hMode hDb]
  rfl

theorem settles_redisPSetEx (params : PSetExParams) :
    (redisPSetEx update params).Settles View.effect post view ↔
      post (view.write update.dbNumber ⟨params.key, params.value,
        Text.wrapU64 (update.writeClock + params.expiration)⟩) .ok := by
  rw [redisPSetEx, Program.settles_bind, settles_set hMode hDb]
  rfl

theorem settles_redisGetSet (params : GetSetParams) :
    (redisGetSet update params).Settles View.effect post view ↔
      if ExistingKey.ofEntry (view.live update.dbNumber params.key) = .otherType then
        post view ProtocolError.wrongType.toValue
      else post (view.write update.dbNumber ⟨params.key, params.value, 0⟩)
        (ExistingKey.ofEntry (view.live update.dbNumber params.key)).oldValue := by
  simp only [redisGetSet, settles_withDatabase, if_pos hDb, Program.settles_bind, settles_getEntry]
  cases ExistingKey.ofEntry (view.live update.dbNumber params.key) with
  | none | data text => simp [settles_set hMode hDb]
  | otherType => simp

end
end Cache
end CacheCat
