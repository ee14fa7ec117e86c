import CacheCat.Raft.Request

/-! The paths on which a request enters the log, up to the call into the
consensus layer. The consensus layer appends the requests it is given unchanged. -/
namespace CacheCat.Raft

variable {Operation : Type}

/-- The two values that a leader stamps a write with. -/
structure LeaderClock where
  readClock : Nat
  physical : Nat
deriving DecidableEq, Repr

def LeaderClock.generateNewWriteClock (node : LeaderClock) : Nat :=
  max node.readClock node.physical

/-- Who submits what: the Redis front end, the two RPC handlers with requests
built by a remote client, and the periodic expiry task. -/
inductive Submission (Operation : Type) where
  | appWrite (operation : Operation) (dbNumber : Fin (2 ^ 16))
  | write (request : Request Operation)
  | batchWrite (requests : List (Request Operation))
  | timedExpiration (empty : Operation)

/-- The requests handed to the log. `batch_write` passes on what it received. -/
def Submission.requests (node : LeaderClock) : Submission Operation → List (Request Operation)
  | appWrite operation dbNumber => [.new node.generateNewWriteClock dbNumber operation]
  | write request => [request.setWriteClock node.generateNewWriteClock]
  | batchWrite requests => requests
  | timedExpiration empty => [.new node.generateNewWriteClock 0 empty]

/-- The same submission with another clock in the requests of the remote client. -/
def Submission.withRemoteClock (clock : Nat) : Submission Operation → Submission Operation
  | write request => write (request.setWriteClock clock)
  | batchWrite requests => batchWrite (requests.map (·.setWriteClock clock))
  | other => other

/-- Every appended entry is stamped by this node: not below its read clock or its
physical time, and whatever clock the remote client had put in. -/
def StampedByLeader (node : LeaderClock) (submission : Submission Operation) : Prop :=
  (∀ request ∈ submission.requests node,
    node.readClock ≤ request.clock ∧ node.physical ≤ request.clock) ∧
  ∀ clock, ((submission.withRemoteClock clock).requests node).map Request.clock =
    (submission.requests node).map Request.clock

/-- The inputs on which the stamp is made and survives the packing: no request
through `batch_write`, and a clock below `2 ^ 48`. -/
def Submission.stamps (node : LeaderClock) : Submission Operation → Prop
  | batchWrite requests => requests = []
  | _ => node.generateNewWriteClock < clockBound

theorem max_le_mod_iff (a b bound : Nat) (hBound : 0 < bound) :
    (a ≤ max a b % bound ∧ b ≤ max a b % bound) ↔ max a b < bound := by
  rw [← Nat.max_le]
  constructor
  · intro h
    exact h.trans_lt (Nat.mod_lt _ hBound)
  · intro h
    rw [Nat.mod_eq_of_lt h]

/-- A request carries a remote clock through `batch_write` as it came. -/
theorem batchWrite_not_stamped (node : LeaderClock) (request : Request Operation)
    (requests : List (Request Operation)) :
    ¬ StampedByLeader node (.batchWrite (request :: requests)) := by
  rintro ⟨-, hClock⟩
  have hSet : ∀ clock, clock % clockBound = request.clock := by
    intro clock
    have h := hClock clock
    simp only [Submission.withRemoteClock, Submission.requests, List.map_cons, List.cons.injEq] at h
    rw [← Request.clock_setWriteClock request clock]
    exact h.1
  have hZero := hSet 0
  have hOne := hSet 1
  rw [← hZero] at hOne
  exact absurd hOne (by decide)

/-- The stamp is made on every path but `batch_write`. -/
theorem stampedByLeader_iff (node : LeaderClock) (submission : Submission Operation) :
    StampedByLeader node submission ↔ submission.stamps node := by
  have hBound : 0 < clockBound := by decide
  cases submission with
  | appWrite operation dbNumber =>
    simp only [StampedByLeader, Submission.withRemoteClock, Submission.requests, List.mem_singleton,
      forall_eq, implies_true, and_true, Request.clock_new _ _ _ dbNumber.isLt]
    exact max_le_mod_iff _ _ _ hBound
  | write request =>
    simp only [StampedByLeader, Submission.withRemoteClock, Submission.requests, List.mem_singleton,
      forall_eq, List.map_cons, List.map_nil, Request.clock_setWriteClock, implies_true, and_true]
    exact max_le_mod_iff _ _ _ hBound
  | batchWrite requests =>
    cases requests with
    | nil => simp [StampedByLeader, Submission.withRemoteClock, Submission.requests,
      Submission.stamps]
    | cons request requests =>
      simp [Submission.stamps, batchWrite_not_stamped node request requests]
  | timedExpiration empty =>
    simp only [StampedByLeader, Submission.withRemoteClock, Submission.requests, List.mem_singleton,
      forall_eq, implies_true, and_true, Request.clock_new _ _ _ (by decide : 0 < 2 ^ 16)]
    exact max_le_mod_iff _ _ _ hBound

/-- One remote request through `batch_write` on a node whose clocks stand at 5:
the entry is appended with the client's clock 0. -/
theorem batchWrite_keeps_remote_clock :
    ¬ StampedByLeader ⟨5, 5⟩ (.batchWrite [Request.new 0 0 ()]) := by
  rintro ⟨hClock, -⟩
  have h := hClock (Request.new 0 0 ()) (by simp [Submission.requests])
  exact absurd h (by decide)

end CacheCat.Raft
