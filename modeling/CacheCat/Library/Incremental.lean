import Mathlib.Data.List.Forall2

/-! Readers of a buffer that is still being filled. A reader looks at the front of the
buffer and either gives an answer or waits for more. It is sound if an answer is final:
it does not depend on what follows, and it lies within what is there. A decoder takes
one item after the other from the front; from the soundness of its reader follows that
it does not matter how the input was cut into chunks. -/
namespace Library

variable {Symbol A B : Type}

/-- What `early` answers on a buffer of up to `within` symbols, `late` answers too,
whatever has been appended meanwhile. The answer covers `size` symbols of the buffer,
and not fewer than `least`. -/
def SoundReader (within least : Nat) (size : A → Nat) (early late : List Symbol → Option A) :
    Prop :=
  ∀ buffer rest a, buffer.length ≤ within → early buffer = some a →
    late (buffer ++ rest) = some a ∧ least ≤ size a ∧ size a ≤ buffer.length

namespace SoundReader

variable {within least : Nat} {size : A → Nat} {early late : List Symbol → Option A}

/-- Go on with what has been read, without another look at the buffer. -/
theorem bind {next : A → Option B} {size' : B → Nat}
    (hRead : SoundReader within least size early late)
    (hNext : ∀ a b, next a = some b → size' b = size a) :
    SoundReader within least size' (fun buffer => (early buffer).bind next)
      (fun buffer => (late buffer).bind next) := by
  intro buffer rest b hWithin hBind
  obtain ⟨a, hEarly, hLast⟩ := Option.bind_eq_some_iff.mp hBind
  obtain ⟨hLate, hLeast, hSize⟩ := hRead buffer rest a hWithin hEarly
  rw [hNext a b hLast]
  exact ⟨Option.bind_eq_some_iff.mpr ⟨a, hLate, hLast⟩, hLeast, hSize⟩

theorem map {f : A → B} {size' : B → Nat} (hRead : SoundReader within least size early late)
    (hSize : ∀ a, size' (f a) = size a) :
    SoundReader within least size' (fun buffer => (early buffer).map f)
      (fun buffer => (late buffer).map f) := by
  intro buffer rest b hWithin hMap
  obtain ⟨a, hEarly, rfl⟩ := Option.map_eq_some_iff.mp hMap
  obtain ⟨hLate, hRest⟩ := hRead buffer rest a hWithin hEarly
  rw [hSize]
  exact ⟨Option.map_eq_some_iff.mpr ⟨a, hLate, rfl⟩, hRest⟩

end SoundReader

/-- Takes one item from the front of a buffer, if a whole one is there. -/
structure Decoder (Symbol A : Type) where
  take : List Symbol → Option (A × List Symbol)
  length_lt : ∀ {buffer a rest}, take buffer = some (a, rest) → rest.length < buffer.length
  append : ∀ {buffer a rest} (more : List Symbol), take buffer = some (a, rest) →
    take (buffer ++ more) = some (a, rest ++ more)

namespace Decoder

variable (decoder : Decoder Symbol A)

/-- Take items until there is no whole one: the items and what is left. -/
def drain (buffer : List Symbol) : List A × List Symbol :=
  match _hTake : decoder.take buffer with
  | none => ([], buffer)
  | some (a, rest) => (a :: (drain rest).1, (drain rest).2)
termination_by buffer.length
decreasing_by all_goals exact decoder.length_lt _hTake

variable {decoder}

theorem drain_of_none {buffer : List Symbol} (hTake : decoder.take buffer = none) :
    decoder.drain buffer = ([], buffer) := by
  rw [drain]
  split
  · rfl
  next h => rw [hTake] at h; cases h

theorem drain_of_some {buffer : List Symbol} {a : A} {rest : List Symbol}
    (hTake : decoder.take buffer = some (a, rest)) :
    decoder.drain buffer = (a :: (decoder.drain rest).1, (decoder.drain rest).2) := by
  rw [drain]
  split
  next h => rw [hTake] at h; cases h
  next h =>
    rw [hTake] at h
    cases h
    rfl

/-- Draining before more has arrived takes nothing away from what follows. -/
theorem drain_append (buffer more : List Symbol) :
    decoder.drain (buffer ++ more) =
      ((decoder.drain buffer).1 ++ (decoder.drain ((decoder.drain buffer).2 ++ more)).1,
        (decoder.drain ((decoder.drain buffer).2 ++ more)).2) := by
  fun_induction decoder.drain buffer with
  | case1 buffer hTake => rfl
  | case2 buffer a rest hTake ih =>
    rw [drain_of_some (decoder.append more hTake), ih]
    rfl

/-- A sequence of whole items is taken apart into them. -/
theorem exists_drain_flatten {chunks : List (List Symbol)}
    (hTake : ∀ chunk ∈ chunks, ∃ a, decoder.take chunk = some (a, []))
    (hEmpty : decoder.take [] = none) :
    ∃ items, decoder.drain chunks.flatten = (items, []) ∧
      List.Forall₂ (fun chunk a => decoder.take chunk = some (a, [])) chunks items := by
  induction chunks with
  | nil => exact ⟨[], drain_of_none hEmpty, .nil⟩
  | cons chunk chunks ih =>
    simp only [List.mem_cons, forall_eq_or_imp] at hTake
    obtain ⟨a, hFirst⟩ := hTake.1
    obtain ⟨items, hDrain, hItems⟩ := ih hTake.2
    refine ⟨a :: items, ?_, .cons hFirst hItems⟩
    rw [List.flatten_cons, drain_of_some (decoder.append _ hFirst), List.nil_append, hDrain]

/-- The buffer after one more chunk has arrived and been drained. -/
def receive (decoder : Decoder Symbol A) (state : List A × List Symbol) (chunk : List Symbol) :
    List A × List Symbol :=
  (state.1 ++ (decoder.drain (state.2 ++ chunk)).1, (decoder.drain (state.2 ++ chunk)).2)

variable (decoder)

theorem foldl_receive (chunks : List (List Symbol)) (items : List A) (buffer : List Symbol) :
    chunks.foldl decoder.receive (items ++ (decoder.drain buffer).1, (decoder.drain buffer).2) =
      (items ++ (decoder.drain (buffer ++ chunks.flatten)).1,
        (decoder.drain (buffer ++ chunks.flatten)).2) := by
  induction chunks generalizing buffer with
  | nil => simp
  | cons chunk chunks ih =>
    have hChunk : decoder.receive (items ++ (decoder.drain buffer).1,
        (decoder.drain buffer).2) chunk = (items ++ (decoder.drain (buffer ++ chunk)).1,
          (decoder.drain (buffer ++ chunk)).2) := by
      rw [receive, drain_append buffer chunk, List.append_assoc]
    rw [List.foldl_cons, hChunk, ih, List.flatten_cons, List.append_assoc]

/-- The items and the rest do not depend on how the input was cut. -/
theorem foldl_receive_eq_drain (hEmpty : decoder.take [] = none) (chunks : List (List Symbol)) :
    chunks.foldl decoder.receive ([], []) = decoder.drain chunks.flatten := by
  have hStart := foldl_receive decoder chunks [] []
  rw [drain_of_none hEmpty] at hStart
  simpa using hStart

end Decoder
end Library
