import WasmText.Proofs.Buffer.Ending
import WasmText.Proofs.Buffer.Failing

/-!
# How far a window grows

A window grows when the bytes from the start of the token up to the one that is asked for do not fit
into it. A refill fills it up, or leaves too little room for the padding; so a window that has to grow
is hardly larger than what is asked for, and doubling it makes it at most twice as large as that and
the padding need. However long the source is, the longest token bounds the window.
-/

namespace WasmText

namespace Buffer

variable {buffer before after later : Buffer} {ahead need span : Nat}

/-! ### How far an operation looks -/

/-- The number of bytes from the start of the token up to the byte `ahead` of the cursor, that byte
included, if it has yet to be brought into the window. What is in the window can be looked at for
nothing, and what no refill can bring is not asked for. -/
def missing (ahead : Nat) (buffer : Buffer) : Nat :=
  if buffer.Settled ahead then 0 else buffer.cursor + ahead + 1 - buffer.token

/-- The largest number of bytes that are missing when at most `count` bytes are stepped over as long
as they are accepted. -/
def eatSpan (accepts : UInt8 → Bool) : Nat → Buffer → Nat
  | 0, _ => 0
  | count + 1, buffer =>
    match buffer.isEndAt 0 with
    | (true, _) => buffer.missing 0
    | (false, after) =>
      if accepts (after.byteAt after.cursor) then
        max (buffer.missing 0) (eatSpan accepts count { after with cursor := after.cursor + 1 })
      else
        buffer.missing 0

end Buffer

namespace Operation

/-- The largest number of bytes that are missing in the course of an operation. -/
def span : Operation → Buffer → Nat
  | advance count, buffer => buffer.eatSpan (fun _ => true) count
  | peek ahead, buffer | isEndAt ahead, buffer => buffer.missing ahead
  | eatWhile accepts, buffer => buffer.eatSpan accepts (buffer.remaining + 1)
  | skipUntil wanted, buffer =>
    max (buffer.eatSpan (fun byte => !wanted byte) (buffer.remaining + 1))
      ((buffer.eatWhile fun byte => !wanted byte).missing 0)
  | _, _ => 0

/-- Whether an operation is a refill on request, rather than one that an operation needs. -/
def isRefill : Operation → Bool
  | refill _ => true
  | _ => false

end Operation

namespace Buffer

variable {buffer before after later : Buffer} {ahead need span : Nat}

/-- What a buffer comes to by operations that miss no byte more than `span` bytes from the start of
the token. Between them its failure may be taken, and its source be used for anything else. -/
inductive Used (span : Nat) (buffer : Buffer) : Buffer → Prop
  | here : Used span buffer buffer
  | operation {later : Buffer} (operation : Operation) (driven : operation.isRefill = false)
      (within : operation.span later ≤ span) (used : Used span buffer later) :
      Used span buffer (operation.onBuffer later).2
  | takeFailure {later : Buffer} (used : Used span buffer later) :
      Used span buffer later.takeFailure.2
  | source {later : Buffer} (source : Source) (used : Used span buffer later) :
      Used span buffer { later with source }

/-! ### Doubling -/

/-- Doubling goes no further than it has to. -/
theorem doubled_eq_some {old shortage doublings capacity grown : Nat}
    (doubled_eq : doubled old shortage doublings capacity = some grown) :
    ∃ times, grown = capacity * 2 ^ times ∧
      (grown = capacity ∨ grown < 2 * (old + shortage)) := by
  induction doublings generalizing capacity with
  | zero => cases doubled_eq
  | succ doublings induction =>
      rw [doubled] at doubled_eq
      split at doubled_eq
      · split at doubled_eq
        · obtain ⟨times, grown_eq, least⟩ := induction doubled_eq
          refine ⟨times + 1, ?_, .inr ?_⟩
          · rw [grown_eq, Nat.pow_succ]
            ring
          · omega
        · cases doubled_eq
      · cases doubled_eq
        exact ⟨0, (Nat.mul_one _).symm, .inl rfl⟩

/-- A window grows by doubling its capacity, or the one that it is to allocate first. -/
theorem power_of_grownCapacity {free capacity : Nat}
    (grown : buffer.grownCapacity? need free = some capacity) :
    (buffer.capacity = 0 ∧ ∃ times, capacity = buffer.initialCapacity * 2 ^ times) ∨
      ∃ times, capacity = buffer.capacity * 2 ^ times := by
  unfold grownCapacity? at grown
  split at grown
  · rename_i unallocated
    obtain ⟨times, capacity_eq, -⟩ := doubled_eq_some grown
    exact .inl ⟨unallocated, times, capacity_eq⟩
  · split at grown
    · obtain ⟨times, capacity_eq, -⟩ := doubled_eq_some grown
      refine .inr ⟨times + 1, ?_⟩
      rw [capacity_eq, Nat.pow_succ]
      ring
    · cases grown

/-- One doubling is always made, and any further one for want of room. -/
theorem least_of_grownCapacity {free capacity : Nat}
    (grown : buffer.grownCapacity? need free = some capacity) :
    capacity ≤ max buffer.initialCapacity (2 * buffer.capacity) ∨
      capacity < 2 * (buffer.capacity + (need + paddingSize - free)) := by
  unfold grownCapacity? at grown
  split at grown
  · rename_i unallocated
    obtain ⟨-, -, least⟩ := doubled_eq_some grown
    omega
  · split at grown
    · obtain ⟨-, -, least⟩ := doubled_eq_some grown
      omega
    · cases grown

theorem capacity_makeRoom {roomy : Buffer} (made : buffer.makeRoom need = .ok roomy) :
    roomy.capacity = buffer.capacity ∨
      (buffer.token - buffer.base < need ∧
        buffer.grownCapacity? need (buffer.token - buffer.base) = some roomy.capacity) := by
  by_cases scarce : buffer.token - buffer.base < need
  · rw [makeRoom_of_scarce scarce] at made
    split at made
    · cases made
    · rename_i capacity grown
      split at made
      · cases made
        exact .inr ⟨scarce, grown⟩
      · cases made
  · rw [makeRoom, if_neg scarce] at made
    cases made
    exact .inl rfl

/-- A refill keeps the capacity, unless dropping what is in front of the token does not make enough
room. -/
theorem capacity_refill (need : Nat) (buffer : Buffer) :
    (buffer.refill need).2.capacity = buffer.capacity ∨
      (buffer.token - buffer.base < need ∧ buffer.grownCapacity? need (buffer.token - buffer.base) =
        some (buffer.refill need).2.capacity) := by
  rcases refill_cases need buffer with
    ⟨-, unchanged⟩ | ⟨_, -, -, unchanged⟩ | ⟨capacity, -, made, -, refill_eq⟩
  · exact .inl (by rw [unchanged])
  · exact .inl (by rw [unchanged])
  · rw [refill_eq, (capacity_readBehind _).1]
    exact capacity_makeRoom made

/-! ### The window only becomes larger -/

/-- There is as much room as before, or more, and the choice of what to allocate first holds. -/
structure Widens (before after : Buffer) : Prop where
  /-- The capacity does not become less. -/
  capacity_le : before.capacity ≤ after.capacity
  /-- The capacity to allocate first stays the one that it was. -/
  initialCapacity_eq : after.initialCapacity = before.initialCapacity

theorem Widens.refl (buffer : Buffer) : Widens buffer buffer :=
  ⟨Nat.le_refl _, rfl⟩

theorem Widens.trans {first second third : Buffer} (left : Widens first second)
    (right : Widens second third) : Widens first third :=
  ⟨Nat.le_trans left.capacity_le right.capacity_le,
    right.initialCapacity_eq.trans left.initialCapacity_eq⟩

theorem widens_refill (need : Nat) (buffer : Buffer) : Widens buffer (buffer.refill need).2 := by
  refine ⟨?_, initialCapacity_refill need buffer⟩
  rcases capacity_refill need buffer with same | ⟨-, grown⟩
  · exact Nat.le_of_eq same.symm
  · rcases power_of_grownCapacity grown with ⟨unallocated, -⟩ | ⟨times, capacity_eq⟩
    · rw [unallocated]
      exact Nat.zero_le _
    · rw [capacity_eq]
      exact Nat.le_mul_of_pos_right _ (Nat.two_pow_pos times)

theorem lasts_widens (before : Buffer) : Lasts (Widens before) where
  reach := fun ahead widens =>
    reachWithin_keeps (Widens before) (fun need widens => widens.trans (widens_refill need _))
      (fun _ _ _ widens => ⟨widens.capacity_le, widens.initialCapacity_eq⟩) widens ahead _
  step := fun widens => ⟨widens.capacity_le, widens.initialCapacity_eq⟩

/-- What to allocate first can be chosen only as long as nothing has been allocated. -/
theorem widens_onBuffer (operation : Operation) (buffer : Buffer) :
    Widens buffer (operation.onBuffer buffer).2 ∨
      (buffer.capacity = 0 ∧ (operation.onBuffer buffer).2.capacity = 0) := by
  have lasts := lasts_widens buffer
  have start := Widens.refl buffer
  cases operation with
  | advance count => exact .inl (lasts.advance start count)
  | peek ahead | isEndAt ahead => exact .inl (lasts.reach ahead start)
  | eatWhile accepts => exact .inl (lasts.eatWhile start accepts)
  | skipUntil wanted => exact .inl (lasts.skipUntil start wanted)
  | beginToken | mark => exact .inl ⟨Nat.le_refl _, rfl⟩
  | tokenBytes | markedBytes | tokenOffset | markerOffset | cursorOffset => exact .inl start
  | refill need => exact .inl (widens_refill need buffer)
  | setInitialCapacity size =>
      change Widens buffer (buffer.setInitialCapacity size) ∨
        (buffer.capacity = 0 ∧ (buffer.setInitialCapacity size).capacity = 0)
      rw [Buffer.setInitialCapacity]
      split
      · rename_i unallocated
        exact .inr ⟨unallocated, unallocated⟩
      · exact .inl start

theorem Used.widens (used : Used span buffer later) (allocated : buffer.capacity ≠ 0) :
    Widens buffer later := by
  induction used with
  | here => exact Widens.refl buffer
  | @operation later operation _ _ _ widens =>
      have still := widens.capacity_le
      rcases widens_onBuffer operation later with further | ⟨unallocated, -⟩
      · exact widens.trans further
      · omega
  | takeFailure _ widens | source _ _ widens =>
      exact ⟨widens.capacity_le, widens.initialCapacity_eq⟩

/-! ### The window stays small -/

/-- A window that is no larger than looking `span` bytes far from the start of a token makes it. -/
structure Frugal (span : Nat) (buffer : Buffer) : Prop where
  /-- The offsets are in order. -/
  framed : buffer.Framed
  /-- As long as bytes may follow, the window is full, but for less than the padding. -/
  snug : buffer.ended = false → buffer.stalled = false →
    buffer.capacity < buffer.window.size + paddingSize
  /-- The capacity has come about by doubling. -/
  doubled : buffer.capacity = 0 ∨
    ∃ times, buffer.capacity = buffer.initialCapacity * 2 ^ times
  /-- It has been doubled only when it had to be. -/
  bounded : buffer.capacity ≤ max buffer.initialCapacity (2 * span + 62)

/-- A refill fills the window, but for less than the padding, or reaches the end. -/
theorem snug_refill (refilled : buffer.refill need = (.ok (), after)) (running : after.ended = false) :
    after.capacity < after.window.size + paddingSize := by
  obtain ⟨capacity, before_running, -, -, read⟩ := exists_dropped refilled
  have roomy_running : (buffer.dropped capacity).ended = false := before_running
  obtain ⟨source, bytes, ended, rfl, -, -, -, filled⟩ := exists_extended roomy_running read
  exact filled running

namespace Frugal

/-- A capacity that has come about by doubling does so again. -/
theorem doubled_refill (frugal : Frugal span buffer) (need : Nat) :
    (buffer.refill need).2.capacity = 0 ∨ ∃ times, (buffer.refill need).2.capacity =
      (buffer.refill need).2.initialCapacity * 2 ^ times := by
  rw [initialCapacity_refill]
  rcases capacity_refill need buffer with same | ⟨-, grown⟩
  · rw [same]
    exact frugal.doubled
  rcases power_of_grownCapacity grown with ⟨-, first⟩ | ⟨times, capacity_eq⟩
  · exact .inr first
  · rcases frugal.doubled with unallocated | ⟨earlier, before_eq⟩
    · rw [unallocated, Nat.zero_mul] at capacity_eq
      exact .inl capacity_eq
    · rw [before_eq, Nat.mul_assoc, ← Nat.pow_add] at capacity_eq
      exact .inr ⟨_, capacity_eq⟩

/-- The window grows only if the byte that is asked for is further from the start of the token than
the window is large, and the window is full; so what is short is bounded by how far that byte is. -/
theorem bounded_refill (frugal : Frugal span buffer) (unsettled : ¬ buffer.Settled ahead)
    (near : buffer.cursor + ahead + 1 - buffer.token ≤ span) :
    (buffer.refill (buffer.cursor + ahead + 1 - buffer.limit)).2.capacity ≤
      max buffer.initialCapacity (2 * span + 62) := by
  have bounded := frugal.bounded
  simp only [Settled, not_or, Bool.not_eq_true] at unsettled
  obtain ⟨short, running, flowing⟩ := unsettled
  have snug := frugal.snug running flowing
  obtain ⟨base_le, token_le, marker_le, -⟩ := frugal.framed
  rcases capacity_refill (buffer.cursor + ahead + 1 - buffer.limit) buffer with same | ⟨scarce, grown⟩
  · rw [same]
    exact bounded
  · have least := least_of_grownCapacity grown
    simp only [paddingSize, limit] at least snug scarce short ⊢
    omega

end Frugal

/-- A refill does not bring more within reach than there was, nor does it take anything away. -/
theorem missing_le_of_samePlace (unsettled : ¬ buffer.Settled ahead) (same : SamePlace buffer after) :
    after.missing ahead ≤ buffer.missing ahead := by
  rw [missing, missing, if_neg unsettled, same.cursor, same.token]
  split
  · exact Nat.zero_le _
  · exact Nat.le_refl _

namespace Frugal

theorem reachWithin (frugal : Frugal span buffer) (near : buffer.missing ahead ≤ span)
    (attempts : Nat) : Frugal span (Buffer.reachWithin ahead attempts buffer) := by
  induction attempts generalizing buffer with
  | zero => exact frugal
  | succ attempts induction =>
      by_cases settled : buffer.Settled ahead
      · rw [reachWithin_of_settled settled]
        exact frugal
      rw [reachWithin_succ attempts settled]
      have bounded := frugal.bounded_refill settled (by rwa [missing, if_neg settled] at near)
      generalize buffer.cursor + ahead + 1 - buffer.limit = need at bounded ⊢
      rw [← initialCapacity_refill need buffer] at bounded
      have framed := frugal.framed.refill need
      have doubled := frugal.doubled_refill need
      have kept := kept_refill need buffer
      split <;> rename_i outcome <;> rw [outcome] at framed doubled bounded kept
      · have within := missing_le_of_samePlace settled kept.toSamePlace
        refine induction ⟨framed, fun running _ => snug_refill outcome running, doubled, bounded⟩ ?_
        exact Nat.le_trans within near
      · simp only [Settled, not_or] at settled
        exact absurd (ended_of_refill outcome) settled.2.1
      · exact ⟨{ framed with failure_eq := Bool.noConfusion }, fun _ => Bool.noConfusion, doubled,
          bounded⟩

theorem reach (frugal : Frugal span buffer) (near : buffer.missing ahead ≤ span) :
    Frugal span (buffer.reach ahead) :=
  frugal.reachWithin near _

theorem step (frugal : Frugal span buffer) (inside : buffer.cursor < buffer.dataEnd) :
    Frugal span { buffer with cursor := buffer.cursor + 1 } :=
  { frugal with framed := (frugal.framed.course.step inside).framed }

theorem eatAtMost (frugal : Frugal span buffer) {accepts : UInt8 → Bool} {count : Nat}
    (near : buffer.eatSpan accepts count ≤ span) : Frugal span (buffer.eatAtMost accepts count) := by
  induction count generalizing buffer with
  | zero => exact frugal
  | succ count induction =>
      have near_missing : buffer.missing 0 ≤ span := by
        rw [eatSpan] at near
        split at near
        · exact near
        · split at near <;> omega
      have reached := frugal.reach near_missing
      rw [eatSpan] at near
      rw [Buffer.eatAtMost]
      change Frugal span (buffer.isEndAt 0).2 at reached
      cases tested : buffer.isEndAt 0 with
      | mk ended after =>
          rw [tested] at reached near
          cases ended with
          | true => exact reached
          | false =>
              have inside := ((endures_course buffer).isEndAt frugal.framed.course tested).2 rfl
              dsimp only at reached near ⊢
              split at near <;> rename_i accepted
              · rw [if_pos accepted]
                exact induction (reached.step inside) (by omega)
              · rw [if_neg accepted]
                exact reached

theorem onBuffer (frugal : Frugal span buffer) {operation : Operation}
    (driven : operation.isRefill = false) (near : operation.span buffer ≤ span) :
    Frugal span (operation.onBuffer buffer).2 := by
  cases operation with
  | advance count =>
      change Frugal span (buffer.advance count)
      rw [advance_eq_eatAtMost]
      exact frugal.eatAtMost near
  | peek ahead | isEndAt ahead => exact frugal.reach near
  | eatWhile accepts => exact frugal.eatAtMost near
  | skipUntil wanted =>
      simp only [Operation.span, Nat.max_le] at near
      have eaten : Frugal span (buffer.eatWhile fun byte => !wanted byte) :=
        frugal.eatAtMost near.1
      have reached := eaten.reach near.2
      change Frugal span (buffer.skipUntil wanted).2
      unfold Buffer.skipUntil
      change Frugal span (Buffer.isEndAt 0 _).2 at reached
      dsimp only
      split <;> rename_i after tested <;> rw [tested] at reached <;> exact reached
  | beginToken => exact { frugal with framed := frugal.framed.beginToken }
  | mark => exact { frugal with framed := frugal.framed.mark }
  | tokenBytes | markedBytes | tokenOffset | markerOffset | cursorOffset => exact frugal
  | refill need => cases driven
  | setInitialCapacity size =>
      change Frugal span (buffer.setInitialCapacity size)
      have framed := frugal.framed.setInitialCapacity size
      rw [Buffer.setInitialCapacity] at framed ⊢
      split at framed
      · rename_i unallocated
        rw [if_pos unallocated]
        refine ⟨framed, frugal.snug, .inl unallocated, ?_⟩
        rw [unallocated]
        exact Nat.zero_le _
      · rename_i allocated
        rw [if_neg allocated]
        exact frugal

end Frugal

theorem frugal_opened (source : Source) (size bound span : Nat) :
    Frugal span (opened source size bound) :=
  ⟨framed_opened source size bound, fun _ _ => Nat.zero_lt_succ _, .inl rfl, Nat.zero_le _⟩

theorem Used.frugal (used : Used span buffer later) (frugal : Frugal span buffer) :
    Frugal span later := by
  induction used with
  | here => exact frugal
  | operation operation driven within _ frugal => exact frugal.onBuffer driven within
  | takeFailure _ frugal =>
      exact { frugal with framed := { frugal.framed with failure_eq := fun _ => rfl } }
  | source source _ frugal => exact { frugal with framed := { frugal.framed with } }

/-- The memory of a buffer follows its longest token. If no operation misses a byte more than `span`
bytes from the start of the token, the capacity is none at all or comes about by doubling the one
that is allocated first, and it is at most that one or twice what the span and the padding need. It
never becomes less, and the choice of what to allocate first holds as it was when that was done. -/
theorem capacity_of_used {source : Source} {size bound : Nat}
    (used : Used span (opened source size bound) buffer) :
    (buffer.capacity = 0 ∨ ∃ times, buffer.capacity = buffer.initialCapacity * 2 ^ times) ∧
      buffer.capacity ≤ max buffer.initialCapacity (2 * span + 62) ∧
      (∀ operation : Operation, (operation.onBuffer buffer).2.capacity ≠ 0 →
        (operation.onBuffer buffer).2.initialCapacity = buffer.initialCapacity) ∧
      ∀ wider later, Used wider buffer later → buffer.capacity ≤ later.capacity ∧
        (buffer.capacity ≠ 0 → later.initialCapacity = buffer.initialCapacity) := by
  have frugal := used.frugal (frugal_opened source size bound span)
  refine ⟨frugal.doubled, frugal.bounded, fun operation allocated => ?_,
    fun wider later used_further => ?_⟩
  · rcases widens_onBuffer operation buffer with widens | ⟨-, unallocated⟩
    · exact widens.initialCapacity_eq
    · exact absurd unallocated allocated
  · by_cases unallocated : buffer.capacity = 0
    · rw [unallocated]
      exact ⟨Nat.zero_le _, fun allocated => absurd rfl allocated⟩
    · have widens := used_further.widens unallocated
      exact ⟨widens.capacity_le, fun _ => widens.initialCapacity_eq⟩

/-- Looking at the fourth letter makes a window that starts with one byte grow. -/
theorem capacity_of_used_letters :
    let buffer := ((Operation.peek 3).onBuffer
      (opened (.ofBytes (Array.replicate 40 0x61)) 1 4096)).2
    buffer.capacity = 32 ∧ buffer.capacity ≤ max buffer.initialCapacity (2 * 4 + 62) :=
  ⟨by decide +kernel, (capacity_of_used (.operation (.peek 3) rfl (by decide +kernel) .here)).2.1⟩

end Buffer

end WasmText
