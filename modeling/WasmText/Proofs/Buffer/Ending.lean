import Mathlib
import WasmText.Proofs.Buffer.Refinement
import WasmText.Proofs.Loop

/-!
# The loops of a buffer end

Growing a window, refilling it and eating are loops with fuel. None of them ever runs out of it: a
capacity cannot be doubled often before it passes the address space, two refills settle what is
asked for, and the cursor stays inside the contents and, after a failure, inside the window.
-/

namespace WasmText

namespace Buffer

variable {contents : Bytes} {buffer after : Buffer} {ahead : Nat}

/-! ### Growing -/

/-- Doubles a capacity, unless it is large enough or too large to be doubled. -/
def doubleOnce (old shortage capacity : Nat) : Option (Option Nat) × Nat :=
  if capacity - old < shortage then
    if 2 * capacity < addressSpace then (none, 2 * capacity) else (some none, capacity)
  else
    (some (some capacity), capacity)

/-- A capacity passes the end of the address space before it has been doubled too often. -/
theorem ends_doubled (old shortage : Nat) {doublings capacity : Nat}
    (enough : addressSpace ≤ 2 ^ (doublings + 1) * capacity) :
    ∃ last, Loop.Ends (doubleOnce old shortage) capacity
      (doubled old shortage (doublings + 1) capacity, last) := by
  induction doublings generalizing capacity with
  | zero =>
      have no_room : ¬ 2 * capacity < addressSpace := Nat.not_lt.mpr enough
      rw [doubled, if_neg no_room]
      refine ⟨capacity, .done ?_⟩
      rw [doubleOnce, if_neg no_room]
      split <;> rfl
  | succ doublings induction =>
      have further_enough : addressSpace ≤ 2 ^ (doublings + 1) * (2 * capacity) := by
        rwa [← Nat.mul_assoc, ← Nat.pow_succ]
      obtain ⟨last, ends⟩ := induction further_enough
      rw [doubled]
      split
      · rename_i short
        split
        · rename_i room
          exact ⟨last, .again (by rw [doubleOnce, if_pos short, if_pos room]) ends⟩
        · rename_i no_room
          exact ⟨capacity, .done (by rw [doubleOnce, if_pos short, if_neg no_room])⟩
      · rename_i large
        exact ⟨capacity, .done (by rw [doubleOnce, if_neg large])⟩

/-! ### Refilling -/

/-- Refills a window once, unless the byte so far ahead is in it or no refill can bring it there. -/
def reachOnce (ahead : Nat) (buffer : Buffer) : Option Unit × Buffer :=
  if buffer.cursor + ahead < buffer.limit || buffer.ended || buffer.stalled then
    (some (), buffer)
  else
    match buffer.refill (buffer.cursor + ahead + 1 - buffer.limit) with
    | (.ok (), refilled) => (none, refilled)
    | (.error .exhausted, refilled) => (some (), refilled)
    | (.error failure, refilled) =>
      (some (), { refilled with stalled := true, failure := some failure })

theorem reachOnce_of_settled (settled : buffer.Settled ahead) :
    reachOnce ahead buffer = (some (), buffer) := by
  rw [reachOnce, if_pos]
  simpa [Settled, or_assoc] using settled

theorem reachOnce_of_unsettled (unsettled : ¬ buffer.Settled ahead) :
    reachOnce ahead buffer =
      match buffer.refill (buffer.cursor + ahead + 1 - buffer.limit) with
      | (.ok (), refilled) => (none, refilled)
      | (.error .exhausted, refilled) => (some (), refilled)
      | (.error failure, refilled) =>
        (some (), { refilled with stalled := true, failure := some failure }) := by
  rw [reachOnce, if_neg]
  simpa [Settled, or_assoc] using unsettled

theorem unfolds_reachWithin (ahead : Nat) :
    Loop.Unfolds (reachOnce ahead) fun attempts buffer =>
      ((), reachWithin ahead attempts buffer) := by
  intro attempts buffer
  dsimp only
  by_cases settled : buffer.Settled ahead
  · rw [reachOnce_of_settled settled, reachWithin_of_settled settled]
    rfl
  · rw [reachOnce_of_unsettled settled, reachWithin_succ attempts settled]
    generalize buffer.refill (buffer.cursor + ahead + 1 - buffer.limit) = result
    obtain ⟨outcome, refilled⟩ := result
    match outcome with
    | .ok () | .error .exhausted | .error .outOfMemory | .error .capacityOverflow |
      .error (.unreadable _) => rfl

/-- A refill leaves nothing in front of the token. If there was nothing before it, the byte asked
for is settled. -/
theorem Fits.reachOnce (fits : buffer.Fits)
    (goes_on : Buffer.reachOnce ahead buffer = (none, after)) :
    after.Fits ∧ after.base = after.token ∧
      (buffer.base = buffer.token → after.Settled ahead) := by
  by_cases settled : buffer.Settled ahead
  · rw [reachOnce_of_settled settled] at goes_on
    cases goes_on
  rw [reachOnce_of_unsettled settled] at goes_on
  split at goes_on
  · rename_i refilled outcome
    cases goes_on
    exact ⟨(fits.refill outcome).1, fits.compact_refill outcome, fun compact =>
      fits.settled_refill compact (fun inside => settled (.inl inside)) outcome⟩
  · cases goes_on
  · cases goes_on

theorem ends_of_settled (settled : buffer.Settled ahead) (attempts : Nat) :
    Loop.Ends (reachOnce ahead) buffer ((), reachWithin ahead attempts buffer) := by
  rw [reachWithin_of_settled settled]
  exact .done (reachOnce_of_settled settled)

theorem Fits.ends_of_compact (fits : buffer.Fits)
    (compact : buffer.base = buffer.token) (attempts : Nat) :
    Loop.Ends (Buffer.reachOnce ahead) buffer
      ((), Buffer.reachWithin ahead (attempts + 1) buffer) :=
  (unfolds_reachWithin ahead).ends_step fun _ goes_on =>
    ends_of_settled ((fits.reachOnce goes_on).2.2 compact) attempts

/-- Two refills are enough. -/
theorem Fits.ends_reach (fits : buffer.Fits) (ahead : Nat) :
    Loop.Ends (Buffer.reachOnce ahead) buffer ((), buffer.reach ahead) := by
  refine (unfolds_reachWithin ahead).ends_step fun next goes_on => ?_
  obtain ⟨next_fits, compact, -⟩ := fits.reachOnce goes_on
  exact next_fits.ends_of_compact compact _

/-! ### Eating -/

/-- Steps over a byte that satisfies a predicate. -/
def eatOnce (accepts : UInt8 → Bool) (buffer : Buffer) : Option Unit × Buffer :=
  match buffer.isEndAt 0 with
  | (true, buffer) => (some (), buffer)
  | (false, buffer) =>
    if accepts (buffer.byteAt buffer.cursor) then
      (none, { buffer with cursor := buffer.cursor + 1 })
    else
      (some (), buffer)

/-- A byte that has been read is no end. -/
theorem isEndAt_of_inside (inside : buffer.cursor < buffer.dataEnd) :
    buffer.isEndAt 0 = (false, buffer) := by
  have settled : buffer.Settled 0 := .inl (Nat.lt_of_lt_of_le inside buffer.dataEnd_le_limit)
  rw [isEndAt, reach, reachWithin_of_settled settled]
  simpa using inside

theorem unfolds_eatAtMost (accepts : UInt8 → Bool) :
    Loop.Unfolds (eatOnce accepts) fun count buffer => ((), eatAtMost accepts count buffer) := by
  intro count buffer
  dsimp only
  rw [eatAtMost, eatOnce]
  generalize buffer.isEndAt 0 = tested
  obtain ⟨at_end, reached⟩ := tested
  cases at_end with
  | true => rfl
  | false =>
      dsimp only
      split <;> rfl

/-- The offset that the cursor cannot pass. -/
def horizon (buffer : Buffer) : Nat :=
  if buffer.stalled then buffer.dataEnd else buffer.source.contents.size

/-- A state that the buffer comes to by moving on. -/
structure Onward (contents : Bytes) (before after : Buffer) : Prop where
  /-- The buffer shows the contents. -/
  shows : after.Shows contents
  /-- The cursor does not go back. -/
  cursor_le : before.cursor ≤ after.cursor
  /-- The cursor can get no further than before. -/
  horizon_le : after.horizon ≤ before.horizon

theorem Onward.refl (shows : buffer.Shows contents) : Onward contents buffer buffer :=
  ⟨shows, Nat.le_refl _, Nat.le_refl _⟩

theorem Onward.trans {first second third : Buffer} (left : Onward contents first second)
    (right : Onward contents second third) : Onward contents first third :=
  ⟨right.shows, Nat.le_trans left.cursor_le right.cursor_le,
    Nat.le_trans right.horizon_le left.horizon_le⟩

theorem Shows.horizon_le (shows : buffer.Shows contents) : buffer.horizon ≤ contents.size := by
  rw [horizon]
  split
  · exact shows.dataEnd_le_size
  · exact Nat.le_of_eq (congrArg Array.size shows.contents_eq)

theorem Shows.dataEnd_le_horizon (shows : buffer.Shows contents) :
    buffer.dataEnd ≤ buffer.horizon := by
  rw [horizon]
  split
  · exact Nat.le_refl _
  · rw [shows.contents_eq]
    exact shows.dataEnd_le_size

theorem Shows.onward_reach (shows : buffer.Shows contents) (ahead : Nat) :
    Onward contents buffer (buffer.reach ahead) := by
  refine ⟨shows.reach ahead, Nat.le_of_eq (reach_cursor buffer ahead).symm, ?_⟩
  cases stalled : buffer.stalled with
  | true =>
      apply Nat.le_of_eq
      rw [Buffer.reach, reachWithin_of_settled (.inr (.inr stalled))]
  | false =>
      have before_eq : buffer.horizon = contents.size := by
        rw [horizon, stalled, if_neg Bool.false_ne_true, shows.contents_eq]
      rw [before_eq]
      exact (shows.reach ahead).horizon_le

theorem Shows.onward_step (shows : buffer.Shows contents)
    (inside : buffer.cursor < buffer.dataEnd) :
    Onward contents buffer { buffer with cursor := buffer.cursor + 1 } :=
  ⟨shows.step inside, Nat.le_succ _, Nat.le_refl _⟩

theorem Shows.onward_isEndAt (shows : buffer.Shows contents) {at_end : Bool}
    (tested : buffer.isEndAt 0 = (at_end, after)) : Onward contents buffer after := by
  obtain ⟨-, rfl⟩ := Prod.mk.inj tested
  exact shows.onward_reach 0

theorem Shows.onward_eatOnce (shows : buffer.Shows contents) (accepts : UInt8 → Bool) :
    Onward contents buffer (eatOnce accepts buffer).2 := by
  rw [eatOnce]
  split
  · rename_i reached tested
    exact shows.onward_isEndAt tested
  · rename_i reached tested
    obtain ⟨reached_shows, -, inside, -⟩ := shows.isEndAt_zero tested
    have onward := shows.onward_isEndAt tested
    split
    · exact onward.trans (reached_shows.onward_step (inside rfl))
    · exact onward

/-- A cursor that moves comes closer to where it cannot pass. -/
theorem Onward.closer {before : Buffer} (onward : Onward contents before after)
    (moved : before.cursor < after.cursor) :
    after.horizon - after.cursor < before.horizon - before.cursor := by
  have cursor_le := Nat.le_trans onward.shows.cursor_le_dataEnd onward.shows.dataEnd_le_horizon
  have horizon_le := onward.horizon_le
  omega

theorem lt_of_eatOnce {accepts : UInt8 → Bool} (goes_on : eatOnce accepts buffer = (none, after)) :
    buffer.cursor < after.cursor := by
  rw [eatOnce] at goes_on
  split at goes_on
  · cases goes_on
  · rename_i reached tested
    obtain ⟨-, rfl⟩ := Prod.mk.inj tested
    split at goes_on
    · cases goes_on
      exact Nat.lt_succ_of_le (Nat.le_of_eq (reach_cursor buffer 0).symm)
    · cases goes_on

theorem Shows.horizon_le_remaining (shows : buffer.Shows contents) :
    buffer.horizon - buffer.cursor ≤ buffer.remaining := by
  cases stalled : buffer.stalled with
  | true =>
      rw [horizon, stalled, if_pos rfl]
      exact Nat.le_add_right _ _
  | false =>
      apply Nat.le_of_eq
      rw [horizon, stalled, if_neg Bool.false_ne_true, shows.remaining_eq stalled,
        shows.contents_eq]

theorem Shows.ends_eatWhile (shows : buffer.Shows contents) (accepts : UInt8 → Bool) :
    Loop.Ends (eatOnce accepts) buffer ((), buffer.eatWhile accepts) := by
  have shrinks (state next : Buffer) (state_shows : state.Shows contents)
      (goes_on : eatOnce accepts state = (none, next)) :
      next.Shows contents ∧ next.horizon - next.cursor < state.horizon - state.cursor := by
    have onward := state_shows.onward_eatOnce accepts
    rw [goes_on] at onward
    exact ⟨onward.shows, onward.closer (lt_of_eatOnce goes_on)⟩
  exact (unfolds_eatAtMost accepts).ends shrinks shows
    (Nat.lt_succ_of_le shows.horizon_le_remaining)

/-- A refill does not change the capacity to allocate first. -/
theorem initialCapacity_refill (need : Nat) (buffer : Buffer) :
    (buffer.refill need).2.initialCapacity = buffer.initialCapacity := by
  rcases refill_cases need buffer with
    ⟨-, unchanged⟩ | ⟨_, -, -, unchanged⟩ | ⟨capacity, -, -, -, refill_eq⟩
  · rw [unchanged]
  · rw [unchanged]
  · rw [refill_eq]
    exact (capacity_readBehind _).2

theorem lasts_positive : Lasts fun buffer => 0 < buffer.initialCapacity where
  reach := fun ahead positive =>
    reachWithin_keeps (fun buffer => 0 < buffer.initialCapacity)
      (fun need positive => (initialCapacity_refill need _).symm ▸ positive) (fun _ _ _ => id)
      positive ahead _
  step := id

/-! ### Moving on -/

theorem Shows.onward_advance (shows : buffer.Shows contents) (count : Nat) :
    Onward contents buffer (buffer.advance count) := by
  induction count generalizing buffer with
  | zero => exact .refl shows
  | succ count induction =>
      rw [Buffer.advance]
      split
      · rename_i reached tested
        exact shows.onward_isEndAt tested
      · rename_i reached tested
        obtain ⟨reached_shows, -, inside, -⟩ := shows.isEndAt_zero tested
        have stepped := reached_shows.onward_step (inside rfl)
        exact ((shows.onward_isEndAt tested).trans stepped).trans (induction stepped.shows)

theorem Shows.onward_eatWhile (shows : buffer.Shows contents) (accepts : UInt8 → Bool) :
    Onward contents buffer (buffer.eatWhile accepts) := by
  have kept (state : Buffer) (onward : Onward contents buffer state) :
      Onward contents buffer (eatOnce accepts state).2 :=
    onward.trans (onward.shows.onward_eatOnce accepts)
  exact (shows.ends_eatWhile accepts).keeps kept (.refl shows)

/-- Where there is a byte to step over, an advance does. -/
theorem Shows.advance_lt (shows : buffer.Shows contents) (inside : buffer.cursor < buffer.dataEnd)
    (count : Nat) : buffer.cursor < (buffer.advance (count + 1)).cursor := by
  rw [Buffer.advance, isEndAt_of_inside inside]
  exact ((shows.step inside).onward_advance count).cursor_le

/-- Only a byte of the contents is seen as another than zero. -/
theorem Shows.inside_of_peek (shows : buffer.Shows contents)
    (visible : (buffer.peek ahead).1 ≠ 0) :
    (buffer.peek ahead).2.cursor + ahead < (buffer.peek ahead).2.dataEnd := by
  have reach_shows := shows.reach ahead
  refine Nat.lt_of_not_le fun past => visible ?_
  exact reach_shows.byteAt_past past

theorem Shows.onward_skipUntil (shows : buffer.Shows contents) (wanted : UInt8 → Bool) :
    Onward contents buffer (buffer.skipUntil wanted).2 := by
  have onward := shows.onward_eatWhile fun byte => !wanted byte
  unfold Buffer.skipUntil
  generalize (buffer.eatWhile fun byte => !wanted byte) = eaten at onward ⊢
  dsimp only
  split
  all_goals
    rename_i reached tested
    exact onward.trans (onward.shows.onward_isEndAt tested)

/-- At the end of the contents nothing is left to read, unless a refill has failed. -/
theorem Shows.ended_of_isEndAt (shows : buffer.Shows contents)
    (tested : buffer.isEndAt 0 = (true, after)) (flowing : after.stalled = false) :
    after.ended = true := by
  obtain ⟨after_shows, same, -, agrees⟩ := shows.isEndAt_zero tested
  have past := (agrees flowing).2.mp rfl
  obtain ⟨-, rfl⟩ := Prod.mk.inj tested
  have settled : (buffer.reach 0).Settled 0 := shows.fits.settled_reach 0
  rcases settled with inside | ended | stalled
  · have limit_eq := after_shows.limit_eq
    have bounded := after_shows.dataEnd_le_size
    rw [same.cursor] at inside
    rw [← Bool.not_eq_false]
    intro running
    rw [padding, running] at limit_eq
    simp at limit_eq
    omega
  · exact ended
  · exact Bool.noConfusion (stalled.symm.trans flowing)

theorem Shows.ended_of_skipUntil (shows : buffer.Shows contents) {wanted : UInt8 → Bool}
    (not_found : buffer.skipUntil wanted = (none, after)) (flowing : after.stalled = false) :
    after.ended = true := by
  have eaten_shows := (shows.onward_eatWhile fun byte => !wanted byte).shows
  unfold Buffer.skipUntil at not_found
  generalize (buffer.eatWhile fun byte => !wanted byte) = eaten at eaten_shows not_found
  dsimp only at not_found
  split at not_found
  · rename_i reached tested
    cases not_found
    exact eaten_shows.ended_of_isEndAt tested flowing
  · cases not_found

/-! ### All loops -/

/-- The loops that the operations of a buffer run end by themselves. -/
structure LoopsEnd (buffer : Buffer) : Prop where
  /-- A first capacity is found. -/
  allocates : buffer.capacity = 0 → ∀ shortage, ∃ last,
    Loop.Ends (doubleOnce 0 shortage) buffer.initialCapacity
      (doubled 0 shortage maximalDoublings buffer.initialCapacity, last)
  /-- A larger capacity is found. -/
  grows : buffer.capacity ≠ 0 → ∀ shortage, ∃ last,
    Loop.Ends (doubleOnce buffer.capacity shortage) (2 * buffer.capacity)
      (doubled buffer.capacity shortage maximalDoublings (2 * buffer.capacity), last)
  /-- The window is refilled. -/
  refills : ∀ ahead, Loop.Ends (reachOnce ahead) buffer ((), buffer.reach ahead)
  /-- Bytes are stepped over. -/
  eats : ∀ accepts, Loop.Ends (eatOnce accepts) buffer ((), buffer.eatWhile accepts)

theorem Shows.loopsEnd (shows : buffer.Shows contents) (positive : 0 < buffer.initialCapacity) :
    buffer.LoopsEnd where
  allocates := fun _ _ => ends_doubled _ _ (Nat.le_mul_of_pos_right _ positive)
  grows := fun allocated _ =>
    ends_doubled _ _ (Nat.le_mul_of_pos_right _ (by omega))
  refills := shows.fits.ends_reach
  eats := shows.ends_eatWhile

end Buffer

end WasmText
