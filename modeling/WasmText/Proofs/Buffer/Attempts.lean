import WasmText.Proofs.Buffer.Layout

/-!
# The refills of one look-ahead

Looking ahead refills the window until the byte asked for is in it, the source has ended or a refill
has failed. A refill may succeed and bring none of this about: where dropping the bytes in front of
the token made the room, a short read can bring too little and leave no room for the padding, which
marks the end. It happens once at most. The next refill has nothing to drop, so the window grows, and
then there is room for the byte and for the padding behind it.
-/

namespace WasmText

namespace Buffer

variable {buffer after : Buffer} {ahead count : Nat}

/-! ### Chains of refills -/

/-- So many refills succeed one after the other. Each is made because the byte so far ahead is not
settled, and asks for the bytes that are missing by then. -/
inductive Refills (ahead : Nat) : Nat → Buffer → Buffer → Prop
  | none (buffer : Buffer) : Refills ahead 0 buffer buffer
  | more {count : Nat} {buffer next after : Buffer} (unsettled : ¬ buffer.Settled ahead)
      (refilled : buffer.refill (buffer.cursor + ahead + 1 - buffer.limit) = (.ok (), next))
      (further : Refills ahead count next after) : Refills ahead (count + 1) buffer after

namespace Refills

theorem of_succeeds {need : Nat} (unsettled : ¬ buffer.Settled ahead)
    (missing : buffer.cursor + ahead + 1 - buffer.limit = need)
    (succeeds : (buffer.refill need).1 = .ok ())
    (further : Refills ahead count (buffer.refill need).2 after) :
    Refills ahead (count + 1) buffer after := by
  subst missing
  exact .more unsettled (Prod.ext succeeds rfl) further

theorem kept (refills : Refills ahead count buffer after) : Kept buffer after := by
  induction refills with
  | none buffer => exact Kept.refl buffer
  | @more _ buffer next _ _ refilled _ induction =>
      have one := kept_refill (buffer.cursor + ahead + 1 - buffer.limit) buffer
      rw [refilled] at one
      exact one.trans induction

/-- With nothing to drop, the first refill settles the matter. -/
theorem le_one (refills : Refills ahead count buffer after) (fits : buffer.Fits)
    (compact : buffer.base = buffer.token) : count ≤ 1 ∧ (count = 1 → after.Settled ahead) := by
  cases refills with
  | none => exact ⟨Nat.zero_le 1, fun one => absurd one Nat.zero_ne_one⟩
  | more unsettled refilled further =>
      have settled := fits.settled_refill compact (fun inside => unsettled (.inl inside)) refilled
      cases further with
      | none => exact ⟨Nat.le_refl 1, fun _ => settled⟩
      | more still_unsettled => exact absurd settled still_unsettled

/-- The first refill leaves nothing to drop, so the second settles the matter. -/
theorem le_two (refills : Refills ahead count buffer after) (fits : buffer.Fits) :
    count ≤ 2 ∧ (count = 2 → after.Settled ahead) := by
  cases refills with
  | none => exact ⟨Nat.zero_le 2, fun two => absurd two.symm (Nat.succ_ne_zero 1)⟩
  | more _ refilled further =>
      obtain ⟨at_most, settled⟩ :=
        further.le_one (fits.refill refilled).1 (fits.compact_refill refilled)
      exact ⟨Nat.succ_le_succ at_most, fun two => settled (Nat.succ.inj two)⟩

end Refills

/-- Attempts to reach ahead are refills that succeed. They go on until the byte is settled, unless
there are no more attempts or the next refill fails. -/
theorem exists_refills (ahead attempts : Nat) (buffer : Buffer) :
    ∃ count last, Refills ahead count buffer last ∧
      (((last.Settled ahead ∨ count = attempts) ∧ reachWithin ahead attempts buffer = last) ∨
        ∃ failure refilled, failure ≠ .exhausted ∧
          last.refill (last.cursor + ahead + 1 - last.limit) = (.error failure, refilled) ∧
          reachWithin ahead attempts buffer =
            { refilled with stalled := true, failure := some failure }) := by
  induction attempts generalizing buffer with
  | zero => exact ⟨0, buffer, .none buffer, .inl ⟨.inr rfl, rfl⟩⟩
  | succ attempts induction =>
      by_cases settled : buffer.Settled ahead
      · exact ⟨0, buffer, .none buffer, .inl ⟨.inl settled, reachWithin_of_settled settled _⟩⟩
      rw [reachWithin_succ attempts settled]
      split
      · rename_i next refilled
        obtain ⟨count, last, refills, finish⟩ := induction next
        refine ⟨count + 1, last, .more settled refilled refills, ?_⟩
        exact finish.imp_left fun ⟨enough, same⟩ => ⟨enough.imp_right (congrArg (· + 1)), same⟩
      · rename_i refilled outcome
        exact absurd (.inr (.inl (ended_of_refill outcome))) settled
      · rename_i failure refilled no_end outcome
        exact ⟨0, buffer, .none buffer, .inr ⟨failure, refilled, no_end, outcome, rfl⟩⟩

/-! ### Growing -/

/-- The capacity that is tried first when the window grows, unless its size passes the end of the
address space. -/
def firstCapacity? (buffer : Buffer) : Option Nat :=
  if buffer.capacity = 0 then some buffer.initialCapacity
  else if 2 * buffer.capacity < addressSpace then some (2 * buffer.capacity)
  else none

theorem grownCapacity?_eq (need free : Nat) (buffer : Buffer) :
    buffer.grownCapacity? need free = buffer.firstCapacity?.bind
      (doubled buffer.capacity (need + paddingSize - free) maximalDoublings) := by
  unfold grownCapacity? firstCapacity?
  split
  · rename_i unallocated
    rw [unallocated]
    rfl
  · split <;> rfl

/-- What becomes of a window that has to grow to take `need` more bytes. -/
structure Grows (need : Nat) (buffer : Buffer) : Prop where
  /-- Doubling the first capacity comes to an end. -/
  ends : ∀ first, buffer.firstCapacity? = some first → ∃ last,
    Loop.Ends (doubleOnce buffer.capacity (need + paddingSize - (buffer.token - buffer.base))) first
      (buffer.grownCapacity? need (buffer.token - buffer.base), last)
  /-- Without a first capacity none is found. -/
  starts : buffer.firstCapacity? = none →
    buffer.grownCapacity? need (buffer.token - buffer.base) = none
  /-- If none is found, the refill fails and changes nothing. -/
  overflows : buffer.grownCapacity? need (buffer.token - buffer.base) = none →
    buffer.refill need = (.error .capacityOverflow, buffer)
  /-- The capacity found is that of the larger window, if it can be allocated. -/
  allocates : ∀ capacity, buffer.grownCapacity? need (buffer.token - buffer.base) = some capacity →
    buffer.makeRoom need =
      if capacity < buffer.allocationBound then .ok (buffer.dropped capacity)
      else .error .outOfMemory
  /-- The larger window has room for the bytes and the padding. -/
  room : ∀ roomy, buffer.makeRoom need = .ok roomy →
    need + paddingSize ≤ roomy.capacity - roomy.window.size

/-- A window that has more to take than there is to drop grows. -/
theorem Sound.grows (sound : buffer.Sound) (running : buffer.ended = false) {need : Nat}
    (scarce : buffer.token - buffer.base < need) : buffer.Grows need where
  ends := by
    intro first starts
    rw [grownCapacity?_eq, starts, Option.bind_some]
    refine ends_doubled _ _ (Nat.le_mul_of_pos_right _ ?_)
    rw [firstCapacity?] at starts
    split at starts
    · cases starts
      exact sound.positive
    · split at starts
      · cases starts
        omega
      · cases starts
  starts := fun none => by rw [grownCapacity?_eq, none, Option.bind_none]
  overflows := fun none => by
    have no_room : buffer.makeRoom need = .error .capacityOverflow := by
      rw [makeRoom_of_scarce scarce, none]
    rw [Buffer.refill, running, if_neg Bool.false_ne_true, no_room]
  allocates := fun capacity found => by rw [makeRoom_of_scarce scarce, found]
  room := by
    intro roomy made
    have window_le := sound.window_le_capacity
    have base_le := sound.base_le_token
    have token_le := sound.token_le_limit
    rw [limit] at token_le
    obtain ⟨capacity, rfl, enough⟩ := makeRoom_ok made
    simp only [Buffer.dropped, Array.size_extract, Nat.min_self]
    rcases enough with ⟨spare, -⟩ | ⟨-, grown⟩ <;> omega

/-! ### Looking ahead -/

/-- In whatever state a look-ahead starts, two refills that succeed settle it: then the byte is in
the window or the source has ended. The look-ahead consists of these refills and, if none of them
settles it, of one that fails. Whenever the window has to grow, doubling ends, and either no capacity
is found or the larger window has room for what was asked for and for the padding. -/
theorem refills_of_reached (reached : Reached buffer) :
    (∀ ahead, buffer.limit ≤ buffer.cursor + ahead → buffer.ended = false →
      buffer.stalled = false →
        (∀ count after, Refills ahead count buffer after → count ≤ 2 ∧
          (count = 2 → after.cursor + ahead < after.limit ∨ after.ended = true)) ∧
        ∃ count last, Refills ahead count buffer last ∧
          (((last.cursor + ahead < last.limit ∨ last.ended = true) ∧ buffer.reach ahead = last) ∨
            ∃ failure refilled, failure ≠ .exhausted ∧
              last.refill (last.cursor + ahead + 1 - last.limit) = (.error failure, refilled) ∧
              buffer.reach ahead =
                { refilled with stalled := true, failure := some failure })) ∧
      ∀ need, buffer.ended = false → buffer.token - buffer.base < need → buffer.Grows need := by
  have sound := reached.sound
  refine ⟨fun ahead _ _ flowing => ?_, fun need running scarce => sound.grows running scarce⟩
  -- No refill stalls a buffer, so a buffer that they settle is settled by the byte or by the end.
  have brought {count : Nat} {after : Buffer} (refills : Refills ahead count buffer after)
      (settled : after.Settled ahead) :
      after.cursor + ahead < after.limit ∨ after.ended = true := by
    have still_flowing := refills.kept.stalled.trans flowing
    exact settled.imp_right fun ended => ended.resolve_right (Bool.eq_false_iff.mp still_flowing)
  refine ⟨fun count after refills => ?_, ?_⟩
  · obtain ⟨at_most, settled⟩ := refills.le_two sound.fits
    exact ⟨at_most, fun two => brought refills (settled two)⟩
  · obtain ⟨count, last, refills, finish⟩ :=
      exists_refills ahead (buffer.source.remaining + 2) buffer
    refine ⟨count, last, refills, finish.imp_left fun ⟨enough, same⟩ => ⟨?_, same⟩⟩
    obtain ⟨at_most, settled⟩ := refills.le_two sound.fits
    exact brought refills (enough.elim id fun all => settled (by omega))

/-- Looking thirty bytes ahead in 33 letters, of which a window of 32 shows the first, takes two
refills: the first moves the window by five bytes and reads the one letter that is left, which does
not show that it is the last. -/
theorem refills_of_reached_letters :
    let buffer := (Operation.beginToken.onBuffer ((Operation.advance 5).onBuffer
      (opened (.ofBytes (Array.replicate 33 0x61)) 32 4096)).2).2
    ∃ after, Refills 30 2 buffer after ∧ (after.cursor + 30 < after.limit ∨ after.ended = true) ∧
      buffer.Grows 6 := by
  intro buffer
  have reached : Reached buffer :=
    .operation .beginToken (.operation (.advance 5) (.opened _ 32 4096))
  have refills : Refills 30 2 buffer ((buffer.refill 4).2.refill 3).2 :=
    .of_succeeds (by decide +kernel) (by decide +kernel) (by decide +kernel)
      (.of_succeeds (by decide +kernel) (by decide +kernel) (by decide +kernel) (.none _))
  have looks := (refills_of_reached reached).1 30 (by decide +kernel) (by decide +kernel)
    (by decide +kernel)
  exact ⟨_, refills, (looks.1 2 _ refills).2 rfl,
    (refills_of_reached reached).2 6 (by decide +kernel) (by decide +kernel)⟩

end Buffer

end WasmText
