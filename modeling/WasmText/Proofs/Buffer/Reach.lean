import WasmText.Proofs.Buffer.Window

/-!
# Reaching ahead

Reaching ahead refills the window until it holds the byte asked for, the source has ended or a
refill has failed. At most two refills settle the matter: the first leaves nothing in front of the
token, so the second has to grow the window, and a window that grows has room for the byte.
-/

namespace WasmText

namespace Buffer

variable {contents : Bytes} {buffer after : Buffer} {ahead need : Nat}

/-- A failure freezes the window as it is, wherever the source has got to. -/
theorem Shows.stall (shows : buffer.Shows contents) {source : Source}
    (source_contents : source.contents = contents) (failure : Option RefillError) :
    Shows contents { buffer with source, stalled := true, failure } :=
  { shows with
    contents_eq := source_contents
    position_eq := by simp
    failure_eq := by simp }

theorem refill_of_ended (ended : buffer.ended = true) :
    buffer.refill need = (.error .exhausted, buffer) := by
  rw [refill, if_pos ended]

/-- What a read that is no success leaves: the source may have moved, and nothing else has. -/
theorem readBehind_error (running : buffer.ended = false) {error : RefillError}
    (failed : buffer.readBehind = (.error error, after)) :
    ∃ refusal, error = .unreadable refusal ∧
      after = { buffer with
        source := (buffer.source.read (buffer.capacity - buffer.window.size)).2 } := by
  rcases readBehind_eq running with
    ⟨refusal, source, refused, read_eq⟩ | ⟨bytes, source, ended, -, read_eq, -⟩
  · cases read_eq.symm.trans failed
    exact ⟨refusal, rfl, by rw [refused]⟩
  · cases read_eq.symm.trans failed

/-- Only a source that has ended is exhausted. -/
theorem ended_of_refill (refilled : buffer.refill need = (.error .exhausted, after)) :
    buffer.ended = true := by
  rcases refill_cases need buffer with
    ⟨ended, -⟩ | ⟨error, -, error_eq, unchanged⟩ | ⟨capacity, running, -, -, refill_eq⟩
  · exact ended
  · cases unchanged.symm.trans refilled
    rcases error_eq with exhausted | exhausted <;> cases exhausted
  · have still_running : (buffer.dropped capacity).ended = false := running
    obtain ⟨refusal, exhausted, -⟩ :=
      readBehind_error still_running (refill_eq.symm.trans refilled)
    cases exhausted

/-- A refill that fails leaves a window that is right, though no more bytes may follow it. -/
theorem Shows.stall_refill (shows : buffer.Shows contents) {error : RefillError}
    (refilled : buffer.refill need = (.error error, after)) (failure : Option RefillError) :
    Shows contents { after with stalled := true, failure } := by
  rcases refill_cases need buffer with
    ⟨-, unchanged⟩ | ⟨_, -, -, unchanged⟩ | ⟨capacity, running, -, larger, refill_eq⟩
  · cases unchanged.symm.trans refilled
    exact shows.stall shows.contents_eq failure
  · cases unchanged.symm.trans refilled
    exact shows.stall shows.contents_eq failure
  · have still_running : (buffer.dropped capacity).ended = false := running
    obtain ⟨roomy_shows, -, -⟩ := shows.dropped running larger
    obtain ⟨-, -, rfl⟩ := readBehind_error still_running (refill_eq.symm.trans refilled)
    exact roomy_shows.stall ((Source.contents_read _ _).trans shows.contents_eq) failure

/-- The byte so far ahead is in the window, or no refill can bring it there. -/
def Settled (ahead : Nat) (buffer : Buffer) : Prop :=
  buffer.cursor + ahead < buffer.limit ∨ buffer.ended = true ∨ buffer.stalled = true

instance decidableSettled (ahead : Nat) (buffer : Buffer) : Decidable (buffer.Settled ahead) :=
  inferInstanceAs (Decidable (_ ∨ _ ∨ _))

theorem reachWithin_of_settled (settled : buffer.Settled ahead) (attempts : Nat) :
    reachWithin ahead attempts buffer = buffer := by
  cases attempts with
  | zero => rfl
  | succ attempts =>
      rw [reachWithin, if_pos]
      simpa [Settled, or_assoc] using settled

/-- What one more attempt makes of a buffer that is not settled. -/
theorem reachWithin_succ (attempts : Nat) (unsettled : ¬ buffer.Settled ahead) :
    reachWithin ahead (attempts + 1) buffer =
      match buffer.refill (buffer.cursor + ahead + 1 - buffer.limit) with
      | (.ok (), refilled) => reachWithin ahead attempts refilled
      | (.error .exhausted, refilled) => refilled
      | (.error failure, refilled) =>
        { refilled with stalled := true, failure := some failure } := by
  have goes_on : ¬ (decide (buffer.cursor + ahead < buffer.limit) || buffer.ended ||
      buffer.stalled) = true := by
    simpa [Settled, or_assoc] using unsettled
  rw [reachWithin]
  exact if_neg goes_on

theorem samePlace_reachWithin (ahead attempts : Nat) (buffer : Buffer) :
    SamePlace buffer (reachWithin ahead attempts buffer) := by
  induction attempts generalizing buffer with
  | zero => exact SamePlace.refl buffer
  | succ attempts induction =>
      by_cases settled : buffer.Settled ahead
      · rw [reachWithin_of_settled settled]
        exact SamePlace.refl buffer
      rw [reachWithin_succ attempts settled]
      have kept := kept_refill (buffer.cursor + ahead + 1 - buffer.limit) buffer
      split
      · rename_i refilled outcome
        rw [outcome] at kept
        exact kept.toSamePlace.trans (induction refilled)
      · rename_i refilled outcome
        rw [outcome] at kept
        exact kept.toSamePlace
      · rename_i failure refilled _ outcome
        rw [outcome] at kept
        exact ⟨kept.token, kept.marker, kept.cursor⟩

theorem stalled_of_reachWithin {attempts : Nat}
    (flowing : (reachWithin ahead attempts buffer).stalled = false) : buffer.stalled = false := by
  cases stalled : buffer.stalled with
  | false => rfl
  | true =>
      rw [reachWithin_of_settled (.inr (.inr stalled)), stalled] at flowing
      cases flowing

theorem Shows.reachWithin (shows : buffer.Shows contents) (ahead attempts : Nat) :
    (reachWithin ahead attempts buffer).Shows contents := by
  induction attempts generalizing buffer with
  | zero => exact shows
  | succ attempts induction =>
      by_cases settled : buffer.Settled ahead
      · rw [reachWithin_of_settled settled]
        exact shows
      rw [reachWithin_succ attempts settled]
      simp only [Settled, not_or, Bool.not_eq_true] at settled
      obtain ⟨-, running, flowing⟩ := settled
      split
      · rename_i refilled outcome
        exact induction (shows.refill flowing outcome).1
      · rename_i refilled outcome
        rw [ended_of_refill outcome] at running
        cases running
      · rename_i failure refilled _ outcome
        exact shows.stall_refill outcome (some failure)

/-- With nothing to drop, a refill that succeeds settles the byte for which it was made. -/
theorem Fits.settled_refill (fits : buffer.Fits) (compact : buffer.base = buffer.token)
    (short : ¬ buffer.cursor + ahead < buffer.limit)
    (refilled : buffer.refill (buffer.cursor + ahead + 1 - buffer.limit) = (.ok (), after)) :
    after.Settled ahead := by
  have kept := kept_refill (buffer.cursor + ahead + 1 - buffer.limit) buffer
  rw [refilled] at kept
  rcases (fits.refill refilled).2.2 with ended | reached | spare
  · exact .inr (.inl ended)
  · rw [Settled, kept.cursor]
    omega
  · omega

/-- A refill that succeeds leaves nothing to drop. -/
theorem Fits.compact_refill (fits : buffer.Fits) (refilled : buffer.refill need = (.ok (), after)) :
    after.base = after.token := by
  have kept := kept_refill need buffer
  rw [refilled] at kept
  exact (fits.refill refilled).2.1.trans kept.token.symm

/-- With nothing to drop, one attempt is enough. -/
theorem Fits.settled_of_compact (fits : buffer.Fits) (compact : buffer.base = buffer.token)
    (ahead attempts : Nat) : (Buffer.reachWithin ahead (attempts + 1) buffer).Settled ahead := by
  by_cases settled : buffer.Settled ahead
  · rwa [reachWithin_of_settled settled]
  have unsettled := settled
  rw [reachWithin_succ attempts settled]
  simp only [Settled, not_or, Bool.not_eq_true] at unsettled
  split
  · rename_i refilled outcome
    have refilled_settled := fits.settled_refill compact unsettled.1 outcome
    rwa [reachWithin_of_settled refilled_settled]
  · rename_i refilled outcome
    exact absurd (ended_of_refill outcome) (Bool.eq_false_iff.mp unsettled.2.1)
  · exact .inr (.inr rfl)

/-- Two attempts are always enough. -/
theorem Fits.settled_reachWithin (fits : buffer.Fits) (ahead attempts : Nat) :
    (Buffer.reachWithin ahead (attempts + 2) buffer).Settled ahead := by
  by_cases settled : buffer.Settled ahead
  · rwa [reachWithin_of_settled settled]
  have unsettled := settled
  rw [reachWithin_succ (attempts + 1) settled]
  simp only [Settled, not_or, Bool.not_eq_true] at unsettled
  split
  · rename_i refilled outcome
    exact (fits.refill outcome).1.settled_of_compact (fits.compact_refill outcome) ahead attempts
  · rename_i refilled outcome
    exact absurd (ended_of_refill outcome) (Bool.eq_false_iff.mp unsettled.2.1)
  · exact .inr (.inr rfl)

theorem Fits.settled_reach (fits : buffer.Fits) (ahead : Nat) : (buffer.reach ahead).Settled ahead :=
  fits.settled_reachWithin ahead buffer.source.remaining

/-- Looking ahead a second time changes nothing. -/
theorem Fits.reach_reach (fits : buffer.Fits) (ahead : Nat) :
    (buffer.reach ahead).reach ahead = buffer.reach ahead :=
  reachWithin_of_settled (fits.settled_reach ahead) _

/-! ### Reaching -/

section Reach

variable (ahead) (buffer)

theorem samePlace_reach : SamePlace buffer (buffer.reach ahead) :=
  samePlace_reachWithin ahead _ buffer

@[simp] theorem reach_cursor : (buffer.reach ahead).cursor = buffer.cursor :=
  (samePlace_reach buffer ahead).cursor

end Reach

theorem stalled_of_reach (flowing : (buffer.reach ahead).stalled = false) :
    buffer.stalled = false :=
  stalled_of_reachWithin flowing

theorem Shows.reach (shows : buffer.Shows contents) (ahead : Nat) :
    (buffer.reach ahead).Shows contents :=
  shows.reachWithin ahead _

/-- After reaching ahead without a failure, the window tells whether the contents have ended. -/
theorem Shows.dataEnd_reach_le_iff (shows : buffer.Shows contents) (ahead : Nat)
    (flowing : (buffer.reach ahead).stalled = false) :
    (buffer.reach ahead).dataEnd ≤ buffer.cursor + ahead ↔
      contents.size ≤ buffer.cursor + ahead := by
  have reach_shows := shows.reach ahead
  have bounded := reach_shows.dataEnd_le_size
  rcases shows.fits.settled_reach ahead with inside | ended | stalled
  · change (buffer.reach ahead).cursor + ahead < (buffer.reach ahead).limit at inside
    rw [reach_cursor] at inside
    cases running : (buffer.reach ahead).ended with
    | true => rw [reach_shows.dataEnd_of_ended running]
    | false =>
        have limit_eq := reach_shows.limit_eq
        simp only [padding, running] at limit_eq
        simp at limit_eq
        omega
  · rw [reach_shows.dataEnd_of_ended ended]
  · change (buffer.reach ahead).stalled = true at stalled
    rw [stalled] at flowing
    cases flowing

/-- The source goes on serving its contents. -/
theorem serves_refill (serves : buffer.source.Serves contents) (need : Nat) :
    (buffer.refill need).2.source.Serves contents := by
  rcases refill_cases need buffer with
    ⟨-, unchanged⟩ | ⟨_, -, -, unchanged⟩ | ⟨capacity, -, -, -, refill_eq⟩
  · exact unchanged ▸ serves
  · exact unchanged ▸ serves
  · rw [refill_eq, source_readBehind]
    exact Source.Serves.read serves _

/-- What outlasts refills, and the failure of one, outlasts reaching ahead. -/
theorem reachWithin_keeps (Good : Buffer → Prop)
    (refill : ∀ {buffer} need, Good buffer → Good (Buffer.refill need buffer).2)
    (stall : ∀ {buffer refilled need failure}, failure ≠ .exhausted → Good buffer →
      buffer.refill need = (.error failure, refilled) → Good refilled →
      Good { refilled with stalled := true, failure := some failure })
    (good : Good buffer) (ahead attempts : Nat) : Good (reachWithin ahead attempts buffer) := by
  induction attempts generalizing buffer with
  | zero => exact good
  | succ attempts induction =>
      by_cases settled : buffer.Settled ahead
      · rwa [reachWithin_of_settled settled]
      rw [reachWithin_succ attempts settled]
      have refilled_good := refill (buffer.cursor + ahead + 1 - buffer.limit) good
      split <;> rename_i outcome <;> rw [outcome] at refilled_good
      · exact induction refilled_good
      · exact refilled_good
      · rename_i not_exhausted
        exact stall not_exhausted good outcome refilled_good

theorem serves_reach (serves : buffer.source.Serves contents) (ahead : Nat) :
    (buffer.reach ahead).source.Serves contents :=
  reachWithin_keeps (fun buffer => buffer.source.Serves contents)
    (fun need serves => serves_refill serves need) (fun _ _ _ => id) serves ahead _

end Buffer

end WasmText
