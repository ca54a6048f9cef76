/-!
# Loops

A loop does a round again and again until one gives a result. A loop with fuel may give up before.
It does not if every round that gives no result brings a measure of the state down and there is more
fuel than the measure says.
-/

namespace WasmText

namespace Loop

variable {σ ρ : Type} {round : σ → Option ρ × σ}

/-- From a state on, rounds come to a result of their own. -/
inductive Ends (round : σ → Option ρ × σ) : σ → ρ × σ → Prop
  | done {state after : σ} {result : ρ} (gives : round state = (some result, after)) :
      Ends round state (result, after)
  | again {state next : σ} {outcome : ρ × σ} (goes_on : round state = (none, next))
      (further : Ends round next outcome) : Ends round state outcome

/-- What every round keeps, a loop keeps. -/
theorem Ends.keeps {Good : σ → Prop} (kept : ∀ state, Good state → Good (round state).2)
    {state : σ} {outcome : ρ × σ} (ends : Ends round state outcome) (good : Good state) :
    Good outcome.2 := by
  induction ends with
  | done gives =>
      have after_good := kept _ good
      rw [gives] at after_good
      exact after_good
  | again goes_on _ induction =>
      have next_good := kept _ good
      rw [goes_on] at next_good
      exact induction next_good

/-- A loop ends in one way. -/
theorem Ends.unique {state : σ} {first second : ρ × σ} (left : Ends round state first)
    (right : Ends round state second) : first = second := by
  induction left with
  | done gives =>
      cases right with
      | done gives_again =>
          cases gives.symm.trans gives_again
          rfl
      | again goes_on => cases gives.symm.trans goes_on
  | again goes_on _ induction =>
      cases right with
      | done gives => cases goes_on.symm.trans gives
      | again goes_on_again further =>
          cases goes_on.symm.trans goes_on_again
          exact induction further

/-- It does not matter from which of two states a loop starts if its round makes no difference
between them. -/
theorem Ends.of_round_eq {state other : σ} {outcome : ρ × σ} (same : round state = round other)
    (ends : Ends round other outcome) : Ends round state outcome := by
  cases ends with
  | done gives => exact .done (same.trans gives)
  | again goes_on further => exact .again (same.trans goes_on) further

/-- A loop with fuel does its round and goes on if that has given no result. -/
def Unfolds (round : σ → Option ρ × σ) (run : Nat → σ → ρ × σ) : Prop :=
  ∀ fuel state, run (fuel + 1) state =
    (round state).1.elim (run fuel (round state).2) fun result => (result, (round state).2)

variable {run : Nat → σ → ρ × σ}

/-- A loop ends if it does after one round. -/
theorem Unfolds.ends_step (unfolds : Unfolds round run) {fuel : Nat} {state : σ}
    (further : ∀ next, round state = (none, next) → Ends round next (run fuel next)) :
    Ends round state (run (fuel + 1) state) := by
  rw [unfolds]
  generalize taken : round state = outcome at further ⊢
  obtain ⟨result, next⟩ := outcome
  cases result with
  | some result => exact .done taken
  | none => exact .again taken (further next rfl)

/-- With more fuel than a measure that rounds bring down, a loop ends. -/
theorem Unfolds.ends (unfolds : Unfolds round run) {Good : σ → Prop} {measure : σ → Nat}
    (shrinks : ∀ state next, Good state → round state = (none, next) →
      Good next ∧ measure next < measure state)
    {fuel : Nat} {state : σ} (good : Good state) (enough : measure state < fuel) :
    Ends round state (run fuel state) := by
  induction fuel generalizing state with
  | zero => exact absurd enough (Nat.not_lt_zero _)
  | succ fuel induction =>
      refine unfolds.ends_step fun next goes_on => ?_
      obtain ⟨next_good, smaller⟩ := shrinks state next good goes_on
      exact induction next_good (by omega)

end Loop

end WasmText
