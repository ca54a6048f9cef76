import WasmText.Proofs.Source.Searching

/-!
# Searches restore the source

A search leaves the contents of a source and the position of the next read as they were, whatever
the source is, wherever the search begins and however it ends.
-/

namespace WasmText

namespace File

/-- A search of a file, whether it ends or is refused, is of that file. -/
theorem same_search {σ : Type} (visitor : Visitor σ) (base : Nat) (state : σ) (file : File) :
    file.Same (file.search visitor base state).2 := by
  induction base, state, file using File.search.induct visitor with
  | case1 base state file error after refused =>
      rw [search]
      split
      · rename_i outcome
        exact same_of_request outcome
      · rename_i delivered
        cases refused.symm.trans delivered
  | case2 base state file piece after requested empty =>
      rw [search_of_request visitor base state requested, if_pos empty]
      exact same_of_request requested
  | case3 base state file piece after requested nonempty smaller offset found =>
      rw [search_of_request visitor base state requested, if_neg nonempty, found]
      exact same_of_request requested
  | case4 base state file piece after requested nonempty smaller next visited induction =>
      rw [search_of_request visitor base state requested, if_neg nonempty, visited]
      exact (same_of_request requested).trans induction

end File

namespace Search

variable {α β : Type}

/-- Two states of a source that give the same bytes to whoever reads on. -/
structure Undisturbed (before after : Source) : Prop where
  /-- The bytes are the same. -/
  contents : after.contents = before.contents
  /-- So is the place of the next one. -/
  position : after.position = before.position

/-- A query that disturbs no source. -/
def Harmless (query : Search α) : Prop :=
  ∀ source : Source, Undisturbed source (query.run source).2

/-- A query that keeps a property of sources, whatever it answers. -/
def Keeps (Good : Source → Prop) (query : Search α) : Prop :=
  ∀ source, Good source → Good (query.run source).2

variable {Good : Source → Prop}

theorem keeps_pure (answer : α) : Keeps Good (pure answer) :=
  fun _ => id

theorem keeps_throw (error : SourceError) : Keeps Good (throw error : Search α) :=
  fun _ => id

theorem Keeps.bind {query : Search α} {next : α → Search β} (first : Keeps Good query)
    (second : ∀ answer, Keeps Good (next answer)) : Keeps Good (query >>= next) := by
  intro source good
  have middle := first source good
  rw [ExceptT.run_bind]
  simp only [Bind.bind, StateT.bind]
  generalize query.run source = result at middle ⊢
  obtain ⟨outcome, between⟩ := result
  cases outcome with
  | error error => exact middle
  | ok answer => exact second answer between middle

end Search

namespace Source

open Search

/-- A property of sources which a file that stays where it is does not lose by requests. -/
def OutlivesRequests (Good : Source → Prop) : Prop :=
  ∀ ⦃before after : File⦄, before.Same after → after.position = before.position →
    Good (.file before) → Good (.file after)

variable {Good : Source → Prop}

/-- A file that is moved for an action is put back, whatever becomes of the action. -/
theorem OutlivesRequests.visiting (outlives : OutlivesRequests Good) {α : Type} (start : Nat)
    {action : File → Except SystemError α × File} {file : File}
    (same : ∀ moved, File.Same moved (action moved).2) (good : Good (.file file)) :
    Good (visiting start action file).2 := by
  obtain ⟨after, visited, put_back, position_eq⟩ : ∃ after,
      (Source.visiting start action file).2 = .file after ∧ file.Same after ∧
        after.position = file.position := by
    refine ⟨_, rfl, ?_, rfl⟩
    unfold File.seek
    by_cases addressable : start < File.offsetBound
    · simp only [if_pos addressable]
      obtain ⟨path, contents, replies⟩ := same { file with position := start }
      exact ⟨path, contents, replies⟩
    · simp only [if_neg addressable]
      exact ⟨rfl, rfl, rfl⟩
  rw [visited]
  exact outlives put_back position_eq good

namespace OutlivesRequests

variable (outlives : OutlivesRequests Good)

include outlives

theorem search {σ : Type} (visitor : Visitor σ) (state : σ) (start : Nat) :
    Keeps Good (Source.search visitor state start) := by
  intro source good
  cases source with
  | memory contents position =>
      change Good (Source.search visitor state start (.memory contents position)).2
      unfold Source.search
      dsimp only
      split <;> exact good
  | file opened =>
      exact outlives.visiting start (fun moved => File.same_search visitor start state moved) good

theorem lineStart (anchorLine anchorOffset target : Nat) :
    Keeps Good (Source.lineStart anchorLine anchorOffset target) := by
  unfold Source.lineStart
  split
  · exact keeps_throw _
  split
  · exact keeps_pure _
  refine (outlives.search _ _ _).bind fun ending => ?_
  cases ending with
  | found offset => exact keeps_pure _
  | exhausted offset => exact keeps_throw _

theorem lineEnd (start : Nat) : Keeps Good (Source.lineEnd start) := by
  refine (outlives.search _ _ _).bind fun ending => ?_
  cases ending <;> exact keeps_pure _

theorem range (start count : Nat) : Keeps Good (Source.range start count) := by
  have fetches : Keeps Good (range.fetch start count) := by
    intro source good
    cases source with
    | memory contents position =>
        change Good (range.fetch start count (.memory contents position)).2
        rw [range.fetch]
        split <;> exact good
    | file opened => exact outlives.visiting start (fun _ => File.same_of_gather rfl) good
  refine fetches.bind fun bytes => ?_
  split
  · exact keeps_pure _
  · exact keeps_throw _

end OutlivesRequests

/-- The same bytes follow, however many requests are made of a file behind them. -/
theorem outlivesRequests_undisturbed (source : Source) :
    OutlivesRequests (Undisturbed source) := by
  intro before after same position_eq undisturbed
  exact ⟨same.contents.trans undisturbed.contents, position_eq.trans undisturbed.position⟩

end Source

/-- A source line is looked up without losing what requests leave alone. -/
theorem SourceLine.keeps_search {Good : Source → Prop} (outlives : Source.OutlivesRequests Good)
    (anchor : LineAnchor) (location : Location) (width : Nat) :
    Search.Keeps Good (search anchor location width) := by
  have starts : Search.Keeps Good (startOf anchor location.line) := by
    unfold startOf
    split
    · exact Search.keeps_pure _
    split
    · exact Search.keeps_pure _
    split <;> exact outlives.lineStart _ _ _
  refine starts.bind fun lineStart => ?_
  refine (outlives.lineEnd _).bind fun lineEnd => ?_
  exact (outlives.range _ _).bind fun bytes => Search.keeps_pure _

/-- A source line is looked up without disturbing the source. -/
theorem SourceLine.harmless_search (anchor : LineAnchor) (location : Location) (width : Nat) :
    Search.Harmless (search anchor location width) :=
  fun source => SourceLine.keeps_search (Source.outlivesRequests_undisturbed source) anchor location
    width source ⟨rfl, rfl⟩

end WasmText
