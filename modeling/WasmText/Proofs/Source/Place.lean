import WasmText.Proofs.Source.Agreement
import WasmText.Proofs.Source.Restoring

/-!
# Where a read leaves a source

A read never takes a source back, nor past the end of its contents. One that fails loses the bytes
delivered before the refusal, so the source may have moved on without anybody having seen them. This
cannot happen to bytes in memory, nor to a file which goes on meeting requests once it has met one.
Searches leave every source where it was.
-/

namespace WasmText

namespace File

variable {file state after : File} {count : Nat}

theorem position_request (count : Nat) (file : File) :
    file.position ≤ (file.request count).2.position ∧
      (file.position ≤ file.contents.size →
        (file.request count).2.position ≤ file.contents.size) := by
  unfold request
  split
  · exact ⟨Nat.le_refl _, id⟩
  · simp only [Array.size_extract]
    omega

/-- However much a file delivers before it ends or refuses, it moves forward and inside of its
contents. -/
theorem position_gather (count : Nat) (gathered : Bytes) (file : File) :
    file.position ≤ (file.gather count gathered).2.position ∧
      (file.position ≤ file.contents.size →
        (file.gather count gathered).2.position ≤ file.contents.size) := by
  induction count, gathered, file using gather.induct with
  | case1 gathered file =>
      rw [gather]
      exact ⟨Nat.le_refl _, id⟩
  | case2 count gathered file nonzero error moved requested =>
      have one := file.position_request count
      rw [requested] at one
      rw [gather, if_neg nonzero, requested]
      exact one
  | case3 count gathered file nonzero piece moved requested empty =>
      have one := file.position_request count
      rw [requested] at one
      rw [gather, if_neg nonzero, requested]
      simp only [empty, if_true]
      exact one
  | case4 count gathered file nonzero piece moved requested nonempty induction =>
      have one := file.position_request count
      rw [requested] at one
      rw [gather, if_neg nonzero, requested]
      simp only [nonempty, if_false]
      rw [(same_of_request requested).contents] at induction
      exact ⟨Nat.le_trans one.1 induction.1, fun within => induction.2 (one.2 within)⟩

/-- A read that fails leaves the file where it was, wherever that is and whatever has been asked of
the file before. -/
def KeepsPlace (file : File) : Prop :=
  ∀ state, file.Same state → ∀ count error after,
    state.read count = (.error error, after) → after.position = state.position

theorem Same.keepsPlace (same : file.Same state) (keeps : file.KeepsPlace) : state.KeepsPlace :=
  fun further same_further => keeps further (same.trans same_further)

/-- A file that has met a request meets the next one as well. A file that meets every request is of
this kind, and so is one that refuses them all. -/
def Persists (file : File) : Prop :=
  ∀ request most, file.replies request = .delivered most →
    ∃ further, file.replies (request + 1) = .delivered further

theorem Same.persists (same : file.Same state) (persists : file.Persists) : state.Persists := by
  intro request most
  rw [same.replies]
  exact persists request most

theorem Willing.persists (willing : file.Willing) : file.Persists :=
  fun request _ _ => willing (request + 1)

/-- A file that persists is not refused anything any more once it has met a request. -/
theorem Persists.gather_ok (persists : file.Persists) {most : Nat}
    (met : file.replies file.requests = .delivered most) (count : Nat) (gathered : Bytes) :
    ∃ bytes after, file.gather count gathered = (.ok bytes, after) := by
  induction count, gathered, file using gather.induct generalizing most with
  | case1 gathered file => exact ⟨gathered, file, by rw [gather]; rfl⟩
  | case2 count gathered file nonzero error moved requested =>
      rw [request, met] at requested
      cases requested
  | case3 count gathered file nonzero piece moved requested empty =>
      refine ⟨gathered, moved, ?_⟩
      rw [gather, if_neg nonzero, requested]
      simp only [empty, if_true]
  | case4 count gathered file nonzero piece moved requested nonempty induction =>
      have same := same_of_request requested
      have requests_eq : moved.requests = file.requests + 1 := by
        rw [request, met] at requested
        cases requested
        rfl
      obtain ⟨further, met_further⟩ := persists _ _ met
      rw [← requests_eq, ← same.replies] at met_further
      obtain ⟨bytes, after, ended⟩ := induction (same.persists persists) met_further
      refine ⟨bytes, after, ?_⟩
      rw [gather, if_neg nonzero, requested]
      simp only [nonempty, if_false]
      exact ended

/-- A file that persists refuses the first request of a read or none, so nothing is lost. -/
theorem Persists.keepsPlace (persists : file.Persists) : file.KeepsPlace := by
  intro state same count error after failed
  cases reply : state.replies state.requests with
  | delivered most =>
      obtain ⟨bytes, read, delivered⟩ := (same.persists persists).gather_ok reply count #[]
      cases failed.symm.trans delivered
  | refused refusal =>
      rw [read, gather] at failed
      split at failed
      · cases failed
      · simp only [request, reply] at failed
        cases failed
        rfl

/-- A file that meets every request keeps its place, for no read of it fails. -/
theorem Willing.keepsPlace (willing : file.Willing) : file.KeepsPlace :=
  willing.persists.keepsPlace

/-- A file that cannot be read, such as a directory, keeps its place. -/
theorem keepsPlace_refusing (path : String) (error : SystemError) :
    (refusing path error).KeepsPlace :=
  Persists.keepsPlace fun _ _ met => by cases met

end File

namespace Source

variable {source after : Source} {count : Nat}

theorem position_le_read (count : Nat) (source : Source) :
    source.position ≤ (source.read count).2.position := by
  cases source with
  | memory contents position => exact Nat.le_add_right _ _
  | file opened => exact (opened.position_gather count #[]).1

theorem position_read_le (within : source.position ≤ source.contents.size) (count : Nat) :
    (source.read count).2.position ≤ source.contents.size := by
  cases source with
  | memory contents position =>
      change position ≤ contents.size at within
      change position + (contents.extract position (position + count)).size ≤ contents.size
      rw [Array.size_extract]
      omega
  | file opened => exact (opened.position_gather count #[]).2 within

/-- A read of the source that fails leaves it where it was. -/
def KeepsPlace : Source → Prop
  | memory _ _ => True
  | file opened => opened.KeepsPlace

theorem KeepsPlace.position_eq (keeps : source.KeepsPlace) {error : SystemError}
    (failed : source.read count = (.error error, after)) : after.position = source.position := by
  cases source with
  | memory contents position => cases failed
  | file opened =>
      obtain ⟨outcome, rfl⟩ := Prod.mk.inj failed
      exact keeps opened (File.Same.refl opened) count error _ (Prod.ext outcome rfl)

theorem KeepsPlace.read (keeps : source.KeepsPlace) (count : Nat) :
    (source.read count).2.KeepsPlace := by
  cases source with
  | memory contents position => exact trivial
  | file opened => exact File.Same.keepsPlace (File.same_of_gather rfl) keeps

/-! ### Looking up -/

namespace Request

/-- Whether a request looks something up, rather than reads on. -/
def looksUp : Request → Bool
  | next _ => false
  | _ => true

/-- What requests made of a file do not change, no look-up does. -/
theorem keeps_perform {Good : Source → Prop} (outlives : OutlivesRequests Good)
    {request : Request} (looks : request.looksUp = true) {source : Source} (good : Good source) :
    Good (request.perform source).2 := by
  cases request with
  | next count => cases looks
  | lineStart anchorLine anchorOffset target => exact outlives.lineStart _ _ _ source good
  | lineEnd start => exact outlives.lineEnd _ source good
  | range start count => exact outlives.range _ _ source good

end Request

end Source

end WasmText
