import WasmText.Source.Basic

/-!
# Reading a source in order

However a file cuts its replies, a read that succeeds delivers the next bytes of the contents and
moves the position past them, just as a read from memory does. A source that refuses no request
always succeeds.
-/

namespace WasmText

namespace File

/-- A file that meets every request, in pieces of whatever sizes. -/
def Willing (file : File) : Prop :=
  ∀ request, ∃ most, file.replies request = .delivered most

/-- Another state of the same file, which may differ in its position and its requests. -/
structure Same (before after : File) : Prop where
  /-- The path stays. -/
  path : after.path = before.path
  /-- The contents stay. -/
  contents : after.contents = before.contents
  /-- The replies stay. -/
  replies : after.replies = before.replies

theorem Same.refl (file : File) : Same file file :=
  ⟨rfl, rfl, rfl⟩

theorem Same.trans {first second third : File} (left : Same first second)
    (right : Same second third) : Same first third :=
  ⟨right.path.trans left.path, right.contents.trans left.contents,
    right.replies.trans left.replies⟩

theorem Same.willing {before after : File} (same : Same before after) (willing : before.Willing) :
    after.Willing := by
  intro request
  rw [same.replies]
  exact willing request

theorem same_of_request {count : Nat} {file after : File} {outcome : Except SystemError Bytes}
    (requested : file.request count = (outcome, after)) : Same file after := by
  unfold request at requested
  split at requested
  · obtain ⟨-, rfl⟩ := Prod.mk.inj requested
    exact ⟨rfl, rfl, rfl⟩
  · obtain ⟨-, rfl⟩ := Prod.mk.inj requested
    exact ⟨rfl, rfl, rfl⟩

/-- A piece starts at the position, is no longer than asked for, and is empty only if nothing was
asked for or the file has ended. -/
theorem request_ok {count : Nat} {file after : File} {piece : Bytes}
    (requested : file.request count = (.ok piece, after)) :
    piece = file.contents.extract file.position (file.position + piece.size) ∧
      piece.size ≤ count ∧ after.position = file.position + piece.size ∧
        (piece.size = 0 → 0 < count → file.contents.size ≤ file.position) := by
  unfold request at requested
  split at requested
  · cases requested
  · rename_i most _
    simp only [Prod.mk.injEq, Except.ok.injEq] at requested
    obtain ⟨rfl, rfl⟩ := requested
    refine ⟨?_, ?_, rfl, ?_⟩
    · rw [Array.size_extract]
      apply Array.extract_eq_extract_right.mpr
      omega
    · rw [Array.size_extract]
      omega
    · rw [Array.size_extract]
      omega

theorem request_of_willing (count : Nat) {file : File} (willing : file.Willing) :
    ∃ piece after, file.request count = (.ok piece, after) := by
  obtain ⟨most, reply⟩ := willing file.requests
  rw [request, reply]
  exact ⟨_, _, rfl⟩

theorem same_of_gather {count : Nat} {gathered : Bytes} {file after : File}
    {outcome : Except SystemError Bytes}
    (ended : file.gather count gathered = (outcome, after)) : Same file after := by
  induction count, gathered, file using gather.induct generalizing after with
  | case1 gathered file =>
      rw [gather] at ended
      cases ended
      exact Same.refl file
  | case2 count gathered file nonzero error moved requested =>
      rw [gather, if_neg nonzero, requested] at ended
      cases ended
      exact same_of_request requested
  | case3 count gathered file nonzero piece moved requested empty =>
      rw [gather, if_neg nonzero, requested] at ended
      simp only [empty, if_true] at ended
      cases ended
      exact same_of_request requested
  | case4 count gathered file nonzero piece moved requested nonempty induction =>
      rw [gather, if_neg nonzero, requested] at ended
      simp only [nonempty, if_false] at ended
      exact (same_of_request requested).trans (induction ended)

/-- Gathering adds the bytes from the position on, fewer only at the end of the file, and moves
past what it adds. -/
theorem gather_ok {count : Nat} {gathered bytes : Bytes} {file after : File}
    (ended : file.gather count gathered = (.ok bytes, after)) :
    bytes = gathered ++ file.contents.extract file.position (file.position + count) ∧
      after.position =
        file.position + (file.contents.extract file.position (file.position + count)).size := by
  induction count, gathered, file using gather.induct generalizing after with
  | case1 gathered file =>
      rw [gather] at ended
      cases ended
      rw [Nat.add_zero, Array.extract_empty_of_stop_le_start (Nat.le_refl _)]
      exact ⟨Array.append_empty.symm, rfl⟩
  | case2 count gathered file nonzero error moved requested =>
      rw [gather, if_neg nonzero, requested] at ended
      cases ended
  | case3 count gathered file nonzero piece moved requested empty =>
      rw [gather, if_neg nonzero, requested] at ended
      simp only [empty, if_true] at ended
      cases ended
      obtain ⟨-, -, moved_position, at_end⟩ := request_ok requested
      have past_end := at_end empty (by omega)
      rw [Array.extract_empty_of_size_le_start past_end, moved_position, empty]
      simp
  | case4 count gathered file nonzero piece moved requested nonempty induction =>
      rw [gather, if_neg nonzero, requested] at ended
      simp only [nonempty, if_false] at ended
      obtain ⟨piece_eq, piece_le, moved_position, -⟩ := request_ok requested
      obtain ⟨bytes_eq, after_position⟩ := induction ended
      have joined :
          piece ++ file.contents.extract moved.position (moved.position + (count - piece.size)) =
            file.contents.extract file.position (file.position + count) := by
        rw [moved_position, Nat.add_assoc, Nat.add_sub_cancel' piece_le]
        conv => lhs; lhs; rw [piece_eq]
        rw [Array.extract_append_extract]
        congr 1 <;> omega
      rw [(same_of_request requested).contents] at bytes_eq after_position
      constructor
      · rw [bytes_eq, Array.append_assoc, joined]
      · rw [after_position, moved_position, ← joined, Array.size_append, moved_position]
        omega

theorem gather_of_willing (count : Nat) (gathered : Bytes) {file : File} (willing : file.Willing) :
    ∃ bytes after, file.gather count gathered = (.ok bytes, after) := by
  induction count, gathered, file using gather.induct with
  | case1 gathered file => exact ⟨gathered, file, by rw [gather]; rfl⟩
  | case2 count gathered file nonzero error moved requested =>
      obtain ⟨piece, after, delivered⟩ := request_of_willing count willing
      rw [requested] at delivered
      cases delivered
  | case3 count gathered file nonzero piece moved requested empty =>
      refine ⟨gathered, moved, ?_⟩
      rw [gather, if_neg nonzero, requested]
      simp only [empty, if_true]
  | case4 count gathered file nonzero piece moved requested nonempty induction =>
      obtain ⟨bytes, after, ended⟩ := induction ((same_of_request requested).willing willing)
      refine ⟨bytes, after, ?_⟩
      rw [gather, if_neg nonzero, requested]
      simp only [nonempty, if_false]
      exact ended

end File

namespace Source

/-- A source whose bytes are `contents` and which never fails: bytes in memory, or a file that meets
every request. Every offset of such a file can be moved to. -/
inductive Serves (contents : Bytes) : Source → Prop where
  /-- Bytes in memory. -/
  | memory (position : Nat) : Serves contents (.memory contents position)
  /-- A file. -/
  | file (opened : File) (contents_eq : opened.contents = contents) (willing : opened.Willing)
      (addressable : contents.size < File.offsetBound) : Serves contents (.file opened)

/-- A source that serves the contents and of which nothing has been read. -/
structure Opens (contents : Bytes) (source : Source) : Prop where
  /-- The source serves the contents. -/
  serves : source.Serves contents
  /-- The next byte to be read is the first. -/
  unread : source.position = 0

theorem opens_ofBytes (contents : Bytes) : (ofBytes contents).Opens contents :=
  ⟨.memory 0, rfl⟩

theorem opens_regular (path : String) {contents : Bytes}
    (addressable : contents.size < File.offsetBound) :
    Opens contents (.file (.regular path contents)) :=
  ⟨.file _ rfl (fun _ => ⟨_, rfl⟩) addressable, rfl⟩

theorem Serves.contents_eq {contents : Bytes} {source : Source} (serves : source.Serves contents) :
    source.contents = contents := by
  cases serves with
  | memory => rfl
  | file _ contents_eq => exact contents_eq

theorem contents_read (count : Nat) (source : Source) :
    (source.read count).2.contents = source.contents := by
  cases source with
  | memory contents position => rfl
  | file opened => exact (File.same_of_gather rfl).contents

/-- A read that succeeds delivers the bytes from the position on, fewer only at the end of the
source, and moves past them. -/
theorem read_ok {count : Nat} {source after : Source} {bytes : Bytes}
    (delivered : source.read count = (.ok bytes, after)) :
    bytes = source.contents.extract source.position (source.position + count) ∧
      after.position = source.position + bytes.size := by
  cases source with
  | memory contents position =>
      cases delivered
      exact ⟨rfl, rfl⟩
  | file opened =>
      simp only [read, Prod.mk.injEq] at delivered
      obtain ⟨outcome, rfl⟩ := delivered
      obtain ⟨bytes_eq, position_eq⟩ := File.gather_ok (Prod.ext outcome rfl)
      rw [Array.empty_append] at bytes_eq
      rw [← bytes_eq] at position_eq
      exact ⟨bytes_eq, position_eq⟩

theorem Serves.read {contents : Bytes} {source : Source} (serves : source.Serves contents)
    (count : Nat) : (source.read count).2.Serves contents := by
  cases serves with
  | memory position => exact .memory _
  | file opened contents_eq willing addressable =>
      have same : opened.Same (opened.read count).2 := File.same_of_gather rfl
      exact .file _ (same.contents.trans contents_eq) (same.willing willing) addressable

theorem Serves.exists_read {contents : Bytes} {source : Source} (serves : source.Serves contents)
    (count : Nat) : ∃ bytes after, source.read count = (.ok bytes, after) := by
  cases serves with
  | memory position => exact ⟨_, _, rfl⟩
  | file opened contents_eq willing addressable =>
      obtain ⟨bytes, after, ended⟩ := File.gather_of_willing count #[] willing
      refine ⟨bytes, .file after, ?_⟩
      simp only [Source.read, File.read, ended]

end Source

end WasmText
