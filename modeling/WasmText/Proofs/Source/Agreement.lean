import WasmText.Proofs.Source.Searching

/-!
# Files and bytes in memory agree

A source is asked for its next bytes, for the start or the end of a line, and for a range of bytes,
in any order. What it answers depends on its contents and on the number of bytes read, and on
nothing else: not on whether they come from a file, nor on the pieces in which the file delivers
them. Lookups leave the next read where it was.
-/

namespace WasmText

namespace Source

/-- Something that a source is asked for. -/
inductive Request where
  /-- The next bytes, so many of them. -/
  | next (count : Nat)
  /-- The start of a line, from the start of a line that is known. -/
  | lineStart (anchorLine anchorOffset target : Nat)
  /-- The end of the line that starts at an offset. -/
  | lineEnd (start : Nat)
  /-- The bytes from an offset on, so many of them. -/
  | range (start count : Nat)

/-- What a source answers. -/
inductive Response where
  /-- The next bytes. -/
  | read (outcome : Except SystemError Bytes)
  /-- Where a line starts or ends. -/
  | offset (outcome : Except SourceError Nat)
  /-- The bytes of a range. -/
  | part (outcome : Except SourceError Bytes)

/-- The offsets from `start` on at which a newline stands, in order. -/
def newlines (contents : Bytes) (start : Nat) : List Nat :=
  (List.range' start (contents.size - start)).filter fun offset =>
    contents[offset]? = some Ascii.newline

/-- Where a line starts: behind the newline of the line before it, counted from a line that is
known. -/
def lineStartIn (contents : Bytes) (anchorLine anchorOffset target : Nat) :
    Except SourceError Nat :=
  if target = 0 ∨ target < anchorLine then
    .error (.lineOutOfRange target)
  else if target = anchorLine then
    .ok anchorOffset
  else
    match (newlines contents anchorOffset)[target - anchorLine - 1]? with
    | some newline => .ok (newline + 1)
    | none => .error (.lineOutOfRange target)

/-- Where a line ends: at its newline, or at a carriage return of the line before the newline, or
at the end of the contents. -/
def lineEndIn (contents : Bytes) (start : Nat) : Nat :=
  match (newlines contents start).head? with
  | some newline =>
    if start < newline ∧ contents[newline - 1]? = some Ascii.carriageReturn then newline - 1
    else newline
  | none => contents.size

/-- The bytes of a range, if the contents have them all. -/
def rangeIn (contents : Bytes) (start count : Nat) : Except SourceError Bytes :=
  if start + count ≤ contents.size then .ok (contents.extract start (start + count))
  else .error (.outOfBounds start count)

namespace Request

/-- Asks a source. -/
def perform : Request → Source → Response × Source
  | next count, source => ((source.read count).map .read id)
  | lineStart anchorLine anchorOffset target, source =>
    ((Source.lineStart anchorLine anchorOffset target).run source).map .offset id
  | lineEnd start, source => ((Source.lineEnd start).run source).map .offset id
  | range start count, source => ((Source.range start count).run source).map .part id

/-- Asks a source for one thing after the other. Each answer comes with the position of the source
behind it. -/
def performAll : List Request → Source → List (Response × Nat)
  | [], _ => []
  | request :: requests, source =>
    let (response, source) := request.perform source
    (response, source.position) :: performAll requests source

/-- The answer that the contents give when `position` bytes of them are read, and the number of
bytes that are read behind it. -/
def answer (contents : Bytes) (position : Nat) : Request → Response × Nat
  | next count =>
    let bytes := contents.extract position (position + count)
    (.read (.ok bytes), position + bytes.size)
  | lineStart anchorLine anchorOffset target =>
    (.offset (lineStartIn contents anchorLine anchorOffset target), position)
  | lineEnd start => (.offset (.ok (lineEndIn contents start)), position)
  | range start count => (.part (rangeIn contents start count), position)

/-- The answers that the contents give to one request after the other. -/
def answerAll (contents : Bytes) (position : Nat) : List Request → List (Response × Nat)
  | [] => []
  | request :: requests =>
    let (response, position) := request.answer contents position
    (response, position) :: answerAll contents position requests

/-- Requests that files can be asked as well as bytes in memory. A line ends and an empty range lies
inside of the contents. -/
def Admissible (contents : Bytes) : Request → Prop
  | next _ => True
  | lineStart _ anchorOffset _ => anchorOffset < File.offsetBound
  | lineEnd start => start ≤ contents.size ∧ start < File.offsetBound
  | range start count => (start ≤ contents.size ∨ 0 < count) ∧ start < File.offsetBound

end Request

variable {contents : Bytes} {position : Nat} {source : Source}

theorem newlines_of_size_le {start : Nat} (past : contents.size ≤ start) :
    newlines contents start = [] := by
  rw [newlines, Nat.sub_eq_zero_of_le past]
  rfl

theorem newlines_of_lt {start : Nat} (inside : start < contents.size) :
    newlines contents start =
      if contents[start] = Ascii.newline then start :: newlines contents (start + 1)
      else newlines contents (start + 1) := by
  have size_eq : contents.size - start = contents.size - (start + 1) + 1 := by omega
  rw [newlines, size_eq, List.range'_succ, List.filter_cons]
  simp only [Array.getElem?_eq_getElem inside, Option.some.injEq, decide_eq_true_eq]
  rfl

theorem le_of_newlines_head? {start newline : Nat}
    (first : (newlines contents start).head? = some newline) : start ≤ newline := by
  have present := List.mem_filter.mp (List.mem_of_mem_head? first)
  exact (List.mem_range'_1.mp present.1).1

end Source

namespace ByteVisitor

variable {σ : Type} {contents : Bytes}

/-- A visit goes on behind the byte at which it starts. -/
theorem verdict_of_lt (visitor : ByteVisitor σ) {start : Nat} (inside : start < contents.size)
    (state : σ) :
    visitor.verdict contents start (start, state) =
      match visitor start state contents[start] with
      | .error found => .found found
      | .ok state => visitor.verdict contents (start + 1) (start + 1, state) := by
  have byte_eq : contents.extract start (start + 1) = #[contents[start]] := by
    apply Array.toList_inj.mp
    rw [Array.toList_extract, List.extract_eq_take_drop, Nat.add_sub_cancel_left,
      List.drop_eq_getElem_cons (by simpa using inside)]
    rfl
  rw [verdict, visitor.visitAll_split contents (Nat.le_add_right start 1), byte_eq]
  unfold visitAll
  rw [← Array.foldlM_toList, List.foldlM_cons]
  cases seen : visitor start state contents[start] with
  | error found =>
      simp only [visit, seen]
      rfl
  | ok next =>
      simp only [visit, seen]
      rfl

theorem verdict_of_size_le (visitor : ByteVisitor σ) {start : Nat} (past : contents.size ≤ start)
    (state : σ) : visitor.verdict contents start (start, state) = .exhausted start := by
  rw [verdict, visitor.visitAll_of_size_le past]

end ByteVisitor

namespace Source

variable {contents : Bytes} {position : Nat} {source : Source}

/-- Lines are counted by their newlines. -/
theorem verdict_lineStartBytes {line target : Nat} (below : line < target) (start : Nat) :
    (lineStartBytes target).verdict contents start (start, line) =
      match (newlines contents start)[target - line - 1]? with
      | some newline => .found (newline + 1)
      | none => .exhausted (max start contents.size) := by
  by_cases inside : start < contents.size
  · rw [ByteVisitor.verdict_of_lt _ inside, lineStartBytes, newlines_of_lt inside]
    by_cases newline : contents[start] = Ascii.newline
    · rw [if_pos newline, if_pos newline]
      by_cases last : line + 1 = target
      · rw [if_pos last, show target - line - 1 = 0 by omega]
        rfl
      · have below_next : line + 1 < target := by omega
        rw [if_neg last, show target - line - 1 = target - (line + 1) - 1 + 1 by omega,
          List.getElem?_cons_succ]
        dsimp only
        rw [verdict_lineStartBytes below_next (start + 1), Nat.max_eq_right inside,
          Nat.max_eq_right (Nat.le_of_lt inside)]
    · rw [if_neg newline, if_neg newline]
      dsimp only
      rw [verdict_lineStartBytes below (start + 1), Nat.max_eq_right inside,
        Nat.max_eq_right (Nat.le_of_lt inside)]
  · have past : contents.size ≤ start := Nat.not_lt.mp inside
    rw [ByteVisitor.verdict_of_size_le _ past, newlines_of_size_le past, Nat.max_eq_left past]
    rfl
termination_by contents.size - start

/-- A line ends at the next newline, less a carriage return that was passed just before. -/
theorem verdict_lineEndBytes {start : Nat} (inside : start ≤ contents.size)
    (previous : Option UInt8) :
    lineEndBytes.verdict contents start (start, previous) =
      match (newlines contents start).head? with
      | some newline =>
        .found (if (if newline = start then previous else contents[newline - 1]?) =
          some Ascii.carriageReturn then newline - 1 else newline)
      | none => .exhausted contents.size := by
  by_cases within : start < contents.size
  · rw [ByteVisitor.verdict_of_lt _ within, lineEndBytes, newlines_of_lt within]
    by_cases newline : contents[start] = Ascii.newline
    · rw [if_pos newline, if_pos newline, List.head?_cons]
      dsimp only
      rw [if_pos rfl]
    · rw [if_neg newline, if_neg newline]
      dsimp only
      rw [verdict_lineEndBytes within (some contents[start])]
      cases first : (newlines contents (start + 1)).head? with
      | none => rfl
      | some found =>
          have later := le_of_newlines_head? first
          have other : found ≠ start := by omega
          dsimp only
          rw [if_neg other]
          by_cases next : found = start + 1
          · rw [if_pos next, next, Nat.add_sub_cancel, Array.getElem?_eq_getElem within]
          · rw [if_neg next]
  · have ended : start = contents.size := by omega
    rw [ByteVisitor.verdict_of_size_le _ (Nat.le_of_eq ended.symm),
      newlines_of_size_le (Nat.le_of_eq ended.symm), ended]
    rfl
termination_by contents.size - start

/-- A source of the contents that refuses nothing, with `position` bytes of them read. -/
inductive Stands (contents : Bytes) (position : Nat) : Source → Prop where
  /-- Bytes in memory. -/
  | memory : Stands contents position (.memory contents position)
  /-- A file that meets every request. -/
  | file {opened : File} (contents_eq : opened.contents = contents)
      (position_eq : opened.position = position) (willing : opened.Willing) :
      Stands contents position (.file opened)

theorem Stands.position_eq (stands : source.Stands contents position) :
    source.position = position := by
  cases stands with
  | memory => rfl
  | file _ position_eq _ => exact position_eq

/-- A file that was moved and put back stands where it did. -/
theorem stands_restored {opened moved : File} (same : opened.Same moved)
    (willing : opened.Willing) :
    Stands opened.contents opened.position
      (.file { moved with position := opened.position }) :=
  .file same.contents rfl (same.willing willing)

/-- A search ends in a file as it does in memory, where it begins at the end of the contents at
the latest. -/
theorem Stands.search {σ : Type} (stands : source.Stands contents position) {visitor : Visitor σ}
    {bytewise : ByteVisitor σ} {Reached : Nat → σ → Prop}
    (follows : visitor.Follows bytewise Reached) (state : σ) {start : Nat}
    (reached : Reached start state) (addressable : start < File.offsetBound) :
    ∃ first after, (first = start ∨ contents.size ≤ start ∧ first = contents.size) ∧
      Source.search visitor state start source =
        (.ok (bytewise.verdict contents first (first, state)), after) ∧
      after.Stands contents position := by
  cases stands with
  | memory =>
      exact ⟨min start contents.size, .memory contents position, by omega,
        search_memory follows reached position, .memory⟩
  | @file opened contents_eq position_eq willing =>
      subst contents_eq position_eq
      have moved_willing : File.Willing { opened with position := start } := willing
      obtain ⟨after, searched, same⟩ := File.search_of_willing follows reached moved_willing
      refine ⟨start, _, .inl rfl, ?_, stands_restored ⟨same.path, same.contents, same.replies⟩
        willing⟩
      rw [Source.search, visiting_of_willing _ addressable searched]

theorem Stands.read (stands : source.Stands contents position) (count : Nat) :
    ∃ after, source.read count =
        (.ok (contents.extract position (position + count)), after) ∧
      after.Stands contents
        (position + (contents.extract position (position + count)).size) := by
  cases stands with
  | memory => exact ⟨_, rfl, .memory⟩
  | @file opened contents_eq position_eq willing =>
      subst contents_eq position_eq
      obtain ⟨bytes, after, gathered⟩ := File.gather_of_willing count #[] willing
      have same := File.same_of_gather gathered
      obtain ⟨bytes_eq, after_position⟩ := File.gather_ok gathered
      rw [Array.empty_append] at bytes_eq
      refine ⟨.file after, ?_, .file same.contents after_position (same.willing willing)⟩
      simp only [Source.read, File.read, gathered, bytes_eq]

theorem Stands.lineStart (stands : source.Stands contents position) {anchorOffset : Nat}
    (addressable : anchorOffset < File.offsetBound) (anchorLine target : Nat) :
    ∃ after, (Source.lineStart anchorLine anchorOffset target).run source =
        (lineStartIn contents anchorLine anchorOffset target, after) ∧
      after.Stands contents position := by
  unfold Source.lineStart lineStartIn
  by_cases outside : target = 0 ∨ target < anchorLine
  · have refused : (target < anchorLine || target == 0) = true := by simpa [or_comm] using outside
    rw [if_pos outside, if_pos refused]
    exact ⟨source, rfl, stands⟩
  have accepted : ¬(target < anchorLine || target == 0) = true := by simpa [or_comm] using outside
  rw [if_neg outside, if_neg accepted]
  by_cases anchored : target = anchorLine
  · rw [if_pos anchored, if_pos anchored]
    exact ⟨source, rfl, stands⟩
  rw [if_neg anchored, if_neg anchored]
  obtain ⟨first, after, first_eq, searched, after_stands⟩ :=
    stands.search (lineStart_follows target) anchorLine trivial addressable
  refine ⟨after, ?_, after_stands⟩
  have newlines_eq : newlines contents first = newlines contents anchorOffset := by
    obtain rfl | ⟨past, rfl⟩ := first_eq
    · rfl
    · rw [newlines_of_size_le past, newlines_of_size_le (Nat.le_refl _)]
  rw [verdict_lineStartBytes (by omega), newlines_eq] at searched
  rw [ExceptT.run_bind]
  simp only [Bind.bind, StateT.bind, ExceptT.run, searched]
  cases (newlines contents anchorOffset)[target - anchorLine - 1]? <;> rfl

theorem Stands.lineEnd (stands : source.Stands contents position) {start : Nat}
    (inside : start ≤ contents.size) (addressable : start < File.offsetBound) :
    ∃ after, (Source.lineEnd start).run source = (.ok (lineEndIn contents start), after) ∧
      after.Stands contents position := by
  obtain ⟨first, after, first_eq, searched, after_stands⟩ :=
    stands.search (lineEnd_follows start) none (by simp) addressable
  refine ⟨after, ?_, after_stands⟩
  obtain rfl : first = start := by omega
  rw [verdict_lineEndBytes inside] at searched
  unfold Source.lineEnd lineEndIn
  rw [ExceptT.run_bind]
  simp only [Bind.bind, StateT.bind, ExceptT.run, searched]
  cases found : (newlines contents first).head? with
  | none => rfl
  | some newline =>
      have later := le_of_newlines_head? found
      dsimp only
      by_cases empty : newline = first
      · rw [if_pos empty, if_neg (by simp), if_neg (by omega)]
        rfl
      · have behind : first < newline := by omega
        simp only [empty, behind, true_and, if_false]
        rfl

theorem Stands.range (stands : source.Stands contents position) {start count : Nat}
    (nonempty : start ≤ contents.size ∨ 0 < count) (addressable : start < File.offsetBound) :
    ∃ after, (Source.range start count).run source = (rangeIn contents start count, after) ∧
      after.Stands contents position := by
  unfold Source.range rangeIn
  rw [ExceptT.run_bind]
  cases stands with
  | memory =>
      refine ⟨.memory contents position, ?_, .memory⟩
      by_cases inside : start + count ≤ contents.size
      · simp only [Bind.bind, StateT.bind, ExceptT.run, Source.range.fetch, if_pos inside]
        rw [if_pos (by rw [Array.size_extract]; omega)]
        rfl
      · simp only [Bind.bind, StateT.bind, ExceptT.run, Source.range.fetch, if_neg inside]
        rfl
  | @file opened contents_eq position_eq willing =>
      subst contents_eq position_eq
      have moved_willing : File.Willing { opened with position := start } := willing
      obtain ⟨bytes, after, read⟩ := File.gather_of_willing count #[] moved_willing
      have same := File.same_of_gather read
      obtain ⟨bytes_eq, -⟩ := File.gather_ok read
      rw [Array.empty_append] at bytes_eq
      have fetched : Source.range.fetch start count (.file opened) =
          (.ok (opened.contents.extract start (start + count)),
            .file { after with position := opened.position }) := by
        rw [Source.range.fetch, visiting_of_willing (File.read count) addressable read, bytes_eq]
      refine ⟨_, ?_, stands_restored ⟨same.path, same.contents, same.replies⟩ willing⟩
      simp only [Bind.bind, StateT.bind, ExceptT.run, fetched]
      by_cases inside : start + count ≤ opened.contents.size
      · rw [if_pos inside, if_pos (by rw [Array.size_extract]; omega)]
        rfl
      · rw [if_neg inside, if_neg (by rw [Array.size_extract]; omega)]
        rfl

namespace Request

/-- A source that refuses nothing answers what its contents do. -/
theorem perform_of_stands (stands : source.Stands contents position) {request : Request}
    (admissible : request.Admissible contents) :
    ∃ after, request.perform source = ((request.answer contents position).1, after) ∧
      after.Stands contents (request.answer contents position).2 := by
  cases request with
  | next count =>
      obtain ⟨after, performed, after_stands⟩ := stands.read count
      exact ⟨after, by rw [perform, performed]; rfl, after_stands⟩
  | lineStart anchorLine anchorOffset target =>
      obtain ⟨after, performed, after_stands⟩ := stands.lineStart admissible anchorLine target
      exact ⟨after, by rw [perform, performed]; rfl, after_stands⟩
  | lineEnd start =>
      obtain ⟨after, performed, after_stands⟩ := stands.lineEnd admissible.1 admissible.2
      exact ⟨after, by rw [perform, performed]; rfl, after_stands⟩
  | range start count =>
      obtain ⟨after, performed, after_stands⟩ := stands.range admissible.1 admissible.2
      exact ⟨after, by rw [perform, performed]; rfl, after_stands⟩

theorem performAll_of_stands (stands : source.Stands contents position) {requests : List Request}
    (admissible : ∀ request ∈ requests, request.Admissible contents) :
    performAll requests source = answerAll contents position requests := by
  induction requests generalizing source position with
  | nil => rfl
  | cons request requests induction =>
      obtain ⟨after, performed, after_stands⟩ :=
        perform_of_stands stands (admissible request List.mem_cons_self)
      have further := induction after_stands fun other present =>
        admissible other (List.mem_cons_of_mem request present)
      simp only [performAll, answerAll, performed, further, after_stands.position_eq]

/-- A file that meets every request, in pieces of whatever sizes, and the same bytes in memory
answer alike whatever they are asked for, one thing after the other, and are at the same place
behind each answer. Either answers what its contents do. -/
theorem performAll_file {file : File} (willing : file.Willing) (requests : List Request)
    (admissible : ∀ request ∈ requests, request.Admissible file.contents) :
    performAll requests (.file file) =
        performAll requests (.memory file.contents file.position) ∧
      performAll requests (.file file) = answerAll file.contents file.position requests := by
  have in_file := performAll_of_stands (.file rfl rfl willing) admissible
  have in_memory := performAll_of_stands
    (.memory : Stands file.contents file.position (.memory file.contents file.position)) admissible
  exact ⟨in_file.trans in_memory.symm, in_file⟩

/-- A file that delivers single bytes, so that a carriage return and its newline come apart, of
which a line end, two line starts and two ranges are looked up between two reads. -/
theorem performAll_file_apart :
    let file : File :=
      { File.regular "a.wast" "ab\r\nc\n".toUTF8.data with replies := fun _ => .delivered 1 }
    let requests : List Request := [.next 3, .lineEnd 0, .lineStart 1 1 2, .lineStart 1 9 2,
      .range 4 2, .range 4 3, .next 9]
    performAll requests (.file file) =
        performAll requests (.memory file.contents file.position) ∧
      performAll requests (.file file) =
        [(.read (.ok "ab\r".toUTF8.data), 3), (.offset (.ok 2), 3), (.offset (.ok 4), 3),
          (.offset (.error (.lineOutOfRange 2)), 3), (.part (.ok "c\n".toUTF8.data), 3),
          (.part (.error (.rangeOutOfBounds 4 7)), 3), (.read (.ok "\nc\n".toUTF8.data), 6)] := by
  intro file requests
  have admissible : ∀ request ∈ requests, request.Admissible file.contents := by
    simp only [requests, List.forall_mem_cons, List.not_mem_nil, false_implies, implies_true,
      Admissible]
    decide +kernel
  obtain ⟨same, answered⟩ := performAll_file (fun _ => ⟨1, rfl⟩) requests admissible
  exact ⟨same, answered.trans rfl⟩

end Request

end Source

end WasmText
