import WasmText.Proofs.Lexer.LineBreak

/-!
# Pieces before further bytes

A step looks at most one byte beyond the bytes that it takes. So bytes that come behind others do
not change a piece that leaves some of these. Only a string that is cut off in the middle of an
escape is taken as far as the escape, and more of it when the rest of the escape is there.
-/

namespace WasmText

namespace Piece

variable {bytes tail rest ahead : List UInt8} {accepts : UInt8 → Bool}

/-- Bytes that further ones may make an escape of. -/
inductive Cut : List UInt8 → Prop where
  /-- A backslash. -/
  | backslash : Cut [Ascii.backslash]
  /-- A backslash and a digit. -/
  | digit {digit : UInt8} (hexadecimal : Ascii.isHexDigit digit = true) :
      Cut [Ascii.backslash, digit]

/-- A run that ends at a byte does not depend on what comes behind that byte. -/
theorem takeWhile_append_rest (tail : List UInt8) (ended : bytes.dropWhile accepts ≠ []) :
    (bytes ++ tail).takeWhile accepts = bytes.takeWhile accepts := by
  have whole := congrArg List.length (List.takeWhile_append_dropWhile (p := accepts) (l := bytes))
  have positive := List.length_pos_iff.mpr ended
  rw [List.length_append] at whole
  rw [List.takeWhile_append, if_neg (by omega)]

theorem rest_of_takeWhile (split : bytes = bytes.takeWhile accepts ++ rest) :
    bytes.dropWhile accepts = rest :=
  List.append_cancel_left (List.takeWhile_append_dropWhile.trans split)

/-! ### Strings -/

theorem escapeLength_append_of_ne (tail : List UInt8) (valid : escapeLength rest ≠ 0) :
    escapeLength (rest ++ tail) = escapeLength rest := by
  cases rest with
  | nil => exact absurd rfl valid
  | cons first rest =>
      cases rest with
      | cons => rfl
      | nil =>
          unfold escapeLength at valid ⊢
          dsimp only [List.nil_append, List.cons_append] at valid ⊢
          split
          · rfl
          · rename_i no_letter
            rw [if_neg no_letter] at valid
            split at valid <;> exact absurd rfl valid

/-- A backslash that begins no escape does not begin one with further bytes either, unless it is
cut off. -/
theorem escapeLength_append_of_eq (tail : List UInt8) (invalid : escapeLength rest = 0)
    (whole : ¬ Cut (Ascii.backslash :: rest)) : escapeLength (rest ++ tail) = 0 := by
  cases rest with
  | nil => exact absurd .backslash whole
  | cons first rest =>
      cases rest with
      | cons => exact invalid
      | nil =>
          unfold escapeLength at invalid ⊢
          dsimp only [List.nil_append, List.cons_append] at invalid ⊢
          split at invalid
          · cases invalid
          · rename_i no_letter
            rw [if_neg no_letter]
            exact if_neg fun digit => whole (.digit digit)

/-- The valid content of a string that goes on behind it, and is not cut off there. -/
theorem validContent_append (tail : List UInt8)
    (left : ahead.drop (validContent ahead).length ≠ [])
    (whole : ¬ Cut (ahead.drop (validContent ahead).length)) :
    validContent (ahead ++ tail) = validContent ahead := by
  fun_induction validContent ahead with
  | case1 => exact absurd rfl left
  | case2 byte rest plain induction =>
      rw [List.cons_append, validContent, if_pos plain, induction left whole]
  | case3 byte rest special escape induction =>
      have bounds := escapeLength_cases rest
      obtain ⟨-, valid⟩ := (Bool.and_eq_true _ _).mp escape
      have valid : escapeLength rest ≠ 0 := by simpa using valid
      have inside : escapeLength rest - 1 ≤ rest.length := by omega
      have length_eq (content : List UInt8) :
          (byte :: rest).drop
              (byte :: rest.take (escapeLength rest - 1) ++ content).length =
            (rest.drop (escapeLength rest - 1)).drop content.length := by
        rw [List.cons_append, List.length_cons, List.drop_succ_cons, List.length_append,
          List.length_take_of_le inside, List.drop_drop]
      rw [length_eq] at left whole
      rw [List.cons_append, validContent, if_neg special, escapeLength_append_of_ne tail valid,
        if_pos escape, List.take_append_of_le_length inside, List.drop_append_of_le_length inside,
        induction left whole]
  | case4 byte rest special no_escape =>
      rw [List.cons_append]
      refine validContent_stop (by simpa using special) ?_
      rintro rfl
      exact escapeLength_append_of_eq tail (by simpa using no_escape) whole

theorem drop_append_of_split {content last : List UInt8} (split : content ++ last = ahead)
    (tail : List UInt8) : (ahead ++ tail).drop content.length = last ++ tail := by
  rw [← split, List.append_assoc, List.drop_left]

/-- A string up to its end or its first error, with bytes behind that. -/
theorem ofText_append (nesting : Nat) (tail : List UInt8)
    (split : Ascii.quote :: ahead = (ofText nesting ahead).taken ++ rest) (left : rest ≠ []) :
    ofText nesting (ahead ++ tail) = ofText nesting ahead ∨
      ofText nesting ahead =
        { taken := Ascii.quote :: validContent ahead, mode := .badText, nesting } ∧ Cut rest := by
  obtain ⟨last, last_eq⟩ := validContent_prefix ahead
  have drop_eq : ahead.drop (validContent ahead).length = last := by
    simpa using drop_append_of_split last_eq []
  have further_eq := drop_append_of_split last_eq tail
  by_cases closed : last.head? = some Ascii.quote
  · obtain ⟨further, rfl⟩ := List.head?_eq_some_iff.mp closed
    have content_eq : validContent (ahead ++ tail) = validContent ahead :=
      validContent_append tail (by rw [drop_eq]; exact List.cons_ne_nil _ _)
        (by rw [drop_eq]; exact nofun)
    left
    simp only [ofText, ofContent, content_eq, drop_eq, further_eq, List.cons_append,
      List.head?_cons]
  · have piece_eq : ofText nesting ahead =
        { taken := Ascii.quote :: validContent ahead, mode := .badText, nesting } := by
      rw [ofText, ofContent, drop_eq, if_neg closed]
      rfl
    rw [piece_eq, List.cons_append, List.cons_inj_right] at split
    obtain rfl : last = rest := List.append_cancel_left (last_eq.trans split)
    by_cases cut : Cut last
    · exact .inr ⟨piece_eq, cut⟩
    · have content_eq : validContent (ahead ++ tail) = validContent ahead :=
        validContent_append tail (by rwa [drop_eq]) (by rwa [drop_eq])
      have still_open : (last ++ tail).head? ≠ some Ascii.quote := by
        rwa [List.head?_append_of_ne_nil _ left]
      left
      rw [piece_eq, ofText, ofContent, content_eq, further_eq, if_neg still_open]
      rfl

theorem ofBackslash_append (nesting : Nat) (tail : List UInt8)
    (split : Ascii.backslash :: ahead = (ofBackslash nesting ahead).taken ++ rest)
    (left : rest ≠ []) :
    ofBackslash nesting (ahead ++ tail) = ofBackslash nesting ahead := by
  unfold ofBackslash at split ⊢
  by_cases invalid : escapeLength ahead = 0
  · rw [if_pos invalid] at split ⊢
    cases ahead with
    | nil => exact absurd (List.cons.inj split).2.symm left
    | cons byte ahead =>
        have whole : ¬ Cut (Ascii.backslash :: byte :: ahead) := by
          rintro (- | digit)
          dsimp only at split
          split at split
          · rename_i newline
            subst newline
            exact absurd digit (by decide)
          · exact left (by simpa using split)
        rw [escapeLength_append_of_eq tail invalid whole]
        rfl
  · have bounds := escapeLength_cases ahead
    have inside : escapeLength ahead - 1 ≤ ahead.length := by omega
    rw [escapeLength_append_of_ne tail invalid, if_neg invalid, if_neg invalid,
      List.take_append_of_le_length inside]

/-! ### Steps -/

/-- What is left behind the first byte of a piece, if anything is left behind the piece. -/
theorem ne_nil_of_split {byte : UInt8} {taken : List UInt8} (split : byte :: ahead = taken ++ rest)
    (nonempty : taken ≠ []) (left : rest ≠ []) : ahead ≠ [] := by
  have length_eq := congrArg List.length split
  have taken_positive := List.length_pos_iff.mpr nonempty
  have rest_positive := List.length_pos_iff.mpr left
  rw [List.length_append, List.length_cons] at length_eq
  exact List.length_pos_iff.mp (by omega)

theorem normal_append (nesting : Nat) (tail : List UInt8)
    (split : ahead = (normal nesting ahead).taken ++ rest)
    (nonempty : (normal nesting ahead).taken ≠ []) (left : rest ≠ []) :
    normal nesting (ahead ++ tail) = normal nesting ahead ∨
      (∃ content, normal nesting ahead = { taken := content, mode := .badText, nesting }) ∧
        Cut rest := by
  cases ahead with
  | nil => exact absurd (List.append_eq_nil_iff.mp split.symm).2 left
  | cons byte ahead =>
      have more := ne_nil_of_split split nonempty left
      have head_eq : (ahead ++ tail).head? = ahead.head? := List.head?_append_of_ne_nil ahead more
      rw [List.cons_append]
      by_cases quote : byte = Ascii.quote
      · subst quote
        have normal_eq (ahead : List UInt8) :
            normal nesting (Ascii.quote :: ahead) = ofText nesting ahead := rfl
        rw [normal_eq] at split ⊢
        rw [normal_eq]
        exact (ofText_append nesting tail split left).imp_right (And.imp_left fun eq => ⟨_, eq⟩)
      left
      unfold normal at split ⊢
      dsimp only at split ⊢
      rw [head_eq]
      refine ite_congr rfl (fun _ => rfl) fun no_left_paren => ?_
      refine ite_congr rfl (fun _ => rfl) fun no_right_paren => ?_
      refine ite_congr rfl (fun _ => rfl) fun no_semicolon => ?_
      refine ite_congr rfl (fun same => absurd same quote) fun _ => ?_
      rw [if_neg no_left_paren, if_neg no_right_paren, if_neg no_semicolon, if_neg quote] at split
      refine ite_congr rfl (fun blank => ?_) fun no_blank => ?_
      · rw [if_pos blank] at split
        rw [← List.cons_append, takeWhile_append_rest tail (rest_of_takeWhile split ▸ left)]
      refine ite_congr rfl (fun _ => rfl) fun no_newline => ?_
      refine ite_congr rfl (fun atom => ?_) fun _ => rfl
      rw [if_neg no_blank, if_neg no_newline, if_pos atom, ofAtom_taken] at split
      rw [← List.cons_append, takeWhile_append_rest tail (rest_of_takeWhile split ▸ left)]

theorem badText_append (nesting : Nat) (token tail : List UInt8)
    (split : ahead = (badText nesting token ahead).taken ++ rest) (left : rest ≠ []) :
    badText nesting token (ahead ++ tail) = badText nesting token ahead := by
  cases ahead with
  | nil => exact absurd (List.append_eq_nil_iff.mp split.symm).2 left
  | cons byte ahead =>
      by_cases backslash : byte = Ascii.backslash
      · subst backslash
        exact ofBackslash_append nesting tail split left
      rw [List.cons_append]
      unfold badText at split ⊢
      dsimp only at split ⊢
      refine ite_congr rfl (fun _ => rfl) fun no_quote => ?_
      refine ite_congr rfl (fun _ => rfl) fun no_newline => ?_
      refine ite_congr rfl (fun same => absurd same backslash) fun _ => ?_
      refine ite_congr rfl (fun plain => ?_) fun _ => rfl
      rw [if_neg no_quote, if_neg no_newline, if_neg backslash, if_pos plain] at split
      rw [← List.cons_append, takeWhile_append_rest tail (rest_of_takeWhile split ▸ left)]

theorem blockComment_append (nesting : Nat) (tail : List UInt8)
    (split : ahead = (blockComment nesting ahead).taken ++ rest) (left : rest ≠ []) :
    blockComment nesting (ahead ++ tail) = blockComment nesting ahead := by
  unfold blockComment at split ⊢
  have whole := before_append_fromOn stopsBlockComment ahead
  cases here : fromOn stopsBlockComment ahead with
  | nil =>
      rw [here] at split
      exact absurd (List.self_eq_append_right.mp split) left
  | cons byte more =>
      obtain ⟨from_eq, before_eq⟩ := fromOn_append (here ▸ List.cons_ne_nil byte more) tail
      rw [from_eq, before_eq, here]
      rw [here] at split whole
      have stop_split : byte :: more = (ofStop nesting byte more).taken ++ rest :=
        List.append_cancel_left (whole.trans (split.trans (List.append_assoc ..)))
      have nonempty : (ofStop nesting byte more).taken ≠ [] := by
        unfold ofStop
        split
        · exact List.cons_ne_nil _ _
        split
        · split <;> exact List.cons_ne_nil _ _
        split <;> exact List.cons_ne_nil _ _
      have head_eq : (more ++ tail).head? = more.head? :=
        List.head?_append_of_ne_nil more (ne_nil_of_split stop_split nonempty left)
      simp only [List.cons_append, ofStop, head_eq]

/-- A step that leaves some bytes takes the same if others follow them, unless it takes a string
that is cut off there. -/
theorem next_append {mode : Mode} {nesting : Nat} {token : List UInt8} (tail : List UInt8)
    (split : ahead = (next mode nesting token ahead).taken ++ rest) (left : rest ≠ []) :
    next mode nesting token (ahead ++ tail) = next mode nesting token ahead ∨
      (∃ content, next mode nesting token ahead =
        { taken := content, mode := .badText, nesting }) ∧ Cut rest := by
  obtain ⟨found, found_split, fits⟩ := exists_fits mode nesting token ahead
  obtain rfl : found = rest := List.append_cancel_left (found_split.symm.trans split)
  have goes_on : (next mode nesting token ahead).ends = false := by
    rw [← Bool.not_eq_true]
    intro ends
    exact left (fits.of_ends ends).2.1
  have nonempty := fits.nonempty goes_on
  cases mode with
  | normal => exact normal_append nesting tail split nonempty left
  | badText => exact .inl (badText_append nesting token tail split left)
  | lineComment =>
      refine .inl (lineComment_append nesting fun none_found => ?_)
      change (lineComment nesting ahead).ends = false at goes_on
      rw [lineComment, none_found] at goes_on
      cases goes_on
  | blockComment => exact .inl (blockComment_append nesting tail split left)

/-- A string that is cut off is left with nothing behind it. -/
theorem Cut.taken_eq (cut : Cut rest) (nesting : Nat) (token : List UInt8) :
    (next .badText nesting token rest).taken = rest := by
  cases cut with
  | backslash => rfl
  | @digit digit hexadecimal =>
      have no_newline : digit ≠ Ascii.newline := by
        rintro rfl
        exact absurd hexadecimal (by decide)
      change (ofBackslash nesting [digit]).taken = _
      unfold ofBackslash
      rcases escapeLength_cases [digit] with invalid | ⟨first_le, le_last⟩
      · rw [if_pos invalid]
        dsimp only
        rw [if_neg no_newline]
      · rw [if_neg (by omega), List.take_of_length_le (by simpa using by omega)]

end Piece

end WasmText
