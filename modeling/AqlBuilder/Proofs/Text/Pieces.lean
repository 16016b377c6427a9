import AqlBuilder.Proofs.Text.Joined
import AqlBuilder.Text.Split
import Mathlib.Data.List.Infix

/-!
# The pieces of any text

Pieces that are joined are found again if they hold no separator. Here a text is cut first: its
pieces hold no separator, and joined they are the text again, so what is known about joined pieces
is known about every text. A text without dots has the same pieces at its arrows whether these are
cut as arrows or, written as dots, as dots. Blanks around a text are blanks around its first and its
last piece.

- `Text.intercalate_splitArrow`, `Text.whole_of_mem_splitArrow`: joined the pieces are the text, and
  none of them has an arrow.
- `Text.notMem_of_mem_splitBy`: nor has a piece between dots a dot.
- `Text.splitBy_dotArrows`: the pieces between the arrows of a text without dots.
- `Text.map_trimBlanks_splitArrow`: trimmed, the pieces of a text are those of the trimmed text.
-/

namespace AqlBuilder.Text

variable {piece text : List Char} {pieces : List (List Char)} {c : Char}

section arrows

/-- A character in front of the first piece is in front of all. -/
theorem intercalate_consPiece {sep : List Char} (c : Char) (h : pieces ≠ []) :
    sep.intercalate (consPiece c pieces) = c :: sep.intercalate pieces := by
  obtain ⟨first, rest, rfl⟩ := List.exists_cons_of_ne_nil h
  cases rest with
  | nil => simp [consPiece]
  | cons second rest => simp [consPiece, List.intercalate_cons_cons]

/-- The pieces between arrows, joined by arrows again, are the text. -/
theorem intercalate_splitArrow (text : List Char) :
    ['-', '>'].intercalate (splitArrow text) = text := by
  fun_induction splitArrow text with
  | case1 => rfl
  | case2 rest ih =>
      rw [List.intercalate_cons_of_ne_nil (splitArrow_ne_nil rest), ih]
      rfl
  | case3 c rest _ ih => rw [intercalate_consPiece c (splitArrow_ne_nil rest), ih]

/-- The first piece is the front of the text. -/
theorem head_splitArrow_prefix (h : piece ∈ (splitArrow text).head?) : piece <+: text := by
  obtain ⟨rest, hsplit⟩ : ∃ rest, splitArrow text = piece :: rest := List.head?_eq_some_iff.mp h
  rw [← intercalate_splitArrow text, hsplit]
  cases rest with
  | nil => simp
  | cons second rest =>
      rw [List.intercalate_cons_cons, List.append_assoc]
      exact List.prefix_append piece _

/-- The pieces between arrows have no arrows in them. -/
theorem whole_of_mem_splitArrow (h : piece ∈ splitArrow text) : Whole piece := by
  fun_induction splitArrow text generalizing piece with
  | case1 =>
      rw [List.mem_singleton.mp h]
      rfl
  | case2 rest ih =>
      rcases List.mem_cons.mp h with rfl | h
      · rfl
      · exact ih h
  | case3 c rest hother ih =>
      obtain ⟨first, more, hsplit⟩ := List.exists_cons_of_ne_nil (splitArrow_ne_nil rest)
      rw [hsplit] at h ih
      rcases List.mem_cons.mp h with rfl | h
      · have hfirst : splitArrow first = [first] := ih List.mem_cons_self
        have hfront : first <+: rest := head_splitArrow_prefix (by rw [hsplit]; rfl)
        -- An arrow that begins with `c` would begin in the text.
        have hnone : ∀ after, c = '-' → first = '>' :: after → False := by
          rintro after hc rfl
          obtain ⟨back, rfl⟩ := hfront
          exact hother _ hc rfl
        unfold Whole
        rw [splitArrow.eq_3 c first hnone, hfirst]
        rfl
      · exact ih (List.mem_cons_of_mem first h)

/-- Every character that belongs to no arrow is in a piece between arrows. -/
theorem mem_of_mem_splitArrow (h : c ∈ text) (hc : c ≠ '-' ∧ c ≠ '>') :
    ∃ piece ∈ splitArrow text, c ∈ piece := by
  fun_induction splitArrow text with
  | case1 => exact absurd h List.not_mem_nil
  | case2 rest ih =>
      have hrest : c ∈ rest := by simpa [hc.1, hc.2] using h
      obtain ⟨piece, hpiece, hmem⟩ := ih hrest
      exact ⟨piece, List.mem_cons_of_mem _ hpiece, hmem⟩
  | case3 d rest _ ih =>
      obtain ⟨first, more, hsplit⟩ := List.exists_cons_of_ne_nil (splitArrow_ne_nil rest)
      rw [hsplit] at ih ⊢
      rcases List.mem_cons.mp h with rfl | h
      · exact ⟨c :: first, List.mem_cons_self, List.mem_cons_self⟩
      · obtain ⟨piece, hpiece, hmem⟩ := ih h
        rcases List.mem_cons.mp hpiece with rfl | hpiece
        · exact ⟨d :: piece, List.mem_cons_self, List.mem_cons_of_mem d hmem⟩
        · exact ⟨piece, List.mem_cons_of_mem _ hpiece, hmem⟩

end arrows

section dots

/-- A text without a mark is all that stands in front of the first one. -/
theorem takeWhile_of_notMem (h : c ∉ text) : text.takeWhile (· != c) = text :=
  List.takeWhile_eq_self_iff.mpr fun _ hd => bne_iff_ne.mpr fun heq => h (heq ▸ hd)

/-- A character that is no separator is in front of the first piece. -/
theorem splitBy_cons_of_ne {d : Char} (h : c ≠ d) (text : List Char) :
    splitBy (· == d) (c :: text) = consPiece c (splitBy (· == d) text) := by
  rw [splitBy, if_neg (by simpa using h)]

/-- The pieces between dots have no dots in them. -/
theorem notMem_of_mem_splitBy {d : Char} (h : piece ∈ splitBy (· == d) text) : d ∉ piece := by
  induction text generalizing piece with
  | nil =>
      rw [List.mem_singleton.mp h]
      exact List.not_mem_nil
  | cons c rest ih =>
      by_cases hc : c = d
      · rw [splitBy, if_pos (by simpa using hc)] at h
        rcases List.mem_cons.mp h with rfl | h
        · exact List.not_mem_nil
        · exact ih h
      · rw [splitBy_cons_of_ne hc] at h
        cases hsplit : splitBy (· == d) rest with
        | nil =>
            rw [hsplit] at h
            rw [List.mem_singleton.mp h]
            simpa using Ne.symm hc
        | cons first more =>
            rw [hsplit] at h ih
            rcases List.mem_cons.mp h with rfl | h
            · have hfirst : d ∉ first := ih List.mem_cons_self
              simpa [hfirst] using Ne.symm hc
            · exact ih (List.mem_cons_of_mem first h)

/-- Without dots in the text, cutting it at its arrows is cutting it at the dots that they are
written as. -/
theorem splitBy_dotArrows (h : '.' ∉ text) :
    splitBy (· == '.') (dotArrows text) = splitArrow text := by
  fun_induction splitArrow text with
  | case1 => rfl
  | case2 rest ih =>
      have hrest : '.' ∉ rest := by simpa using h
      rw [dotArrows, splitBy, if_pos (beq_self_eq_true '.'), ih hrest]
  | case3 c rest hother ih =>
      obtain ⟨hc, hrest⟩ : '.' ≠ c ∧ '.' ∉ rest := by simpa using h
      rw [dotArrows.eq_3 c rest hother, splitBy_cons_of_ne hc.symm, ih hrest]

end dots

section blanks

/-- A blank in front is trimmed away. -/
theorem trimBlanks_cons (hc : isBlank c = true) (text : List Char) :
    trimBlanks (c :: text) = trimBlanks text := by
  rw [trimBlanks, List.dropWhile_cons_of_pos hc]
  rfl

/-- A blank at the end is trimmed away. -/
theorem trimBlanks_concat (hc : isBlank c = true) (text : List Char) :
    trimBlanks (text ++ [c]) = trimBlanks text := by
  rw [trimBlanks, List.dropWhile_append]
  split
  · rename_i hnone
    rw [trimBlanks, List.isEmpty_iff.mp hnone, List.dropWhile_cons_of_pos hc]
    rfl
  · rw [dropEndWhile, List.reverse_append, List.reverse_singleton, List.singleton_append,
      List.dropWhile_cons_of_pos hc]
    rfl

/-- A text is the trimmed text between blanks. -/
theorem exists_trimBlanks (text : List Char) :
    ∃ front back, text = front ++ trimBlanks text ++ back ∧
    (∀ c ∈ front, isBlank c = true) ∧ ∀ c ∈ back, isBlank c = true := by
  refine ⟨text.takeWhile isBlank, ((text.dropWhile isBlank).reverse.takeWhile isBlank).reverse,
    ?_, fun c hc => List.mem_takeWhile_imp hc, fun c hc => ?_⟩
  · rw [trimBlanks, dropEndWhile, List.append_assoc, ← List.reverse_append,
      List.takeWhile_append_dropWhile, List.reverse_reverse, List.takeWhile_append_dropWhile]
  · exact List.mem_takeWhile_imp (List.mem_reverse.mp hc)

/-- Trimming takes nothing away but blanks. -/
theorem mem_trimBlanks_of_not_blank (h : c ∈ text) (hc : isBlank c = false) :
    c ∈ trimBlanks text := by
  obtain ⟨front, back, htext, hfront, hback⟩ := exists_trimBlanks text
  rw [htext, List.mem_append, List.mem_append] at h
  rcases h with (h | h) | h
  · rw [hfront c h] at hc
    cases hc
  · exact h
  · rw [hback c h] at hc
    cases hc

/-- A trimmed text has no blanks around it. -/
theorem trimmed_trimBlanks (text : List Char) : Trimmed (trimBlanks text) := by
  have hhead : ∀ text : List Char, ∀ c ∈ (text.dropWhile isBlank).head?, isBlank c = false := by
    intro text c hc
    have hnot := List.head?_dropWhile_not isBlank text
    rw [Option.mem_def.mp hc] at hnot
    exact hnot
  have hfront : trimBlanks text <+: text.dropWhile isBlank := by
    rw [trimBlanks, dropEndWhile, ← List.reverse_suffix, List.reverse_reverse]
    exact List.dropWhile_suffix isBlank
  constructor
  · intro c hc
    obtain ⟨back, hback⟩ := hfront
    obtain ⟨rest, hrest⟩ := List.head?_eq_some_iff.mp hc
    exact hhead text c (by rw [← hback, hrest]; rfl)
  · rw [trimBlanks, dropEndWhile, List.getLast?_reverse]
    exact hhead _

/-- A text has no blanks around it just if it neither begins nor ends with one. -/
theorem trimmed_iff : Trimmed text ↔
    text.head?.map isBlank ≠ some true ∧ text.getLast?.map isBlank ≠ some true := by
  have hends : ∀ o : Option Char, (∀ c ∈ o, isBlank c = false) ↔ o.map isBlank ≠ some true := by
    rintro (_ | c) <;> simp
  rw [← hends, ← hends]
  exact ⟨fun h => ⟨h.begins, h.ends⟩, fun h => ⟨h.1, h.2⟩⟩

/-- With dots for arrows a text has blanks at the same ends. -/
theorem trimmed_dotArrows : Trimmed (dotArrows text) ↔ Trimmed text := by
  have hhead : (dotArrows text).head?.map isBlank = text.head?.map isBlank := by
    cases text using dotArrows.fun_cases with
    | case1 => rfl
    | case2 rest =>
        have hmarks : isBlank '.' = isBlank '-' := by decide
        exact congrArg some hmarks
    | case3 first rest hother => rw [dotArrows.eq_3 first rest hother]; rfl
  have hcons : ∀ (d : Char) (l : List Char),
      (d :: l).getLast?.map isBlank = some ((l.getLast?.map isBlank).getD (isBlank d)) := by
    intro d l
    rw [List.getLast?_cons, Option.map_some, Option.getD_map]
  have hlast : (dotArrows text).getLast?.map isBlank = text.getLast?.map isBlank := by
    clear hhead
    induction text using dotArrows.induct with
    | case1 => rfl
    | case2 rest ih =>
        have hmarks : isBlank '.' = isBlank '>' := by decide
        rw [dotArrows, hcons, hcons, hcons, ih, hmarks]
        rfl
    | case3 first rest hother ih => rw [dotArrows.eq_3 first rest hother, hcons, hcons, ih]
  rw [trimmed_iff, trimmed_iff, hhead, hlast]

@[simp] theorem trimBlanks_trimBlanks (text : List Char) :
    trimBlanks (trimBlanks text) = trimBlanks text := (trimmed_trimBlanks text).trimBlanks_eq

/-- A text without an arrow has none with a blank behind it. -/
theorem Whole.concat (h : Whole piece) (hc : isBlank c = true) : Whole (piece ++ [c]) := by
  rw [whole_iff] at h ⊢
  rw [List.infix_concat_iff, not_or]
  refine ⟨fun hsuffix => ?_, h⟩
  obtain ⟨front, hfront⟩ := hsuffix
  have hlast := congrArg List.getLast? hfront
  rw [List.getLast?_append, List.getLast?_append] at hlast
  obtain rfl : '>' = c := by simpa using hlast
  revert hc
  decide

/-- A blank behind a text is a blank behind its last piece. -/
theorem map_trimBlanks_splitArrow_concat (hc : isBlank c = true) (h : ∀ piece ∈ pieces, Whole piece)
    (hne : pieces ≠ []) :
    (splitArrow (['-', '>'].intercalate pieces ++ [c])).map trimBlanks = pieces.map trimBlanks := by
  induction pieces with
  | nil => exact absurd rfl hne
  | cons first rest ih =>
      have hfirst := h first List.mem_cons_self
      cases rest with
      | nil =>
          have hconcat : splitArrow (first ++ [c]) = [first ++ [c]] := hfirst.concat hc
          rw [List.intercalate_singleton, hconcat, List.map_singleton, trimBlanks_concat hc]
          rfl
      | cons second rest =>
          have hrest := ih (fun piece hpiece => h piece (.tail _ hpiece)) nofun
          rw [List.intercalate_cons_cons, List.append_assoc, List.append_assoc, List.cons_append,
            List.cons_append, List.nil_append, hfirst.splitArrow_append, List.map_cons, hrest]
          rfl

/-- A blank in front of a text is a blank in front of its first piece. -/
theorem map_trimBlanks_splitArrow_cons (hc : isBlank c = true) (text : List Char) :
    (splitArrow (c :: text)).map trimBlanks = (splitArrow text).map trimBlanks := by
  have hdash : c ≠ '-' := by
    rintro rfl
    revert hc
    decide
  rw [splitArrow.eq_3 c text fun _ h => absurd h hdash]
  obtain ⟨first, rest, hsplit⟩ := List.exists_cons_of_ne_nil (splitArrow_ne_nil text)
  rw [hsplit, consPiece, List.map_cons, List.map_cons, trimBlanks_cons hc]

/-- Trimmed, the pieces of a text are those of the trimmed text. -/
theorem map_trimBlanks_splitArrow (text : List Char) :
    (splitArrow text).map trimBlanks = (splitArrow (trimBlanks text)).map trimBlanks := by
  obtain ⟨front, back, htext, hfront, hback⟩ := exists_trimBlanks text
  have hbehind : ∀ back : List Char, (∀ c ∈ back, isBlank c = true) → ∀ text,
      (splitArrow (text ++ back)).map trimBlanks = (splitArrow text).map trimBlanks := by
    intro back hback
    induction back with
    | nil =>
        intro text
        rw [List.append_nil]
    | cons c back ih =>
        intro text
        rw [← List.singleton_append, ← List.append_assoc, ih fun d hd => hback d (.tail _ hd)]
        conv_lhs => rw [← intercalate_splitArrow text]
        exact map_trimBlanks_splitArrow_concat (hback c List.mem_cons_self)
          (fun _ hpiece => whole_of_mem_splitArrow hpiece) (splitArrow_ne_nil text)
  have hahead : ∀ front : List Char, (∀ c ∈ front, isBlank c = true) → ∀ text,
      (splitArrow (front ++ text)).map trimBlanks = (splitArrow text).map trimBlanks := by
    intro front hfront text
    induction front with
    | nil => rfl
    | cons c front ih =>
        rw [List.cons_append, map_trimBlanks_splitArrow_cons (hfront c List.mem_cons_self),
          ih fun d hd => hfront d (.tail _ hd)]
  conv_lhs => rw [htext]
  rw [hbehind back hback, hahead front hfront]

end blanks

end AqlBuilder.Text
