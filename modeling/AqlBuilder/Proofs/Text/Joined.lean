import AqlBuilder.Proofs.Text.Words

/-!
# Cutting what was joined

Pieces that hold no separator are found again in the text that joins them. An arrow has two
characters, but it cannot begin inside of a piece and end behind it, so pieces without arrows are as
good as pieces without dots.

- `Text.splitBy_intercalate`, `Text.splitArrow_intercalate`: the pieces between dots and arrows.
- `Text.dotArrows_intercalate`: where there are dots only, there is no arrow to be replaced.
- `Text.trimmed_intercalate`: pieces without outer blanks have none when they are joined.
-/

namespace AqlBuilder.Text

variable {piece : List Char} {pieces : List (List Char)} {c : Char}

/-- Pieces without the separator are read back when they are joined by it. -/
theorem splitBy_intercalate (h : ∀ piece ∈ pieces, c ∉ piece) (hne : pieces ≠ []) :
    splitBy (· == c) ([c].intercalate pieces) = pieces := by
  rw [splitBy_eq_splitOnP]
  exact List.splitOn_intercalate c h hne

section arrows

/-- A text without an arrow is one piece. -/
def Whole (text : List Char) : Prop := splitArrow text = [text]

instance (text : List Char) : Decidable (Whole text) := inferInstanceAs (Decidable (_ = _))

/-- Only a single piece is left if there was one, or none. -/
theorem consPiece_eq_singleton {rest : List Char} :
    consPiece c pieces = [c :: rest] ↔ pieces = [rest] ∨ pieces = [] ∧ rest = [] := by
  cases pieces with
  | nil => simp [consPiece, eq_comm]
  | cons piece pieces => simp [consPiece]

/-- Cutting at arrows leaves at least one piece. -/
theorem splitArrow_ne_nil (text : List Char) : splitArrow text ≠ [] := by
  have hcons : ∀ (c : Char) (pieces : List (List Char)), consPiece c pieces ≠ [] := by
    intro c pieces
    cases pieces <;> simp [consPiece]
  fun_cases splitArrow text with
  | case1 => simp
  | case2 => simp
  | case3 c rest _ => exact hcons c _

/-- A text is one piece just if there is no arrow in it. -/
theorem whole_iff {text : List Char} : Whole text ↔ ¬ ['-', '>'] <:+: text := by
  unfold Whole
  fun_induction splitArrow text with
  | case1 => simp
  | case2 rest _ =>
      have harrow : ['-', '>'] <:+: '-' :: '>' :: rest :=
        (List.prefix_append ['-', '>'] rest).isInfix
      simpa using harrow
  | case3 c rest hnone ih =>
      rw [consPiece_eq_singleton, or_iff_left (fun h => splitArrow_ne_nil rest h.1), ih,
        List.infix_cons_iff, not_or]
      refine (and_iff_right fun hprefix => ?_).symm
      obtain ⟨after, hafter⟩ := hprefix
      obtain ⟨hc, hrest⟩ := List.cons.inj hafter
      exact hnone after hc.symm hrest.symm

/-- What is behind the first character of a text without an arrow has no arrow either, and no arrow
begins at the first character, whatever follows a text that does not begin with a tip. -/
theorem Whole.tail {rest : List Char} (h : Whole (c :: rest)) : Whole rest ∧
    ∀ more, (∀ d ∈ more.head?, d ≠ '>') → ∀ after, c = '-' → rest ++ more ≠ '>' :: after := by
  unfold Whole at h
  have hnone : ∀ after, c = '-' → rest = '>' :: after → False := by
    rintro after rfl rfl
    rw [splitArrow] at h
    simp at h
  refine ⟨?_, fun more hmore after hc hmerged => ?_⟩
  · rw [splitArrow.eq_3 c rest hnone, consPiece_eq_singleton] at h
    rcases h with h | ⟨h, rfl⟩
    · exact h
    · rfl
  · cases rest with
    | nil => exact hmore '>' (by rw [show more = '>' :: after from hmerged]; rfl) rfl
    | cons d rest => exact hnone rest hc (by rw [List.cons.inj hmerged |>.1])

/-- A text without an arrow is the first piece in front of an arrow. -/
theorem Whole.splitArrow_append (h : Whole piece) (more : List Char) :
    splitArrow (piece ++ '-' :: '>' :: more) = piece :: splitArrow more := by
  induction piece with
  | nil => rw [List.nil_append, splitArrow]
  | cons c rest ih =>
      obtain ⟨hrest, hnone⟩ := h.tail
      rw [List.cons_append, splitArrow.eq_3 c _ fun after hc hafter =>
        hnone _ (by simp) after hc hafter, ih hrest]
      rfl

/-- A text without an arrow stays as it is, unless an arrow ends behind it. -/
theorem Whole.dotArrows_append (h : Whole piece) {more : List Char}
    (hmore : ∀ d ∈ more.head?, d ≠ '>') : dotArrows (piece ++ more) = piece ++ dotArrows more := by
  induction piece with
  | nil => rfl
  | cons c rest ih =>
      obtain ⟨hrest, hnone⟩ := h.tail
      rw [List.cons_append, dotArrows.eq_3 c _ fun after hc hafter =>
        hnone more hmore after hc hafter, ih hrest]
      rfl

/-- Pieces without arrows are found again between arrows. -/
theorem splitArrow_intercalate (h : ∀ piece ∈ pieces, Whole piece) (hne : pieces ≠ []) :
    splitArrow (['-', '>'].intercalate pieces) = pieces := by
  induction pieces with
  | nil => exact absurd rfl hne
  | cons first rest ih =>
      have hfirst := h first List.mem_cons_self
      cases rest with
      | nil =>
          rw [List.intercalate_singleton]
          exact hfirst
      | cons second rest =>
          have hrest := ih (fun piece hpiece => h piece (.tail _ hpiece)) nofun
          rw [List.intercalate_cons_cons, List.append_assoc, List.cons_append, List.cons_append,
            List.nil_append, hfirst.splitArrow_append, hrest]

/-- There is no arrow in a text that joins pieces without arrows by dots. -/
theorem dotArrows_intercalate (h : ∀ piece ∈ pieces, Whole piece) :
    dotArrows (['.'].intercalate pieces) = ['.'].intercalate pieces := by
  induction pieces with
  | nil => rfl
  | cons first rest ih =>
      have hfirst := h first List.mem_cons_self
      cases rest with
      | nil =>
          have hend : dotArrows (first ++ []) = first ++ dotArrows [] :=
            hfirst.dotArrows_append nofun
          rw [List.intercalate_singleton]
          simpa [dotArrows] using hend
      | cons second rest =>
          have hrest := ih fun piece hpiece => h piece (.tail _ hpiece)
          have hdot : ∀ text, dotArrows ('.' :: text) = '.' :: dotArrows text := fun text =>
            dotArrows.eq_3 '.' text (by simp)
          rw [List.intercalate_cons_cons, List.append_assoc,
            hfirst.dotArrows_append (by simp), List.singleton_append, hdot, hrest]

end arrows

section blanks

/-- A text with no blank at either end. -/
structure Trimmed (text : List Char) : Prop where
  begins : ∀ c ∈ text.head?, isBlank c = false
  ends : ∀ c ∈ text.getLast?, isBlank c = false

/-- A text without blanks around it stays as it is. -/
theorem Trimmed.trimBlanks_eq {text : List Char} (h : Trimmed text) : trimBlanks text = text := by
  have hfront : ∀ {text : List Char}, (∀ c ∈ text.head?, isBlank c = false) →
      text.dropWhile isBlank = text := by
    intro text hhead
    cases text with
    | nil => rfl
    | cons c rest =>
        exact List.dropWhile_cons_of_neg (by rw [hhead c rfl]; exact Bool.false_ne_true)
  rw [trimBlanks, hfront h.begins, dropEndWhile,
    hfront (by rw [List.head?_reverse]; exact h.ends), List.reverse_reverse]

/-- Pieces without blanks around them have none when they are joined. -/
theorem trimmed_intercalate {sep : List Char} (h : ∀ piece ∈ pieces, piece ≠ [] ∧ Trimmed piece)
    (hne : pieces ≠ []) : sep.intercalate pieces ≠ [] ∧ Trimmed (sep.intercalate pieces) := by
  induction pieces with
  | nil => exact absurd rfl hne
  | cons first rest ih =>
      obtain ⟨hfirst, hbegins, hends⟩ := h first List.mem_cons_self
      cases rest with
      | nil =>
          rw [List.intercalate_singleton]
          exact ⟨hfirst, hbegins, hends⟩
      | cons second rest =>
          obtain ⟨hrest, htrimmed⟩ := ih (fun piece hpiece => h piece (.tail _ hpiece)) nofun
          rw [List.intercalate_cons_cons, List.append_assoc]
          refine ⟨by simp [hfirst], ?_, ?_⟩
          · rw [List.head?_append_of_ne_nil _ hfirst]
            exact hbegins
          · rw [List.getLast?_append_of_ne_nil _ (by simp [hrest]),
              List.getLast?_append_of_ne_nil _ hrest]
            exact htrimmed.ends

end blanks

end AqlBuilder.Text
