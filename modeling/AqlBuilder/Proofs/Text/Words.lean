import AqlBuilder.Text.Split
import AqlBuilder.Text.Case
import Mathlib.Data.List.DropRight

/-!
# The words of a text

Where two texts meet without a blank between them, the last word of the first and the first word of
the second become one word; all other words stay as they are.

- `Text.words_append_blank` is the equation that everything else comes from.
- `Text.exists_last_word`, `Text.exists_first_word` cut a text in front of its last word and behind
  its first.
- `Text.isBlank_of_isNameChar`: a name has no blanks.
- `Text.mem_words_glued`: a word of two texts with a character between them is a word of one of the
  texts or has that character.
-/

namespace AqlBuilder.Text

variable {s t w : List Char} {c : Char}

section decidable

variable {p : Char → Prop} [DecidablePred p]

/-- Conditions on the characters of a text are decided one by one, and not for all characters that
there are. -/
instance decidableForallMem (text : List Char) : Decidable (∀ c ∈ text, p c) :=
  List.decidableBAll p text

instance decidableExistsMem (text : List Char) : Decidable (∃ c ∈ text, p c) :=
  List.decidableBEx p text

instance decidableForallEnd (last : Option Char) : Decidable (∀ c ∈ last, p c) :=
  Option.decidableForallMem last

end decidable

/-- A text without blanks. -/
def Solid (text : List Char) : Prop := ∀ c ∈ text, isBlank c = false

/-- A text that is empty or ends with a blank. -/
def EndsBlank (text : List Char) : Prop := ∀ c ∈ text.getLast?, isBlank c = true

/-- A text that is empty or begins with a blank. -/
def BeginsBlank (text : List Char) : Prop := ∀ c ∈ text.head?, isBlank c = true

/-- The characters of names are no blanks. -/
theorem isBlank_of_isNameChar (h : isNameChar c = true) : isBlank c = false := by
  have hbounds : 0x30 ≤ c.toNat ∧ c.toNat ≤ 0x7a := by
    simp only [isNameChar, isAsciiLetter, isAsciiDigit, Bool.or_eq_true, Bool.and_eq_true,
      decide_eq_true_eq, beq_iff_eq, Char.le_def, UInt32.le_iff_toNat_le] at h
    have hcode : c.toNat = c.val.toNat := rfl
    rcases h with ((h | h) | h) | rfl
    · simp at h
      omega
    · simp at h
      omega
    · simp at h
      omega
    · decide
  obtain ⟨hlow, hhigh⟩ := hbounds
  simp [isBlank]
  omega

instance (text : List Char) : Decidable (Solid text) := inferInstanceAs (Decidable (∀ _ ∈ _, _))

instance (text : List Char) : Decidable (EndsBlank text) :=
  inferInstanceAs (Decidable (∀ _ ∈ _, _))

instance (text : List Char) : Decidable (BeginsBlank text) :=
  inferInstanceAs (Decidable (∀ _ ∈ _, _))

/-- Splitting is that of the library. -/
theorem splitBy_eq_splitOnP (cut : Char → Bool) (text : List Char) :
    splitBy cut text = text.splitOnP cut := by
  induction text with
  | nil => rfl
  | cons c rest ih =>
      rw [splitBy, List.splitOnP_cons_eq_if_modifyHead, ← ih]
      obtain ⟨piece, pieces, hpieces⟩ :
          ∃ piece pieces, splitBy cut rest = piece :: pieces := by
        refine List.exists_cons_of_ne_nil ?_
        rw [ih]
        exact List.splitOnP_ne_nil cut rest
      rw [hpieces]
      rfl

@[simp] theorem words_nil : words [] = [] := rfl

/-- A blank keeps the words on both sides of it apart. -/
theorem words_append_blank (hc : isBlank c = true) (s t : List Char) :
    words (s ++ c :: t) = words s ++ words t := by
  unfold words
  rw [splitBy_eq_splitOnP, splitBy_eq_splitOnP, splitBy_eq_splitOnP,
    List.splitOnP_append_cons s t hc, List.filter_append]

/-- A text without blanks is one word. -/
theorem Solid.words_eq (h : Solid w) (hne : w ≠ []) : words w = [w] := by
  unfold words
  rw [splitBy_eq_splitOnP, List.splitOnP_eq_singleton h]
  simp [hne]

/-- Two texts without blanks have none together. -/
theorem Solid.append (hs : Solid s) (ht : Solid t) : Solid (s ++ t) := by
  intro c hc
  rcases List.mem_append.mp hc with hc | hc
  · exact hs c hc
  · exact ht c hc

/-- Behind a blank the words go on by themselves. -/
theorem EndsBlank.words_append (h : EndsBlank s) (t : List Char) :
    words (s ++ t) = words s ++ words t := by
  rcases List.eq_nil_or_concat s with rfl | ⟨front, c, rfl⟩
  · rfl
  · have hc : isBlank c = true := h c (by simp)
    rw [List.concat_eq_append, List.append_assoc, List.singleton_append,
      words_append_blank hc, words_append_blank hc, words_nil, List.append_nil]

/-- The words of two texts are those of each if the second one begins with a blank. -/
theorem BeginsBlank.words_append (h : BeginsBlank t) (s : List Char) :
    words (s ++ t) = words s ++ words t := by
  cases t with
  | nil => simp
  | cons c rest =>
      have hc : isBlank c = true := h c rfl
      have hrest := words_append_blank hc [] rest
      rw [List.nil_append, words_nil, List.nil_append] at hrest
      rw [words_append_blank hc, hrest]

/-- What stands in front of the last word ends with a blank, or is empty. -/
theorem endsBlank_rdropWhile (s : List Char) : EndsBlank (s.rdropWhile (!isBlank ·)) := by
  intro c hc
  obtain ⟨hne, hlast⟩ := List.mem_getLast?_eq_getLast hc
  have hstop := List.rdropWhile_last_not (!isBlank ·) s hne
  rw [← hlast] at hstop
  simpa using hstop

/-- The last word has no blanks. -/
theorem solid_rtakeWhile (s : List Char) : Solid (s.rtakeWhile (!isBlank ·)) := by
  intro c hc
  have htaken := List.mem_rtakeWhile_imp hc
  simpa using htaken

/-- What stands behind the last blank of a text. -/
theorem exists_last_word (s : List Char) :
    ∃ front w, s = front ++ w ∧ EndsBlank front ∧ Solid w :=
  ⟨_, _, (List.rdropWhile_append_rtakeWhile ..).symm, endsBlank_rdropWhile s, solid_rtakeWhile s⟩

/-- What stands in front of the first blank of a text. -/
theorem exists_first_word (t : List Char) :
    ∃ w rest, t = w ++ rest ∧ BeginsBlank rest ∧ Solid w := by
  refine ⟨t.takeWhile (!isBlank ·), t.dropWhile (!isBlank ·),
    List.takeWhile_append_dropWhile.symm, fun c hc => ?_, fun c hc => ?_⟩
  · have hstop := List.head?_dropWhile_not (!isBlank ·) t
    rw [Option.mem_def.mp hc] at hstop
    simpa using hstop
  · have htaken := List.mem_takeWhile_imp hc
    simpa using htaken

/-- A word of two texts with a character between them, if that is no blank, is a word of one of the
texts or has the character. -/
theorem mem_words_glued (h : w ∈ words (s ++ c :: t)) : w ∈ words s ∨ w ∈ words t ∨ c ∈ w := by
  by_cases hc : isBlank c = true
  · rw [words_append_blank hc, List.mem_append] at h
    exact h.imp_right Or.inl
  obtain ⟨front, last, rfl, hfront, hlast⟩ := exists_last_word s
  obtain ⟨first, rest, rfl, hrest, hfirst⟩ := exists_first_word t
  have hone : words (last ++ c :: first) = [last ++ c :: first] := by
    refine Solid.words_eq (hlast.append fun d hd => ?_) (by simp)
    rcases List.mem_cons.mp hd with rfl | hd
    · exact Bool.not_eq_true _ ▸ hc
    · exact hfirst d hd
  have hall : words (front ++ last ++ c :: (first ++ rest)) =
      words front ++ ([last ++ c :: first] ++ words rest) := by
    rw [List.append_assoc, hfront.words_append, ← hone, ← hrest.words_append, List.append_assoc,
      List.cons_append]
  rw [hall, List.mem_append, List.mem_append, List.mem_singleton] at h
  rw [hfront.words_append, hrest.words_append, List.mem_append, List.mem_append]
  rcases h with h | rfl | h
  · exact Or.inl (Or.inl h)
  · exact Or.inr (Or.inr (by simp))
  · exact Or.inr (Or.inl (Or.inr h))

end AqlBuilder.Text
