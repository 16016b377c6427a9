import AqlBuilder.Proofs.Text.Words
import AqlBuilder.Transaction.Collections

/-!
# Texts without keywords

Whether a modification has been started is read off the words of a statement, so the rest of the
statement must not have a word that is one of the keywords. Keywords consist of letters. A character
that is no letter keeps them apart even where it is no blank: a word that has such a character is no
keyword.

- `Avoids` says that no word of a text is a keyword.
- `avoids_of_mark`: one word with a character that is no letter.
- `Avoids.behind`, `Avoids.before`, `Avoids.divided`, `avoids_intercalate`: what may be put around a
  text and between two texts.
-/

namespace AqlBuilder

open Text Collections

/-- Words that are looked for in any case. They consist of letters. -/
structure Keywords where
  words : List String
  lettered : ∀ keyword ∈ words, ∀ c ∈ keyword.toList, isAsciiLetter c = true

namespace Keywords

/-- The words that start a modification. -/
def changes : Keywords := ⟨writeKeywords, by decide⟩

/-- The words in front of a collection. -/
def places : Keywords := ⟨["IN", "INTO"], by decide⟩

/-- All words that are looked for in a statement. -/
def all : Keywords := ⟨changes.words ++ places.words, by decide⟩

end Keywords

variable {keywords keywords' : Keywords}

/-- No word of a text is a keyword. -/
def AvoidsIn (keywords : Keywords) (text : List Char) : Prop :=
  ∀ w ∈ words text, isOneOf keywords.words w = false

/-- No word of a text is a keyword. -/
def Avoids (keywords : Keywords) (text : String) : Prop := AvoidsIn keywords text.toList

instance (text : List Char) : Decidable (AvoidsIn keywords text) :=
  inferInstanceAs (Decidable (∀ _ ∈ _, _))

instance (text : String) : Decidable (Avoids keywords text) :=
  inferInstanceAs (Decidable (AvoidsIn keywords text.toList))

section words

variable {w s t : List Char} {c : Char}

/-- What is no letter has no capital. -/
theorem toUpper_of_not_letter (h : isAsciiLetter c = false) : c.toUpper = c := by
  unfold Char.toUpper
  split
  · rename_i hsmall
    have hletter : isAsciiLetter c = true := by
      simp only [isAsciiLetter, Bool.or_eq_true, Bool.and_eq_true, decide_eq_true_eq, Char.le_def]
      exact Or.inl hsmall
    rw [h] at hletter
    cases hletter
  · rfl

/-- A word with a character that is no letter is no keyword. -/
theorem isOneOf_of_mark (hmem : c ∈ w) (hc : isAsciiLetter c = false) :
    isOneOf keywords.words w = false := by
  by_contra hword
  have hkeyword : String.ofList (asciiUpper w) ∈ keywords.words :=
    List.contains_iff_mem.mp (Bool.not_eq_false _ ▸ hword)
  have hupper : c ∈ (String.ofList (asciiUpper w)).toList := by
    rw [String.toList_ofList, ← toUpper_of_not_letter hc]
    exact List.mem_map_of_mem hmem
  have hletter := keywords.lettered _ hkeyword c hupper
  rw [hc] at hletter
  cases hletter

/-- Texts without keywords have none with something between them that is no letter. -/
theorem AvoidsIn.glued (hs : AvoidsIn keywords s) (ht : AvoidsIn keywords t)
    (hc : isAsciiLetter c = false) : AvoidsIn keywords (s ++ c :: t) := by
  intro w hw
  rcases mem_words_glued hw with hw | hw | hmem
  · exact hs w hw
  · exact ht w hw
  · exact isOneOf_of_mark hmem hc

theorem avoidsIn_nil : AvoidsIn keywords [] := by
  intro w hw
  cases hw

end words

section texts

variable {s t mark : String}

/-- A text that may stand in front of any other: its last character is no letter. -/
def Precedes (keywords : Keywords) (mark : List Char) : Prop :=
  AvoidsIn keywords mark.dropLast ∧ ∀ c ∈ mark.getLast?, isAsciiLetter c = false

/-- A text that may stand behind any other: its first character is no letter. -/
def Follows (keywords : Keywords) (mark : List Char) : Prop :=
  AvoidsIn keywords mark.tail ∧ ∀ c ∈ mark.head?, isAsciiLetter c = false

/-- A text that may stand between two others. -/
def Divides (keywords : Keywords) : List Char → Prop
  | [] => False
  | c :: rest => isAsciiLetter c = false ∧ Precedes keywords rest

instance (mark : List Char) : Decidable (Precedes keywords mark) :=
  inferInstanceAs (Decidable (_ ∧ _))

instance (mark : List Char) : Decidable (Follows keywords mark) :=
  inferInstanceAs (Decidable (_ ∧ _))

instance (mark : List Char) : Decidable (Divides keywords mark) :=
  match mark with
  | [] => isFalse id
  | _ :: _ => inferInstanceAs (Decidable (_ ∧ _))

/-- A text without letters may stand between two others, whatever the keywords are. -/
theorem divides_of_marks {mark : List Char} (hne : mark ≠ [])
    (h : ∀ c ∈ mark, isAsciiLetter c = false) : Divides keywords mark := by
  have havoids : ∀ text : List Char, (∀ c ∈ text, isAsciiLetter c = false) →
      AvoidsIn keywords text := by
    intro text
    induction text with
    | nil => exact fun _ => avoidsIn_nil
    | cons c rest ih =>
        intro htext
        exact avoidsIn_nil.glued (ih fun d hd => htext d (List.mem_cons_of_mem c hd))
          (htext c List.mem_cons_self)
  cases mark with
  | nil => exact absurd rfl hne
  | cons c rest =>
      have hrest : ∀ d ∈ rest, isAsciiLetter d = false :=
        fun d hd => h d (List.mem_cons_of_mem c hd)
      refine ⟨h c List.mem_cons_self, havoids _ fun d hd => ?_, fun d hd => ?_⟩
      · exact hrest d (List.dropLast_subset rest hd)
      · exact hrest d (List.mem_of_getLast? hd)

/-- A text without keywords has none behind what may precede it. -/
theorem Precedes.avoidsIn {mark t : List Char} (h : Precedes keywords mark)
    (ht : AvoidsIn keywords t) : AvoidsIn keywords (mark ++ t) := by
  rcases List.eq_nil_or_concat mark with rfl | ⟨body, c, rfl⟩
  · exact ht
  · obtain ⟨hbody, hlast⟩ := h
    rw [List.concat_eq_append, List.dropLast_concat] at hbody
    rw [List.concat_eq_append, List.append_assoc]
    exact hbody.glued ht (hlast c (by simp))

/-- Fewer keywords are avoided as well. -/
theorem Avoids.mono (h : Avoids keywords t) (hwords : keywords'.words ⊆ keywords.words) :
    Avoids keywords' t := by
  intro w hw
  by_contra hword
  have hmem : String.ofList (asciiUpper w) ∈ keywords'.words :=
    List.contains_iff_mem.mp (Bool.not_eq_false _ ▸ hword)
  have hall : isOneOf keywords.words w = true := List.contains_iff_mem.mpr (hwords hmem)
  rw [h w hw] at hall
  cases hall

/-- A text without keywords has none behind a mark that may precede it. -/
theorem Avoids.behind (ht : Avoids keywords t) (h : Precedes keywords mark.toList) :
    Avoids keywords (mark ++ t) := by
  unfold Avoids
  rw [String.toList_append]
  exact h.avoidsIn ht

/-- A text without keywords has none in front of a mark that may follow it. -/
theorem Avoids.before (hs : Avoids keywords s) (h : Follows keywords mark.toList) :
    Avoids keywords (s ++ mark) := by
  unfold Avoids
  rw [String.toList_append]
  obtain ⟨htail, hhead⟩ := h
  cases hmark : mark.toList with
  | nil =>
      rw [List.append_nil]
      exact hs
  | cons c rest =>
      rw [hmark] at htail hhead
      exact AvoidsIn.glued hs htail (hhead c rfl)

/-- Texts without keywords have none with a mark between them that divides them. -/
theorem Avoids.divided (hs : Avoids keywords s) (ht : Avoids keywords t)
    (h : Divides keywords mark.toList) : Avoids keywords (s ++ mark ++ t) := by
  unfold Avoids
  rw [String.toList_append, String.toList_append, List.append_assoc]
  cases hmark : mark.toList with
  | nil =>
      rw [hmark] at h
      exact h.elim
  | cons c rest =>
      rw [hmark] at h
      exact AvoidsIn.glued hs (h.2.avoidsIn ht) h.1

/-- A list of texts with separators that keep their words apart. -/
theorem avoids_intercalate {sep : String} (hsep : Divides keywords sep.toList) {texts : List String}
    (h : ∀ text ∈ texts, Avoids keywords text) : Avoids keywords (sep.intercalate texts) := by
  induction texts with
  | nil => exact avoidsIn_nil
  | cons first rest ih =>
      have hfirst := h first List.mem_cons_self
      have hrest := ih fun text htext => h text (List.mem_cons_of_mem first htext)
      cases rest with
      | nil =>
          rw [String.intercalate_singleton]
          exact hfirst
      | cons second rest =>
          rw [String.intercalate_cons_cons]
          exact hfirst.divided hrest hsep

/-- A text without blanks is its only word. -/
theorem words_of_solid {text : List Char} (h : Solid text) {w : List Char} (hw : w ∈ words text) :
    w = text := by
  by_cases hne : text = []
  · rw [hne] at hw
    cases hw
  · rw [h.words_eq hne] at hw
    exact List.mem_singleton.mp hw

/-- One word with a character that is no letter is no keyword. -/
theorem avoids_of_mark {text : String} (h : Solid text.toList) {c : Char} (hmem : c ∈ text.toList)
    (hc : isAsciiLetter c = false) : Avoids keywords text := by
  intro w hw
  rw [words_of_solid h hw]
  exact isOneOf_of_mark hmem hc

end texts

/-- A name that is one word and no keyword. -/
structure Neutral (name : String) : Prop where
  solid : Solid name.toList
  avoids : Avoids .all name

end AqlBuilder
