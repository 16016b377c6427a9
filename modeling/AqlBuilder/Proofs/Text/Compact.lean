import AqlBuilder.Text.CamelCase

/-!
# Compact texts

A name in camel case has neither marks nor blanks, whatever the name is: its words consist of
letters and numbers, and the images of the case mappings keep clear of the code points of the mark
and of all blanks.

- `Text.Compact` is a text without marks and blanks.
- `Text.mem_splitBy`, `Text.isAlphanumeric_of_mem_nameWords`: the characters of pieces and of words.
- `Text.compact_lowerChar`, `Text.compact_upperChar`: the case mappings bring in no break.
- `Text.compact_camelCase` is the result.
-/

namespace AqlBuilder.Text

variable {text piece : List Char} {c : Char} {cut : Char → Bool}

/-- A piece after a character was put in front is one of the old ones, or begins with the
character. -/
theorem mem_consPiece {d : Char} {pieces : List (List Char)} (h : piece ∈ consPiece d pieces) :
    piece ∈ pieces ∨ ∃ rest, piece = d :: rest ∧ (rest = [] ∨ rest ∈ pieces) := by
  cases pieces with
  | nil =>
      refine Or.inr ⟨[], ?_, Or.inl rfl⟩
      exact List.mem_singleton.mp h
  | cons first others =>
      rcases List.mem_cons.mp h with h | h
      · exact Or.inr ⟨first, h, Or.inr List.mem_cons_self⟩
      · exact Or.inl (List.mem_cons_of_mem first h)

/-- The characters of a piece are characters of the text, and none of them is a cut. -/
theorem mem_splitBy (hpiece : piece ∈ splitBy cut text) (hc : c ∈ piece) :
    c ∈ text ∧ cut c = false := by
  induction text generalizing piece with
  | nil =>
      rw [splitBy, List.mem_singleton] at hpiece
      rw [hpiece] at hc
      cases hc
  | cons d rest ih =>
      unfold splitBy at hpiece
      by_cases hd : cut d = true
      · rw [if_pos hd, List.mem_cons] at hpiece
        rcases hpiece with rfl | hpiece
        · cases hc
        · exact (ih hpiece hc).imp_left (List.mem_cons_of_mem d)
      · rw [if_neg hd] at hpiece
        rcases mem_consPiece hpiece with hpiece | ⟨tail, rfl, htail⟩
        · exact (ih hpiece hc).imp_left (List.mem_cons_of_mem d)
        · rcases List.mem_cons.mp hc with rfl | hc
          · exact ⟨List.mem_cons_self, Bool.not_eq_true _ ▸ hd⟩
          · rcases htail with rfl | htail
            · cases hc
            · exact (ih htail hc).imp_left (List.mem_cons_of_mem d)

/-- The characters of the words of a piece are characters of the piece. -/
theorem mem_wordsOfPiece {letterCase : LetterCase} {current word : List Char}
    (hword : word ∈ wordsOfPiece letterCase current text) (hc : c ∈ word) :
    c ∈ current ∨ c ∈ text := by
  induction letterCase, current, text using wordsOfPiece.induct with
  | case1 letterCase current hempty => simp [wordsOfPiece, hempty] at hword
  | case2 letterCase current hne =>
      simp only [wordsOfPiece, hne] at hword
      simp_all
  | case3 letterCase current d =>
      rw [wordsOfPiece, List.mem_singleton] at hword
      simp_all
  | case4 letterCase current d next rest hsmall ih =>
      rw [wordsOfPiece, if_pos hsmall, List.mem_cons] at hword
      rcases hword with rfl | hword
      · simp only [List.mem_reverse, List.mem_cons] at hc ⊢
        grind
      · rcases ih hword with hc | hc
        · cases hc
        · exact Or.inr (List.mem_cons_of_mem d hc)
  | case5 letterCase current d next rest hsmall hcapital ih =>
      rw [wordsOfPiece, if_neg hsmall, if_pos hcapital, List.mem_cons] at hword
      rcases hword with rfl | hword
      · exact Or.inl (List.mem_reverse.mp hc)
      · have hrest := ih hword
        simp only [List.mem_cons, List.not_mem_nil, or_false] at hrest ⊢
        grind
  | case6 letterCase current d next rest hsmall hcapital ih =>
      rw [wordsOfPiece, if_neg hsmall, if_neg hcapital] at hword
      have hrest := ih hword
      simp only [List.mem_cons] at hrest ⊢
      grind

/-- The words of a name consist of letters and numbers. -/
theorem isAlphanumeric_of_mem_nameWords {word : List Char} (hword : word ∈ nameWords text)
    (hc : c ∈ word) : isAlphanumeric c = true := by
  obtain ⟨piece, hpiece, hmem⟩ := List.mem_flatMap.mp hword
  rcases mem_wordsOfPiece hmem hc with hnone | hc
  · cases hnone
  · simpa using (mem_splitBy hpiece hc).2

/-- The code points of the mark and of all blanks. -/
def breakCodes : List Nat :=
  [0x40, 9, 10, 11, 12, 13, 0x20, 0x85, 0xa0, 0x1680, 0x2000, 0x2001, 0x2002, 0x2003,
    0x2004, 0x2005, 0x2006, 0x2007, 0x2008, 0x2009, 0x200a, 0x2028, 0x2029, 0x202f, 0x205f, 0x3000]

/-- A text that has neither a mark nor a blank in it. -/
def Compact (text : List Char) : Prop := ∀ c ∈ text, c.toNat ∉ breakCodes

/-- Every blank is a break. -/
theorem mem_breakCodes_of_isBlank (h : isBlank c = true) : c.toNat ∈ breakCodes := by
  have hrun : ∀ first count, (∀ code ∈ List.range' first count, code ∈ breakCodes) →
      first ≤ c.toNat → c.toNat < first + count → c.toNat ∈ breakCodes :=
    fun first count hall hlow hhigh => hall _ (List.mem_range'_1.mpr ⟨hlow, hhigh⟩)
  simp only [isBlank, Bool.or_eq_true, Bool.and_eq_true, decide_eq_true_eq, beq_iff_eq,
    or_assoc] at h
  rcases h with ⟨hlow, hhigh⟩ | h | h | h | h | ⟨hlow, hhigh⟩ | h | h | h | h | h
  case inl => exact hrun 9 5 (by decide) hlow (Nat.lt_succ_of_le hhigh)
  case inr.inr.inr.inr.inr.inl => exact hrun 0x2000 11 (by decide) hlow (Nat.lt_succ_of_le hhigh)
  all_goals
    rw [h]
    decide

/-- What stands for no character at all is read as the first one, which is no break either. -/
theorem toNat_ofNat_notMem {code : Nat} (h : code ∉ breakCodes) :
    (Char.ofNat code).toNat ∉ breakCodes := by
  by_cases hvalid : code.isValidChar
  · rw [Char.ofNat, dif_pos hvalid]
    exact h
  · rw [Char.ofNat, dif_neg hvalid]
    decide

/-- No letter and no number is a break. -/
theorem notMem_breakCodes_of_isAlphanumeric (h : isAlphanumeric c = true) :
    c.toNat ∉ breakCodes := by
  have hbreaks : ∀ code ∈ breakCodes, isAlphanumeric (Char.ofNat code) = false := by decide +kernel
  intro hbreak
  have hnone := hbreaks _ hbreak
  rw [Char.ofNat_toNat, h] at hnone
  cases hnone

/-- What holds of the first 128 characters holds of every character among them. -/
theorem ascii_cases {p : Char → Prop} (h : ∀ n < 128, p (Char.ofNat n)) (hc : isAscii c = true) :
    p c := by
  have hlt : c.toNat < 128 := by simpa [isAscii] using hc
  have hp := h c.toNat hlt
  rwa [Char.ofNat_toNat] at hp

namespace Compact

variable {word : List Char}

theorem mark_notMem (h : Compact word) : '@' ∉ word := fun hmark => h '@' hmark (by decide)

/-- A compact text has no blank in it. -/
theorem isBlank_eq_false (h : Compact word) (hc : c ∈ word) : isBlank c = false :=
  Bool.eq_false_iff.mpr fun hblank => h c hc (mem_breakCodes_of_isBlank hblank)

theorem append {other : List Char} (h : Compact word) (hother : Compact other) :
    Compact (word ++ other) :=
  List.forall_mem_append.mpr ⟨h, hother⟩

end Compact

/-- The images of a run keep clear of the mark and of the blanks. -/
def ImageRun.Clear (entry : ImageRun) : Prop :=
  ∀ code ∈ breakCodes, code < entry.image ∨ entry.image + (entry.run.last - entry.run.first) < code

instance (entry : ImageRun) : Decidable entry.Clear := inferInstanceAs (Decidable (∀ _ ∈ _, _))

/-- What a table that keeps clear of the breaks gives is no break. -/
theorem notMem_breakCodes_of_imageIn {code image : Nat} {entries : List ImageRun}
    (h : ∀ entry ∈ entries, entry.Clear) (himage : imageIn code entries = some image) :
    image ∉ breakCodes := by
  induction entries with
  | nil => cases himage
  | cons entry rest ih =>
      unfold imageIn at himage
      split at himage
      · cases himage
      split at himage
      case isTrue hrun =>
        cases himage
        intro hbreak
        have hlast : code ≤ entry.run.last := by
          simp only [Run.has, Bool.and_eq_true, decide_eq_true_eq] at hrun
          exact hrun.1.2
        rcases h entry List.mem_cons_self _ hbreak with hlow | hhigh <;> omega
      case isFalse => exact ih (fun e he => h e (List.mem_cons_of_mem entry he)) himage

/-- A case mapping by tables that keep clear of the mark and of the blanks brings in none of
them. -/
theorem compact_mapped {expansions : List (Nat × List Nat)} {images : List ImageRun}
    (hexpansions : ∀ entry ∈ expansions, ∀ code ∈ entry.2, code ∉ breakCodes)
    (himages : ∀ entry ∈ images, entry.Clear) (hc : c.toNat ∉ breakCodes) :
    Compact (match expansions.lookup c.toNat with
      | some codes => codes.map Char.ofNat
      | none => [((imageIn c.toNat images).map Char.ofNat).getD c]) := by
  cases hlookup : expansions.lookup c.toNat with
  | some codes =>
      obtain ⟨first, last, hsplit, -⟩ := List.lookup_eq_some_iff.mp hlookup
      intro d hd
      obtain ⟨code, hcode, rfl⟩ := List.mem_map.mp hd
      exact toNat_ofNat_notMem (hexpansions (c.toNat, codes) (by simp [hsplit]) code hcode)
  | none =>
      intro d hd
      rw [List.mem_singleton.mp hd]
      cases himage : imageIn c.toNat images with
      | none => exact hc
      | some image => exact toNat_ofNat_notMem (notMem_breakCodes_of_imageIn himages himage)

/-- The small letters of a character that is no break have no break. -/
theorem compact_lowerChar (hc : c.toNat ∉ breakCodes) : Compact (lowerChar c) := by
  unfold lowerChar
  by_cases hascii : isAscii c = true
  · rw [if_pos hascii]
    refine List.forall_mem_singleton.mpr ?_
    exact ascii_cases (p := fun d => d.toNat ∉ breakCodes → d.toLower.toNat ∉ breakCodes)
      (by decide +kernel) hascii hc
  · rw [if_neg hascii]
    exact compact_mapped (by decide +kernel) (by decide +kernel) hc

/-- The capitals of a character that is no break have no break. -/
theorem compact_upperChar (hc : c.toNat ∉ breakCodes) : Compact (upperChar c) := by
  unfold upperChar
  by_cases hascii : isAscii c = true
  · rw [if_pos hascii]
    refine List.forall_mem_singleton.mpr ?_
    exact ascii_cases (p := fun d => d.toNat ∉ breakCodes → d.toUpper.toNat ∉ breakCodes)
      (by decide +kernel) hascii hc
  · rw [if_neg hascii]
    exact compact_mapped (by decide +kernel) (by decide +kernel) hc

/-- The small letters of a word, where the last one may be a final sigma. -/
theorem Compact.lowerWord {word : List Char} (h : Compact word) : Compact (lowerWord word) := by
  induction word using lowerWord.induct with
  | case1 => exact h
  | case2 => exact List.forall_mem_singleton.mpr (by decide)
  | case3 d hd =>
      rw [Text.lowerWord, if_neg hd]
      exact compact_lowerChar (h d List.mem_cons_self)
  | case4 d rest hne ih =>
      obtain ⟨hd, hrest⟩ := List.forall_mem_cons.mp h
      rw [Text.lowerWord]
      · exact (compact_lowerChar hd).append (ih hrest)
      · exact hne

/-- A word with a capital at the front, of letters that are no breaks. -/
theorem Compact.capitalWord {word : List Char} (h : Compact word) : Compact (capitalWord word) := by
  cases word with
  | nil => exact h
  | cons d rest =>
      obtain ⟨hd, hrest⟩ := List.forall_mem_cons.mp h
      exact (compact_upperChar hd).append (Compact.lowerWord hrest)

/-- A name in camel case has neither marks nor blanks, whatever the name is. -/
theorem compact_camelCase (name : List Char) : Compact (camelCase name) := by
  have hwords : ∀ word ∈ nameWords name, Compact word := fun word hword c hc =>
    notMem_breakCodes_of_isAlphanumeric (isAlphanumeric_of_mem_nameWords hword hc)
  unfold camelCase
  cases hname : nameWords name with
  | nil => exact nofun
  | cons first others =>
      rw [hname] at hwords
      refine (hwords first List.mem_cons_self).lowerWord.append fun c hc => ?_
      obtain ⟨word, hword, hmem⟩ := List.mem_flatMap.mp hc
      exact (hwords word (List.mem_cons_of_mem first hword)).capitalWord c hmem

end AqlBuilder.Text
