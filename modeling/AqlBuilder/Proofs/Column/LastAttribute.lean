import AqlBuilder.Proofs.Alias.Registry
import AqlBuilder.Proofs.Column.Parsed
import AqlBuilder.Proofs.Value.Renaming
import Mathlib.Data.List.DropRight

/-!
# The last attribute of a column

In a projection a column is named after its last attribute: what stands behind the last dot or
arrow, up to an array operator. The same attribute can be read off a text that gives the column an
alias, but then the alias is read along with it, blanks and all. What is read is never the alias,
unless an array operator in front of ` as ` ends the attribute early and the alias happens to be
that attribute.

- `Column.lastAttribute_eq`: the last attribute is what stands behind the last dot.
- `exists_gap`: a text with an alias is the column, some blanks and letters, and the alias.
- `Column.attributeName_parsed`, `Column.attributeName_aliased_iff`: which attribute is read off a
  text.
-/

namespace AqlBuilder

namespace Text

variable {text front back : List Char} {c : Char}

section arrows

theorem Whole.dotArrows_eq (h : Whole text) : dotArrows text = text := by
  have happend : dotArrows (text ++ []) = text ++ dotArrows [] := h.dotArrows_append nofun
  rwa [dotArrows, List.append_nil] at happend

/-- No arrow reaches into a text that does not begin with a tip. -/
theorem dotArrows_append (h : '>' ∉ back.head?) :
    dotArrows (front ++ back) = dotArrows front ++ dotArrows back := by
  induction front using dotArrows.induct with
  | case1 => rfl
  | case2 rest ih =>
      rw [List.cons_append, List.cons_append, dotArrows, ih, dotArrows, List.cons_append]
  | case3 c rest hother ih =>
      have hnone : ∀ after, c = '-' → rest ++ back = '>' :: after → False := by
        intro after hc hafter
        cases rest with
        | nil => exact h (List.head?_eq_some_iff.mpr ⟨after, hafter⟩)
        | cons d rest => exact hother rest hc (by rw [(List.cons.inj hafter).1])
      rw [List.cons_append, dotArrows.eq_3 c _ hnone, ih, dotArrows.eq_3 c rest hother,
        List.cons_append]

/-- No arrow begins in a text without dashes. -/
theorem dotArrows_append_of_notMem (h : '-' ∉ front) (back : List Char) :
    dotArrows (front ++ back) = front ++ dotArrows back := by
  induction front with
  | nil => rfl
  | cons c rest ih =>
      obtain ⟨hc, hrest⟩ := List.ne_and_not_mem_of_not_mem_cons h
      rw [List.cons_append, dotArrows.eq_3 c _ fun _ hdash => absurd hdash.symm hc, ih hrest,
        List.cons_append]

/-- With dots for arrows there are no arrows. -/
theorem whole_dotArrows (text : List Char) : Whole (dotArrows text) := by
  rw [whole_iff]
  induction text using dotArrows.induct with
  | case1 => exact fun harrow => List.cons_ne_nil _ _ (List.eq_nil_of_infix_nil harrow)
  | case2 rest ih =>
      rw [dotArrows, List.infix_cons_iff, not_or]
      refine ⟨?_, ih⟩
      rintro ⟨after, hfront⟩
      exact absurd (List.cons.inj hfront).1 (by decide)
  | case3 c rest hother ih =>
      rw [dotArrows.eq_3 c rest hother, List.infix_cons_iff, not_or]
      refine ⟨?_, ih⟩
      rintro ⟨after, hfront⟩
      obtain ⟨hc, hrest⟩ := List.cons.inj hfront
      -- A tip that is left has been one before.
      cases rest using dotArrows.fun_cases with
      | case1 => cases hrest
      | case2 rest => exact absurd (List.cons.inj hrest).1 (by decide)
      | case3 d rest hnone =>
          rw [dotArrows.eq_3 d rest hnone] at hrest
          exact hother rest hc.symm (by rw [(List.cons.inj hrest).1])

/-- A text in which no dot is written has no arrow. -/
theorem dotArrows_eq_of_dot_notMem (h : '.' ∉ dotArrows text) : dotArrows text = text := by
  induction text using dotArrows.induct with
  | case1 => rfl
  | case2 rest _ => exact absurd (by rw [dotArrows]; exact List.mem_cons_self) h
  | case3 c rest hother ih =>
      rw [dotArrows.eq_3 c rest hother] at h ⊢
      rw [ih fun hdot => h (List.mem_cons_of_mem c hdot)]

end arrows

section pieces

/-- What stands behind the last mark. -/
theorem rtakeWhile_append_cons (front : List Char) (h : c ∉ back) :
    (front ++ c :: back).rtakeWhile (· != c) = back := by
  have hreverse : (front ++ c :: back).reverse = back.reverse ++ c :: front.reverse := by simp
  rw [List.rtakeWhile, hreverse, List.takeWhile_append_of_pos, List.takeWhile_cons_of_neg (by simp),
    List.append_nil, List.reverse_reverse]
  exact fun d hd => bne_iff_ne.mpr fun heq => h (List.mem_reverse.mp (heq ▸ hd))

theorem rtakeWhile_of_notMem (h : c ∉ text) : text.rtakeWhile (· != c) = text :=
  List.rtakeWhile_eq_self_iff.mpr fun _ hd => bne_iff_ne.mpr fun heq => h (heq ▸ hd)

/-- A mark in a text has a last occurrence. -/
theorem exists_last (h : c ∈ text) : ∃ front back, text = front ++ c :: back ∧ c ∉ back := by
  obtain ⟨back, front, hreverse, hback⟩ := List.eq_append_cons_of_mem (List.mem_reverse.mpr h)
  refine ⟨front.reverse, back.reverse, ?_, fun hc => hback (List.mem_reverse.mp hc)⟩
  rw [← text.reverse_reverse, hreverse]
  simp

/-- The last of the pieces between marks stands behind the last mark. -/
theorem getLast?_splitBy (c : Char) (text : List Char) :
    (splitBy (· == c) text).getLast? = some (text.rtakeWhile (· != c)) := by
  by_cases hc : c ∈ text
  · obtain ⟨front, back, rfl, hback⟩ := exists_last hc
    have hlast := splitBy_of_notMem hback
    rw [splitBy_eq_splitOnP] at hlast
    rw [splitBy_eq_splitOnP,
      List.splitOnP_append_cons (p := (· == c)) front back (beq_self_eq_true c), hlast,
      rtakeWhile_append_cons front hback]
    simp
  · rw [splitBy_of_notMem hc, rtakeWhile_of_notMem hc]
    rfl

/-- What stands behind the last mark, if there is none in the back of a text. -/
theorem rtakeWhile_append_of_notMem (front : List Char) (h : c ∉ back) :
    (front ++ back).rtakeWhile (· != c) = front.rtakeWhile (· != c) ++ back := by
  by_cases hc : c ∈ front
  · obtain ⟨first, last, rfl, hlast⟩ := exists_last hc
    rw [List.append_assoc, List.cons_append, rtakeWhile_append_cons first (List.mem_append.not.mpr
      (not_or.mpr ⟨hlast, h⟩)), rtakeWhile_append_cons first hlast]
  · rw [rtakeWhile_of_notMem hc,
      rtakeWhile_of_notMem (List.mem_append.not.mpr (not_or.mpr ⟨hc, h⟩))]

/-- What stands in front of the first mark, if there is one in the front of a text. -/
theorem takeWhile_append_of_mem (h : c ∈ front) (back : List Char) :
    (front ++ back).takeWhile (· != c) = front.takeWhile (· != c) := by
  obtain ⟨first, last, rfl, hfirst⟩ := List.eq_append_cons_of_mem h
  have hall : ∀ d ∈ first, (d != c) = true :=
    fun d hd => bne_iff_ne.mpr fun heq => hfirst (heq ▸ hd)
  rw [List.append_assoc, List.cons_append, List.takeWhile_append_of_pos hall,
    List.takeWhile_append_of_pos hall, List.takeWhile_cons_of_neg (by simp),
    List.takeWhile_cons_of_neg (by simp)]

end pieces

section blanks

/-- A text that does not begin with a blank is the trimmed text with blanks behind it, -/
theorem exists_blanks_behind (h : ∀ c ∈ text.head?, isBlank c = false) :
    ∃ blanks, text = trimBlanks text ++ blanks ∧ ∀ c ∈ blanks, isBlank c = true := by
  obtain ⟨front, back, htext, hfront, hback⟩ := exists_trimBlanks text
  cases front with
  | nil => exact ⟨back, htext, hback⟩
  | cons c rest =>
      have hblank := hfront c List.mem_cons_self
      rw [h c (by rw [htext]; rfl)] at hblank
      cases hblank

/-- and one that does not end in a blank has them in front. -/
theorem exists_blanks_before (h : ∀ c ∈ text.getLast?, isBlank c = false) :
    ∃ blanks, text = blanks ++ trimBlanks text ∧ ∀ c ∈ blanks, isBlank c = true := by
  obtain ⟨front, back, htext, hfront, hback⟩ := exists_trimBlanks text
  rcases List.eq_nil_or_concat' back with rfl | ⟨rest, c, rfl⟩
  · exact ⟨front, by rw [List.append_nil] at htext; exact htext, hfront⟩
  · have hblank := hback c (by simp)
    rw [h c (by rw [htext, ← List.append_assoc]; simp)] at hblank
    cases hblank

end blanks

end Text

open Text

/-- What stands between a column and its alias: blanks and the letters of ` as `. -/
def Gap (gap : List Char) : Prop := ∀ c ∈ gap, isBlank c = true ∨ c ∈ " aAsS".toList

/-- A text with an alias is the column, something in between, and the alias. -/
theorem exists_gap {text name asName : String} (h : nameAndAlias? text = some (name, asName)) :
    ∃ gap, gap ≠ [] ∧ Gap gap ∧
      trimBlanks text.toList = name.toList ++ (gap ++ asName.toList) := by
  obtain ⟨⟨front, back⟩, hcut, heq⟩ := Option.map_eq_some_iff.mp h
  obtain ⟨rfl, rfl⟩ := Prod.mk.inj heq
  have htrimmed := trimmed_trimBlanks text.toList
  obtain ⟨mark, hsplit, hmark⟩ := exists_of_cutAs hcut
  rw [hsplit] at htrimmed ⊢
  obtain ⟨behind, hfront, hbehind⟩ : ∃ blanks, front = trimBlanks front ++ blanks ∧
      ∀ c ∈ blanks, isBlank c = true := exists_blanks_behind fun c hc =>
    htrimmed.begins c (by rw [List.head?_append, Option.mem_def.mp hc]; rfl)
  obtain ⟨before, hback, hbefore⟩ : ∃ blanks, back = blanks ++ trimBlanks back ∧
      ∀ c ∈ blanks, isBlank c = true := exists_blanks_before fun c hc => by
    refine htrimmed.ends c ?_
    rw [← List.append_assoc, List.getLast?_append, List.getLast?_cons, Option.mem_def.mp hc]
    rfl
  rw [String.toList_ofList, String.toList_ofList]
  refine ⟨behind ++ mark ++ ' ' :: before, by simp, fun c hc => ?_, ?_⟩
  · rw [List.mem_append, List.mem_append, List.mem_cons] at hc
    rcases hc with (hc | hc) | rfl | hc
    · exact .inl (hbehind c hc)
    · exact .inr (hmark c hc)
    · exact .inl (by decide)
    · exact .inl (hbefore c hc)
  · conv_lhs => rw [hfront, hback]
    simp only [List.append_assoc, List.cons_append]

/-- Nothing in a gap has a meaning in the path of an attribute. -/
theorem Gap.mark_notMem {gap : List Char} (h : Gap gap) :
    ∀ mark ∈ ".[->".toList, mark ∉ gap := by
  intro mark hmark hmem
  have hother : ∀ mark ∈ ".[->".toList, isBlank mark = false ∧ mark ∉ " aAsS".toList := by decide
  obtain ⟨hblank, hletter⟩ := hother mark hmark
  rcases h mark hmem with hc | hc
  · exact Bool.false_ne_true (hblank.symm.trans hc)
  · exact hletter hc

namespace Column

/-- The last attribute, with its array operator. -/
def lastAttribute (column : String) : List Char :=
  (segments (normalForm column.toList)).getLast?.getD []

/-- The last attribute is what stands behind the last dot. -/
theorem lastAttribute_eq (column : String) :
    lastAttribute column = (normalForm column.toList).rtakeWhile (· != '.') := by
  unfold lastAttribute segments
  rw [getLast?_splitBy]
  rfl

/-- The name of a column in a projection is the last attribute up to an array operator. -/
theorem attributeName_eq (column : String) :
    attributeName column = String.ofList ((lastAttribute column).takeWhile (· != '[')) := rfl

/-- It is no path, with dots or with arrows. -/
theorem dot_notMem_dotArrows_attributeName (column : String) :
    '.' ∉ dotArrows (attributeName column).toList := by
  rw [attributeName_eq, String.toList_ofList]
  have hsuffix : lastAttribute column <:+ normalForm column.toList :=
    lastAttribute_eq column ▸ List.rtakeWhile_suffix _ _
  have hprefix := List.takeWhile_prefix (· != '[') (l := lastAttribute column)
  have hwhole : Whole ((lastAttribute column).takeWhile (· != '[')) :=
    whole_iff.mpr fun harrow => whole_iff.mp (whole_dotArrows _)
      ((harrow.trans hprefix.isInfix).trans hsuffix.isInfix)
  rw [hwhole.dotArrows_eq]
  intro hdot
  have hbehind : '.' ∈ (normalForm column.toList).rtakeWhile (· != '.') :=
    lastAttribute_eq column ▸ hprefix.subset hdot
  exact bne_iff_ne.mp (List.mem_rtakeWhile_imp (p := (· != '.')) hbehind) rfl

/-- There is no dot in the last attribute. -/
theorem dot_notMem_attributeName (column : String) : '.' ∉ (attributeName column).toList := by
  have hdot := dot_notMem_dotArrows_attributeName column
  rwa [dotArrows_eq_of_dot_notMem hdot] at hdot

/-- A column that is read off a text as it is has the attribute that is read off the text. -/
theorem attributeName_parsed {Q : Type} {text name : String}
    (h : (Selector.parse text : Selector Q) = .column name) :
    attributeName name = attributeName text := by
  have hname : name = String.ofList (trimBlanks text.toList) := by
    unfold Selector.parse at h
    split at h
    case h_1 => cases h
    case h_2 =>
      dsimp only at h
      split at h
      · cases h
      · split at h
        · cases h
        · cases h
          rfl
  have hform : normalForm name.toList = normalForm text.toList := by
    rw [hname, String.toList_ofList, normalForm, trimBlanks_trimBlanks, normalForm]
  unfold attributeName
  rw [hform]

/-- Renaming the key makes no name longer. -/
theorem length_renamed_le (name : String) :
    (renamed keyAttribute idAttribute name).toList.length ≤ name.toList.length := by
  unfold renamed
  split
  case isTrue hkey =>
    rw [hkey]
    decide
  case isFalse => exact Nat.le_refl _

section aliased

variable {text name asName : String} (h : nameAndAlias? text = some (name, asName))

include h

/-- If the alias is no path, the last attribute of the text is the one of the column with the gap
and the alias behind it. -/
theorem exists_lastAttribute (hpath : '.' ∉ dotArrows asName.toList) :
    ∃ gap, gap ≠ [] ∧ Gap gap ∧
      lastAttribute text = lastAttribute name ++ (gap ++ asName.toList) := by
  obtain ⟨gap, hne, hgap, htext⟩ := exists_gap h
  have hmarks := hgap.mark_notMem
  have htip : '>' ∉ (gap ++ asName.toList).head? := by
    rw [List.head?_append_of_ne_nil _ hne]
    exact fun htip => hmarks '>' (by decide) (List.mem_of_mem_head? htip)
  have hnone : '.' ∉ gap ++ dotArrows asName.toList :=
    List.mem_append.not.mpr (not_or.mpr ⟨hmarks '.' (by decide), hpath⟩)
  refine ⟨gap, hne, hgap, ?_⟩
  calc lastAttribute text
      = (dotArrows name.toList ++ (gap ++ dotArrows asName.toList)).rtakeWhile (· != '.') := by
        rw [lastAttribute_eq, normalForm, htext, dotArrows_append htip,
          dotArrows_append_of_notMem (hmarks '-' (by decide))]
    _ = (dotArrows name.toList).rtakeWhile (· != '.') ++ (gap ++ dotArrows asName.toList) :=
        rtakeWhile_append_of_notMem _ hnone
    _ = lastAttribute name ++ (gap ++ asName.toList) := by
        rw [lastAttribute_eq, normalForm, (trimmed_of_nameAndAlias? h).1.trimBlanks_eq,
          dotArrows_eq_of_dot_notMem hpath]

/-- **The attribute that is read off a text with an alias** is the name of the alias in a row just
if an array operator hides the alias, and the attribute in front of it has that name. -/
theorem attributeName_aliased_iff :
    attributeName text = renamed keyAttribute idAttribute asName ↔
      '[' ∈ lastAttribute name ∧
        attributeName name = renamed keyAttribute idAttribute asName := by
  have hdot := dot_notMem_dotArrows_attributeName text
  by_cases hpath : '.' ∈ dotArrows asName.toList
  · -- A path is no attribute, nor is it the name of a key.
    have hpath' : '.' ∈ dotArrows (renamed keyAttribute idAttribute asName).toList := by
      unfold renamed
      split
      case isTrue hkey => exact absurd (hkey ▸ hpath) (by decide)
      case isFalse => exact hpath
    refine iff_of_false (fun heq => hdot (heq ▸ hpath')) fun heq => ?_
    exact dot_notMem_dotArrows_attributeName name (heq.2 ▸ hpath')
  obtain ⟨gap, hne, hgap, hlast⟩ := exists_lastAttribute h hpath
  by_cases hoperator : '[' ∈ lastAttribute name
  · have hsame : attributeName text = attributeName name := by
      rw [attributeName_eq, attributeName_eq, hlast, takeWhile_append_of_mem hoperator]
    rw [hsame, and_iff_right hoperator]
  · refine iff_of_false (fun heq => ?_) fun heq => hoperator heq.1
    rw [attributeName_eq, hlast] at heq
    have hchars := congrArg String.toList heq
    rw [String.toList_ofList] at hchars
    have hfree : '[' ∉ asName.toList := by
      intro hmem
      have hother : asName ≠ keyAttribute := by
        rintro rfl
        exact absurd hmem (by decide)
      rw [renamed, if_neg hother] at hchars
      exact bne_iff_ne.mp (List.mem_takeWhile_imp (p := (· != '[')) (hchars ▸ hmem)) rfl
    -- What is read is longer than the alias, by the gap at least.
    have hall : '[' ∉ lastAttribute name ++ (gap ++ asName.toList) := by
      rw [List.mem_append, List.mem_append, not_or, not_or]
      exact ⟨hoperator, hgap.mark_notMem '[' (by decide), hfree⟩
    have hlength := congrArg List.length hchars
    rw [takeWhile_of_notMem hall, List.length_append, List.length_append] at hlength
    have hshort := length_renamed_le asName
    have hgap := List.length_pos_iff.mpr hne
    omega

end aliased

end Column

end AqlBuilder
