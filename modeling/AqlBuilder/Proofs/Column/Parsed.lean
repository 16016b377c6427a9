import AqlBuilder.Proofs.Binding.References
import AqlBuilder.Proofs.Text.Encoded
import AqlBuilder.Proofs.Text.Pieces
import AqlBuilder.Query.Clause

/-!
# Names and aliases that are read off a text

A part of a projection and the name of a collection are read off a text without the blanks around
it. What is read has no blanks around it either, and an alias is never empty: behind ` as ` there is
always something left of a text that does not end in a blank.

- `Text.exists_mark_of_cutAs`: what ` as ` stands between.
- `tableAndAlias_ne_empty`: the variable that a collection is given.
- `Selector.trimmed_parse`: the columns of a projection.
- `Text.splitAs_eq_cutAs`: the bytes of a text are cut where its characters are.
- `names_cut_at_first_as`: what is read off a text with and without ` as `.
-/

namespace AqlBuilder

namespace Text

variable {text before after : List Char}

/-- What stands behind the mark of an alias, in any case, is what follows it. -/
theorem afterAs?_eq_some_iff :
    afterAs? text = some after ↔ ∃ mark ∈ asMarks, text = mark.toList ++ after := by
  constructor
  · intro h
    unfold afterAs? at h
    split at h
    case h_1 a s rest =>
      split at h
      case isTrue hletters =>
        cases h
        obtain ⟨ha, hs⟩ := Bool.and_eq_true_iff.mp hletters
        have ha : a = 'a' ∨ a = 'A' := by simpa [eitherCase] using ha
        have hs : s = 's' ∨ s = 'S' := by simpa [eitherCase] using hs
        rcases ha with rfl | rfl <;> rcases hs with rfl | rfl
        · exact ⟨" as ", by decide, rfl⟩
        · exact ⟨" aS ", by decide, rfl⟩
        · exact ⟨" As ", by decide, rfl⟩
        · exact ⟨" AS ", by decide, rfl⟩
      case isFalse => cases h
    case h_2 => cases h
  · rintro ⟨mark, hmem, rfl⟩
    simp only [asMarks, List.mem_cons, List.not_mem_nil, or_false] at hmem
    rcases hmem with rfl | rfl | rfl | rfl <;> rfl

/-- A text is cut at a mark that stands in it. -/
theorem exists_mark_of_cutAs (h : cutAs text = some (before, after)) :
    ∃ mark ∈ asMarks, text = before ++ (mark.toList ++ after) := by
  induction text generalizing before after with
  | nil => cases h
  | cons c rest ih =>
      unfold cutAs at h
      cases hcut : afterAs? (c :: rest) with
      | some behind =>
          rw [hcut] at h
          cases h
          exact afterAs?_eq_some_iff.mp hcut
      | none =>
          rw [hcut] at h
          obtain ⟨⟨first, last⟩, hrest, heq⟩ := Option.map_eq_some_iff.mp h
          cases heq
          obtain ⟨mark, hmem, rfl⟩ := ih hrest
          exact ⟨mark, hmem, rfl⟩

/-- ` as ` is three letters and a blank behind them. -/
theorem exists_of_cutAs (h : cutAs text = some (before, after)) :
    ∃ mark, text = before ++ (mark ++ ' ' :: after) ∧ ∀ c ∈ mark, c ∈ " aAsS".toList := by
  obtain ⟨mark, hmem, rfl⟩ := exists_mark_of_cutAs h
  simp only [asMarks, List.mem_cons, List.not_mem_nil, or_false] at hmem
  rcases hmem with rfl | rfl | rfl | rfl
  · exact ⟨" as".toList, rfl, by decide⟩
  · exact ⟨" aS".toList, rfl, by decide⟩
  · exact ⟨" As".toList, rfl, by decide⟩
  · exact ⟨" AS".toList, rfl, by decide⟩

/-- A trimmed text has something behind ` as `. -/
theorem trimBlanks_ne_nil_of_cutAs (htrimmed : Trimmed text)
    (h : cutAs text = some (before, after)) :
    trimBlanks after ≠ [] := by
  obtain ⟨mark, rfl, -⟩ := exists_of_cutAs h
  have hends := htrimmed.ends
  rw [← List.append_assoc, List.getLast?_append, List.getLast?_cons, Option.some_or] at hends
  cases hlast : after.getLast? with
  | none =>
      rw [hlast] at hends
      exact absurd (hends ' ' rfl) (by decide)
  | some c =>
      rw [hlast] at hends
      exact List.ne_nil_of_mem (mem_trimBlanks_of_not_blank (List.mem_of_mem_getLast? hlast)
        (hends c rfl))

end Text

/-- A name and an alias are read without blanks, and the alias is not empty. -/
theorem trimmed_of_nameAndAlias? {text name asName : String}
    (h : nameAndAlias? text = some (name, asName)) : Text.Trimmed name.toList ∧ asName ≠ "" := by
  obtain ⟨⟨before, after⟩, hcut, heq⟩ := Option.map_eq_some_iff.mp h
  obtain ⟨rfl, rfl⟩ := Prod.mk.inj heq
  constructor
  · rw [String.toList_ofList]
    exact Text.trimmed_trimBlanks before
  · intro hempty
    have hnone := congrArg String.toList hempty
    rw [String.toList_ofList] at hnone
    exact Text.trimBlanks_ne_nil_of_cutAs (Text.trimmed_trimBlanks _) hcut hnone

/-- A collection is not given an empty variable. -/
theorem tableAndAlias_ne_empty (text : String) : ∀ v ∈ (tableAndAlias text).2, v ≠ "" := by
  unfold tableAndAlias
  split
  case h_1 name asName hread =>
    intro v hv
    cases hv
    exact (trimmed_of_nameAndAlias? hread).2
  case h_2 => exact fun _ hv => nomatch hv

/-- A column that is read off a text has no blanks around it. -/
theorem Selector.trimmed_parse {Q : Type} (text : String) :
    ∀ column ∈ (parse text : Selector Q).column?, Text.Trimmed column.toList := by
  unfold parse
  split
  case h_1 name asName hread =>
    intro column hcolumn
    cases hcolumn
    exact (trimmed_of_nameAndAlias? hread).1
  case h_2 =>
    dsimp only
    split
    · exact fun _ hcolumn => nomatch hcolumn
    · split
      · exact fun _ hcolumn => nomatch hcolumn
      · intro column hcolumn
        cases hcolumn
        rw [String.toList_ofList]
        exact Text.trimmed_trimBlanks _

/-!
## Names that are cut off their aliases

A part of a projection and a collection are written as a name and an alias around ` as `. The two
are read off the characters of the text, and the same is found in its bytes: what is cut there are
parts of the text, so that a name keeps every one of its characters, however many bytes it has.
-/

namespace Text

section cutting

variable {text before after : List Char}

/-- A text is cut at an ` as ` in front of which none begins. -/
theorem cutAs_append {mark : String} (hmem : mark ∈ asMarks)
    (hfirst : ∀ front mid, before = front ++ mid → mid ≠ [] →
      afterAs? (mid ++ (mark.toList ++ after)) = none) :
    cutAs (before ++ (mark.toList ++ after)) = some (before, after) := by
  induction before with
  | nil =>
      have hmark : afterAs? (mark.toList ++ after) = some after :=
        afterAs?_eq_some_iff.mpr ⟨mark, hmem, rfl⟩
      rw [List.nil_append]
      cases htext : mark.toList ++ after with
      | nil =>
          rw [htext] at hmark
          cases hmark
      | cons c rest =>
          rw [htext] at hmark
          rw [cutAs, hmark]
  | cons c before ih =>
      have hnone := hfirst [] (c :: before) rfl (List.cons_ne_nil c before)
      rw [List.cons_append] at hnone ⊢
      rw [cutAs, hnone]
      dsimp only
      rw [ih fun front mid hbefore => hfirst (c :: front) mid (by rw [hbefore]; rfl)]
      rfl

end cutting

variable {text before after : String}

/-- The characters of a text are cut at the first ` as `. -/
theorem FirstAs.cutAs_eq (h : FirstAs text before after) :
    cutAs text.toList = some (before.toList, after.toList) := by
  obtain ⟨mark, hmem, rfl⟩ := h.parts
  rw [String.toList_append, String.toList_append, List.append_assoc]
  refine cutAs_append hmem fun front mid hbefore hmid => ?_
  rw [Option.eq_none_iff_forall_ne_some]
  intro back hback
  obtain ⟨mark', hmem', htext⟩ := afterAs?_eq_some_iff.mp hback
  obtain rfl : before = String.ofList front ++ String.ofList mid := String.toList_inj.mp (by
    rw [hbefore, String.toList_append, String.toList_ofList, String.toList_ofList])
  have hle := h.first (String.ofList front) mark' hmem' (String.ofList back)
    (String.toList_inj.mp (by
      simp only [String.toList_append, String.toList_ofList, List.append_assoc, htext]))
  -- a part in front of which nothing is missing is all of the text before
  rw [String.utf8ByteSize_append] at hle
  have hempty : (String.ofList mid).utf8ByteSize = 0 := by omega
  rw [String.utf8ByteSize_eq_zero_iff] at hempty
  refine hmid ?_
  rw [← String.toList_ofList (l := mid), hempty]
  rfl

/-- Without ` as ` there is nothing to cut. -/
theorem cutAs_eq_none (h : ¬HasAs text) : cutAs text.toList = none := by
  rw [Option.eq_none_iff_forall_ne_some]
  rintro ⟨before, after⟩ hcut
  obtain ⟨mark, hmem, htext⟩ := exists_mark_of_cutAs hcut
  refine h ⟨String.ofList before, mark, hmem, String.ofList after, String.toList_inj.mp ?_⟩
  rw [htext, String.toList_append, String.toList_append, String.toList_ofList, String.toList_ofList,
    List.append_assoc]

/-- **The bytes of a text are cut where its characters are.** -/
theorem splitAs_eq_cutAs (text : String) : splitAs text = .ok
    ((cutAs text.toList).map
      fun (before, after) => (String.ofList before, String.ofList after)) := by
  by_cases h : HasAs text
  · obtain ⟨before, after, hfirst⟩ := h.exists_firstAs
    rw [hfirst.splitAs_eq, hfirst.cutAs_eq, Option.map_some]
    dsimp only
    rw [String.ofList_toList, String.ofList_toList]
  · rw [splitAs_eq_none h, cutAs_eq_none h, Option.map_none]

/-- A text of blanks. -/
def Blanks (text : String) : Prop := ∀ c ∈ text.toList, isBlank c = true

/-- Blanks behind blanks are blanks. -/
theorem Blanks.append {front back : String} (hfront : Blanks front) (hback : Blanks back) :
    Blanks (front ++ back) := by
  rw [Blanks, String.toList_append, List.forall_mem_append]
  exact ⟨hfront, hback⟩

/-- Trimming takes blanks away at both ends, and nothing else. -/
theorem exists_trim (text : String) :
    ∃ lead tail, text = lead ++ trim text ++ tail ∧ Blanks lead ∧ Blanks tail := by
  obtain ⟨lead, tail, htext, hlead, htail⟩ := exists_trimBlanks text.toList
  refine ⟨String.ofList lead, String.ofList tail, String.toList_inj.mp ?_, ?_, ?_⟩
  · simp only [trim, String.toList_append, String.toList_ofList]
    exact htext
  · rwa [Blanks, String.toList_ofList]
  · rwa [Blanks, String.toList_ofList]

theorem toList_trim (text : String) : (trim text).toList = trimBlanks text.toList :=
  String.toList_ofList

end Text

open Text

variable {Q : Type} {text before after : String}

/-- A name and its alias in a text, with ` as ` and blanks around them. -/
def NamedAs (text name asName : String) : Prop :=
  ∃ lead behind mark ahead tail,
    text = lead ++ name ++ behind ++ mark ++ ahead ++ asName ++ tail ∧ mark ∈ asMarks ∧
      Blanks lead ∧ Blanks behind ∧ Blanks ahead ∧ Blanks tail

/-- A text with a mark is cut at the first one. -/
theorem nameAndAlias?_of_firstAs (h : FirstAs (trim text) before after) :
    nameAndAlias? text = some (trim before, trim after) := by
  have hcut := h.cutAs_eq
  rw [toList_trim] at hcut
  rw [nameAndAlias?, hcut]
  rfl

/-- A text without a mark has no alias. -/
theorem nameAndAlias?_eq_none (h : ¬HasAs (trim text)) : nameAndAlias? text = none := by
  have hcut := cutAs_eq_none h
  rw [toList_trim] at hcut
  rw [nameAndAlias?, hcut]
  rfl

/-- What is found in the bytes of the trimmed text is what is read. -/
theorem nameAndAlias?_eq (text : String) : ∃ found, splitAs (trim text) = .ok found ∧
    nameAndAlias? text = found.map fun (before, after) => (trim before, trim after) := by
  refine ⟨_, splitAs_eq_cutAs (trim text), ?_⟩
  rw [toList_trim, Option.map_map, nameAndAlias?]
  simp only [Function.comp_def, trim, String.toList_ofList]

/-- The two stand in the text as they are. -/
theorem namedAs_of_firstAs (h : FirstAs (trim text) before after) :
    NamedAs text (trim before) (trim after) := by
  obtain ⟨mark, hmem, hparts⟩ := h.parts
  obtain ⟨lead, tail, htext, hlead, htail⟩ := exists_trim text
  obtain ⟨lead', behind, hbefore, hlead', hbehind⟩ := exists_trim before
  obtain ⟨ahead, tail', hafter, hahead, htail'⟩ := exists_trim after
  refine ⟨lead ++ lead', behind, mark, ahead, tail' ++ tail, ?_, hmem, hlead.append hlead', hbehind,
    hahead, htail'.append htail⟩
  conv_lhs => rw [htext, hparts, hbefore, hafter]
  simp only [String.append_assoc]

/-- What is left before a finish is what the text has in front of it. -/
theorem Text.dropFinish?_eq_some {finish text front : List Char} :
    dropFinish? finish text = some front ↔ text = front ++ finish := by
  rw [dropFinish?, Option.map_eq_some_iff]
  constructor
  · rintro ⟨rest, hrest, rfl⟩
    rw [dropStart?_eq_some] at hrest
    rw [← List.reverse_reverse text, hrest, List.reverse_append, List.reverse_reverse]
  · rintro rfl
    exact ⟨front.reverse, dropStart?_eq_some.mpr List.reverse_append, List.reverse_reverse front⟩

/-- What a part of a projection without an alias stands for, by its text. -/
inductive Unnamed : String → Selector Q → Prop
  | all : Unnamed "*" (.documents "")
  | documents (table : String) : Unnamed (table ++ ".*") (.documents table)
  | column {name : String} (hall : name ≠ "*") (htable : ∀ table, name ≠ table ++ ".*") :
      Unnamed name (.column name)

/-- A text without a mark is selected without an alias. -/
theorem Selector.unnamed_parse (h : ¬HasAs (trim text)) :
    Unnamed (trim text) (parse text : Selector Q) := by
  unfold parse
  rw [nameAndAlias?_eq_none h, ← toList_trim]
  dsimp only
  split
  case isTrue hall =>
    rw [String.toList_inj.mp (hall.trans (String.toList_ofList (l := ['*'])).symm)]
    exact .all
  case isFalse hall =>
    split
    case h_1 table htable =>
      have htext : trim text = String.ofList table ++ ".*" := String.toList_inj.mp (by
        rw [String.toList_append, String.toList_ofList]
        exact dropFinish?_eq_some.mp htable)
      rw [htext]
      exact .documents _
    case h_2 hnone =>
      rw [String.ofList_toList]
      refine .column (fun heq => hall (by rw [heq]; rfl)) fun table heq => ?_
      have htable : (trim text).toList = table.toList ++ ['.', '*'] := by
        rw [heq, String.toList_append]
        rfl
      rw [dropFinish?_eq_some.mpr htable] at hnone
      cases hnone

/-- **Names are cut off their aliases at the first ` as `.**  Where bytes of a text spell ` as `, it
is characters of the text that do, so the cut never goes through a character: it is made just if
there is an ` as ` in the text, and then in front of the first one and behind it.  What is read off
a part of a projection or a collection is what is found so in the text without the blanks around it,
again without blanks; and all of it stands in the text as it is. -/
theorem names_cut_at_first_as (Q : Type) (text : String) :
    (∀ place, MarkAt (bytes text) place ↔ ∃ front, ∃ mark ∈ asMarks, ∃ back,
      text = front ++ mark ++ back ∧ front.utf8ByteSize = place) ∧
    (∃ found, splitAs text = .ok found ∧ (found.isSome ↔ HasAs text) ∧
      ∀ before after, found = some (before, after) ↔ FirstAs text before after) ∧
    (∃ found, splitAs (trim text) = .ok found ∧
      nameAndAlias? text = found.map fun (before, after) => (trim before, trim after)) ∧
    (∀ before after, FirstAs (trim text) before after →
      (Selector.parse text : Selector Q) = .aliased (trim before) (trim after) ∧
      tableAndAlias text = (trim before, some (trim after)) ∧
      NamedAs text (trim before) (trim after)) ∧
    (¬HasAs (trim text) → Unnamed (trim text) (Selector.parse text : Selector Q) ∧
      tableAndAlias text = (trim text, none) ∧
      ∃ lead tail, text = lead ++ trim text ++ tail ∧ Blanks lead ∧ Blanks tail) := by
  refine ⟨fun place => markAt_bytes_iff, exists_splitAs text, nameAndAlias?_eq text,
    fun before after h => ⟨?_, ?_, namedAs_of_firstAs h⟩,
    fun h => ⟨Selector.unnamed_parse h, ?_, exists_trim text⟩⟩
  · rw [Selector.parse, nameAndAlias?_of_firstAs h]
  · rw [tableAndAlias, nameAndAlias?_of_firstAs h]
  · rw [tableAndAlias, nameAndAlias?_eq_none h]

/-- Names of more than one byte a character, with an alias and without. -/
theorem names_of_two_bytes_stay :
    (FirstAs (trim "İ As é") "İ" "é" ∧
      (Selector.parse "İ As é" : Selector Nat) = .aliased "İ" "é" ∧
      tableAndAlias "İ As é" = ("İ", some "é")) ∧
    ¬HasAs (trim "straße") ∧ tableAndAlias "straße" = ("straße", none) := by
  have hcut : splitAs (trim "İ As é") = .ok (some ("İ", "é")) := by
    rw [splitAs_eq_cutAs]
    rfl
  have hnone : splitAs (trim "straße") = .ok none := by
    rw [splitAs_eq_cutAs]
    rfl
  constructor
  · obtain ⟨found, hfound, -, hfirst⟩ := exists_splitAs (trim "İ As é")
    rw [hcut] at hfound
    have hparts := (hfirst "İ" "é").mp (Except.ok.inj hfound).symm
    obtain ⟨-, -, -, hnamed, -⟩ := names_cut_at_first_as Nat "İ As é"
    obtain ⟨hparse, htable, -⟩ := hnamed "İ" "é" hparts
    exact ⟨hparts, hparse, htable⟩
  · obtain ⟨found, hfound, hhas, -⟩ := exists_splitAs (trim "straße")
    rw [hnone] at hfound
    have hnot : ¬HasAs (trim "straße") := by
      rw [← hhas, ← Except.ok.inj hfound]
      exact Bool.false_ne_true
    obtain ⟨-, -, -, -, hunnamed⟩ := names_cut_at_first_as Nat "straße"
    obtain ⟨-, htable, -⟩ := hunnamed hnot
    exact ⟨hnot, htable⟩

end AqlBuilder
