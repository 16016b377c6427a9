import AqlBuilder.Proofs.Text.Words

/-!
# Texts in a statement

A statement is put together from texts that stand in it as they are.

- `Begins` says that a text stands in another one so that its first word stays a word. It is
  reflexive and transitive.
- `Begins.behind`, `Begins.parenthesized`, `Begins.before`: what may be put around a text.
- `exists_intercalate`: where a text of a list is.
- `Stands` says that a text stands in another one behind given marks. Without marks it only says
  that the text stands there.
- `Stands.trans` adds the marks around a text to the marks within, and `Stands.intercalate` those of
  the pieces before it.
- `StandsIn` is the same of a list of pieces, before they are put together.
-/

/-!
## Texts whose first word stays

What stands in front of a text in a statement ends with a blank or with opening parentheses behind a
blank, so that the first word of the text is still a word there, but for parentheses in front of it.
The arguments of a function are another matter: the name of the function grows to them.
-/

namespace AqlBuilder

open Text

/-- Whether nothing but opening parentheses stands behind the last blank of a text. -/
def Text.Opens (text : List Char) : Prop := ∀ c ∈ text.rtakeWhile (!isBlank ·), c = '('

instance (text : List Char) : Decidable (Text.Opens text) :=
  inferInstanceAs (Decidable (∀ _ ∈ _, _))

/-- Parentheses behind parentheses are parentheses. -/
theorem Text.Opens.append {s t : List Char} (hs : Opens s) (ht : Opens t) : Opens (s ++ t) := by
  intro c hc
  unfold Opens at hs ht
  unfold List.rtakeWhile at hs ht hc
  rw [List.reverse_append, List.takeWhile_append] at hc
  split at hc
  · rename_i hall
    rw [List.mem_reverse, List.mem_append] at hc
    rcases hc with hc | hc
    · have htaken := (List.takeWhile_prefix (!isBlank ·)).eq_of_length hall
      refine ht c ?_
      rw [htaken]
      exact List.mem_reverse.mpr hc
    · exact hs c (List.mem_reverse.mpr hc)
  · exact ht c hc

/-- A text that ends with a blank and opening parentheses behind it. -/
structure Opening (text : String) : Prop where
  opens : Opens text.toList
  blank : ∃ c ∈ text.toList, isBlank c = true

instance (text : String) : Decidable (Opening text) :=
  decidable_of_iff (Opens text.toList ∧ ∃ c ∈ text.toList, isBlank c = true)
    ⟨fun h => ⟨h.1, h.2⟩, fun h => ⟨h.opens, h.blank⟩⟩

/-- What is in front of an opening text does not matter. -/
theorem Opening.append {text : String} (h : Opening text) (s : List Char) :
    Opens (s ++ text.toList) := by
  obtain ⟨hopens, d, hd, hblank⟩ := h
  intro c hc
  unfold Opens at hopens
  unfold List.rtakeWhile at hopens hc
  rw [List.reverse_append, List.takeWhile_append, if_neg] at hc
  · exact hopens c hc
  · intro hall
    have htaken := (List.takeWhile_prefix (!isBlank ·)).eq_of_length hall
    have hsolid := List.takeWhile_eq_self_iff.mp htaken d (List.mem_reverse.mpr hd)
    rw [hblank] at hsolid
    cases hsolid

/-- A text that stands in another one, behind a blank or at the front, with nothing but opening
parentheses grown to it there. -/
def Begins (part text : String) : Prop :=
  ∃ before after, text.toList = before ++ part.toList ++ after ∧ Opens before

namespace Begins

variable {part text whole : String}

theorem refl (text : String) : Begins text text := ⟨[], [], by simp, by decide⟩

theorem trans (h : Begins part text) (h' : Begins text whole) : Begins part whole := by
  obtain ⟨before, after, htext, hopens⟩ := h
  obtain ⟨before', after', hwhole, hopens'⟩ := h'
  refine ⟨before' ++ before, after ++ after', ?_, hopens'.append hopens⟩
  rw [hwhole, htext]
  simp only [List.append_assoc]

/-- A text may follow an opening one, whatever is in front of that. -/
theorem behind (h : Begins part text) (front : String) {mark : String} (hmark : Opening mark) :
    Begins part (front ++ mark ++ text) :=
  h.trans ⟨front.toList ++ mark.toList, [], by simp, hmark.append _⟩

/-- What begins a text begins it in parentheses that are open. -/
theorem opened (h : Begins part text) {mark : String} (hmark : Opens mark.toList) :
    Begins part (mark ++ text) :=
  h.trans ⟨mark.toList, [], by simp, hmark⟩

/-- Anything may follow a text. -/
theorem before (h : Begins part text) (back : String) : Begins part (text ++ back) :=
  h.trans ⟨[], back.toList, by simp, by decide⟩

theorem parenthesized (h : Begins part text) : Begins part ("(" ++ text ++ ")") :=
  (h.opened (by decide)).before ")"

end Begins

/-- A text of a list has a place in the text that lists them. -/
theorem exists_intercalate {sep part : String} {texts : List String} (h : part ∈ texts) :
    ∃ before after, sep.intercalate texts = before ++ part ++ after := by
  induction texts with
  | nil => cases h
  | cons first rest ih =>
      cases rest with
      | nil => exact ⟨"", "", by rw [List.mem_singleton.mp h]; simp⟩
      | cons second rest =>
          rw [String.intercalate_cons_cons]
          rcases List.mem_cons.mp h with rfl | h
          · exact ⟨"", sep ++ sep.intercalate (second :: rest), by simp [String.append_assoc]⟩
          · obtain ⟨before, after, hrest⟩ := ih h
            exact ⟨first ++ sep ++ before, after, by rw [hrest]; simp only [String.append_assoc]⟩

end AqlBuilder

/-!
## Texts behind marks

A text may have certain marks in front of it: those that it had already, and those in the pieces
that come before it.
-/

namespace AqlBuilder

/-- A text that stands in another one, with each of the marks somewhere in front of it. -/
def Stands (marks : List String) (part whole : String) : Prop :=
  ∃ front back, whole = front ++ part ++ back ∧
    ∀ mark ∈ marks, ∃ before after, front = before ++ mark ++ after

namespace Stands

variable {marks others : List String} {part text whole sep : String}

theorem refl (text : String) : Stands [] text text :=
  ⟨"", "", by simp, fun _ h => nomatch h⟩

theorem trans (h : Stands marks part text) (h' : Stands others text whole) :
    Stands (others ++ marks) part whole := by
  obtain ⟨front, back, rfl, hmarks⟩ := h
  obtain ⟨front', back', rfl, hothers⟩ := h'
  refine ⟨front' ++ front, back ++ back', by simp only [String.append_assoc], fun mark hmark => ?_⟩
  rcases List.mem_append.mp hmark with hmark | hmark
  · obtain ⟨before, after, rfl⟩ := hothers mark hmark
    exact ⟨before, after ++ front, by simp only [String.append_assoc]⟩
  · obtain ⟨before, after, rfl⟩ := hmarks mark hmark
    exact ⟨front' ++ before, after, by simp only [String.append_assoc]⟩

/-- Anything may be put around a text. -/
theorem around (h : Stands marks part text) (front back : String) :
    Stands marks part (front ++ text ++ back) := by
  have hout : Stands [] text (front ++ text ++ back) := ⟨front, back, rfl, fun _ h => nomatch h⟩
  exact h.trans hout

/-- What stands in a text stands in it with another one in front. -/
theorem behind (h : Stands marks part text) (front : String) :
    Stands marks part (front ++ text) := by
  have hout := h.around front ""
  rwa [String.append_empty] at hout

/-- What stands in a text stands in it with another one behind. -/
theorem before (h : Stands marks part text) (back : String) : Stands marks part (text ++ back) := by
  have hout := h.around "" back
  rwa [String.empty_append] at hout

/-- A piece of a list is behind the marks in the pieces before it. -/
theorem intercalate {pieces rest : List String} (h : Stands marks part text)
    (hothers : ∀ mark ∈ others, ∃ piece ∈ pieces, Stands [] mark piece) :
    Stands (others ++ marks) part (sep.intercalate (pieces ++ text :: rest)) := by
  have hfront :
    ∀ mark ∈ others, ∃ before after, sep.intercalate pieces = before ++ mark ++ after := by
    intro mark hmark
    obtain ⟨piece, hpiece, before, after, hmarked, -⟩ := hothers mark hmark
    obtain ⟨front, back, hpieces⟩ : ∃ front back,
        sep.intercalate pieces = front ++ piece ++ back := exists_intercalate hpiece
    refine ⟨front ++ before, after ++ back, ?_⟩
    rw [hpieces, hmarked]
    simp only [String.append_assoc]
  have hlast : Stands marks part (sep.intercalate (text :: rest)) := by
    cases rest with
    | nil =>
        rw [String.intercalate_singleton]
        exact h
    | cons second rest =>
        rw [String.intercalate_cons_cons, String.append_assoc]
        exact h.before _
  by_cases hpieces : pieces = []
  · subst hpieces
    have hnone : ∀ mark, mark ∉ others := fun mark hmark =>
      (hothers mark hmark).elim fun _ hpiece => nomatch hpiece.1
    rw [List.eq_nil_iff_forall_not_mem.mpr hnone]
    exact hlast
  · rw [String.intercalate_append_of_ne_nil hpieces (List.cons_ne_nil text rest)]
    refine hlast.trans ⟨sep.intercalate pieces ++ sep, "", by simp, fun mark hmark => ?_⟩
    obtain ⟨before, after, heq⟩ := hfront mark hmark
    exact ⟨before, after ++ sep, by rw [heq, String.append_assoc]⟩

/-- Without further marks, a piece stands in the text of the list. -/
theorem listed {texts : List String} (h : Stands marks part text) (hmem : text ∈ texts) :
    Stands marks part (sep.intercalate texts) := by
  obtain ⟨pieces, rest, rfl⟩ := List.append_of_mem hmem
  have hnone : ∀ mark ∈ ([] : List String), ∃ piece ∈ pieces, Stands [] mark piece :=
    fun _ h => nomatch h
  exact h.intercalate hnone

end Stands

/-- Each of the marks is in one of the pieces. -/
def Marked (marks pieces : List String) : Prop :=
  ∀ mark ∈ marks, ∃ text ∈ pieces, Stands [] mark text

/-- A text that stands in one of several pieces, with each of the marks in front of it: in the same
piece, or in one before it. -/
def StandsIn (marks : List String) (part : String) (pieces : List String) : Prop :=
  ∃ front piece back, pieces = front ++ piece :: back ∧ ∃ others inner,
    marks = others ++ inner ∧ Stands inner part piece ∧ Marked others front

/-- Pieces behind others have the marks of both. -/
theorem Marked.append {marks others pieces more : List String} (h : Marked marks pieces)
    (h' : Marked others more) : Marked (marks ++ others) (pieces ++ more) := by
  intro mark hmark
  rcases List.mem_append.mp hmark with hmark | hmark
  · obtain ⟨text, htext, hstands⟩ := h mark hmark
    exact ⟨text, List.mem_append_left _ htext, hstands⟩
  · obtain ⟨text, htext, hstands⟩ := h' mark hmark
    exact ⟨text, List.mem_append_right _ htext, hstands⟩

/-- Pieces have their marks with others behind them. -/
theorem Marked.before {marks pieces : List String} (h : Marked marks pieces) (more : List String) :
    Marked marks (pieces ++ more) := fun mark hmark =>
  (h mark hmark).imp fun _ htext => ⟨List.mem_append_left _ htext.1, htext.2⟩

namespace StandsIn

variable {marks others : List String} {part text sep : String} {pieces more : List String}

/-- What stands in one of several pieces stands in the pieces. -/
theorem of_mem (h : Stands marks part text) (hmem : text ∈ pieces) :
    StandsIn marks part pieces := by
  obtain ⟨front, back, rfl⟩ := List.append_of_mem hmem
  exact ⟨front, text, back, rfl, [], marks, rfl, h, fun _ hnone => nomatch hnone⟩

/-- What stands in pieces stands in them with others behind. -/
theorem before (h : StandsIn marks part pieces) (more : List String) :
    StandsIn marks part (pieces ++ more) := by
  obtain ⟨front, piece, back, rfl, hrest⟩ := h
  exact ⟨front, piece, back ++ more, by simp, hrest⟩

/-- The marks of the pieces in front are added. -/
theorem behind (h : StandsIn marks part pieces) (hothers : Marked others more) :
    StandsIn (others ++ marks) part (more ++ pieces) := by
  obtain ⟨front, piece, back, rfl, others', inner, rfl, hpart, hothers'⟩ := h
  exact ⟨more ++ front, piece, back, by simp, others ++ others', inner, by simp, hpart,
    hothers.append hothers'⟩

/-- What stands in pieces stands in them with others in front. -/
theorem after (h : StandsIn marks part pieces) (more : List String) :
    StandsIn marks part (more ++ pieces) := by
  have hnone : Marked [] more := fun _ hnone => nomatch hnone
  exact h.behind hnone

/-- What stands in pieces stands in the text that they are joined to. -/
theorem intercalate (h : StandsIn marks part pieces) :
    Stands marks part (sep.intercalate pieces) := by
  obtain ⟨front, piece, back, rfl, others, inner, rfl, hpart, hothers⟩ := h
  exact hpart.intercalate hothers

end StandsIn

end AqlBuilder
