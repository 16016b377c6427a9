import AqlBuilder.Binding.Placeholder
import AqlBuilder.Proofs.Text.Words
import Mathlib.Data.List.TakeWhile
import Mathlib.Data.Set.Insert

/-!
# Names of bound values in texts

The names of bound values are read off texts: a name is cut into its parts, and a statement into the
names that it refers to.
-/

/-!
## The parts of a name

A name can be read back: neither the digits of a number nor the name of a category has an
underscore, so the two underscores of a name cut it into the number of its query, its category and
its ordinal.

- `placeholderName_inj`: different queries, categories or ordinals give different names.
-/

namespace AqlBuilder

/-- What a text is cut into. -/
theorem Text.eq_append_of_cutAt {mark : Char} {text before after : List Char}
    (h : cutAt mark text = some (before, after)) : text = before ++ mark :: after := by
  induction text generalizing before after with
  | nil => cases h
  | cons c rest ih =>
      unfold cutAt at h
      by_cases hc : c = mark
      · rw [if_pos hc] at h
        cases h
        rw [hc, List.nil_append]
      · rw [if_neg hc] at h
        obtain ⟨⟨first, last⟩, hcut, heq⟩ := Option.map_eq_some_iff.mp h
        cases heq
        rw [ih hcut, List.cons_append]

/-- A text is cut at the first mark. -/
theorem Text.cutAt_append {mark : Char} {before : List Char} (h : mark ∉ before)
    (after : List Char) : cutAt mark (before ++ mark :: after) = some (before, after) := by
  induction before with
  | nil => simp [cutAt]
  | cons c rest ih =>
      have hne : c ≠ mark := fun heq => h (by simp [heq])
      have hrest : mark ∉ rest := fun hmem => h (List.mem_cons_of_mem c hmem)
      simp only [List.cons_append, cutAt, hne, if_false, ih hrest, Option.map_some]

theorem toList_toString (n : Nat) : (toString n).toList = Nat.toDigits 10 n := by
  rw [Nat.toString_eq_repr, Nat.toList_repr]

/-- Different numbers are written differently. -/
theorem toString_inj {m n : Nat} (h : (toString m).toList = (toString n).toList) : m = n := by
  rw [toList_toString, toList_toString] at h
  calc
    m = Nat.ofDigitChars 10 (Nat.toDigits 10 m) 0 := Nat.ofDigitChars_ten_toDigits.symm
    _ = Nat.ofDigitChars 10 (Nat.toDigits 10 n) 0 := by rw [h]
    _ = n := Nat.ofDigitChars_ten_toDigits

/-- There is no underscore in a written number. -/
theorem underscore_notMem_toString (n : Nat) : '_' ∉ (toString n).toList := by
  rw [toList_toString]
  exact Nat.underscore_not_in_toDigits

namespace Category

theorem underscore_notMem_name (category : Category) : '_' ∉ category.name.toList := by
  cases category <;> decide

/-- Different categories have different names. -/
theorem name_inj {c d : Category} (h : c.name.toList = d.name.toList) : c = d := by
  revert h
  cases c <;> cases d <;> decide

end Category

/-- The characters of a name: the number, the category and the ordinal, with underscores between
them. -/
theorem toList_placeholderName (query : Nat) (category : Category) (ordinal : Nat) :
    (placeholderName query category ordinal).toList =
      (toString query).toList ++ '_' ::
        (category.name.toList ++ '_' :: (toString ordinal).toList) := by
  simp only [placeholderName, String.toList_append, List.append_assoc]
  rfl

/-- Different queries, categories or ordinals give different names. -/
theorem placeholderName_inj {i j k l : Nat} {c d : Category}
    (h : placeholderName i c k = placeholderName j d l) : i = j ∧ c = d ∧ k = l := by
  have hlist := congrArg (fun name => Text.cutAt '_' name.toList) h
  simp only [toList_placeholderName, Text.cutAt_append (underscore_notMem_toString _),
    Option.some.injEq, Prod.mk.injEq] at hlist
  obtain ⟨hquery, hrest⟩ := hlist
  have hcut := congrArg (Text.cutAt '_') hrest
  rw [Text.cutAt_append c.underscore_notMem_name,
    Text.cutAt_append d.underscore_notMem_name] at hcut
  obtain ⟨hcategory, hordinal⟩ := Prod.mk.inj (Option.some.inj hcut)
  exact ⟨toString_inj hquery, Category.name_inj hcategory, toString_inj hordinal⟩

end AqlBuilder

/-!
## References in a statement

A statement refers to a bound value by `@` and a name, and the name goes on as far as there are
letters, digits and underscores. So a reference may run on into the text behind it, and texts can be
put together piece by piece only if each reference ends before the next piece: all templates of this
library put a blank, a comma or a bracket there.

- `references` lists the names that a text refers to.
- `mentions_iff`: the search for a name finds exactly the references.
- `Unmarked` texts have no reference, and `Covered names` texts none but to the given names.
- `Covered.append`, `Covered.separated` and `covered_intercalate` put covered texts together.
-/

namespace AqlBuilder

/-- The names behind the marks of a text, each as far as it goes on. -/
def referencesIn : List Char → List String
  | [] => []
  | c :: rest =>
    if c = '@' then String.ofList (rest.takeWhile Text.isNameChar) :: referencesIn rest
    else referencesIn rest

/-- The names that a statement refers to. -/
def references (aql : String) : List String := referencesIn aql.toList

/-- Whether a name consists of letters, digits and underscores. -/
def IsName (name : String) : Prop := ∀ c ∈ name.toList, Text.isNameChar c = true

/-- A text without marks. -/
def Unmarked (text : String) : Prop := '@' ∉ text.toList

/-- A text that refers to no names but the given ones. -/
def Covered (names : Set String) (text : String) : Prop := ∀ name ∈ references text, name ∈ names

/-- A text before which a reference ends. -/
def Ends (text : String) : Prop := nameEnds text.toList = true

/-- A text that may stand between any two others. -/
structure Separator (text : String) : Prop where
  unmarked : Unmarked text
  ends : Ends text
  ne_nil : text.toList ≠ []

section search

/-- What is left behind a start is what the text has behind it. -/
theorem Text.dropStart?_eq_some {start text after : List Char} :
    dropStart? start text = some after ↔ text = start ++ after := by
  induction start generalizing text with
  | nil => simp [dropStart?]
  | cons s start ih =>
      cases text with
      | nil => simp [dropStart?]
      | cons c text =>
          unfold dropStart?
          by_cases hsc : s = c
          · rw [if_pos hsc, ih, hsc, List.cons_append, List.cons_inj_right]
          · rw [if_neg hsc]
            simp only [reduceCtorEq, List.cons_append, List.cons.injEq, false_iff, not_and]
            intro hcs
            exact absurd hcs.symm hsc

/-- Where a name ends, no character of a name follows. -/
theorem takeWhile_of_nameEnds {t : List Char} (h : nameEnds t = true) :
    t.takeWhile Text.isNameChar = [] := by
  cases t with
  | nil => rfl
  | cons c rest =>
      have hc : Text.isNameChar c = false := by simpa [nameEnds] using h
      rw [List.takeWhile_cons, hc]
      rfl

/-- Where no character of a name follows, a name ends. -/
theorem nameEnds_of_takeWhile {t : List Char} (h : t.takeWhile Text.isNameChar = []) :
    nameEnds t = true := by
  cases t with
  | nil => rfl
  | cons c rest =>
      rw [List.takeWhile_cons] at h
      by_cases hc : Text.isNameChar c = true
      · rw [if_pos hc] at h
        cases h
      · simp [nameEnds, hc]

/-- A text in front of which every reference ends adds its own references. -/
theorem referencesIn_append {s t : List Char} (h : nameEnds t = true) :
    referencesIn (s ++ t) = referencesIn s ++ referencesIn t := by
  induction s with
  | nil => rfl
  | cons c rest ih =>
      have htake : (rest ++ t).takeWhile Text.isNameChar = rest.takeWhile Text.isNameChar := by
        rw [List.takeWhile_append, takeWhile_of_nameEnds h, List.append_nil]
        split
        · rename_i hall
          exact ((List.takeWhile_prefix _).eq_of_length hall).symm
        · rfl
      rw [List.cons_append, referencesIn, referencesIn, htake, ih]
      split <;> rfl

/-- A text without marks in front of another one adds no reference. -/
theorem referencesIn_of_unmarked {s t : List Char} (h : '@' ∉ s) :
    referencesIn (s ++ t) = referencesIn t := by
  induction s with
  | nil => rfl
  | cons c rest ih =>
      rw [List.mem_cons, not_or] at h
      rw [List.cons_append, referencesIn, if_neg (Ne.symm h.1), ih h.2]

/-- A text in front of another one takes no reference away from it. -/
theorem mem_referencesIn_append {s t : List Char} {name : String} (h : name ∈ referencesIn t) :
    name ∈ referencesIn (s ++ t) := by
  induction s with
  | nil => exact h
  | cons c rest ih =>
      rw [List.cons_append, referencesIn]
      split
      · exact List.mem_cons_of_mem _ ih
      · exact ih

/-- There is no mark in a name. -/
theorem mark_notMem_of_isName {name : List Char} (h : ∀ c ∈ name, Text.isNameChar c = true) :
    '@' ∉ name := by
  intro hmem
  have hmark := h '@' hmem
  revert hmark
  decide

/-- A name in front of a text is the name that begins there just if the text ends it. -/
theorem takeWhile_name_append {name after : List Char}
    (h : ∀ c ∈ name, Text.isNameChar c = true) :
    (name ++ after).takeWhile Text.isNameChar = name ++ after.takeWhile Text.isNameChar :=
  List.takeWhile_append_of_pos h

/-- A name behind a mark is referred to if the text behind it ends it. -/
theorem mem_referencesIn_of_ends {before after : List Char} {name : String}
    (hname : ∀ c ∈ name.toList, Text.isNameChar c = true) (h : nameEnds after = true) :
    name ∈ referencesIn (before ++ '@' :: name.toList ++ after) := by
  rw [List.append_assoc]
  refine mem_referencesIn_append ?_
  rw [List.cons_append, referencesIn, if_pos rfl, takeWhile_name_append hname,
    takeWhile_of_nameEnds h, List.append_nil, String.ofList_toList]
  exact List.mem_cons_self

/-- The search for a name finds its references, beyond the characters that are still to be
passed. -/
theorem occursAsName_iff {name : List Char} (h : ∀ c ∈ name, Text.isNameChar c = true) :
    ∀ (text : List Char) (skip : Nat), occursAsName ('@' :: name) skip text = true ↔
      String.ofList name ∈ referencesIn (text.drop skip) := by
  intro text
  induction text with
  | nil =>
      intro skip
      simp [occursAsName, referencesIn]
  | cons c rest ih =>
      intro skip
      cases skip with
      | succ skip => exact ih skip
      | zero =>
          rw [List.drop_zero, referencesIn]
          by_cases hc : c = '@'
          · subst hc
            rw [if_pos rfl, List.mem_cons]
            cases hstart : Text.dropStart? name rest with
            | some after =>
                have hrest := Text.dropStart?_eq_some.mp hstart
                have htake : rest.takeWhile Text.isNameChar =
                    name ++ after.takeWhile Text.isNameChar := by
                  rw [hrest]
                  exact takeWhile_name_append h
                have hothers : referencesIn rest = referencesIn (rest.drop name.length) := by
                  rw [hrest, referencesIn_of_unmarked (mark_notMem_of_isName h),
                    List.drop_left]
                simp only [occursAsName, Text.dropStart?, if_true, hstart, Bool.or_eq_true,
                  List.length_cons, Nat.add_sub_cancel, ih, hothers, htake]
                refine or_congr_left ?_
                rw [String.ofList_inj]
                constructor
                · intro hends
                  rw [takeWhile_of_nameEnds hends, List.append_nil]
                · intro hname
                  exact nameEnds_of_takeWhile (List.self_eq_append_right.mp hname)
            | none =>
                have hne : String.ofList name ≠ String.ofList (rest.takeWhile Text.isNameChar) := by
                  intro heq
                  rw [String.ofList_inj] at heq
                  have hsplit : rest = name ++ rest.dropWhile Text.isNameChar := by
                    rw [heq]
                    exact List.takeWhile_append_dropWhile.symm
                  rw [Text.dropStart?_eq_some.mpr hsplit] at hstart
                  cases hstart
                simp only [occursAsName, Text.dropStart?, if_true, hstart, ih, List.drop_zero, hne,
                  false_or]
          · simp only [occursAsName, Text.dropStart?, if_neg (Ne.symm hc), if_neg hc, ih,
              List.drop_zero]

/-- A statement mentions a name just if it refers to it. -/
theorem mentions_iff {aql name : String} (h : IsName name) :
    mentions aql name = true ↔ name ∈ references aql := by
  rw [mentions, occursAsName_iff h, String.ofList_toList, List.drop_zero]
  rfl

end search

section texts

variable {names names' : Set String} {s t u : String}

instance (text : String) : Decidable (Unmarked text) := inferInstanceAs (Decidable (¬ _))

instance (text : String) : Decidable (Ends text) := inferInstanceAs (Decidable (_ = _))

instance (text : String) : Decidable (Separator text) :=
  decidable_of_iff (Unmarked text ∧ Ends text ∧ text.toList ≠ [])
    ⟨fun h => ⟨h.1, h.2.1, h.2.2⟩, fun h => ⟨h.unmarked, h.ends, h.ne_nil⟩⟩

theorem unmarked_append : Unmarked (s ++ t) ↔ Unmarked s ∧ Unmarked t := by
  simp only [Unmarked, String.toList_append, List.mem_append, not_or]

theorem unmarked_ofList {text : List Char} : Unmarked (String.ofList text) ↔ '@' ∉ text := by
  rw [Unmarked, String.toList_ofList]

theorem Unmarked.append (hs : Unmarked s) (ht : Unmarked t) : Unmarked (s ++ t) :=
  unmarked_append.mpr ⟨hs, ht⟩

theorem Covered.mono (h : Covered names t) (hsub : names ⊆ names') : Covered names' t :=
  fun name hname => hsub (h name hname)

/-- A text without marks refers to nothing. -/
theorem Unmarked.covered (h : Unmarked t) : Covered names t := by
  intro name hname
  have hnone := referencesIn_of_unmarked (t := []) h
  rw [List.append_nil] at hnone
  rw [references, hnone] at hname
  cases hname

/-- A text without marks in front of another one brings in no reference. -/
theorem Unmarked.covered_append (hs : Unmarked s) (ht : Covered names t) :
    Covered names (s ++ t) := by
  intro name hname
  rw [references, String.toList_append, referencesIn_of_unmarked hs] at hname
  exact ht name hname

/-- Covered texts may be put together if the second one ends the references of the first. -/
theorem Covered.append (hs : Covered names s) (ht : Covered names t) (hends : Ends t) :
    Covered names (s ++ t) := by
  intro name hname
  rw [references, String.toList_append, referencesIn_append hends, List.mem_append] at hname
  rcases hname with hname | hname
  · exact hs name hname
  · exact ht name hname

/-- A text without marks behind another one brings in no reference if the last one ends there. -/
theorem Covered.closed (hs : Covered names s) {close : String} (h : Unmarked close)
    (hends : Ends close) : Covered names (s ++ close) :=
  hs.append h.covered hends

/-- A reference ends in front of a separator, whatever follows. -/
theorem Separator.ends_append {sep : String} (h : Separator sep) (t : String) :
    Ends (sep ++ t) := by
  have hends := h.ends
  have hne := h.ne_nil
  unfold Ends at hends ⊢
  rw [String.toList_append]
  cases hsep : sep.toList with
  | nil => exact absurd hsep hne
  | cons c rest =>
      rw [hsep] at hends
      exact hends

/-- Covered texts may be put together with a separator between them. -/
theorem Covered.separated (hs : Covered names s) (sep : String) (h : Separator sep)
    (ht : Covered names t) : Covered names (s ++ sep ++ t) := by
  rw [String.append_assoc]
  exact hs.append (h.unmarked.covered_append ht) (h.ends_append t)

/-- A reference to a name is covered if the name is given. -/
theorem covered_reference {name : String} (h : IsName name) (hname : name ∈ names) :
    Covered names ("@" ++ name) := by
  intro other hother
  have hall : name.toList.takeWhile Text.isNameChar = name.toList :=
    List.takeWhile_eq_self_iff.mpr h
  have hrest := referencesIn_of_unmarked (t := []) (mark_notMem_of_isName h)
  rw [List.append_nil] at hrest
  have hlist : references ("@" ++ name) = [name] := by
    rw [references, String.toList_append]
    change referencesIn ('@' :: name.toList) = _
    rw [referencesIn, if_pos rfl, hall, hrest, String.ofList_toList]
    rfl
  rw [hlist, List.mem_singleton] at hother
  rw [hother]
  exact hname

/-- A name behind a mark at the end of a text is referred to. -/
theorem mem_references_of_last {front name : String} (hname : IsName name) :
    name ∈ references (front ++ "@" ++ name) := by
  have htext : (front ++ "@" ++ name).toList = front.toList ++ '@' :: name.toList ++ [] := by simp
  rw [references, htext]
  exact mem_referencesIn_of_ends hname rfl

/-- The references of a text stay if the text behind it ends them. -/
theorem mem_references_between (front : String) {text back name : String}
    (h : name ∈ references text) (hends : Ends back) :
    name ∈ references (front ++ text ++ back) := by
  rw [references, String.toList_append, referencesIn_append hends, List.mem_append]
  rw [String.toList_append]
  exact Or.inl (mem_referencesIn_append h)

/-- Covered texts may be listed with a separator between them. -/
theorem covered_intercalate {sep : String} (hsep : Separator sep) {texts : List String}
    (h : ∀ text ∈ texts, Covered names text) : Covered names (sep.intercalate texts) := by
  induction texts with
  | nil =>
      rw [String.intercalate_nil]
      exact Unmarked.covered (by decide)
  | cons first rest ih =>
      have hfirst := h first List.mem_cons_self
      have hrest := ih fun text htext => h text (List.mem_cons_of_mem first htext)
      cases rest with
      | nil =>
          rw [String.intercalate_singleton]
          exact hfirst
      | cons second rest =>
          rw [String.intercalate_cons_cons]
          exact hfirst.separated sep hsep hrest

/-- A list of texts refers to the names that one of them refers to. -/
theorem mem_references_intercalate {sep : String} (hsep : Separator sep) {texts : List String}
    {text name : String} (htext : text ∈ texts) (hname : name ∈ references text) :
    name ∈ references (sep.intercalate texts) := by
  induction texts with
  | nil => cases htext
  | cons first rest ih =>
      cases rest with
      | nil =>
          rw [String.intercalate_singleton, ← List.mem_singleton.mp htext]
          exact hname
      | cons second rest =>
          rw [String.intercalate_cons_cons, String.append_assoc, references, String.toList_append,
            referencesIn_append (hsep.ends_append _), List.mem_append]
          rcases List.mem_cons.mp htext with rfl | htext
          · exact Or.inl hname
          · right
            rw [String.toList_append]
            exact mem_referencesIn_append (ih htext)

/-- Texts without marks have none with a separator between them that has none. -/
theorem unmarked_intercalate {sep : String} (hsep : Unmarked sep) {texts : List String}
    (h : ∀ text ∈ texts, Unmarked text) : Unmarked (sep.intercalate texts) := by
  induction texts with
  | nil =>
      rw [String.intercalate_nil]
      decide
  | cons first rest ih =>
      have hfirst := h first List.mem_cons_self
      have hrest := ih fun text htext => h text (List.mem_cons_of_mem first htext)
      cases rest with
      | nil =>
          rw [String.intercalate_singleton]
          exact hfirst
      | cons second rest =>
          rw [String.intercalate_cons_cons]
          exact (hfirst.append hsep).append hrest

end texts

section names

/-- A written number consists of digits. -/
theorem isAsciiDigit_of_mem_toString {n : Nat} {c : Char} (h : c ∈ (toString n).toList) :
    Text.isAsciiDigit c = true := by
  rw [toList_toString] at h
  have hdigit : c.isDigit = true := Nat.isDigit_of_mem_toDigits (by decide) (by decide) h
  exact hdigit

/-- A written number consists of characters of names. -/
theorem isNameChar_of_mem_toString {n : Nat} {c : Char} (h : c ∈ (toString n).toList) :
    Text.isNameChar c = true := by
  rw [Text.isNameChar, isAsciiDigit_of_mem_toString h, Bool.or_true, Bool.true_or]

theorem solid_toString (n : Nat) : Text.Solid (toString n).toList :=
  fun _ hc => Text.isBlank_of_isNameChar (isNameChar_of_mem_toString hc)

theorem IsName.solid {name : String} (h : IsName name) : Text.Solid name.toList :=
  fun c hc => Text.isBlank_of_isNameChar (h c hc)

theorem unmarked_toString (n : Nat) : Unmarked (toString n) :=
  mark_notMem_of_isName fun _ => isNameChar_of_mem_toString

/-- What a category is called is a name. -/
theorem Category.isName_name (category : Category) : IsName category.name := by
  unfold IsName
  cases category <;> decide

/-- The names of this library are names. -/
theorem isName_placeholderName (query : Nat) (category : Category) (ordinal : Nat) :
    IsName (placeholderName query category ordinal) := by
  intro c hc
  rw [toList_placeholderName, List.mem_append, List.mem_cons, List.mem_append, List.mem_cons] at hc
  rcases hc with hc | rfl | hc | rfl | hc
  · exact isNameChar_of_mem_toString hc
  · decide
  · exact category.isName_name c hc
  · decide
  · exact isNameChar_of_mem_toString hc

end names

end AqlBuilder
