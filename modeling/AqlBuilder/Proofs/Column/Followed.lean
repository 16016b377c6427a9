import AqlBuilder.Proofs.Column.Trail
import Mathlib.Logic.Relation

/-!
# When the resolution of a column ends

A name in the projection stands for a column that is resolved in its place, and this column may be a
name in the projection again. Nothing bounds this recursion by itself: names that stand for each
other are followed for ever. It ends if no name comes twice, and then the table of names bounds it,
since each name that is followed has an entry of its own.

- `Scope.Evaluates` is the recursion without any bound, with the number of its calls.
- `Scope.Revisits`: following the names leads back to a name that was met before.
- `Scope.Met` counts the names that were met.
- `Scope.evaluates_unless_revisits`: the recursion ends just if no name comes twice, after at most
  one call for each entry of the table and one more.
-/

namespace AqlBuilder.Scope

/-- The resolution of a column by as many calls as it takes: a reference is written as its
expression, a name in the projection as the column behind it, and any other path directly. -/
inductive Evaluates (sc : Scope) : String → Nat → String → Prop
  | reference {column text : String}
      (h : sc.aliases.expressionOf? (Column.name column) = some text) : Evaluates sc column 1 text
  | follow {column further text : String} {calls : Nat}
      (hreference : sc.aliases.expressionOf? (Column.name column) = none)
      (hdot : '.' ∉ Column.normalForm column.toList)
      (hnext : sc.aliases.columnFor? (Column.name column) = some further)
      (hother : further ≠ Column.name column)
      (h : Evaluates sc further calls text) : Evaluates sc column (calls + 1) text
  | direct {column : String}
      (hreference : sc.aliases.expressionOf? (Column.name column) = none)
      (hends : '.' ∈ Column.normalForm column.toList ∨
        ∀ further ∈ sc.aliases.columnFor? (Column.name column), further = Column.name column) :
      Evaluates sc column 1 (sc.resolveDirect (Column.normalForm column.toList))

/-- One step from a name in the projection to the column behind it. -/
def Follows (sc : Scope) (column further : String) : Prop := sc.further? column = some further

/-- Some name that is met on the way from a column is met again behind it. -/
def Revisits (sc : Scope) (column : String) : Prop :=
  ∃ first again, Relation.ReflTransGen sc.Follows column first ∧
    Relation.TransGen sc.Follows first again ∧ Column.name again = Column.name first

variable {sc : Scope} {column further : String} {names : List String} {path : List Char}

/-- A column leads further if its name is no reference, has no dot and stands for another column. -/
theorem further?_eq_some_iff :
    sc.further? column = some further ↔
      sc.aliases.expressionOf? (Column.name column) = none ∧
        '.' ∉ Column.normalForm column.toList ∧
        sc.aliases.columnFor? (Column.name column) = some further ∧
        further ≠ Column.name column := by
  unfold further?
  cases sc.aliases.expressionOf? (Column.name column) <;>
    simp [Option.filter_eq_some_iff]

/-- A column leads no further if it is a reference, has a dot or stands for nothing but itself. -/
theorem further?_eq_none_iff :
    sc.further? column = none ↔
      (∃ text, sc.aliases.expressionOf? (Column.name column) = some text) ∨
        '.' ∈ Column.normalForm column.toList ∨
        ∀ further ∈ sc.aliases.columnFor? (Column.name column), further = Column.name column := by
  unfold further?
  cases sc.aliases.expressionOf? (Column.name column) <;>
    simp [Option.filter_eq_none_iff, or_iff_not_imp_left]

/-- A path that is a reference is written as its expression. -/
theorem originAt_of_expressionOf? {text : String}
    (h : sc.aliases.expressionOf? (String.ofList path) = some text) :
    (sc.originAt path).text = text := by
  unfold originAt
  rw [h]
  rfl

/-- The names of a trail are followed one call after another, and the path at their end is
written. -/
theorem Trail.evaluates (h : sc.Trail column names path) :
    sc.Evaluates column (names.length + 1) (sc.originAt path).text := by
  induction h with
  | @stop column hstop =>
      cases href : sc.aliases.expressionOf? (Column.name column) with
      | some text =>
          rw [originAt_of_expressionOf? href]
          exact .reference href
      | none =>
          rw [← sc.stop_eq_origin _ href]
          refine .direct href ((further?_eq_none_iff.mp hstop).resolve_left ?_)
          rw [href]
          simp
  | step hstep _ ih =>
      obtain ⟨href, hdot, hnext, hother⟩ := further?_eq_some_iff.mp hstep
      exact .follow href hdot hnext hother ih

/-- A recursion that ends has gone along a trail. -/
theorem Evaluates.exists_trail {calls : Nat} {text : String} (h : sc.Evaluates column calls text) :
    ∃ names path, sc.Trail column names path ∧ calls = names.length + 1 ∧
      text = (sc.originAt path).text := by
  induction h with
  | reference href =>
      exact ⟨[], _, .stop (further?_eq_none_iff.mpr (.inl ⟨_, href⟩)), rfl,
        (originAt_of_expressionOf? href).symm⟩
  | follow href hdot hnext hother _ ih =>
      obtain ⟨names, path, htrail, hcalls, htext⟩ := ih
      exact ⟨_, path, .step (further?_eq_some_iff.mpr ⟨href, hdot, hnext, hother⟩) htrail,
        congrArg Nat.succ hcalls, htext⟩
  | direct href hends =>
      exact ⟨[], _, .stop (further?_eq_none_iff.mpr (.inr hends)), rfl, sc.stop_eq_origin _ href⟩

/-- The trail of a column that is followed is the rest behind the first name, -/
theorem Trail.exists_tail (h : sc.Trail column names path) (hnext : sc.Follows column further) :
    ∃ rest, sc.Trail further rest path ∧ rest.length < names.length := by
  cases h with
  | stop hstop => exact absurd (hstop.symm.trans hnext) nofun
  | step hstep hrest =>
      obtain rfl := Option.some.inj (hstep.symm.trans hnext)
      exact ⟨_, hrest, Nat.lt_succ_self _⟩

/-- and the trail of any column further on is shorter. -/
theorem Trail.exists_shorter (h : sc.Trail column names path)
    (hahead : Relation.TransGen sc.Follows column further) :
    ∃ rest, sc.Trail further rest path ∧ rest.length < names.length := by
  induction hahead with
  | single hnext => exact h.exists_tail hnext
  | tail _ hnext ih =>
      obtain ⟨middle, hmiddle, hlt⟩ := ih
      obtain ⟨rest, hrest, hlt'⟩ := hmiddle.exists_tail hnext
      exact ⟨rest, hrest, hlt'.trans hlt⟩

/-- A column with a trail leads to no name twice, since the trail behind it would be shorter than
itself. -/
theorem Trail.not_revisits (h : sc.Trail column names path) : ¬ sc.Revisits column := by
  rintro ⟨first, again, hfirst, hagain, hname⟩
  obtain ⟨middle, hmiddle⟩ : ∃ middle, sc.Trail first middle path := by
    rcases Relation.reflTransGen_iff_eq_or_transGen.mp hfirst with rfl | hahead
    · exact ⟨names, h⟩
    · obtain ⟨middle, hmiddle, -⟩ := h.exists_shorter hahead
      exact ⟨middle, hmiddle⟩
  obtain ⟨rest, hrest, hlt⟩ := hmiddle.exists_shorter hagain
  rw [hmiddle.unique hrest hname.symm] at hlt
  exact Nat.lt_irrefl _ hlt

/-- The names that were met on the way from a column to one that is reached: all different, each the
alias of an entry, and each of them the name of a column further back. -/
structure Met (sc : Scope) (column reached : String) (seen : List String) : Prop where
  path : Relation.ReflTransGen sc.Follows column reached
  nodup : seen.Nodup
  listed : seen ⊆ sc.aliases.columns.map Prod.snd
  behind : ∀ name ∈ seen, ∃ first, Relation.ReflTransGen sc.Follows column first ∧
    Relation.TransGen sc.Follows first reached ∧ Column.name first = name

namespace Met

variable {reached : String} {seen : List String}

theorem start (sc : Scope) (column : String) : sc.Met column column [] :=
  ⟨.refl, List.nodup_nil, List.nil_subset _, nofun⟩

/-- Each name that was met uses up an entry of the table. -/
theorem length_le (h : sc.Met column reached seen) : seen.length ≤ sc.aliases.columns.length := by
  have hle := (h.nodup.subperm h.listed).length_le
  rwa [List.length_map] at hle

/-- A name that was seen before is met again. -/
theorem revisits (h : sc.Met column reached seen) (hmem : Column.name reached ∈ seen) :
    sc.Revisits column := by
  obtain ⟨first, hfirst, hagain, hname⟩ := h.behind _ hmem
  exact ⟨first, reached, hfirst, hagain, hname.symm⟩

/-- One more name is met, unless it was met before. -/
theorem step (h : sc.Met column reached seen) (hnext : sc.Follows reached further)
    (hnew : Column.name reached ∉ seen) :
    sc.Met column further (Column.name reached :: seen) := by
  refine ⟨h.path.tail hnext, List.nodup_cons.mpr ⟨hnew, h.nodup⟩,
    List.cons_subset.mpr ⟨List.mem_map.mpr ⟨_, mem_of_further? hnext, rfl⟩, h.listed⟩, ?_⟩
  intro name hname
  rcases List.mem_cons.mp hname with rfl | hname
  · exact ⟨reached, h.path, .single hnext, rfl⟩
  · obtain ⟨first, hfirst, hagain, hname⟩ := h.behind name hname
    exact ⟨first, hfirst, hagain.tail hnext, hname⟩

/-- The induction is on the number of entries that are not used up. -/
theorem trail_or_revisits {left : Nat} (h : sc.Met column reached seen)
    (hleft : sc.aliases.columns.length < seen.length + left) :
    (∃ names path, sc.Trail reached names path) ∨ sc.Revisits column := by
  induction left generalizing reached seen with
  | zero => exact absurd h.length_le (Nat.not_le_of_lt hleft)
  | succ left ih =>
      cases hnext : sc.further? reached with
      | none => exact .inl ⟨_, _, .stop hnext⟩
      | some further =>
          by_cases hmem : Column.name reached ∈ seen
          · exact .inr (h.revisits hmem)
          · have hless : sc.aliases.columns.length <
                (Column.name reached :: seen).length + left := by
              rw [List.length_cons]
              omega
            refine (ih (h.step hnext hmem) hless).imp_left ?_
            rintro ⟨names, path, htrail⟩
            exact ⟨_, path, .step hnext htrail⟩

end Met

/-- A column has a trail, unless it leads to a name twice. -/
theorem exists_trail_iff :
    (∃ names path, sc.Trail column names path) ↔ ¬ sc.Revisits column := by
  constructor
  · rintro ⟨names, path, htrail⟩
    exact htrail.not_revisits
  · have hleft : sc.aliases.columns.length <
        ([] : List String).length + (sc.aliases.columns.length + 1) := by
      rw [List.length_nil, Nat.zero_add]
      exact Nat.lt_succ_self _
    exact ((Met.start sc column).trail_or_revisits hleft).resolve_right

/-- **The resolution of a column ends unless it comes back to a name.** For every column of every
query: the recursion through the names in the projection ends just if following them meets no name a
second time; and when it ends, it has made at most as many calls as the projection has names, plus
one, and gives the text that the column is written as. -/
theorem evaluates_unless_revisits (sc : Scope) (column : String) :
    ((∃ calls text, sc.Evaluates column calls text) ↔ ¬ sc.Revisits column) ∧
    ∀ calls text, sc.Evaluates column calls text →
      calls ≤ sc.aliases.columns.length + 1 ∧ text = sc.resolve column := by
  refine ⟨⟨?_, ?_⟩, ?_⟩
  · rintro ⟨calls, text, h⟩
    obtain ⟨names, path, htrail, -⟩ := h.exists_trail
    exact htrail.not_revisits
  · intro h
    obtain ⟨names, path, htrail⟩ := exists_trail_iff.mpr h
    exact ⟨_, _, htrail.evaluates⟩
  · intro calls text h
    obtain ⟨names, path, htrail, rfl, rfl⟩ := h.exists_trail
    exact ⟨Nat.succ_le_succ htrail.length_le, htrail.resolve_eq.symm⟩

/-- Two names that stand for each other are followed for ever; a chain of two names takes three
calls. -/
theorem swapped_names_evaluate_never :
    (¬ ∃ calls text, Evaluates ⟨⟨[], [("a", "b"), ("b", "a")], []⟩, some "doc"⟩ "a" calls text) ∧
      Evaluates ⟨⟨[], [("a", "b"), ("name", "a")], []⟩, some "doc"⟩ "b" 3 "doc.`name`" ∧
      resolve ⟨⟨[], [("a", "b"), ("name", "a")], []⟩, some "doc"⟩ "b" = "doc.`name`" := by
  constructor
  · have hstep :
      further? ⟨⟨[], [("a", "b"), ("b", "a")], []⟩, some "doc"⟩ "a" = some "b" := by decide
    have hback :
      further? ⟨⟨[], [("a", "b"), ("b", "a")], []⟩, some "doc"⟩ "b" = some "a" := by decide
    exact (evaluates_unless_revisits _ "a").1.not_left.mpr
      ⟨"a", "a", .refl, .tail (.single hstep) hback, rfl⟩
  · have hlast : Evaluates ⟨⟨[], [("a", "b"), ("name", "a")], []⟩, some "doc"⟩ "name" 1
        (resolveDirect ⟨⟨[], [("a", "b"), ("name", "a")], []⟩, some "doc"⟩
          (Column.normalForm "name".toList)) := .direct (by decide) (.inr (by decide))
    have hsecond : Evaluates _ "a" 2 _ :=
      hlast.follow (by decide) (by decide) (by decide) (by decide)
    have hchain : Evaluates _ "b" 3 _ :=
      hsecond.follow (by decide) (by decide) (by decide) (by decide)
    have htext := ((evaluates_unless_revisits _ "b").2 _ _ hchain).2
    have hname : resolveDirect ⟨⟨[], [("a", "b"), ("name", "a")], []⟩, some "doc"⟩
        (Column.normalForm "name".toList) = "doc.`name`" := by
      decide +kernel
    rw [hname] at hchain htext
    exact ⟨hchain, htext.symm⟩

end AqlBuilder.Scope
