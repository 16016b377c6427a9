import AqlBuilder.Column.Resolve
import AqlBuilder.Proofs.Text.Pieces
import Mathlib.Data.List.TakeWhile
import Mathlib.Tactic.SplitIfs

/-!
# Reading what stands between backticks

Between backticks a backslash makes the next character literal, and the next backtick that is not
literal is the end. A name is written with a backslash in front of each backtick, and backslashes of
its own are written as they are. So the first backslash of a name is lost to the reader, and from
then on the reader is ahead of the name: what it reads cannot be the name any more.

- `Aql.unticked` reads up to the end, and `Aql.readTicked` a whole name between backticks.
- `Aql.unticked_escapeTicks`: what is read of a name that has been written.
- `Aql.Reads`: what is read of a name whose backslashes do no more than get lost.
- `Aql.exists_reads`: any other name has a first backslash in front of a backtick or at its end.
- `Column.readTicked_attribute_iff`: which attributes are read back as they are.
- `quoted_names_read_back`: what comes of the names of attributes and collections.
-/

namespace AqlBuilder

namespace Aql

/-- What stands in front of the closing backtick, and what behind it. -/
def unticked : List Char → Option (List Char × List Char)
  | [] => none
  | '\x60' :: rest => some ([], rest)
  | '\\' :: c :: rest => (unticked rest).map (Prod.map (c :: ·) id)
  | c :: rest => (unticked rest).map (Prod.map (c :: ·) id)

/-- A name between backticks, and what stands behind it. -/
def readTicked : List Char → Option (List Char × List Char)
  | '\x60' :: rest => unticked rest
  | _ => none

variable {name read rest behind more : List Char} {c : Char}

/-- A character that is neither a backtick nor a backslash is read as it is. -/
theorem unticked_plain (htick : c ≠ '\x60') (hslash : c ≠ '\\') (rest : List Char) :
    unticked (c :: rest) = (unticked rest).map (Prod.map (c :: ·) id) := by
  rw [unticked.eq_4 c rest htick fun _ _ h => absurd h hslash]

/-- The character behind a backslash is read as it is, whatever it is. -/
theorem unticked_literal (c : Char) (rest : List Char) :
    unticked ('\\' :: c :: rest) = (unticked rest).map (Prod.map (c :: ·) id) := by
  rw [unticked]

theorem escapeTicks_cons (c : Char) (name : List Char) :
    escapeTicks (c :: name) = (if c = '\x60' then ['\\', '\x60'] else [c]) ++ escapeTicks name :=
  List.flatMap_cons

/-- What is read of a name none of whose backslashes makes more literal than a character of the
name. -/
inductive Reads : List Char → List Char → Prop
  | nil : Reads [] []
  | plain {c : Char} {name read : List Char} (hc : c ≠ '\\') (h : Reads name read) :
      Reads (c :: name) (c :: read)
  | literal {c : Char} {name read : List Char} (hc : c ≠ '\x60') (h : Reads name read) :
      Reads ('\\' :: c :: name) (c :: read)

/-- Such a name is read as a whole, whatever follows. -/
theorem unticked_append (h : Reads name read) (tail : List Char) :
    unticked (escapeTicks name ++ tail) = (unticked tail).map (Prod.map (read ++ ·) id) := by
  induction h with
  | nil =>
      have hid : (Prod.map ([] ++ ·) id : List Char × List Char → List Char × List Char) = id := rfl
      rw [hid, Option.map_id_apply]
      rfl
  | @plain c name read hc h ih =>
      rw [escapeTicks_cons]
      split_ifs with htick
      · subst htick
        rw [List.append_assoc, List.cons_append, List.singleton_append, unticked_literal, ih,
          Option.map_map]
        rfl
      · rw [List.append_assoc, List.singleton_append, unticked_plain htick hc, ih, Option.map_map]
        rfl
  | @literal c name read hc h ih =>
      have hwritten : escapeTicks ('\\' :: c :: name) = '\\' :: c :: escapeTicks name := by
        rw [escapeTicks_cons, if_neg (by decide), escapeTicks_cons, if_neg hc]
        rfl
      rw [hwritten, List.cons_append, List.cons_append, unticked_literal, ih, Option.map_map]
      rfl

/-- It is closed by its own backtick. -/
theorem unticked_of_reads (h : Reads name read) (rest : List Char) :
    unticked (escapeTicks name ++ '\x60' :: rest) = some (read, rest) := by
  rw [unticked_append h, unticked, Option.map_some, Prod.map_apply, List.append_nil, id]

/-- A name without backslashes is read as it is. -/
theorem reads_self (h : '\\' ∉ name) : Reads name name := by
  induction name with
  | nil => exact .nil
  | cons c name ih =>
      obtain ⟨hc, hname⟩ : '\\' ≠ c ∧ '\\' ∉ name := by simpa using h
      exact .plain hc.symm (ih hname)

/-- What is read behind a first character. -/
theorem map_cons_eq_some {result : Option (List Char × List Char)} {d : Char} :
    result.map (Prod.map (c :: ·) id) = some (d :: read, behind) ↔
      c = d ∧ result = some (read, behind) := by
  cases result <;> simp [Prod.ext_iff, and_assoc]

theorem replicate_append_cons (k : Nat) (more : List Char) :
    List.replicate k '\\' ++ '\\' :: more = List.replicate (k + 1) '\\' ++ more := by
  rw [List.replicate_succ', List.append_assoc, List.singleton_append]

/-- A reader that has lost a backslash does not catch up with the name, be it between two characters
of the text or behind a backslash. -/
theorem unticked_ahead (name : List Char) : ∀ k,
    unticked (escapeTicks name ++ '\x60' :: rest) ≠
        some (List.replicate (k + 1) '\\' ++ (name ++ more), behind) ∧
      unticked ('\\' :: (escapeTicks name ++ '\x60' :: rest)) ≠
        some (List.replicate (k + 1) '\\' ++ (name ++ more), behind) := by
  induction name with
  | nil =>
      refine fun k => ⟨fun h => ?_, fun h => ?_⟩
      · cases h
      · rw [escapeTicks, List.flatMap_nil, List.nil_append, unticked_literal] at h
        exact absurd (map_cons_eq_some.mp h).1 (by decide)
  | cons c name ih =>
      intro k
      rw [escapeTicks_cons]
      by_cases htick : c = '\x60'
      · subst htick
        rw [if_pos rfl, List.append_assoc, List.cons_append, List.singleton_append]
        refine ⟨fun h => ?_, fun h => ?_⟩
        · rw [unticked_literal] at h
          exact absurd (map_cons_eq_some.mp h).1 (by decide)
        · -- the backslash of the name takes the one that is put in front of the backtick
          rw [unticked_literal] at h
          have hread := congrArg (Option.map Prod.fst) (map_cons_eq_some.mp h).2
          have hempty : [] = List.replicate k '\\' ++ ('\x60' :: name ++ more) :=
            Option.some.inj hread
          exact absurd hempty.symm (by simp)
      rw [if_neg htick, List.append_assoc, List.singleton_append]
      by_cases hslash : c = '\\'
      · subst hslash
        refine ⟨fun h => ?_, fun h => ?_⟩
        · rw [List.cons_append, replicate_append_cons] at h
          exact (ih (k + 1)).2 h
        · rw [unticked_literal] at h
          have hread : unticked (escapeTicks name ++ '\x60' :: rest) =
              some (List.replicate k '\\' ++ '\\' :: (name ++ more), behind) :=
            (map_cons_eq_some.mp h).2
          rw [replicate_append_cons] at hread
          exact (ih k).1 hread
      · refine ⟨fun h => ?_, fun h => ?_⟩
        · rw [unticked_plain htick hslash] at h
          exact hslash (map_cons_eq_some.mp h).1
        · rw [unticked_literal] at h
          exact hslash (map_cons_eq_some.mp h).1

/-- **What is read of a name that has been written**: the name, and nothing more, just if there is
no backslash in it. -/
theorem unticked_escapeTicks :
    unticked (escapeTicks name ++ '\x60' :: rest) = some (name ++ more, behind) ↔
      '\\' ∉ name ∧ more = [] ∧ behind = rest := by
  constructor
  · intro h
    induction name with
    | nil =>
        obtain ⟨hmore, hrest⟩ := Prod.mk.inj (Option.some.inj h)
        exact ⟨List.not_mem_nil, hmore.symm, hrest.symm⟩
    | cons c name ih =>
        rw [escapeTicks_cons] at h
        by_cases htick : c = '\x60'
        · subst htick
          rw [if_pos rfl, List.append_assoc, List.cons_append, List.singleton_append,
            unticked_literal] at h
          obtain ⟨hname, hends⟩ := ih (map_cons_eq_some.mp h).2
          exact ⟨by simpa using hname, hends⟩
        rw [if_neg htick, List.append_assoc, List.singleton_append] at h
        by_cases hslash : c = '\\'
        · subst hslash
          exact absurd h (unticked_ahead name 0).2
        · rw [unticked_plain htick hslash] at h
          obtain ⟨hname, hends⟩ := ih (map_cons_eq_some.mp h).2
          exact ⟨by simpa [Ne.symm hslash] using hname, hends⟩
  · rintro ⟨hname, rfl, rfl⟩
    rw [List.append_nil]
    exact unticked_of_reads (reads_self hname) behind

/-- A name is read back just if there is no backslash in it. -/
theorem unticked_self_iff :
    unticked (escapeTicks name ++ '\x60' :: rest) = some (name, rest) ↔ '\\' ∉ name := by
  have hiff : unticked (escapeTicks name ++ '\x60' :: rest) = some (name ++ [], rest) ↔
      '\\' ∉ name ∧ [] = [] ∧ rest = rest := unticked_escapeTicks
  rwa [List.append_nil, and_iff_left ⟨rfl, rfl⟩] at hiff

/-- A written name is read from behind its first backtick. -/
theorem readTicked_ticked (name rest : List Char) :
    readTicked (ticked name ++ rest) = unticked (escapeTicks name ++ '\x60' :: rest) := by
  rw [ticked, List.append_assoc]
  rfl

/-- Reading takes something away. -/
theorem length_of_unticked (h : unticked rest = some (read, behind)) :
    behind.length < rest.length := by
  fun_induction unticked rest generalizing read with
  | case1 => cases h
  | case2 rest =>
      cases h
      exact Nat.lt_succ_self _
  | case3 c rest ih =>
      obtain ⟨⟨first, last⟩, hrest, heq⟩ := Option.map_eq_some_iff.mp h
      cases heq
      exact Nat.lt_trans (ih hrest) (Nat.lt_add_of_pos_right Nat.two_pos)
  | case4 c rest _ _ ih =>
      obtain ⟨⟨first, last⟩, hrest, heq⟩ := Option.map_eq_some_iff.mp h
      cases heq
      exact Nat.lt_trans (ih hrest) (Nat.lt_succ_self _)

/-!
## Names with backslashes

The reader takes what stands behind a backslash as it is. In front of any other character of the
name a backslash is only lost. In front of a backtick of the name it takes the backslash that was
put there, and the name ends at the backtick. At the end of the name it takes the closing backtick,
and the reader goes on into what follows.
-/

variable {front : List Char}

theorem escapeTicks_append (front back : List Char) :
    escapeTicks (front ++ back) = escapeTicks front ++ escapeTicks back :=
  List.flatMap_append

/-- A backslash at the end of a name takes the closing backtick. -/
theorem unticked_backslash_end (h : Reads front read) (rest : List Char) :
    unticked (escapeTicks (front ++ ['\\']) ++ '\x60' :: rest) =
      (unticked rest).map (Prod.map (read ++ '\x60' :: ·) id) := by
  have hlast : escapeTicks ['\\'] ++ '\x60' :: rest = '\\' :: '\x60' :: rest := rfl
  rw [escapeTicks_append, List.append_assoc, hlast, unticked_append h, unticked_literal,
    Option.map_map]
  rfl

/-- A backslash in front of a backtick ends the name there. -/
theorem unticked_backslash_tick (h : Reads front read) (more rest : List Char) :
    unticked (escapeTicks (front ++ '\\' :: '\x60' :: more) ++ '\x60' :: rest) =
      some (read ++ ['\\'], escapeTicks more ++ '\x60' :: rest) := by
  have hwritten :
    escapeTicks ('\\' :: '\x60' :: more) = '\\' :: '\\' :: '\x60' :: escapeTicks more :=
    rfl
  rw [escapeTicks_append, List.append_assoc, hwritten, unticked_append h]
  rfl

/-- Any name is read up to its end, to a backslash at its end, or to one in front of a backtick. -/
theorem exists_reads : ∀ name : List Char, ∃ front read more, name = front ++ more ∧
    Reads front read ∧ (more = [] ∨ more = ['\\'] ∨ ∃ behind, more = '\\' :: '\x60' :: behind)
  | [] => ⟨[], [], [], rfl, .nil, .inl rfl⟩
  | c :: name => by
      by_cases hc : c = '\\'
      · subst hc
        cases name with
        | nil => exact ⟨[], [], ['\\'], rfl, .nil, .inr (.inl rfl)⟩
        | cons d name =>
            by_cases hd : d = '\x60'
            · subst hd
              exact ⟨[], [], '\\' :: '\x60' :: name, rfl, .nil, .inr (.inr ⟨name, rfl⟩)⟩
            · obtain ⟨front, read, more, rfl, h, hmore⟩ := exists_reads name
              exact ⟨'\\' :: d :: front, d :: read, more, rfl, .literal hd h, hmore⟩
      · obtain ⟨front, read, more, rfl, h, hmore⟩ := exists_reads name
        exact ⟨c :: front, c :: read, more, rfl, .plain hc h, hmore⟩

/-- A name ends at its own closing backtick just if its backslashes do no more than get lost. -/
theorem unticked_whole_iff :
    (∃ read, unticked (escapeTicks name ++ '\x60' :: rest) = some (read, rest)) ↔
      ∃ read, Reads name read := by
  refine ⟨fun ⟨all, hall⟩ => ?_, fun ⟨read, h⟩ => ⟨read, unticked_of_reads h rest⟩⟩
  obtain ⟨front, read, more, rfl, h, rfl | rfl | ⟨behind, rfl⟩⟩ := exists_reads name
  · rw [List.append_nil]
    exact ⟨read, h⟩
  · -- the reader has gone on into `rest`
    rw [unticked_backslash_end h] at hall
    obtain ⟨⟨first, last⟩, hrest, heq⟩ := Option.map_eq_some_iff.mp hall
    cases heq
    exact absurd (length_of_unticked hrest) (Nat.lt_irrefl _)
  · -- the reader has left something of the name
    rw [unticked_backslash_tick h] at hall
    have hlength := congrArg List.length (Prod.mk.inj (Option.some.inj hall)).2
    rw [List.length_append, List.length_cons] at hlength
    omega

/-- What comes of a name that is written between backticks with `rest` behind it. -/
structure Delivered (name rest : List Char) (result : Option (List Char × List Char)) : Prop where
  /-- It is read back just if it has no backslash in it. -/
  name_iff : result = some (name, rest) ↔ '\\' ∉ name
  /-- It ends at its own closing backtick just if no backslash makes more literal than one of its
  characters. -/
  whole_iff : (∃ read, result = some (read, rest)) ↔ ∃ read, Reads name read
  /-- It is read up to its end; or on into `rest`; or up to one of its backticks, and what stands
  behind that is no name any more. -/
  outcome : (∃ read, Reads name read ∧ result = some (read, rest)) ∨
    (∃ front read, name = front ++ ['\\'] ∧ Reads front read ∧
      result = (unticked rest).map (Prod.map (read ++ '\x60' :: ·) id)) ∨
    ∃ front read behind, name = front ++ '\\' :: '\x60' :: behind ∧ Reads front read ∧
      result = some (read ++ ['\\'], escapeTicks behind ++ '\x60' :: rest)

/-- What is read of a name that is written between backticks. -/
theorem delivered_ticked (name rest : List Char) :
    Delivered name rest (readTicked (ticked name ++ rest)) := by
  rw [readTicked_ticked]
  refine ⟨unticked_self_iff, unticked_whole_iff, ?_⟩
  obtain ⟨front, read, more, rfl, h, rfl | rfl | ⟨behind, rfl⟩⟩ := exists_reads name
  · rw [List.append_nil]
    exact .inl ⟨read, h, unticked_of_reads h rest⟩
  · exact .inr (.inl ⟨front, read, rfl, h, unticked_backslash_end h rest⟩)
  · exact .inr (.inr ⟨front, read, behind, rfl, h, unticked_backslash_tick h behind rest⟩)

/-- A collection whose name is no plain identifier stands between backticks. -/
theorem collectionName_ticked {tablePrefix name : String}
    (hbare : isBare (tablePrefix ++ name) = false) :
    (collectionName tablePrefix name).toList = ticked (tablePrefix ++ name).toList := by
  have hnot : ¬isBare (tablePrefix ++ name) = true := Bool.eq_false_iff.mp hbare
  rw [collectionName, if_neg hnot, String.toList_ofList]

end Aql

namespace Column

open Aql

variable {segment : List Char}

/-- What stands behind a bracket stands outside of the backticks, as it is. -/
theorem tickedAttribute_bracket {name : List Char} (hname : '[' ∉ name) (behind : List Char) :
    tickedAttribute (name ++ '[' :: behind) =
      (if name = [] then [] else ticked name) ++ '[' :: behind := by
  have hplain : ∀ c ∈ name, (c != '[') = true := fun c hc =>
    bne_iff_ne.mpr fun h => hname (h ▸ hc)
  have hfront : (name ++ '[' :: behind).takeWhile (· != '[') = name := by
    rw [List.takeWhile_append_of_pos hplain]
    exact List.append_nil name
  have hstar : name ++ '[' :: behind ≠ ['*'] := by
    intro h
    have hbracket : '[' ∈ ['*'] := h ▸ List.mem_append_right name List.mem_cons_self
    exact absurd hbracket (by decide)
  unfold tickedAttribute
  rw [if_neg hstar, hfront]
  dsimp only
  by_cases hempty : name = []
  · subst hempty
    rfl
  · rw [if_neg hempty, if_neg (mt List.isEmpty_iff.mp hempty), List.drop_left]

/-- An attribute without a bracket stands between backticks as a whole. -/
theorem tickedAttribute_plain (hempty : segment ≠ []) (hstar : segment ≠ ['*'])
    (hbracket : '[' ∉ segment) : tickedAttribute segment = ticked segment := by
  unfold tickedAttribute
  rw [if_neg hstar, Text.takeWhile_of_notMem hbracket]
  dsimp only
  rw [if_neg (mt List.isEmpty_iff.mp hempty), List.drop_length, List.append_nil]

/-- An attribute that is not empty, no star and without a bracket is put between backticks as a
whole. -/
theorem attributeText_ticked {name : String} (hempty : name ≠ "") (hstar : name ≠ "*")
    (hbracket : '[' ∉ name.toList) : (attributeText name.toList).toList = ticked name.toList := by
  rw [attributeText, String.toList_ofList]
  refine tickedAttribute_plain (fun h => hempty ?_) (fun h => hstar ?_) hbracket
  · exact String.toList_inj.mp h
  · exact String.toList_inj.mp h

/-- **Which attributes are read back as they are**: all but the empty one, the star, and those with
a bracket or a backslash. -/
theorem readTicked_attribute_iff (segment rest : List Char) :
    readTicked (tickedAttribute segment ++ rest) = some (segment, rest) ↔
      segment ≠ [] ∧ segment ≠ ['*'] ∧ '[' ∉ segment ∧ '\\' ∉ segment := by
  by_cases hempty : segment = []
  · subst hempty
    refine iff_of_false (fun h => ?_) fun h => h.1 rfl
    have hread : readTicked rest = some ([], rest) := h
    unfold readTicked at hread
    split at hread
    · exact absurd (length_of_unticked hread) (by simp)
    · cases hread
  by_cases hstar : segment = ['*']
  · subst hstar
    refine iff_of_false (fun h => ?_) fun h => h.2.1 rfl
    have hread : readTicked ('*' :: rest) = some (['*'], rest) := h
    cases hread
  by_cases hbracket : '[' ∈ segment
  · refine iff_of_false (fun h => ?_) fun h => h.2.2.1 hbracket
    obtain ⟨name, behind, rfl, hname⟩ := List.eq_append_cons_of_mem hbracket
    rw [tickedAttribute_bracket hname] at h
    by_cases hnone : name = []
    · subst hnone
      have hread : readTicked ('[' :: behind ++ rest) = some ('[' :: behind, rest) := h
      cases hread
    · rw [if_neg hnone, ticked, List.append_assoc, List.append_assoc, List.cons_append] at h
      have hread := (unticked_escapeTicks.mp h).2.1
      cases hread
  · rw [tickedAttribute_plain hempty hstar hbracket, readTicked_ticked, unticked_self_iff]
    simp [hempty, hstar, hbracket]

end Column

open Aql

/-- **What is read of the name of an attribute or a collection.**  The name is given back, and
nothing of what follows is taken, just if there is no backslash in it.  With a backslash in front of
any other character the name still ends at its own backtick.  With one in front of a backtick the
rest of the name stands outside of the backticks, and with one at its end what follows is taken for
the name. -/
theorem quoted_names_read_back (tablePrefix name : String) (rest : List Char) :
    (name ≠ "" → name ≠ "*" → '[' ∉ name.toList →
      Delivered name.toList rest
        (readTicked ((Column.attributeText name.toList).toList ++ rest))) ∧
    (isBare (tablePrefix ++ name) = false →
      Delivered (tablePrefix ++ name).toList rest
        (readTicked ((collectionName tablePrefix name).toList ++ rest))) := by
  constructor
  · intro hempty hstar hbracket
    rw [Column.attributeText_ticked hempty hstar hbracket]
    exact delivered_ticked name.toList rest
  · intro hbare
    rw [collectionName_ticked hbare]
    exact delivered_ticked (tablePrefix ++ name).toList rest

/-- A backtick in the name of an attribute and a blank in that of a collection are read back. -/
theorem backtick_and_blank_read_back :
    readTicked (Column.attributeText "a\x60b".toList).toList = some ("a\x60b".toList, []) ∧
      readTicked (collectionName "old " "user-roles").toList =
        some ("old user-roles".toList, []) := by
  have hattribute := (quoted_names_read_back "" "a\x60b" []).1 (by decide) (by decide) (by decide)
  have hcollection := (quoted_names_read_back "old " "user-roles" []).2 (by decide)
  rw [List.append_nil] at hattribute hcollection
  exact ⟨hattribute.name_iff.mpr (by decide), hcollection.name_iff.mpr (by decide)⟩

/-- A backslash at the end of a name takes the closing backtick away. -/
theorem backslash_takes_backtick :
    readTicked (Column.attributeText "a\\".toList).toList = none ∧
      readTicked (collectionName "" "user\\").toList = none := by
  constructor <;> rfl

end AqlBuilder
