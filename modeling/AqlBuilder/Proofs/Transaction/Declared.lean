import AqlBuilder.Proofs.Transaction.Inferred
import AqlBuilder.Proofs.Transaction.Journal
import Mathlib.Data.List.Induction
import Mathlib.Data.List.Nodup

/-!
# What a transaction declares

The collections of a level go to the level around it when it is committed, and those of a command
are added when the outermost level is sent. So the declaration that the server gets can be read off
the journal since the outermost level was opened: it unites what was declared for that level, for
each level that was committed into it, and for each command that is left.

A level is lost if it is rolled back or closed without commands, and so is one that was committed
into a lost level. Whether a level has commands when it is closed depends on the levels that were
committed into it, so all levels inside have to be watched along with it.

- `drops` says whether a level is dropped by what follows its opening.
- `declarations` are what was declared for the levels of a journal that are not dropped.
- `Levels.declared_perform`: the levels that are open have declared what is left of the journal.
- `Levels.transaction_declares` is the declaration of a committed transaction.
-/

namespace AqlBuilder

/-- Whether what follows drops a level. The flags say whether there are commands in the level, which
stands last, and in the levels that are open inside. -/
def drops : List Bool → List Move → Bool
  | flags, .start _ :: rest => drops (false :: flags) rest
  | _ :: flags, .queue _ :: rest => drops (true :: flags) rest
  | [filled], .commit :: rest => !filled || drops [true] rest
  | inner :: filled :: flags, .commit :: rest => drops ((filled || inner) :: flags) rest
  | [_], .rollback :: _ => true
  | _ :: filled :: flags, .rollback :: rest => drops (filled :: flags) rest
  | _, _ => false

/-- What was declared for the levels of a journal that nothing drops. -/
def declarations : List Move → List Collections
  | [] => []
  | .start collections :: rest =>
    if drops [false] rest then declarations rest else collections :: declarations rest
  | _ :: rest => declarations rest

namespace Collections

variable {names further : List String} {name : String} {c other : Collections}

/-- Adding names leaves the names distinct. -/
theorem nodup_addNames (h : names.Nodup) : (addNames names further).Nodup := by
  induction further generalizing names with
  | nil => exact h
  | cons first rest ih =>
      suffices hstep : (addName names first).Nodup from ih hstep
      unfold addName
      split
      · exact h
      · rename_i hthere
        have hnew : first ∉ names := fun hmem => hthere (List.contains_iff_mem.mpr hmem)
        exact List.nodup_append.mpr ⟨h, List.nodup_singleton first, fun a ha b hb heq =>
          hnew (List.mem_singleton.mp hb ▸ heq ▸ ha)⟩

theorem mem_read_merge : name ∈ (c.merge other).read ↔ name ∈ c.read ∨ name ∈ other.read :=
  mem_addNames

theorem mem_write_merge : name ∈ (c.merge other).write ↔ name ∈ c.write ∨ name ∈ other.write :=
  mem_addNames

end Collections

/-- A property that two collections have together just if one of them has it. -/
def Collections.Additive (p : Collections → Prop) : Prop :=
  ∀ c other : Collections, p (c.merge other) ↔ p c ∨ p other

theorem Collections.additive_read (name : String) : Additive fun c => name ∈ c.read :=
  fun _ _ => mem_read_merge

theorem Collections.additive_write (name : String) : Additive fun c => name ∈ c.write :=
  fun _ _ => mem_write_merge

/-- Whether a level has commands. -/
def Level.filled (level : Level) : Bool := !level.commands.isEmpty

/-- A level has commands if it or the level that was committed into it has some. -/
theorem Level.filled_append (level inner : Level) :
    (level.append inner).filled = (level.filled || inner.filled) := by
  unfold filled append
  cases level.commands <;> simp

/-- A level without commands is empty. -/
theorem Level.filled_eq_false {level : Level} (h : level.commands = []) : level.filled = false := by
  unfold filled
  rw [h]
  rfl

/-- A level with commands is not empty. -/
theorem Level.filled_eq_true {level : Level} (h : level.commands ≠ []) : level.filled = true := by
  unfold filled
  rw [List.isEmpty_eq_false_iff.mpr h]
  rfl

/-- The collections of a level and of its commands. -/
theorem Level.declared_iff {p : Collections → Prop} (hp : Collections.Additive p) (level : Level) :
    p level.allCollections ↔
      p level.collections ∨ ∃ c ∈ level.commands.map Command.collections, p c := by
  unfold allCollections
  generalize level.collections = c
  induction level.commands generalizing c with
  | nil => simp
  | cons command rest ih => simp [ih, hp c command.collections, or_assoc]

namespace Levels

/-- Some level that the journal does not drop has collections with a property, where the flags are
those of the levels inside. -/
def Declares (p : Collections → Prop) (moves : List Move) : List Bool → Levels → Prop
  | _, [] => False
  | inside, level :: outer =>
    drops (inside ++ [level.filled]) moves = false ∧ p level.collections ∨
      Declares p moves (inside ++ [level.filled]) outer

variable {p : Collections → Prop} {levels outer : Levels} {level : Level} {moves : List Move}
  {move : Move} {inside : List Bool}

/-- If nothing follows, no level is dropped. -/
theorem declares_nil : Declares p [] inside levels ↔ ∃ level ∈ levels, p level.collections := by
  induction levels generalizing inside with
  | nil => simp [Declares]
  | cons level outer ih =>
      have hdrops : ∀ flags, drops flags [] = false := fun flags => by cases flags <;> rfl
      simp [Declares, ih, hdrops]

/-- The flags of the levels inside matter only as far as they decide what is dropped. -/
theorem declares_congr {moves' : List Move} {inside' : List Bool}
    (h : ∀ flag flags, drops (inside ++ flag :: flags) moves =
      drops (inside' ++ flag :: flags) moves') :
    Declares p moves inside levels ↔ Declares p moves' inside' levels := by
  induction levels generalizing inside inside' with
  | nil => rfl
  | cons level outer ih =>
      have houter : Declares p moves (inside ++ [level.filled]) outer ↔
          Declares p moves' (inside' ++ [level.filled]) outer :=
        ih fun flag flags => by
          rw [List.append_assoc, List.append_assoc]
          exact h level.filled (flag :: flags)
      rw [Declares, Declares, h level.filled [], houter]

/-- One move, with what follows it: what the levels and the journal have declared is the same before
and after the move. -/
theorem declares_apply (hp : Collections.Additive p) (hopen : levels ≠ [])
    (hstill : move.apply levels ≠ []) :
    Declares p moves [] (move.apply levels) ∨ (∃ c ∈ declarations moves, p c) ↔
      Declares p (move :: moves) [] levels ∨ ∃ c ∈ declarations (move :: moves), p c := by
  obtain ⟨level, outer, rfl⟩ := List.exists_cons_of_ne_nil hopen
  cases move with
  | start collections =>
      have houter : Declares p moves [false] (level :: outer) ↔
          Declares p (.start collections :: moves) [] (level :: outer) :=
        declares_congr fun _ _ => rfl
      have hnew : Declares p moves [] (Move.apply (level :: outer) (.start collections)) ↔
          drops [false] moves = false ∧ p collections ∨ Declares p moves [false] (level :: outer) :=
        Iff.rfl
      rw [hnew, houter, declarations]
      by_cases hdrops : drops [false] moves
      · simp [hdrops]
      · grind
  | queue command =>
      have houter : Declares p moves [true] outer ↔
          Declares p (.queue command :: moves) [level.filled] outer :=
        declares_congr fun _ _ => rfl
      have hfilled : Level.filled { level with commands := level.commands ++ [command] } = true :=
        Level.filled_eq_true (by simp)
      rw [apply_queue, Declares, Declares, hfilled, List.nil_append, houter]
      rfl
  | rollback =>
      have houter :
        Declares p moves [] outer ↔ Declares p (.rollback :: moves) [level.filled] outer :=
        declares_congr fun _ _ => rfl
      rw [apply_rollback, houter, Declares]
      simp [drops, declarations]
  | commit =>
      change Declares p moves [] (commit (level :: outer)).2 ∨ (∃ c ∈ declarations moves, p c) ↔
        Declares p (.commit :: moves) [] (level :: outer) ∨ ∃ c ∈ declarations moves, p c
      by_cases hcommands : level.commands = []
      · have houter : Declares p moves [] outer ↔
            Declares p (.commit :: moves) [level.filled] outer :=
          declares_congr fun flag flags => by
            rw [Level.filled_eq_false hcommands, List.singleton_append, drops, Bool.or_false]
            rfl
        rw [commit_of_empty hcommands, houter, Declares]
        simp [drops, Level.filled_eq_false hcommands]
      · cases outer with
        | nil =>
            have hclosed : Move.apply [level] .commit = [] := by
              change (commit [level]).2 = []
              rw [commit_outermost hcommands]
            exact absurd hclosed hstill
        | cons parent rest =>
            have hfilled := Level.filled_eq_true hcommands
            have hparent : (parent.append level).filled = true := by
              rw [Level.filled_append, hfilled, Bool.or_true]
            have houter : Declares p moves [true] rest ↔
                Declares p (.commit :: moves) [true, parent.filled] rest :=
              declares_congr fun flag flags => by simp [drops]
            have hmerged : p (parent.append level).collections ↔
                p parent.collections ∨ p level.collections := hp _ _
            rw [commit_nested hcommands, Declares, Declares, Declares, hparent, hfilled,
              List.nil_append, List.singleton_append, houter, hmerged]
            simp only [drops, Bool.or_true, Bool.not_true, Bool.false_or]
            grind

/-- What the open levels have declared is what is left of the journal: by induction on the journal,
with the step of one move. -/
theorem declared_perform (hp : Collections.Additive p) (h : StaysOpen levels moves) :
    (∃ level ∈ levels.perform moves, p level.collections) ↔
      Declares p moves [] levels ∨ ∃ c ∈ declarations moves, p c := by
  induction moves generalizing levels with
  | nil => simp [declares_nil, perform, declarations]
  | cons move rest ih =>
      rw [← declares_apply hp h.ne_nil h.tail.ne_nil]
      exact ih h.tail

/-- The flags of all levels, one move later. -/
theorem drops_apply (hopen : levels ≠ []) (hstill : move.apply levels ≠ []) :
    drops ((move.apply levels).map Level.filled) moves =
      drops (levels.map Level.filled) (move :: moves) := by
  obtain ⟨level, outer, rfl⟩ := List.exists_cons_of_ne_nil hopen
  cases move with
  | start collections => rfl
  | queue command =>
      have hfilled : Level.filled { level with commands := level.commands ++ [command] } = true :=
        Level.filled_eq_true (by simp)
      rw [apply_queue, List.map_cons, hfilled]
      cases outer <;> rfl
  | rollback =>
      cases outer with
      | nil => exact absurd apply_rollback hstill
      | cons parent rest => rfl
  | commit =>
      cases outer with
      | nil =>
          by_cases hcommands : level.commands = []
          · exact absurd (congrArg Prod.snd (commit_of_empty hcommands)) hstill
          · exact absurd (congrArg Prod.snd (commit_outermost hcommands)) hstill
      | cons parent rest =>
          change drops ((commit (level :: parent :: rest)).2.map Level.filled) moves =
            drops ((parent.filled || level.filled) :: rest.map Level.filled) moves
          by_cases hcommands : level.commands = []
          · rw [commit_of_empty hcommands, Level.filled_eq_false hcommands, Bool.or_false]
            rfl
          · rw [commit_nested hcommands, List.map_cons, Level.filled_append]

/-- A level that stays open is not dropped. -/
theorem StaysOpen.drops_eq_false (h : StaysOpen levels moves) :
    drops (levels.map Level.filled) moves = false := by
  induction moves generalizing levels with
  | nil => cases levels <;> rfl
  | cons move rest ih =>
      rw [← drops_apply h.ne_nil h.tail.ne_nil]
      exact ih h.tail

/-- Only the commit of an outermost level sends a transaction. -/
theorem of_commit_sends {left : Levels} {t : Transaction}
    (h : levels.commit = (.ok (some t), left)) :
    ∃ level, levels = [level] ∧ level.toTransaction = t := by
  cases levels with
  | nil => cases h
  | cons level outer =>
      by_cases hcommands : level.commands = []
      · rw [commit_of_empty hcommands] at h
        cases h
      · cases outer with
        | nil =>
            rw [commit_outermost hcommands] at h
            cases h
            exact ⟨level, rfl, rfl⟩
        | cons parent rest =>
            rw [commit_nested hcommands] at h
            cases h

/-- The levels that are open were opened by an outermost start, and one has been open since. -/
theorem exists_outermost (h : perform [] moves ≠ []) :
    ∃ before collections since, moves = before ++ .start collections :: since ∧
      perform [] before = [] ∧ StaysOpen (start collections []) since := by
  have hlast : ∀ init move, perform [] (init ++ [move]) = move.apply (perform [] init) :=
    fun _ _ => List.foldl_concat ..
  induction moves using List.reverseRecOn with
  | nil => exact absurd rfl h
  | append_singleton init move ih =>
      by_cases houtside : perform [] init = []
      · -- Outside of a transaction only a start opens a level.
        rw [hlast, houtside] at h
        cases move with
        | start collections =>
            refine ⟨init, collections, [], rfl, houtside, fun part hpart => ?_⟩
            rw [List.prefix_nil.mp hpart]
            exact List.cons_ne_nil _ _
        | _ => exact absurd rfl h
      · obtain ⟨before, collections, since, rfl, hbefore, hsince⟩ := ih houtside
        refine ⟨before, collections, since ++ [move], by simp, hbefore, fun part hpart => ?_⟩
        rcases List.prefix_concat_iff.mp hpart with rfl | hpart
        · have hall : perform [] (before ++ .start collections :: since ++ [move]) =
              perform (start collections []) (since ++ [move]) := by
            rw [List.append_assoc, List.cons_append, perform, List.foldl_append]
            change (perform (perform [] before) _) = _
            rw [hbefore]
            rfl
          rwa [← hall]
        · exact hsince part hpart

section outermost

variable {outermost : Collections} {since : List Move}

/-- The commands of an outermost level are what is left of the journal. -/
theorem commands_outermost (hsince : StaysOpen (start outermost []) since)
    (hlevel : perform (start outermost []) since = [level]) : level.commands = survivors since := by
  have hqueued := queued_since hsince
  rw [hlevel] at hqueued
  exact hqueued

/-- What an outermost level and its commands declare. -/
theorem declared_outermost (hp : Collections.Additive p)
    (hsince : StaysOpen (start outermost []) since)
    (hlevel : perform (start outermost []) since = [level]) :
    p level.allCollections ↔ ∃ c ∈ outermost :: declarations since ++
      (survivors since).map Command.collections, p c := by
  have hkept : drops [false] since = false := hsince.drops_eq_false
  have hstart : Declares p since [] (start outermost []) ↔ p outermost := by
    change (drops [false] since = false ∧ p outermost ∨ False) ↔ p outermost
    rw [hkept, or_false, and_iff_right rfl]
  have hlevels := declared_perform hp hsince
  rw [hlevel, hstart] at hlevels
  simp only [List.mem_singleton, exists_eq_left] at hlevels
  rw [level.declared_iff hp, hlevels, commands_outermost hsince hlevel]
  simp only [List.cons_append, List.mem_cons, List.mem_append, or_and_right, exists_or, or_assoc,
    exists_eq_left]

end outermost

/-- **A transaction declares all collections that it needs, and no others.**  When a commit sends a
transaction, a start without levels around it has opened the outermost level, which has been open
since. The action runs the commands that are left of the journal since then. The two declarations
name nothing twice; as sets they unite what was declared for the outermost level, for the levels of
the journal that were not dropped and for the commands of the action, where everything that is
written is also read. -/
theorem transaction_declares {left : Levels} {t : Transaction}
    (h : (perform [] moves).commit = (.ok (some t), left)) :
    ∃ before outermost since, moves = before ++ .start outermost :: since ∧
      perform [] before = [] ∧ StaysOpen (start outermost []) since ∧
      t.action = actionOf (survivors since) ∧
      t.collections.read.Nodup ∧ t.collections.write.Nodup ∧
      t.collections.write ⊆ t.collections.read ∧
      let declared :=
        outermost :: declarations since ++ (survivors since).map Command.collections
      (∀ name, name ∈ t.collections.write ↔ ∃ c ∈ declared, name ∈ c.write) ∧
      ∀ name, name ∈ t.collections.read ↔ ∃ c ∈ declared, name ∈ c.read ∨ name ∈ c.write := by
  have hopen : perform [] moves ≠ [] := by
    intro hnone
    rw [hnone] at h
    cases h
  obtain ⟨before, outermost, since, rfl, hbefore, hsince⟩ := exists_outermost hopen
  have hall : perform [] (before ++ .start outermost :: since) =
      perform (start outermost []) since := by
    rw [perform, List.foldl_append]
    change perform (perform [] before) _ = _
    rw [hbefore]
    rfl
  rw [hall] at h
  obtain ⟨level, hlevel, rfl⟩ := of_commit_sends h
  refine ⟨before, outermost, since, rfl, hbefore, hsince, ?_, ?_, ?_, ?_, ?_, ?_⟩
  · rw [← commands_outermost hsince hlevel]
    rfl
  · exact Collections.nodup_addNames List.nodup_nil
  · exact Collections.nodup_addNames List.nodup_nil
  · exact fun name hname => Collections.mem_read_normalized.mpr
      (.inr (Collections.mem_write_normalized.mp hname))
  · intro name
    rw [← declared_outermost (Collections.additive_write name) hsince hlevel]
    exact Collections.mem_write_normalized
  · intro name
    have hread := declared_outermost (Collections.additive_read name) hsince hlevel
    have hwrite := declared_outermost (Collections.additive_write name) hsince hlevel
    change name ∈ level.allCollections.normalized.read ↔ _
    rw [Collections.mem_read_normalized, hread, hwrite]
    simp only [← exists_or, ← and_or_left]

/-- A level that is rolled back, one without commands, and two that are committed one into the
other. The outermost level names a collection twice. -/
def nestedMoves : List Move :=
  [.start ⟨["houses", "houses"], ["users"]⟩,
    .queue (.ofStatement ⟨"FOR u IN users REMOVE u IN users", []⟩ none),
    .start ⟨[], ["logs"]⟩, .queue (.ofStatement ⟨"INSERT \x7b\x7d INTO logs", []⟩ none), .rollback,
    .start ⟨[], ["audit"]⟩, .commit,
    .start ⟨[], ["tags", "users"]⟩, .start ⟨["names"], []⟩,
    .queue (.ofStatement ⟨"RETURN 1", []⟩ (some ⟨["logs"], []⟩)), .commit, .commit]

/-- The rolled back level wrote to `logs`, which is now only read, for the last command. -/
theorem nested_transaction_declares : ∃ t, (perform [] nestedMoves).commit = (.ok (some t), []) ∧
    t.collections = ⟨["houses", "names", "users", "logs", "tags"], ["users", "tags"]⟩ ∧
    ∃ before outermost since, nestedMoves = before ++ .start outermost :: since ∧
      perform [] before = [] ∧ StaysOpen (start outermost []) since ∧
      t.action = actionOf (survivors since) ∧
      t.collections.read.Nodup ∧ t.collections.write.Nodup ∧
      t.collections.write ⊆ t.collections.read ∧
      let declared :=
        outermost :: declarations since ++ (survivors since).map Command.collections
      (∀ name, name ∈ t.collections.write ↔ ∃ c ∈ declared, name ∈ c.write) ∧
      ∀ name, name ∈ t.collections.read ↔ ∃ c ∈ declared, name ∈ c.read ∨ name ∈ c.write := by
  exact ⟨_, rfl, by decide +kernel, transaction_declares rfl⟩

end Levels

end AqlBuilder
