import AqlBuilder.Transaction.Levels

/-!
# What is left of queued commands

The levels of a transaction are a stack of lists of commands. The same can be said of a journal of
what was done, without a stack: a command is discarded by a later rollback if the level that is
rolled back was open when the command was queued, and so holds the command or a level that was
committed into it. Seen from the command it is enough to count the levels that were opened since and
are still open.

- `discards` says whether a command is discarded by what follows it.
- `survivors` are the commands of a journal that are not discarded, in their order.
- `Levels.queued_perform`: as long as a level is open, the commands in the stack are the survivors.
- `depthChange`: by how many levels a journal deepens the stack.
- `Levels.Admits`: every move of a journal can be made.
- `Levels.length_perform`, `Levels.queued_of_admits`: the depth and the commands after a journal.
-/

namespace AqlBuilder

/-- What can be done to the levels of a transaction. -/
inductive Move
  | start (collections : Collections)
  | queue (command : Command)
  | commit
  | rollback

/-- Whether what follows a command discards it, with the number of levels that were opened since and
are still open. To close one of those leaves the command alone; of the level of the command itself
or one around it, only a rollback discards it. -/
def discards (inner : Nat) : List Move → Bool
  | [] => false
  | .start _ :: rest => discards (inner + 1) rest
  | .queue _ :: rest => discards inner rest
  | .commit :: rest => discards (inner - 1) rest
  | .rollback :: rest => inner = 0 || discards (inner - 1) rest

/-- The commands of a journal that nothing discards, in the order they were queued. -/
def survivors : List Move → List Command
  | [] => []
  | .queue command :: rest =>
    if discards 0 rest then survivors rest else command :: survivors rest
  | _ :: rest => survivors rest

namespace Move

/-- The levels after a move. A move that fails leaves them as they are, but for a commit of a level
without commands, which drops the level. -/
def apply (levels : Levels) : Move → Levels
  | start collections => levels.start collections
  | queue command => ((levels.addCommand command).toOption).getD levels
  | commit => levels.commit.2
  | rollback => (levels.rollback.toOption).getD levels

/-- Whether a move can be made: all but the start of a level need an open one. -/
def Admissible (levels : Levels) : Move → Prop
  | start _ => True
  | queue _ | commit | rollback => levels ≠ []

/-- While a level is open, every move can be made. -/
theorem Admissible.of_ne_nil {levels : Levels} {move : Move} (h : levels ≠ []) :
    move.Admissible levels := by
  cases move with
  | start _ => trivial
  | queue _ | commit | rollback => exact h

end Move

namespace Levels

/-- The levels after a journal. -/
def perform (levels : Levels) (moves : List Move) : Levels := moves.foldl Move.apply levels

/-- The commands of all levels, the outermost first. -/
def queued : Levels → List Command
  | [] => []
  | level :: outer => queued outer ++ level.commands

/-- The commands of levels that a journal does not discard, where `inner` levels are open inside. -/
def remaining (moves : List Move) (inner : Nat) : Levels → List Command
  | [] => []
  | level :: outer =>
    remaining moves (inner + 1) outer ++ if discards inner moves then [] else level.commands

/-- A journal during which a level is open all the time. -/
def StaysOpen (levels : Levels) (moves : List Move) : Prop :=
  ∀ part, part <+: moves → levels.perform part ≠ []

variable {levels outer : Levels} {level parent : Level} {moves : List Move} {move : Move}

/-- A command is put behind those of the innermost level. -/
@[simp] theorem apply_queue (command : Command) :
    Move.apply (level :: outer) (.queue command) =
      { level with commands := level.commands ++ [command] } :: outer := rfl

@[simp] theorem apply_rollback : Move.apply (level :: outer) .rollback = outer := rfl

theorem commit_of_empty (h : level.commands = []) :
    commit (level :: outer) = (.error (.transaction .nothingToCommit), outer) := by
  simp [commit, h]

/-- The outermost level with commands is committed as a transaction. -/
theorem commit_outermost (h : level.commands ≠ []) :
    commit [level] = (.ok (some level.toTransaction), []) := by
  simp [commit, h]

/-- An inner level with commands is committed into the level around it. -/
theorem commit_nested (h : level.commands ≠ []) :
    commit (level :: parent :: outer) = (.ok none, parent.append level :: outer) := by
  simp [commit, h]

theorem StaysOpen.ne_nil (h : StaysOpen levels moves) : levels ≠ [] := h [] List.nil_prefix

/-- A level that stays open stays so behind the first move. -/
theorem StaysOpen.tail (h : StaysOpen levels (move :: moves)) :
    StaysOpen (move.apply levels) moves :=
  fun part hpart => h (move :: part) (List.cons_prefix_cons.mpr ⟨rfl, hpart⟩)

/-- At the end of a journal all commands remain. -/
theorem remaining_nil (inner : Nat) : remaining [] inner levels = levels.queued := by
  induction levels generalizing inner with
  | nil => rfl
  | cons level outer ih => simp [remaining, queued, discards, ih]

/-- A level that is opened is one more level inside. -/
theorem remaining_start (inner : Nat) (collections : Collections) :
    remaining (.start collections :: moves) inner levels = remaining moves (inner + 1) levels := by
  induction levels generalizing inner with
  | nil => rfl
  | cons level outer ih =>
      rw [remaining, ih, remaining]
      rfl

/-- A command that is queued later discards none. -/
theorem remaining_queue (inner : Nat) (command : Command) :
    remaining (.queue command :: moves) inner levels = remaining moves inner levels := by
  induction levels generalizing inner with
  | nil => rfl
  | cons level outer ih =>
      rw [remaining, ih, remaining]
      rfl

/-- Closing a level inside brings all others one level nearer. -/
theorem remaining_commit (inner : Nat) :
    remaining (.commit :: moves) (inner + 1) levels = remaining moves inner levels := by
  induction levels generalizing inner with
  | nil => rfl
  | cons level outer ih =>
      rw [remaining, ih, remaining]
      rfl

/-- A rollback of a level inside discards no commands of the levels around. -/
theorem remaining_rollback (inner : Nat) :
    remaining (.rollback :: moves) (inner + 1) levels = remaining moves inner levels := by
  induction levels generalizing inner with
  | nil => rfl
  | cons level outer ih => simp [remaining, discards, ih]

/-- One move, with what follows it: what is left of the levels and of the command that is queued is
the same before and after the move. Only a commit must not close the outermost level. -/
theorem remaining_apply (hadmissible : move.Admissible levels)
    (hstill : move = .commit → move.apply levels ≠ []) :
    remaining moves 0 (move.apply levels) ++ survivors moves =
      remaining (move :: moves) 0 levels ++ survivors (move :: moves) := by
  cases move with
  | start collections =>
      have hnew : remaining moves 0 (Move.apply levels (.start collections)) =
          remaining moves 1 levels := by
        change remaining moves 1 levels ++ (if discards 0 moves then [] else []) = _
        rw [ite_self, List.append_nil]
      rw [hnew, remaining_start]
      rfl
  | queue command =>
      obtain ⟨level, outer, rfl⟩ := List.exists_cons_of_ne_nil hadmissible
      rw [apply_queue, remaining_queue]
      by_cases hdiscards : discards 0 moves
      · simp [remaining, survivors, hdiscards]
      · simp [remaining, survivors, hdiscards]
  | rollback =>
      obtain ⟨level, outer, rfl⟩ := List.exists_cons_of_ne_nil hadmissible
      rw [apply_rollback]
      have hlevel : discards 0 (.rollback :: moves) = true := by simp [discards]
      have hrest : remaining (.rollback :: moves) 1 outer = remaining moves 0 outer :=
        remaining_rollback 0
      simp only [remaining, hlevel, if_true, List.append_nil, hrest]
      rfl
  | commit =>
      obtain ⟨level, outer, rfl⟩ := List.exists_cons_of_ne_nil hadmissible
      have hclosed : discards 0 (.commit :: moves) = discards 0 moves := rfl
      have hrest : remaining (.commit :: moves) 1 outer = remaining moves 0 outer :=
        remaining_commit 0
      have hall : remaining (.commit :: moves) 0 (level :: outer) =
          remaining moves 0 outer ++ if discards 0 moves then [] else level.commands := by
        rw [remaining, hrest, hclosed]
      change remaining moves 0 (commit (level :: outer)).2 ++ survivors moves = _ ++ survivors moves
      rw [hall]
      by_cases hcommands : level.commands = []
      · rw [commit_of_empty hcommands, hcommands, ite_self, List.append_nil]
      cases outer with
      | nil =>
          have hclosed : Move.apply [level] .commit = [] := by
            change (commit [level]).2 = []
            rw [commit_outermost hcommands]
          exact absurd hclosed (hstill rfl)
      | cons parent rest =>
          rw [commit_nested hcommands]
          by_cases hdiscards : discards 0 moves
          · simp [remaining, hdiscards]
          · simp [remaining, hdiscards, Level.append]

/-- The commands in the stack are those that were there before and the ones that were queued since,
less those that the journal discards: by induction on the journal, with the step of one move. -/
theorem queued_perform (h : StaysOpen levels moves) :
    (levels.perform moves).queued = remaining moves 0 levels ++ survivors moves := by
  induction moves generalizing levels with
  | nil =>
      rw [remaining_nil]
      exact (List.append_nil _).symm
  | cons move rest ih =>
      rw [← remaining_apply (.of_ne_nil h.ne_nil) fun _ => h.tail.ne_nil]
      exact ih h.tail

/-- The commands in the stack are the survivors of the journal since the outermost level was
opened. -/
theorem queued_since {collections : Collections}
    (h : StaysOpen (start collections []) moves) :
    ((start collections []).perform moves).queued = survivors moves := by
  rw [queued_perform h]
  change (if discards 0 moves then [] else []) ++ survivors moves = _
  rw [ite_self, List.nil_append]

end Levels

end AqlBuilder

/-!
## The number of open levels

A journal of which every move can be made opens and closes levels one at a time, so the number of
open levels after it is known from the journal alone. Without a commit the same is true of the
commands that are left, also if all levels are rolled back in between.
-/

namespace AqlBuilder

/-- By how many levels a move deepens the stack. -/
def Move.depthChange : Move → Int
  | start _ => 1
  | queue _ => 0
  | commit | rollback => -1

/-- By how many levels a journal deepens the stack: the levels that are opened, less those that are
closed. -/
def depthChange : List Move → Int
  | [] => 0
  | move :: rest => move.depthChange + depthChange rest

namespace Levels

variable {levels : Levels} {moves more : List Move} {move : Move}

/-- Every move of a journal can be made. -/
def Admits (levels : Levels) : List Move → Prop
  | [] => True
  | move :: rest => move.Admissible levels ∧ Admits (move.apply levels) rest

theorem perform_append (levels : Levels) (moves more : List Move) :
    levels.perform (moves ++ more) = (levels.perform moves).perform more :=
  List.foldl_append

/-- Moves can be made if the first ones can and then the others. -/
theorem admits_append :
    levels.Admits (moves ++ more) ↔ levels.Admits moves ∧ (levels.perform moves).Admits more := by
  induction moves generalizing levels with
  | nil => exact ⟨fun h => ⟨trivial, h⟩, And.right⟩
  | cons move rest ih =>
      change _ ∧ (move.apply levels).Admits (rest ++ more) ↔ (_ ∧ _) ∧ _
      rw [ih, and_assoc]
      rfl

/-- A commit closes one level. -/
theorem length_commit (h : levels ≠ []) : levels.commit.2.length + 1 = levels.length := by
  obtain ⟨level, outer, rfl⟩ := List.exists_cons_of_ne_nil h
  by_cases hcommands : level.commands = []
  · rw [commit_of_empty hcommands]
    rfl
  cases outer with
  | nil =>
      rw [commit_outermost hcommands]
      rfl
  | cons parent rest =>
      rw [commit_nested hcommands]
      rfl

/-- A move that can be made changes the number of levels by what it deepens. -/
theorem length_apply (h : move.Admissible levels) :
    ((move.apply levels).length : Int) = levels.length + move.depthChange := by
  cases move with
  | start collections => rfl
  | queue command =>
      obtain ⟨level, outer, rfl⟩ := List.exists_cons_of_ne_nil h
      rfl
  | rollback =>
      obtain ⟨level, outer, rfl⟩ := List.exists_cons_of_ne_nil h
      rw [apply_rollback, Move.depthChange, List.length_cons]
      omega
  | commit =>
      have hcommit := length_commit h
      change (levels.commit.2.length : Int) = levels.length + -1
      omega

/-- Moves that can be made change the number of levels by what they deepen. -/
theorem length_perform (h : levels.Admits moves) :
    ((levels.perform moves).length : Int) = levels.length + depthChange moves := by
  induction moves generalizing levels with
  | nil => exact (Int.add_zero _).symm
  | cons move rest ih =>
      change (((move.apply levels).perform rest).length : Int) = _
      rw [ih h.2, length_apply h.1, depthChange, Int.add_assoc]

/-- The commands in the stack are what is left of those that were there before and of those that the
journal queued, also if no level is open in between. -/
theorem queued_of_admits (h : levels.Admits moves) (hcommit : .commit ∉ moves) :
    (levels.perform moves).queued = remaining moves 0 levels ++ survivors moves := by
  induction moves generalizing levels with
  | nil =>
      rw [remaining_nil]
      exact (List.append_nil _).symm
  | cons move rest ih =>
      obtain ⟨hmove, hrest⟩ : Move.commit ≠ move ∧ .commit ∉ rest := by simpa using hcommit
      rw [← remaining_apply h.1 fun heq => absurd heq.symm hmove]
      exact ih h.2 hrest

end Levels

end AqlBuilder
