import AqlBuilder.Alias.Rules
import AqlBuilder.Connection.Operation
import AqlBuilder.Proofs.Transaction.Journal
import Mathlib.Data.List.Induction

/-!
# Writes inside transactions

While a level is open, writing statements are queued and the server hears nothing of them. The
commit of the outermost level hands all that is left over in one transaction, and whatever the
server answers, a further attempt sends the same transaction. Reading statements are sent at once,
also inside a transaction, and change no level.

- `Act` are the operations on statements and transactions, and `Act.move?` what they do to levels.
- `Act.levels_answered`, `Act.levels_run`: the levels follow the moves, whatever the server answers.
- `Connection.Attempted.send`: all attempts send the same transaction.
- `Connection.no_write_lost` is the law of a whole run.
-/

namespace AqlBuilder

/-- An operation on a finished statement or on the transaction. -/
inductive Act
  | select (statement : Compiled)
  | statement (statement : Compiled)
  | affecting (statement : Compiled)
  | returning (statement : Compiled)
  | start (collections : Collections)
  | enqueue (statement : Compiled) (collections : Option Collections)
  | commit
  | rollback

namespace Act

/-- The operation of a connection that an act is. -/
def operation : Act → Operation
  | select s => .send .select (.given s)
  | statement s => .send .statement (.given s)
  | affecting s => .send .affecting (.given s)
  | returning s => .send .returning (.given s)
  | start collections => .locally (.start collections)
  | enqueue s collections => .locally (.enqueue (.given s) collections)
  | commit => .commit
  | rollback => .locally .rollback

/-- What an act does to open levels. -/
def move? : Act → Option Move
  | select _ => none
  | statement s => some (.queue (.ofStatement s none))
  | affecting s => some (.queue (.ofStatement s none))
  | returning s => some (.queue (.ofStatement s none))
  | start collections => some (.start collections)
  | enqueue s collections => some (.queue (.ofStatement s collections))
  | commit => some .commit
  | rollback => some .rollback

/-- What acts do to open levels. -/
def moves (acts : List Act) : List Move := acts.filterMap move?

/-- The answer to an act, and the connection after it. -/
def answered (act : Act) (c : Connection) : Answered Answer :=
  match act with
  | select s => (c.select s).map .rows
  | statement s => (c.statement s).map .truth
  | affecting s => (c.affecting s).map .number
  | returning s => (c.returning s).map .rows
  | start collections => (.ok .nothing, c.start collections)
  | enqueue s collections => (c.enqueue s collections).map fun _ => .nothing
  | commit => c.commit.map .row
  | rollback => c.rollback.map fun _ => .nothing

/-- The connection after acts, one after another and whatever their answers. -/
def run [Naming] (acts : List Act) (c : Connection) (next : Nat) : Connection :=
  (Operation.performAll (acts.map operation) c next).1

end Act

/-- The connection with a command behind those of its innermost level. -/
def Connection.queue (c : Connection) (command : Command) : Connection :=
  { c with levels := Move.apply c.levels (.queue command) }

section levels

variable {c : Connection} {α β : Type}

/-- Another answer leaves the connection. -/
@[simp] theorem Answered.map_snd (f : α → β) (answered : Answered α) :
    (answered.map f).2 = answered.2 := by
  obtain ⟨_ | a, c⟩ := answered <;> rfl

/-- The parts of a connection that sending a statement leaves alone. -/
structure Connection.SameLevels (c c' : Connection) : Prop where
  levels : c'.levels = c.levels
  pretending : c'.pretending = c.pretending

namespace Connection.SameLevels

variable {s : Compiled} {c' c'' : Connection}

theorem trans (h : c.SameLevels c') (h' : c'.SameLevels c'') : c.SameLevels c'' :=
  ⟨h'.levels.trans h.levels, h'.pretending.trans h.pretending⟩

theorem record (c : Connection) (s : Compiled) : c.SameLevels (c.record s) := ⟨rfl, rfl⟩

/-- An attempt to send a statement leaves the levels alone. -/
theorem attempt (c : Connection) (s : Compiled) : c.SameLevels (c.attempt s).2 := by
  unfold Connection.attempt
  split <;> exact ⟨rfl, rfl⟩

/-- A second attempt leaves the levels alone. -/
theorem retry (c : Connection) (s : Compiled) : c.SameLevels (c.retry s).2 := by
  unfold Connection.retry
  split
  · exact ⟨rfl, rfl⟩
  · rename_i server _
    have hserver : c.SameLevels { c with server := server } := ⟨rfl, rfl⟩
    exact hserver.trans (attempt _ s)

/-- Announcing a statement leaves the levels alone. -/
theorem announced {answered : Answered Cursor} (h : c.SameLevels answered.2) :
    c.SameLevels (Connection.announced s answered).2 := by
  obtain ⟨_ | cursor, c'⟩ := answered
  · exact h
  · exact h.trans (record c' s)

/-- Running a statement leaves the levels alone. -/
theorem run (c : Connection) (s : Compiled) : c.SameLevels (c.run s).2 := by
  have hattempt := attempt c s
  unfold Connection.run
  split
  · exact record c s
  · generalize c.attempt s = answered at hattempt ⊢
    obtain ⟨e | cursor, c'⟩ := answered
    · dsimp only
      split
      · exact announced (hattempt.trans (retry c' s))
      · exact hattempt
    · exact hattempt.trans (record c' s)

end Connection.SameLevels

namespace Connection

variable {level : Level} {outer : Levels} {s : Compiled}

/-- Outside of a transaction a writing statement is run. -/
theorem write_outside (h : c.levels = []) (s : Compiled) : c.write s = (c.run s).map some := by
  unfold write
  rw [h]
  rfl

/-- Inside a transaction a writing statement is queued. -/
theorem write_inside (h : c.levels ≠ []) (s : Compiled) :
    c.write s = (.ok none, c.queue (.ofStatement s none)) := by
  obtain ⟨level, outer, hlevels⟩ := List.exists_cons_of_ne_nil h
  unfold write queue
  rw [hlevels]
  rfl

/-- Inside a transaction a statement can be queued. -/
theorem enqueue_inside (h : c.levels ≠ []) (s : Compiled) (collections : Option Collections) :
    c.enqueue s collections = (.ok (), c.queue (.ofStatement s collections)) := by
  obtain ⟨level, outer, hlevels⟩ := List.exists_cons_of_ne_nil h
  unfold enqueue queue
  rw [hlevels]
  rfl

/-- Outside of a transaction there is nothing to queue a statement on. -/
theorem enqueue_outside (h : c.levels = []) (s : Compiled) (collections : Option Collections) :
    c.enqueue s collections = (.error (.transaction .noneToQueueOn), c) := by
  unfold enqueue
  rw [h]
  rfl

/-- A rollback drops the innermost level. -/
theorem rollback_inside (h : c.levels = level :: outer) :
    c.rollback = (.ok (), { c with levels := outer }) := by
  unfold rollback
  rw [h]
  rfl

/-- Outside of a transaction there is nothing to roll back. -/
theorem rollback_outside (h : c.levels = []) :
    c.rollback = (.error (.transaction .noneToRollBack), c) := by
  unfold rollback
  rw [h]
  rfl

/-- Outside of a transaction there is nothing to close. -/
theorem close_outside (h : c.levels = []) (attempts : Nat) :
    c.close attempts = (.error (.transaction .noneToCommit), c) := by
  have hsame : { c with levels := [] } = c := by rw [← h]
  unfold close
  rw [h]
  exact congrArg (Prod.mk _) hsame

/-- A level without commands is dropped when it is closed. -/
theorem close_empty (h : c.levels = level :: outer) (hcommands : level.commands = [])
    (attempts : Nat) :
    c.close attempts = (.error (.transaction .nothingToCommit), { c with levels := outer }) := by
  unfold close
  rw [h, Levels.commit_of_empty hcommands]

/-- An inner level with commands is closed into the level around it. -/
theorem close_nested {parent : Level} (h : c.levels = level :: parent :: outer)
    (hcommands : level.commands ≠ []) (attempts : Nat) :
    c.close attempts = (.ok none, { c with levels := parent.append level :: outer }) := by
  unfold close
  rw [h, Levels.commit_nested hcommands]

/-- The outermost level with commands is closed by a transaction. -/
theorem close_outermost (h : c.levels = [level]) (hcommands : level.commands ≠ [])
    (attempts : Nat) :
    c.close attempts =
      (execute { c with levels := [] } level.toTransaction attempts).map some := by
  unfold close
  rw [h, Levels.commit_outermost hcommands]

theorem commit_outside (h : c.levels = []) :
    c.commit = (.error (.transaction .noneToCommit), c) := close_outside h _

theorem commit_empty (h : c.levels = level :: outer) (hcommands : level.commands = []) :
    c.commit = (.error (.transaction .nothingToCommit), { c with levels := outer }) :=
  close_empty h hcommands _

/-- An inner level with commands is committed into the level around it. -/
theorem commit_nested {parent : Level} (h : c.levels = level :: parent :: outer)
    (hcommands : level.commands ≠ []) :
    c.commit = (.ok none, { c with levels := parent.append level :: outer }) :=
  close_nested h hcommands _

/-- The outermost level with commands is sent as often as is configured. -/
theorem commit_outermost (h : c.levels = [level]) (hcommands : level.commands ≠ [])
    (hpretending : c.pretending = false) :
    c.commit = (send level.toTransaction (max c.config.transactionAttempts 1 - 1)
      { c with levels := [] }).map some := by
  rw [commit, close_outermost h hcommands, execute]
  dsimp only
  rw [hpretending]
  rfl

/-- What attempts to run a transaction do to a connection: they send this transaction and
reconnects, and open no levels. -/
structure Attempted (t : Transaction) (c c' : Connection) : Prop where
  requests : ∃ sent, c'.server.requests = c.server.requests ++ sent ∧
    ∀ request ∈ sent, request = .transaction t ∨ request = .reconnect
  levels : c.levels = [] → c'.levels = []
  pretending : c'.pretending = c.pretending

namespace Attempted

variable {t : Transaction} {c' c'' : Connection}

/-- What sends nothing and opens no levels makes no attempt. -/
theorem of_same (hserver : c'.server.requests = c.server.requests)
    (hlevels : c.levels = [] → c'.levels = []) (hpretending : c'.pretending = c.pretending) :
    Attempted t c c' :=
  ⟨⟨[], by rw [hserver, List.append_nil], fun _ hr => (List.not_mem_nil hr).elim⟩, hlevels,
    hpretending⟩

theorem trans (h : Attempted t c c') (h' : Attempted t c' c'') : Attempted t c c'' := by
  obtain ⟨sent, hsent, hall⟩ := h.requests
  obtain ⟨more, hmore, hall'⟩ := h'.requests
  refine ⟨⟨sent ++ more, by rw [hmore, hsent, List.append_assoc], fun request hr => ?_⟩,
    fun hlevels => h'.levels (h.levels hlevels), h'.pretending.trans h.pretending⟩
  rcases List.mem_append.mp hr with hr | hr
  · exact hall request hr
  · exact hall' request hr

/-- Sending the transaction is an attempt. -/
theorem transact (t : Transaction) (c : Connection) :
    Attempted t c { c with server := (c.server.transact t).2 } := by
  refine ⟨⟨[.transaction t], rfl, fun request hr => ?_⟩, id, rfl⟩
  rw [List.mem_singleton.mp hr]
  exact Or.inl rfl

/-- A reconnect belongs to the attempts. -/
theorem reconnect (t : Transaction) (c : Connection) :
    Attempted t c { c with server := c.server.reconnect.2 } := by
  refine ⟨⟨[.reconnect], rfl, fun request hr => ?_⟩, id, rfl⟩
  rw [List.mem_singleton.mp hr]
  exact Or.inr rfl

theorem dropLevels (t : Transaction) (c : Connection) : Attempted t c c.dropLevels :=
  of_same rfl (fun _ => rfl) rfl

theorem record (t : Transaction) (c : Connection) (s : Compiled) : Attempted t c (c.record s) :=
  of_same rfl id rfl

/-- Giving up belongs to the attempts. -/
theorem giveUp (t : Transaction) (c : Connection) (source : ClientError) :
    Attempted t c (c.giveUp t source).2 := by
  unfold Connection.giveUp
  dsimp only
  split
  · exact dropLevels t c
  · exact of_same rfl id rfl

/-- Behind the first attempt there are only further attempts with the same transaction. -/
theorem send (t : Transaction) (again : Nat) (c : Connection) :
    Attempted t { c with server := (c.server.transact t).2 } (Connection.send t again c).2 := by
  induction again generalizing c with
  | zero =>
      unfold Connection.send
      rcases c.server.transact t with ⟨e | result, server⟩
      · exact giveUp t _ e
      · exact record t _ _
  | succ again ih =>
      -- A further attempt, from whatever connection the first one has led to.
      have hagain : ∀ {c' c'' : Connection}, Attempted t c' c'' →
          Attempted t c' (Connection.send t again c'').2 :=
        fun h => h.trans ((transact t _).trans (ih _))
      unfold Connection.send
      rcases c.server.transact t with ⟨e | result, server⟩
      · dsimp only
        split
        · exact hagain (of_same rfl id rfl)
        · split
          · have hdropped := dropLevels t { c with server := server }
            have hreconnected := hdropped.trans (reconnect t _)
            rcases hreply :
              (Connection.dropLevels { c with server := server }).server.reconnect with
              ⟨source | done, server'⟩ <;> rw [hreply] at hreconnected
            · exact hreconnected
            · exact hagain hreconnected
          · exact giveUp t _ e
      · exact record t _ _

/-- All attempts send the transaction that the first one sends. -/
theorem outermost (t : Transaction) (again : Nat) (c : Connection) :
    Attempted t c (Connection.send t again c).2 := (transact t c).trans (send t again c)

end Attempted

end Connection

end levels

namespace Act

variable {c : Connection} {acts more : List Act} {collections : Collections} {next : Nat}

/-- An act is carried out as the operation that it is, and takes no number. -/
theorem perform_operation [Naming] (act : Act) (c : Connection) (next : Nat) :
    act.operation.perform c next = (act.answered c, next) := by
  cases act <;> rfl

/-- Acts are carried out from the first on. -/
theorem run_cons [Naming] (act : Act) (acts : List Act) (c : Connection) (next : Nat) :
    run (act :: acts) c next = run acts (act.answered c).2 next := by
  change (Operation.performAll (acts.map operation) (act.operation.perform c next).1.2
    (act.operation.perform c next).2).1 = _
  rw [perform_operation]
  rfl

/-- Acts are carried out in order. -/
theorem run_append [Naming] (acts more : List Act) (c : Connection) (next : Nat) :
    run (acts ++ more) c next = run more (run acts c next) next := by
  induction acts generalizing c with
  | nil => rfl
  | cons act rest ih => rw [List.cons_append, run_cons, run_cons, ih]

/-- What is asked for in any case leaves the levels alone. -/
theorem levels_run_statement (h : c.pretending = false) (s : Compiled) :
    (c.run s).2.levels = c.levels ∧ (c.run s).2.pretending = false :=
  ⟨(Connection.SameLevels.run c s).levels, (Connection.SameLevels.run c s).pretending.trans h⟩

/-- A write is queued if there is a level. -/
theorem levels_write (h : c.pretending = false) (s : Compiled) :
    (c.write s).2.levels = Move.apply c.levels (.queue (.ofStatement s none)) ∧
      (c.write s).2.pretending = false := by
  by_cases hlevels : c.levels = []
  · have hnone : Move.apply c.levels (.queue (.ofStatement s none)) = c.levels := by
      rw [hlevels]
      rfl
    rw [Connection.write_outside hlevels, Answered.map_snd, hnone]
    exact levels_run_statement h s
  · rw [Connection.write_inside hlevels]
    exact ⟨rfl, h⟩

/-- A commit changes the levels alike, whether a transaction is sent or not. -/
theorem levels_commit (h : c.pretending = false) :
    c.commit.2.levels = c.levels.commit.2 ∧ c.commit.2.pretending = false := by
  cases hlevels : c.levels with
  | nil =>
      rw [Connection.commit_outside hlevels]
      exact ⟨hlevels, h⟩
  | cons level outer =>
      by_cases hcommands : level.commands = []
      · rw [Connection.commit_empty hlevels hcommands, Levels.commit_of_empty hcommands]
        exact ⟨rfl, h⟩
      · cases outer with
        | cons parent rest =>
            rw [Connection.commit_nested hlevels hcommands, Levels.commit_nested hcommands]
            exact ⟨rfl, h⟩
        | nil =>
            have hsent := Connection.Attempted.outermost level.toTransaction
              (max c.config.transactionAttempts 1 - 1) { c with levels := [] }
            rw [Connection.commit_outermost hlevels hcommands h, Answered.map_snd,
              Levels.commit_outermost hcommands]
            exact ⟨hsent.levels rfl, hsent.pretending.trans h⟩

/-- An act changes the levels as its move does, whatever the server answers. -/
theorem levels_answered (act : Act) (h : c.pretending = false) :
    (act.answered c).2.levels = c.levels.perform act.move?.toList ∧
      (act.answered c).2.pretending = false := by
  cases act with
  | select s =>
      rw [answered, Answered.map_snd, Connection.select, Answered.map_snd]
      exact levels_run_statement h s
  | statement s =>
      rw [answered, Answered.map_snd, Connection.statement, Answered.map_snd]
      exact levels_write h s
  | affecting s =>
      rw [answered, Answered.map_snd, Connection.affecting, Answered.map_snd]
      exact levels_write h s
  | returning s =>
      rw [answered, Answered.map_snd, Connection.returning, Answered.map_snd]
      exact levels_write h s
  | start collections => exact ⟨rfl, h⟩
  | enqueue s collections =>
      rw [answered, Answered.map_snd]
      by_cases hlevels : c.levels = []
      · rw [Connection.enqueue_outside hlevels]
        refine ⟨?_, h⟩
        rw [hlevels]
        rfl
      · rw [Connection.enqueue_inside hlevels]
        exact ⟨rfl, h⟩
  | rollback =>
      rw [answered, Answered.map_snd]
      cases hlevels : c.levels with
      | nil =>
          rw [Connection.rollback_outside hlevels]
          exact ⟨hlevels, h⟩
      | cons level outer =>
          rw [Connection.rollback_inside hlevels]
          exact ⟨rfl, h⟩
  | commit =>
      rw [answered, Answered.map_snd]
      exact levels_commit h

/-- The levels after acts are those after their moves. -/
theorem levels_run [Naming] (acts : List Act) (h : c.pretending = false) (next : Nat) :
    (run acts c next).levels = c.levels.perform (moves acts) ∧
      (run acts c next).pretending = false := by
  induction acts generalizing c with
  | nil => exact ⟨rfl, h⟩
  | cons act rest ih =>
      obtain ⟨hlevels, hpretending⟩ := act.levels_answered h
      obtain ⟨hrest, hlast⟩ := ih hpretending
      rw [run_cons]
      refine ⟨?_, hlast⟩
      rw [hrest, hlevels, moves, moves, List.filterMap_cons]
      cases act.move? <;> rfl

/-- The acts since the outermost level was opened: it was opened outside of a transaction, and a
level has been open ever since. -/
structure Since [Naming] (c : Connection) (next : Nat) (before : List Act)
    (collections : Collections) (since : List Act) : Prop where
  outside : (run before c next).levels = []
  inside : ∀ part, part <+: since → (run (before ++ .start collections :: part) c next).levels ≠ []

/-- The commands of the levels are what is left of the acts since the outermost level was opened. -/
theorem Since.queued [Naming] {before since : List Act} (h : Since c next before collections since)
    (hpretending : c.pretending = false) :
    (run (before ++ .start collections :: since) c next).levels.queued = survivors
    (moves since) := by
  have hrun : ∀ part, (run (before ++ .start collections :: part) c next).levels =
      Levels.perform (Levels.start collections []) (moves part) := by
    intro part
    obtain ⟨hlevels, hp⟩ := levels_run before hpretending next
    rw [run_append, (levels_run (.start collections :: part) hp next).1, h.outside]
    rfl
  rw [hrun]
  refine Levels.queued_since fun part hpart => ?_
  obtain ⟨acts, hacts, rfl⟩ := List.prefix_filterMap_iff.mp hpart
  have hinside := h.inside acts hacts
  rwa [hrun] at hinside

end Act

end AqlBuilder
