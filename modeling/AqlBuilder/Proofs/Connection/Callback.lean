import AqlBuilder.Connection.Operation
import AqlBuilder.Proofs.Connection.Queue
import AqlBuilder.Proofs.Query.Copy
import AqlBuilder.Proofs.Transaction.Journal

/-!
# Callbacks

What the caller of a transaction may do with the connection inside of it: carry out operations that
do not wait for the server, one after another, each with the answers to all earlier ones at hand,
and come to a result at any time, also behind operations that failed. To the levels such a callback
does no more than its journal says, and the server hears nothing of it.

- `Callback`, `Callback.session`: callbacks, and what they do with a connection.
- `Callback.moves`: the journal of the levels that a callback keeps.
- `Callback.ofOperations`: the callback that stops at the first operation that fails.
- `LocalOperation.moved_perform`, `Callback.moved_session`: one operation and a whole callback.
-/

namespace AqlBuilder

/-- A computation of the caller on a connection. -/
inductive Callback (α : Type)
  | done (result : Except Error α)
  /-- What is done next depends on the answer and on the connection after the operation. -/
  | step (operation : LocalOperation) (rest : Answered Answer → Callback α)

/-- What an operation does to open levels. A move that cannot be made is not there. -/
def LocalOperation.moves [Naming] (operation : LocalOperation) (c : Connection)
    (next : Nat) : List Move :=
  match operation with
  | start collections => [.start collections]
  | enqueue statement collections =>
    match (statement.make c next).1 with
    | .ok s => if c.levels.isEmpty then [] else [.queue (.ofStatement s collections)]
    | .error _ => []
  | rollback => if c.levels.isEmpty then [] else [.rollback]
  | _ => []

namespace Callback

variable [Naming] {α β : Type}

/-- Carry out a callback. -/
def session : Callback α → Session α
  | done result => fun c => pure (result, c)
  | step operation rest => fun c => do
    let answered ← operation.perform c
    (rest answered).session answered.2

/-- Change the result of a callback. -/
def map (f : α → β) : Callback α → Callback β
  | done result => done (result.map f)
  | step operation rest => step operation fun answered => (rest answered).map f

/-- The callback that carries out operations up to the first error. -/
def ofOperations : List LocalOperation → Callback (List Answer)
  | [] => done (.ok [])
  | operation :: rest => step operation fun answered =>
    match answered.1 with
    | .error e => done (.error e)
    | .ok answer => (ofOperations rest).map (answer :: ·)

/-- The operations that a callback carries out. -/
def performed : Callback α → Connection → Nat → List LocalOperation
  | done _, _, _ => []
  | step operation rest, c, next =>
    let (answered, next) := operation.perform c next
    operation :: (rest answered).performed answered.2 next

/-- What a callback does to open levels. -/
def moves : Callback α → Connection → Nat → List Move
  | done _, _, _ => []
  | step operation rest, c, next =>
    let (answered, after) := operation.perform c next
    operation.moves c next ++ (rest answered).moves answered.2 after

end Callback

/-- A connection after moves of its levels that the server knows nothing of. -/
structure Connection.Moved (c : Connection) (moves : List Move) (c' : Connection) : Prop where
  config : c'.config = c.config
  server : c'.server = c.server
  admits : c.levels.Admits moves
  levels : c'.levels = c.levels.perform moves
  uncommitted : .commit ∉ moves

namespace Connection.Moved

variable {c c' c'' : Connection} {moves more : List Move}

/-- What changes neither configuration nor server nor levels moves nothing. -/
theorem none (hconfig : c'.config = c.config) (hserver : c'.server = c.server)
    (hlevels : c'.levels = c.levels) : c.Moved [] c' :=
  ⟨hconfig, hserver, trivial, hlevels, List.not_mem_nil⟩

/-- Opening a level is one move. -/
theorem start (c : Connection) (collections : Collections) :
    c.Moved [.start collections] (c.start collections) :=
  ⟨rfl, rfl, ⟨trivial, trivial⟩, rfl, by simp⟩

/-- Queuing a statement is a move if a level is open. -/
theorem enqueue (c : Connection) (s : Compiled) (collections : Option Collections) :
    c.Moved (if c.levels.isEmpty then [] else [.queue (.ofStatement s collections)])
      (c.enqueue s collections).2 := by
  by_cases hlevels : c.levels = []
  · rw [enqueue_outside hlevels, hlevels]
    exact none rfl rfl rfl
  · rw [enqueue_inside hlevels, if_neg (by simpa using hlevels)]
    exact ⟨rfl, rfl, ⟨hlevels, trivial⟩, rfl, by simp⟩

/-- A rollback is a move if a level is open. -/
theorem rollback (c : Connection) :
    c.Moved (if c.levels.isEmpty then [] else [.rollback]) c.rollback.2 := by
  cases hlevels : c.levels with
  | nil =>
      rw [rollback_outside hlevels]
      exact none rfl rfl rfl
  | cons level outer =>
      rw [rollback_inside hlevels]
      refine ⟨rfl, rfl, ⟨?_, trivial⟩, ?_, by simp⟩
      · rw [hlevels]
        exact List.cons_ne_nil _ _
      · rw [hlevels]
        rfl

theorem trans (h : c.Moved moves c') (h' : c'.Moved more c'') : c.Moved (moves ++ more) c'' where
  config := h'.config.trans h.config
  server := h'.server.trans h.server
  admits := Levels.admits_append.mpr ⟨h.admits, h.levels ▸ h'.admits⟩
  levels := by rw [h'.levels, h.levels, Levels.perform_append]
  uncommitted hmem := (List.mem_append.mp hmem).elim h.uncommitted h'.uncommitted

end Connection.Moved

/-- A connection is used if the statement can be compiled, and left alone otherwise. -/
theorem Session.compiled_fst {α : Type} (statement : Outcome Compiled)
    (use : Connection → Compiled → Answered α) (c : Connection) (next : Nat) :
    (Session.compiled statement use c next).1 =
      match (statement next).1 with
      | .ok s => use c s
      | .error e => (.error e, c) := by
  change ((match (statement next).1 with
    | .ok s => (pure (use c s) : Supply (Answered α))
    | .error e => pure (.error e, c)) (statement next).2).1 = _
  cases (statement next).1 <;> rfl

/-- The connection is used just if the statement is compiled. -/
theorem Session.compiled_snd {α : Type} (statement : Outcome Compiled)
    (use : Connection → Compiled → Answered α) (c : Connection) (next : Nat) :
    (Session.compiled statement use c next).1.2 =
      match (statement next).1 with
      | .ok s => (use c s).2
      | .error _ => c := by
  rw [Session.compiled_fst]
  cases (statement next).1 <;> rfl

/-- The connection is used just if the statement is made. -/
theorem Session.making_snd [Naming] {α : Type} (statement : StatementScript)
    (use : Connection → Compiled → Answered α) (c : Connection) (next : Nat) :
    (Session.making statement use c next).1.2 =
      match (statement.make c next).1 with
      | .ok s => (use c s).2
      | .error _ => c :=
  compiled_snd (statement.make c) use c next

/-- An operation changes the levels as its moves do, and is none of the server's business. -/
theorem LocalOperation.moved_perform [Naming] (operation : LocalOperation) (c : Connection)
    (next : Nat) :
    c.Moved (operation.moves c next) (operation.perform c next).1.2 := by
  cases operation with
  | start collections => exact .start c collections
  | enqueue statement collections =>
      rw [perform, Session.making_snd, moves]
      cases (statement.make c next).1 with
      | ok s =>
          dsimp only
          rw [Answered.map_snd]
          exact .enqueue c s collections
      | error e => exact .none rfl rfl rfl
  | rollback =>
      change c.Moved _ (c.rollback.map fun _ => Answer.nothing).2
      rw [Answered.map_snd]
      exact .rollback c
  | aggregate q function column =>
      change c.Moved [] _
      rw [perform, Session.making_snd]
      cases (StatementScript.make c _ next).1 <;> exact .none rfl rfl rfl
  | fail _ | failClient _ | enableLog | disableLog | flushLog | showLog | startPretending
    | finishPretending => exact .none rfl rfl rfl

namespace Callback

variable [Naming] {α β : Type}

/-- A callback changes the levels as its moves do: by induction on the callback, whatever the
answers on the way. -/
theorem moved_session (callback : Callback α) (c : Connection) (next : Nat) :
    c.Moved (callback.moves c next) (callback.session c next).1.2 := by
  induction callback generalizing c next with
  | done result => exact .none rfl rfl rfl
  | step operation rest ih => exact (operation.moved_perform c next).trans (ih _ _ _)

/-- Changing the result of a callback leaves what it does to the connection. -/
theorem session_map (f : α → β) (callback : Callback α) (c : Connection) (next : Nat) :
    (callback.map f).session c next =
      ((callback.session c next).1.map f, (callback.session c next).2) := by
  induction callback generalizing c next with
  | done result => cases result <;> rfl
  | step operation rest ih => exact ih _ _ _

/-- Operations that stop at the first error are a callback. -/
theorem session_ofOperations (operations : List LocalOperation) :
    (ofOperations operations).session = LocalOperation.performAll operations := by
  induction operations with
  | nil => rfl
  | cons operation rest ih =>
      funext c next
      rw [ofOperations, session, LocalOperation.performAll]
      beta_reduce
      rcases hperform : operation.perform c next with ⟨⟨result, c'⟩, next'⟩
      rw [Supply.bind_result hperform, Supply.bind_result hperform]
      cases result with
      | error e => rfl
      | ok answer =>
          dsimp only
          rw [session_map, ih]
          rfl

end Callback

end AqlBuilder
