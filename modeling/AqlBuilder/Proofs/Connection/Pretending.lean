import AqlBuilder.Alias.Rules
import AqlBuilder.Proofs.Connection.Callback
import AqlBuilder.Proofs.Connection.Sent

/-!
# Pretending

A connection that pretends keeps statements and transactions in its log instead of sending them.
Only to ask for the plan of a statement is no such operation: the statement is prepared on the
server, which explains it. Nothing else that is asked of the connection reaches the server, in
transactions or outside, as long as the pretence is not given up.

- `Deed`: an operation, or a transaction with a callback of the caller.
- `Deed.explained`, `Deed.performed`: the statements whose plan a deed asks for, and what it carries
  out without waiting for the server.
- `Connection.Quiet`: what the connection has done is none of the server's business.
- `Deed.hushed_perform`: one deed, by cases on what is asked.
- `Deed.hushed_performAll` is the law of a sequence of deeds.
-/

namespace AqlBuilder

/-- Everything that can be asked of a connection. -/
inductive Deed
  | operation (operation : Operation)
  | transaction (collections : Collections) (attempts : Nat) (callback : Callback Answer)

namespace Deed

variable [Naming]

/-- Carry out a deed. -/
def perform : Deed → Session Answer
  | operation o => o.perform
  | transaction collections attempts callback =>
    .transaction collections attempts callback.session

/-- What a deed carries out without waiting for the server, in its callback if it has one. -/
def performed : Deed → Connection → Nat → List LocalOperation
  | operation (.locally o), _, _ => [o]
  | operation (.transaction collections _ operations), c, next =>
    (Callback.ofOperations operations).performed (c.start collections) next
  | transaction collections _ callback, c, next => callback.performed (c.start collections) next
  | operation _, _, _ => []

/-- The statement whose plan a deed asks for, if it is one that can be compiled. -/
def explained : Deed → Connection → Nat → List Compiled
  | operation (.send .explain statement), c, next => (statement.make c next).1.toOption.toList
  | operation (.query q .explain), c, next =>
    ((q.build c next).1.toCompiled (q.build c next).2).1.toOption.toList
  | _, _, _ => []

/-- Carry out deeds one after another, whatever their answers. -/
def performAll : List Deed → Connection → Nat → Connection × Nat
  | [], c, next => (c, next)
  | deed :: rest, c, next =>
    let (answered, next) := deed.perform c next
    performAll rest answered.2 next

/-- What deeds carry out without waiting for the server. -/
def performedAll : List Deed → Connection → Nat → List LocalOperation
  | [], _, _ => []
  | deed :: rest, c, next =>
    let (answered, after) := deed.perform c next
    deed.performed c next ++ performedAll rest answered.2 after

/-- The statements whose plan deeds ask for. -/
def explainedAll : List Deed → Connection → Nat → List Compiled
  | [], _, _ => []
  | deed :: rest, c, next =>
    let (answered, after) := deed.perform c next
    deed.explained c next ++ explainedAll rest answered.2 after

end Deed

/-- Another step for the answer leaves the connection. -/
@[simp] theorem Answered.andThen_snd {α β : Type} (f : α → Except Error β) (answered : Answered α) :
    (answered.andThen f).2 = answered.2 := by
  obtain ⟨_ | a, c⟩ := answered <;> rfl

namespace Connection

/-- A connection that pretends, after something that the server knows nothing of. -/
structure Quiet (c c' : Connection) : Prop where
  server : c'.server = c.server
  pretending : c'.pretending = true

/-- A connection that pretends, after statements were explained and nothing else was sent. -/
structure Hushed (c : Connection) (explained : List Compiled) (c' : Connection) : Prop where
  requests : c'.server.requests = c.server.requests ++ explained.map .prepare
  executions : c'.server.executions = c.server.executions
  transactions : c'.server.transactions = c.server.transactions
  reconnects : c'.server.reconnects = c.server.reconnects
  /-- The server knows nothing of it if there was nothing to explain. -/
  unheard : explained = [] → c'.server = c.server
  pretending : c'.pretending = true

variable {c c' c'' : Connection}

section quiet

theorem Quiet.refl (h : c.pretending = true) : c.Quiet c := ⟨rfl, h⟩

theorem Quiet.trans (h : c.Quiet c') (h' : c'.Quiet c'') : c.Quiet c'' :=
  ⟨h'.server.trans h.server, h'.pretending⟩

/-- What is made of an answer is none of the server's business. -/
theorem Quiet.map {α β : Type} {answered : Answered α} (f : α → β) (h : c.Quiet answered.2) :
    c.Quiet (answered.map f).2 := by
  rwa [Answered.map_snd]

theorem quiet_record (h : c.pretending = true) (s : Compiled) : c.Quiet (c.record s) := ⟨rfl, h⟩

theorem quiet_run (h : c.pretending = true) (s : Compiled) : c.Quiet (c.run s).2 := by
  rw [run, if_pos h]
  exact quiet_record h s

theorem quiet_select (h : c.pretending = true) (s : Compiled) : c.Quiet (c.select s).2 :=
  (quiet_run h s).map _

theorem quiet_selectOne (h : c.pretending = true) (s : Compiled) : c.Quiet (c.selectOne s).2 :=
  (quiet_select h s).map _

/-- Reading rows while pretending is quiet. -/
theorem quiet_selectAs {α : Type} (h : c.pretending = true) (read : Json → Option α)
    (s : Compiled) : c.Quiet (c.selectAs read s).2 := by
  rw [selectAs, Answered.andThen_snd]
  exact quiet_select h s

/-- Writing while pretending is quiet. -/
theorem quiet_write (h : c.pretending = true) (s : Compiled) : c.Quiet (c.write s).2 := by
  by_cases hlevels : c.levels = []
  · rw [write_outside hlevels]
    exact (quiet_run h s).map _
  · rw [write_inside hlevels]
    exact ⟨rfl, h⟩

theorem quiet_statement (h : c.pretending = true) (s : Compiled) : c.Quiet (c.statement s).2 :=
  (quiet_write h s).map _

theorem quiet_affecting (h : c.pretending = true) (s : Compiled) : c.Quiet (c.affecting s).2 :=
  (quiet_write h s).map _

theorem quiet_returning (h : c.pretending = true) (s : Compiled) : c.Quiet (c.returning s).2 :=
  (quiet_write h s).map _

/-- A commit is quiet while pretending. -/
theorem quiet_close (h : c.pretending = true) (attempts : Nat) : c.Quiet (c.close attempts).2 := by
  unfold close
  split
  · exact ⟨rfl, h⟩
  · exact ⟨rfl, h⟩
  · rename_i t levels _
    rw [Answered.map_snd, execute, if_pos h]
    exact ⟨rfl, h⟩

/-- A rollback is quiet while pretending. -/
theorem quiet_rollback (h : c.pretending = true) : c.Quiet c.rollback.2 := by
  unfold rollback
  split
  · exact ⟨rfl, h⟩
  · exact .refl h

/-- Ending a transaction is quiet while pretending, with whatever result. -/
theorem quiet_settle {α : Type} (h : c.pretending = true) (attempts : Nat)
    (result : Except Error α) : c.Quiet (c.settle attempts result).2 := by
  cases result with
  | ok value => exact (quiet_close h attempts).map _
  | error e =>
      have hrollback := quiet_rollback h
      rw [settle]
      split
      · exact ⟨rfl, h⟩
      · generalize c.rollback = answered at hrollback ⊢
        obtain ⟨_ | _, c'⟩ := answered <;> exact hrollback

/-- What uses a compiled statement quietly is quiet, also if there is no such statement. -/
theorem quiet_compiled {α : Type} {use : Connection → Compiled → Answered α}
    (h : c.pretending = true) (huse : ∀ s, c.Quiet (use c s).2) (statement : Outcome Compiled)
    (next : Nat) : c.Quiet (Session.compiled statement use c next).1.2 := by
  rw [Session.compiled_snd]
  cases (statement next).1 with
  | ok s => exact huse s
  | error e => exact .refl h

/-- What uses a made statement quietly is quiet, also if there is no such statement. -/
theorem quiet_making [Naming] {α : Type} {use : Connection → Compiled → Answered α}
    (h : c.pretending = true) (huse : ∀ s, c.Quiet (use c s).2) (statement : StatementScript)
    (next : Nat) : c.Quiet (Session.making statement use c next).1.2 :=
  quiet_compiled h huse (statement.make c) next

end quiet

namespace Hushed

theorem refl (h : c.pretending = true) : c.Hushed [] c :=
  ⟨(List.append_nil _).symm, rfl, rfl, rfl, fun _ => rfl, h⟩

/-- What is quiet explains no statement. -/
theorem of_quiet (h : c.Quiet c') : c.Hushed [] c' where
  requests := by rw [h.server, List.map_nil, List.append_nil]
  executions := by rw [h.server]
  transactions := by rw [h.server]
  reconnects := by rw [h.server]
  unheard _ := h.server
  pretending := h.pretending

theorem trans {explained more : List Compiled} (h : c.Hushed explained c')
    (h' : c'.Hushed more c'') : c.Hushed (explained ++ more) c'' where
  requests := by rw [h'.requests, h.requests, List.append_assoc, List.map_append]
  executions := h'.executions.trans h.executions
  transactions := h'.transactions.trans h.transactions
  reconnects := h'.reconnects.trans h.reconnects
  unheard hnone := by
    obtain ⟨hfirst, hsecond⟩ := List.append_eq_nil_iff.mp hnone
    exact (h'.unheard hsecond).trans (h.unheard hfirst)
  pretending := h'.pretending

/-- To ask for a plan sends the statement, whether the connection pretends or not. -/
theorem explain (h : c.pretending = true) (s : Compiled) : c.Hushed [s] (c.explain s).2 := by
  unfold Connection.explain
  rw [Server.prepare_eq]
  cases c.server.preparationReply 0 with
  | error source => exact ⟨rfl, rfl, rfl, rfl, nofun, h⟩
  | ok _ => exact ⟨rfl, rfl, rfl, rfl, nofun, h⟩

/-- Nothing is sent of a statement that cannot be compiled. -/
theorem explain_compiled (h : c.pretending = true) (statement : Outcome Compiled) (next : Nat) :
    c.Hushed (statement next).1.toOption.toList
      (Session.compiled statement (fun c s => (c.explain s).map Answer.json) c next).1.2 := by
  rw [Session.compiled_snd]
  cases (statement next).1 with
  | ok s =>
      dsimp only
      rw [Answered.map_snd]
      exact .explain h s
  | error e => exact .refl h

end Hushed

end Connection

section deeds

open Connection

variable {c : Connection}

/-- A terminal that does not ask for a plan is kept from the server. -/
theorem Builder.quiet_perform [Naming] (b : Builder) {terminal : Terminal Builder}
    (hplan : terminal ≠ .explain) (h : c.pretending = true) (next : Nat) :
    c.Quiet (b.perform terminal c next).1.2 := by
  -- Some terminals compile a copy of the builder.
  have hcopied : ∀ {make : Supply Builder} {use : Connection → Compiled → Answered Answer},
      (∀ s, c.Quiet (use c s).2) →
      c.Quiet ((do
        let query ← make
        Session.compiled query.toCompiled use c : Supply (Answered Answer)) next).1.2 :=
    fun {make} _ huse => quiet_compiled h huse (make next).1.toCompiled (make next).2
  cases terminal with
  | get => exact quiet_compiled h (fun s => (quiet_select h s).map _) _ _
  | characters => exact quiet_compiled h (fun s => (quiet_selectAs h _ s).map _) _ _
  | first | find _ | value _ => exact hcopied fun s => (quiet_selectOne h s).map _
  | existence | count | aggregate _ _ =>
      exact quiet_compiled h (fun s => (quiet_selectOne h s).map _) _ _
  | explain => exact absurd rfl hplan
  | insert _ | truncate => exact quiet_compiled h (fun s => (quiet_statement h s).map _) _ _
  | insertKey _ => exact quiet_compiled h (fun s => (quiet_returning h s).map _) _ _
  | update _ | adjust _ _ _ | upsert _ _ _ | delete _ =>
      exact quiet_compiled h (fun s => (quiet_affecting h s).map _) _ _

/-- A terminal does not come to ask for a plan when the queries of its operands are built. -/
theorem Terminal.run_ne_explain [Naming] {terminal : Terminal (Subject Script)}
    (hplan : terminal ≠ .explain)
    (b : Builder) (next : Nat) : (terminal.run b next).1 ≠ .explain := by
  cases terminal <;> first | exact absurd rfl hplan | nofun

/-- A use of a statement that does not ask for its plan is kept from the server. -/
theorem Use.quiet_apply {use : Use} (hplan : use ≠ .explain) (h : c.pretending = true)
    (s : Compiled) : c.Quiet (use.apply c s).2 := by
  cases use with
  | select => exact (quiet_select h s).map _
  | characters => exact (quiet_selectAs h _ s).map _
  | selectOne => exact (quiet_selectOne h s).map _
  | statement => exact (quiet_statement h s).map _
  | affecting => exact (quiet_affecting h s).map _
  | returning => exact (quiet_returning h s).map _
  | explain => exact absurd rfl hplan

/-- An operation that does not wait for the server leaves the pretence alone, but for the one that
gives it up. -/
theorem LocalOperation.pretending_perform [Naming] {operation : LocalOperation}
    (hfinish : operation ≠ .finishPretending) (h : c.pretending = true) (next : Nat) :
    (operation.perform c next).1.2.pretending = true := by
  cases operation with
  | start _ | fail _ | failClient _ | enableLog | disableLog | flushLog | showLog => exact h
  | startPretending => rfl
  | finishPretending => exact absurd rfl hfinish
  | rollback => exact ((quiet_rollback h).map _).pretending
  | enqueue statement collections =>
      refine (quiet_making h (fun s => Quiet.map _ ?_) statement next).pretending
      unfold Connection.enqueue
      split
      · exact ⟨rfl, h⟩
      · exact .refl h
  | aggregate q function column =>
      exact (quiet_making h (fun _ => .refl h) (.query q (.aggregate function column))
        next).pretending

/-- A callback that does not give up the pretence is kept from the server: by induction on the
callback. -/
theorem Callback.quiet_session [Naming] {α : Type} (callback : Callback α) (c : Connection)
    (next : Nat)
    (hfinish : .finishPretending ∉ callback.performed c next) (h : c.pretending = true) :
    c.Quiet (callback.session c next).1.2 := by
  refine ⟨(callback.moved_session c next).server, ?_⟩
  induction callback generalizing c next with
  | done result => exact h
  | step operation rest ih =>
      change .finishPretending ∉ operation :: (rest (operation.perform c next).1).performed
        (operation.perform c next).1.2 (operation.perform c next).2 at hfinish
      obtain ⟨hfirst, hrest⟩ := List.ne_and_not_mem_of_not_mem_cons hfinish
      exact ih _ _ _ hrest (operation.pretending_perform hfirst.symm h next)

/-- A transaction with a callback is kept from the server. -/
theorem Session.quiet_transaction [Naming] {α : Type} (callback : Callback α)
    (collections : Collections) (attempts next : Nat) (h : c.pretending = true)
    (hfinish : .finishPretending ∉ callback.performed (c.start collections) next) :
    c.Quiet (Session.transaction collections attempts callback.session c next).1.2 := by
  have hinside := callback.quiet_session (c.start collections) next hfinish h
  have hsettled := quiet_settle hinside.pretending attempts
    (callback.session (c.start collections) next).1.1
  exact ⟨(hinside.trans hsettled).server, hsettled.pretending⟩

namespace Deed

/-- Of a statement that is sent, the server hears if its plan is asked for. -/
theorem hushed_send [Naming] (use : Use) (statement : StatementScript) (h : c.pretending = true)
    (next : Nat) : let deed : Deed := .operation (.send use statement)
      c.Hushed (deed.explained c next) (deed.perform c next).1.2 := by
  by_cases hplan : use = .explain
  · subst hplan
    exact .explain_compiled h (statement.make c) next
  · have hnone : explained (.operation (.send use statement)) c next = [] := by
      cases use <;> first | rfl | exact absurd rfl hplan
    dsimp only
    rw [hnone]
    exact .of_quiet (quiet_making h (fun s => Use.quiet_apply hplan h s) statement next)

/-- Of a query, the server hears if its plan is asked for. -/
theorem hushed_query [Naming] (q : QueryScript) (terminal : Terminal (Subject Script))
    (h : c.pretending = true) (next : Nat) : let deed : Deed := .operation (.query q terminal)
      c.Hushed (deed.explained c next) (deed.perform c next).1.2 := by
  by_cases hplan : terminal = .explain
  · subst hplan
    exact .explain_compiled h (q.build c next).1.toCompiled (q.build c next).2
  · have hnone : explained (.operation (.query q terminal)) c next = [] := by
      cases terminal <;> first | rfl | exact absurd rfl hplan
    dsimp only
    rw [hnone]
    exact .of_quiet (Builder.quiet_perform _ (terminal.run_ne_explain hplan _ _) h _)

/-- A deed sends nothing but the statement whose plan it asks for. -/
theorem hushed_perform [Naming] (deed : Deed) (c : Connection) (next : Nat)
    (h : c.pretending = true) (hfinish : .finishPretending ∉ deed.performed c next) :
    c.Hushed (deed.explained c next) (deed.perform c next).1.2 := by
  cases deed with
  | transaction collections attempts callback =>
      exact .of_quiet (Session.quiet_transaction callback collections attempts next h hfinish)
  | operation o =>
      cases o with
      | locally operation =>
          refine .of_quiet ⟨(operation.moved_perform c next).server, ?_⟩
          exact operation.pretending_perform (List.ne_of_not_mem_cons hfinish).symm h next
      | commit => exact .of_quiet ((quiet_close h _).map _)
      | transaction collections attempts operations =>
          have hquiet := Session.quiet_transaction (.ofOperations operations) collections attempts
            next h hfinish
          rw [Callback.session_ofOperations] at hquiet
          exact .of_quiet (hquiet.map _)
      | send use statement => exact hushed_send use statement h next
      | query q terminal => exact hushed_query q terminal h next

/-- **A connection that pretends asks for plans and for nothing else.** As long as the pretence is
not given up, whatever is asked of the connection, in transactions or outside and with whatever
callbacks, the server gets the statements that are to be explained, in their order, and nothing
else: no statement is executed, no transaction is run and no connection is made again. -/
theorem hushed_performAll [Naming] (deeds : List Deed) (c : Connection) (next : Nat)
    (h : c.pretending = true) (hfinish : .finishPretending ∉ performedAll deeds c next) :
    c.Hushed (explainedAll deeds c next) (performAll deeds c next).1 := by
  induction deeds generalizing c next with
  | nil => exact .refl h
  | cons deed rest ih =>
      obtain ⟨hfirst, hrest⟩ := not_or.mp (List.mem_append.not.mp hfinish)
      have hdeed := deed.hushed_perform c next h hfirst
      exact hdeed.trans (ih _ _ hdeed.pretending hrest)

/-- A write outside of a transaction, one in a callback and a statement to be explained. -/
theorem only_explained_sent :
    let s : Compiled := ⟨"RETURN 1", []⟩
    let write : Compiled := ⟨"FOR doc IN users REMOVE doc IN users", []⟩
    let callback : Callback Answer := .step (.enqueue (.given write) none) fun _ =>
      .done (.ok .nothing)
    let deeds : List Deed := [.operation (.send .affecting (.given write)),
      .transaction .empty 3 callback, .operation (.send .explain (.given s))]
    let c := (ofConfig {} ⟨[], [], [], [], [], []⟩ 1).startPretending
    c.pretending = true ∧ .finishPretending ∉ performedAll deeds c 0 ∧
      c.Hushed [s] (performAll deeds c 0).1 := by
  intro s write callback deeds c
  have hfinish : .finishPretending ∉ performedAll deeds c 0 := by
    change .finishPretending ∉ [LocalOperation.enqueue (.given write) none]
    simp
  exact ⟨rfl, hfinish, hushed_performAll deeds c 0 rfl hfinish⟩

/-- The plan of a statement is asked of the server while the connection pretends. -/
theorem plan_asked_in_pretence :
    let s : Compiled := ⟨"RETURN 1", []⟩
    let c := (ofConfig {} ⟨[], [], [], [], [], []⟩ 0).startPretending
    c.pretending = true ∧ c.server.requests = [] ∧
      ((Operation.send .explain (.given s)).perform c 0).1.2.server.requests = [.prepare s] :=
  ⟨rfl, rfl, rfl⟩

end Deed

end deeds

end AqlBuilder
