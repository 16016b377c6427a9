import AqlBuilder.Proofs.Connection.Retry

/-!
# Attempts of a statement

A statement is prepared and executed, and once more if the connection dropped and could be made
again. What comes of it is settled by the replies of the server alone: those to the preparations,
those to the executions, counted by the statements that could be prepared, and the one to the
reconnect. Only a failure that the server reported can be a dropped connection, so a statement that
was given up because it took too long is not sent again.

- `Connection.Comes`: what an attempt comes to, by the replies to it.
- `Connection.Sends`: what the server gets and what is answered, by what the first attempt comes to.
- `Connection.exists_attempt`: an attempt, with the replies that are left after it.
- `Connection.sent_as_replied` is the law of a run.
-/

namespace AqlBuilder

namespace Server

variable {server : Server} {s : Compiled}

/-- The reply to the preparation that comes after a number of others. -/
def preparationReply (server : Server) (i : Nat) : Except ClientError Unit :=
  server.preparations.getD i (.ok ())

/-- The reply to the execution that comes after a number of others. -/
def executionReply (server : Server) (i : Nat) : Execution :=
  server.executions.getD i ⟨⟨0⟩, .ok ⟨[], 0⟩⟩

/-- Whether the statement after a number of others can be prepared. -/
def prepares (server : Server) (i : Nat) : Bool := (server.preparationReply i).isOk

/-- The reply to the execution of the statement after a number of others. Of those only the ones
that could be prepared were executed. -/
def executionOf (server : Server) (i : Nat) : Execution :=
  server.executionReply ((List.range i).countP server.prepares)

/-- A preparation gets the first reply, and the server is left with the others. -/
theorem prepare_eq (server : Server) (s : Compiled) :
    server.prepare s = (server.preparationReply 0,
      { server with
        preparations := server.preparations.tail
        requests := server.requests ++ [.prepare s] }) := by
  unfold prepare preparationReply
  cases server.preparations <;> rfl

/-- An execution gets the first reply, and the server is left with the others. -/
theorem execute_eq (server : Server) :
    server.execute = (server.executionReply 0,
      { server with executions := server.executions.tail }) := by
  unfold execute executionReply
  cases server.executions <;> rfl

/-- A server has got one statement and has the replies that are left after it. -/
structure Served (server : Server) (s : Compiled) (server' : Server) : Prop where
  requests : server'.requests = server.requests ++ [.prepare s]
  preparation : server'.preparationReply 0 = server.preparationReply 1
  execution : server'.executionOf 0 = server.executionOf 1
  reconnects : ∀ i, server'.reconnectReply i = server.reconnectReply i

/-- If the first statement was not prepared, the second one gets its execution. -/
theorem executionOf_one_of_refused (h : server.prepares 0 = false) :
    server.executionOf 1 = server.executionReply 0 := by
  simp [executionOf, h]

/-- If the first statement was prepared, the second one gets the next execution. -/
theorem executionOf_one_of_prepared (h : server.prepares 0 = true) :
    server.executionOf 1 = server.executionReply 1 := by
  simp [executionOf, h]

/-- A statement that cannot be prepared takes no reply to an execution. -/
theorem Served.of_refused (s : Compiled) (h : server.prepares 0 = false) :
    server.Served s (server.prepare s).2 := by
  rw [prepare_eq]
  refine ⟨rfl, getD_tail server.preparations 0 _, ?_, fun _ => rfl⟩
  rw [executionOf_one_of_refused h]
  rfl

/-- A statement that can be prepared is prepared and executed. -/
theorem Served.of_prepared (s : Compiled) (h : server.prepares 0 = true) :
    server.Served s (server.prepare s).2.execute.2 := by
  rw [prepare_eq, execute_eq]
  refine ⟨rfl, getD_tail server.preparations 0 _, ?_, fun _ => rfl⟩
  rw [executionOf_one_of_prepared h]
  exact getD_tail server.executions 0 _

end Server

namespace Connection

variable {c : Connection} {s : Compiled} {i : Nat} {result result' first : Except Error Cursor}
  {server' : Server}

/-- A statement is not given up for the time that its execution takes. -/
def InTime (c : Connection) (execution : Execution) : Prop :=
  ∀ limit, c.config.timeLimit = some limit →
    execution.delay.nanoseconds ≤ limit.nanoseconds

/-- What an attempt to send a statement comes to, if there were a number of attempts before it. -/
inductive Comes (c : Connection) (s : Compiled) (i : Nat) : Except Error Cursor → Prop
  | refused {source : ClientError} (prepared : c.server.preparationReply i = .error source) :
    Comes c s i (.error (.query c.name s.aql s.bindings source))
  | late {limit : Duration} (prepared : c.server.preparationReply i = .ok ())
      (limited : c.config.timeLimit = some limit)
      (late : limit.nanoseconds < (c.server.executionOf i).delay.nanoseconds) :
    Comes c s i (.error (.timeout limit))
  | failed {source : ClientError} (prepared : c.server.preparationReply i = .ok ())
      (inTime : c.InTime (c.server.executionOf i))
      (reply : (c.server.executionOf i).reply = .error source) :
    Comes c s i (.error (.query c.name s.aql s.bindings source))
  | returned {cursor : Cursor} (prepared : c.server.preparationReply i = .ok ())
      (inTime : c.InTime (c.server.executionOf i))
      (reply : (c.server.executionOf i).reply = .ok cursor) :
    Comes c s i (.ok cursor)

/-- Whether the failure of an attempt can be cured by a reconnect. -/
def curable (c : Connection) : Except Error Cursor → Bool
  | .ok _ => false
  | .error e => e.isLostConnection && c.config.reconnect

/-- What the server gets in a run of a statement and what the run comes to, by what its first
attempt comes to. -/
inductive Sends (c : Connection) (s : Compiled) (first : Except Error Cursor) :
    List Request → Except Error Cursor → Prop
  | once (final : c.curable first = false) : Sends c s first [.prepare s] first
  /-- The connection dropped and could not be made again. -/
  | cutOff {source : ClientError} (curable : c.curable first = true)
      (reply : c.server.reconnectReply 0 = .error source) :
    Sends c s first [.prepare s, .reconnect] (.error (.query c.name s.aql s.bindings source))
  | twice {second : Except Error Cursor} (curable : c.curable first = true)
      (reply : c.server.reconnectReply 0 = .ok ()) (again : c.Comes s 1 second) :
    Sends c s first [.prepare s, .reconnect, .prepare s] second

/-- The errors that a run of a statement may come to. -/
inductive Reports (c : Connection) (s : Compiled) : Error → Prop
  | timeout {limit : Duration} (limited : c.config.timeLimit = some limit) :
    Reports c s (.timeout limit)
  | query (source : ClientError) : Reports c s (.query c.name s.aql s.bindings source)

/-- What is announced of a statement, by what it comes to: one event for each listener and, if
wanted, one in the log, or nothing at all. -/
structure Announces (c : Connection) (s : Compiled) (answer : Answered Cursor) : Prop where
  success : ∀ cursor, answer.1 = .ok cursor →
    let event : Event := ⟨c.name, s.aql, s.bindings⟩
    answer.2.heard = c.heard ++ List.replicate c.listeners event ∧
      answer.2.log = if c.logging then c.log ++ [event] else c.log
  failure : ∀ e, answer.1 = .error e → answer.2.heard = c.heard ∧ answer.2.log = c.log

section attempts

/-- The replies settle what an attempt comes to. -/
theorem Comes.unique (h : c.Comes s i result) (h' : c.Comes s i result') : result = result' := by
  cases h <;> cases h' <;> grind [InTime]

/-- A failure is one of the connection's time limit or one that the server reported. -/
theorem Comes.reports {e : Error} (h : c.Comes s i (.error e)) : c.Reports s e := by
  cases h with
  | refused _ => exact .query _
  | late _ hlimit _ => exact .timeout hlimit
  | failed _ _ _ => exact .query _

/-- What the first attempt on another server comes to is what the second one comes to here. -/
theorem Comes.second (hpreparation : server'.preparationReply 0 = c.server.preparationReply 1)
    (hexecution : server'.executionOf 0 = c.server.executionOf 1)
    (h : Comes { c with server := server' } s 0 result) : c.Comes s 1 result := by
  cases h with
  | refused hprepared => exact .refused (hpreparation ▸ hprepared)
  | late hprepared hlimit hlate =>
      exact .late (hpreparation ▸ hprepared) hlimit (hexecution ▸ hlate)
  | failed hprepared hintime hreply =>
      exact .failed (hpreparation ▸ hprepared) (hexecution ▸ hintime) (hexecution ▸ hreply)
  | returned hprepared hintime hreply =>
      exact .returned (hpreparation ▸ hprepared) (hexecution ▸ hintime) (hexecution ▸ hreply)

/-- A reply that comes too late is a timeout. -/
theorem received_of_late {limit : Duration} {execution : Execution}
    (hlimit : c.config.timeLimit = some limit)
    (hlate : limit.nanoseconds < execution.delay.nanoseconds) :
    c.received s execution = .error (.timeout limit) := by
  unfold received
  rw [hlimit]
  exact if_pos hlate

/-- In time, the reply is received as it is, with the statement of which it is an error. -/
theorem received_of_inTime {execution : Execution} (h : c.InTime execution) :
    c.received s execution = execution.reply.mapError (c.failure s) := by
  unfold received
  cases hlimit : c.config.timeLimit with
  | none => cases execution.reply <;> rfl
  | some limit =>
      dsimp only
      rw [if_neg (Nat.not_lt.mpr (h limit hlimit))]
      cases execution.reply <;> rfl

/-- What is received of the execution of a statement that could be prepared. -/
theorem Comes.received (hprepared : c.server.preparationReply 0 = .ok ()) :
    c.Comes s 0 (c.received s (c.server.executionReply 0)) := by
  by_cases hintime : c.InTime (c.server.executionReply 0)
  · rw [received_of_inTime hintime]
    cases hreply : (c.server.executionReply 0).reply with
    | ok cursor => exact .returned hprepared hintime hreply
    | error source => exact .failed hprepared hintime hreply
  · obtain ⟨limit, hlimit, hlate⟩ : ∃ limit, c.config.timeLimit = some limit ∧
        limit.nanoseconds < (c.server.executionReply 0).delay.nanoseconds := by
      simpa [InTime] using hintime
    rw [received_of_late hlimit hlate]
    exact .late hprepared hlimit hlate

/-- One attempt changes the server alone. -/
theorem exists_attempt (c : Connection) (s : Compiled) : ∃ result server',
    c.attempt s = (result, { c with server := server' }) ∧ c.Comes s 0 result ∧
      c.server.Served s server' := by
  have hprepare : c.server.prepare s =
      (c.server.preparationReply 0, (c.server.prepare s).2) := by rw [Server.prepare_eq]
  unfold attempt
  rw [hprepare]
  cases hreply : c.server.preparationReply 0 with
  | error source =>
      have hrefused : c.server.prepares 0 = false := by rw [Server.prepares, hreply]; rfl
      exact ⟨_, _, rfl, .refused hreply, .of_refused s hrefused⟩
  | ok _ =>
      have hprepared : c.server.prepares 0 = true := by rw [Server.prepares, hreply]; rfl
      have hexecute : (c.server.prepare s).2.execute.1 = c.server.executionReply 0 := by
        rw [Server.execute_eq, Server.prepare_eq]
        rfl
      refine ⟨_, _, rfl, ?_, .of_prepared s hprepared⟩
      change c.Comes s 0 (c.received s (c.server.prepare s).2.execute.1)
      rw [hexecute]
      exact .received hreply

end attempts

section run

/-- A statement that was given up because of its time is not sent again. -/
theorem curable_timeout (c : Connection) (limit : Duration) :
    c.curable (.error (.timeout limit)) = false := rfl

/-- Every failure of a run is that of an attempt or of the reconnect. -/
theorem Sends.reports {sent : List Request} {e : Error} (hfirst : c.Comes s 0 first)
    (h : c.Sends s first sent (.error e)) : c.Reports s e := by
  cases h with
  | once _ => exact hfirst.reports
  | cutOff _ _ => exact .query _
  | twice _ _ hagain => exact hagain.reports

/-- The reconnect and the second attempt, behind a first attempt that dropped the connection. -/
theorem exists_retry (hcurable : c.curable first = true) (hserved : c.server.Served s server') :
    ∃ result server'' sent,
      retry { c with server := server' } s = (result, { c with server := server'' }) ∧
      server''.requests = c.server.requests ++ sent ∧ c.Sends s first sent result := by
  have hreply : server'.reconnectReply 0 = c.server.reconnectReply 0 := hserved.reconnects 0
  unfold retry
  dsimp only
  rw [Server.reconnect_eq, hreply]
  cases hreconnect : c.server.reconnectReply 0 with
  | error source =>
      refine ⟨_, _, _, rfl, ?_, .cutOff hcurable hreconnect⟩
      dsimp only
      rw [hserved.requests, List.append_assoc]
      rfl
  | ok _ =>
      obtain ⟨second, server'', hattempt, hcomes, hagain⟩ := exists_attempt
        { c with server := { server' with
          reconnects := server'.reconnects.tail
          requests := server'.requests ++ [.reconnect] } } s
      refine ⟨second, server'', _, hattempt, ?_, .twice hcurable hreconnect ?_⟩
      · rw [hagain.requests, hserved.requests, List.append_assoc, List.append_assoc]
        rfl
      · refine Comes.second ?_ ?_ hcomes
        · exact hserved.preparation
        · exact hserved.execution

/-- A run is an attempt, and a second one if the first can be cured; a success of either is
announced. -/
theorem run_eq (s : Compiled) (h : c.pretending = false) :
    c.run s = announced s
      (if (c.attempt s).2.curable (c.attempt s).1 then (c.attempt s).2.retry s
        else c.attempt s) := by
  unfold run
  rw [if_neg (h ▸ Bool.false_ne_true)]
  obtain ⟨e | cursor, c'⟩ := c.attempt s
  · change (if e.isLostConnection && c'.config.reconnect then _ else _) =
      announced s (if e.isLostConnection && c'.config.reconnect then _ else _)
    split <;> rfl
  · rfl

/-- What is announced if only the server of the connection has changed. -/
theorem announces_announced (s : Compiled) (h : c.pretending = false) (result : Except Error Cursor)
    (server' : Server) : c.Announces s (announced s (result, { c with server := server' })) := by
  cases result with
  | ok cursor =>
      refine ⟨fun _ _ => ⟨rfl, ?_⟩, nofun⟩
      change (if c.logging || c.pretending then _ else _) = _
      rw [h, Bool.or_false]
      rfl
  | error e => exact ⟨nofun, fun _ _ => ⟨rfl, rfl⟩⟩

/-- Announcing a statement leaves its answer. -/
theorem announced_fst (s : Compiled) (answer : Answered Cursor) :
    (announced s answer).1 = answer.1 := by
  obtain ⟨_ | cursor, c⟩ := answer <;> rfl

/-- Announcing a statement leaves the server. -/
theorem announced_server (s : Compiled) (answer : Answered Cursor) :
    (announced s answer).2.server = answer.2.server := by
  obtain ⟨_ | cursor, c⟩ := answer <;> rfl

end run

/-- **One statement, one retry, one event.** Whatever the server replies and however long it takes,
a statement is prepared at most twice with at most one reconnect in between: the reconnect follows
just if the first attempt dropped the connection and the connection is to be made again, and the
second attempt just if the reconnect succeeds. A statement that was given up because of its time is
not sent again. The run comes to what its last attempt comes to or to the failure of the reconnect;
an error is the configured time limit or names this connection, the text and the bindings. Each
listener and, if wanted, the log get one event if the run succeeds, and nothing if it does not. -/
theorem sent_as_replied (c : Connection) (s : Compiled) (h : c.pretending = false) :
    ∃ first sent, (∀ result, c.Comes s 0 result ↔ result = first) ∧
      (c.run s).2.server.requests = c.server.requests ++ sent ∧
      c.Sends s first sent (c.run s).1 ∧
      (∀ limit, first = .error (.timeout limit) → sent = [.prepare s] ∧ (c.run s).1 = first) ∧
      (∀ e, (c.run s).1 = .error e → c.Reports s e) ∧
      c.Announces s (c.run s) := by
  obtain ⟨first, server', hattempt, hfirst, hserved⟩ := exists_attempt c s
  -- The run has an answer, a server and requests that are announced as they are sent.
  have hrun : ∃ result server'' sent,
      c.run s = announced s (result, { c with server := server'' }) ∧
      server''.requests = c.server.requests ++ sent ∧ c.Sends s first sent result := by
    rw [run_eq s h, hattempt]
    cases hcurable : c.curable first with
    | false =>
        refine ⟨first, server', _, ?_, hserved.requests, .once hcurable⟩
        exact congrArg (announced s) (if_neg (hcurable ▸ Bool.false_ne_true))
    | true =>
        obtain ⟨result, server'', sent, hretry, hrequests, hsends⟩ := exists_retry hcurable hserved
        refine ⟨result, server'', sent, ?_, hrequests, hsends⟩
        rw [← hretry]
        exact congrArg (announced s) (if_pos hcurable)
  obtain ⟨result, server'', sent, hrun, hrequests, hsends⟩ := hrun
  have hanswer : (c.run s).1 = result := by rw [hrun, announced_fst]
  refine ⟨first, sent, fun result => ⟨fun hresult => hresult.unique hfirst, ?_⟩, ?_, ?_, ?_, ?_, ?_⟩
  · rintro rfl
    exact hfirst
  · rw [hrun, announced_server, hrequests]
  · rwa [hanswer]
  · rintro limit rfl
    have hfinal := curable_timeout c limit
    rw [hanswer]
    cases hsends with
    | once _ => exact ⟨rfl, rfl⟩
    | cutOff hcurable _ => exact absurd (hfinal.symm.trans hcurable) Bool.false_ne_true
    | twice hcurable _ _ => exact absurd (hfinal.symm.trans hcurable) Bool.false_ne_true
  · intro e he
    exact (hanswer.symm.trans he ▸ hsends).reports hfirst
  · rw [hrun]
    exact announces_announced s h result server''

/-- A statement that loses the connection in its execution, and then takes longer than ten
milliseconds. -/
theorem second_attempt_late :
    let lost : ClientError := ⟨0, 0, "Connection refused"⟩
    let s : Compiled := ⟨"RETURN 1", []⟩
    let server : Server := ⟨[⟨⟨0⟩, .error lost⟩, ⟨⟨20000000⟩, .ok ⟨[], 0⟩⟩], [], [], [], [], []⟩
    let c := ofConfig { timeoutMilliseconds := some 10, logQueries := true } server 2
    c.pretending = false ∧
      (c.run s).1 = .error (.timeout ⟨10000000⟩) ∧
      (c.run s).2.server.requests = [.prepare s, .reconnect, .prepare s] ∧
      ∃ first sent, (∀ result, c.Comes s 0 result ↔ result = first) ∧
        (c.run s).2.server.requests = c.server.requests ++ sent ∧
        c.Sends s first sent (c.run s).1 ∧
        (∀ limit, first = .error (.timeout limit) → sent = [.prepare s] ∧ (c.run s).1 = first) ∧
        (∀ e, (c.run s).1 = .error e → c.Reports s e) ∧
        c.Announces s (c.run s) := by
  intro lost s server c
  have hpretending : c.pretending = false := rfl
  have hcurable : c.curable (.error (c.failure s lost)) = true := by decide +kernel
  have hrun : c.run s = announced s ((c.attempt s).2.retry s) := by
    rw [run_eq s hpretending]
    exact congrArg (announced s) (if_pos hcurable)
  refine ⟨hpretending, ?_, ?_, sent_as_replied c s hpretending⟩
  · rw [hrun]
    rfl
  · rw [hrun]
    rfl

end Connection

end AqlBuilder
