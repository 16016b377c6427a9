import AqlBuilder.Alias.Rules
import AqlBuilder.Proofs.Connection.Callback
import AqlBuilder.Proofs.Connection.Retry

/-!
# The level of a callback

A transaction opens a level, leaves the connection to a callback and then closes one level,
whichever is the innermost by then. So the depth afterwards is the one before, deeper or less deep
by as much as the callback's own starts and rollbacks do not balance. A callback that opens a level
and does not close it leaves one open, also if it fails, and what it queued is then not sent.

- `Connection.CarriedOut`: a transaction is what the server has been made to run.
- `Connection.length_settle`: closing takes one level, or all if the connection dropped.
- `Connection.closed_cases`: what a close that succeeds has done.
- `Connection.depth_after_callback` is the law of a transaction with a callback.
-/

namespace AqlBuilder

namespace Connection

variable {c c' : Connection} {t : Transaction} {α : Type}

/-- A transaction has been run: the server got it, perhaps several times, and its last reply was a
success, or the connection pretends and keeps the transaction in its log. -/
inductive CarriedOut (c : Connection) (t : Transaction) (c' : Connection) : Prop
  | executed {last : Nat} {result : Json} (pretending : c.pretending = false)
      (reply : c.server.transactionReply last = .ok result)
      (requests : c'.server.requests = c.server.requests ++
        (List.range last).flatMap (c.server.exchange t) ++ [.transaction t])
  | pretended (pretending : c.pretending = true) (server : c'.server = c.server)
      (log : c'.log = c.log ++ [⟨c.name, t.action, []⟩])

/-- A result that says that the connection dropped. -/
def Dropped (result : Except Error α) : Prop := ∃ e, result = .error e ∧ e.isLostConnection = true

section closing

/-- The levels play no part in it. -/
theorem CarriedOut.of_levels {levels : Levels}
    (h : CarriedOut { c with levels := levels } t c') : c.CarriedOut t c' := by
  cases h with
  | executed hpretending hreply hrequests => exact .executed hpretending hreply hrequests
  | pretended hpretending hserver hlog => exact .pretended hpretending hserver hlog

/-- An execution that succeeds has carried out its transaction. -/
theorem carriedOut_execute {attempts : Nat} {result : Json}
    (h : (c.execute t attempts).1 = .ok result) : c.CarriedOut t (c.execute t attempts).2 := by
  cases hpretending : c.pretending with
  | true =>
      have hexecute : c.execute t attempts = (.ok .null, c.record t.statement) := by
        rw [execute, hpretending]
        rfl
      rw [hexecute]
      refine .pretended hpretending rfl ?_
      rw [record, hpretending, Bool.or_true]
      rfl
  | false =>
      have hexecute : c.execute t attempts = send t (max attempts 1 - 1) c := by
        rw [execute, hpretending]
        rfl
      obtain ⟨last, hsettled⟩ := exists_settled_send t (max attempts 1 - 1) c
      rw [← hexecute] at hsettled
      -- The last attempt has succeeded, so nothing was asked of the server behind it.
      have hlast : c.reconnectsAfter (max attempts 1 - 1 + 1) last = false := by
        by_contra hreconnect
        obtain ⟨source, _, hanswer⟩ := hsettled.disconnected (Bool.not_eq_false _ ▸ hreconnect)
        cases h.symm.trans hanswer
      cases hreply : c.server.transactionReply last with
      | error source => cases h.symm.trans (hsettled.failure source hreply hlast)
      | ok result' =>
          refine .executed hpretending hreply ?_
          rw [hsettled.requests, hlast]
          rfl

/-- A transaction that is run leaves no level open. -/
theorem levels_execute (h : c.levels = []) (t : Transaction) (attempts : Nat) :
    (c.execute t attempts).2.levels = [] := by
  unfold execute
  split
  · exact h
  · exact (Attempted.outermost t _ c).levels h

/-- To close a level takes one level off, if there is one. -/
theorem length_close (c : Connection) (attempts : Nat) :
    (c.close attempts).2.levels.length = c.levels.length - 1 := by
  cases hlevels : c.levels with
  | nil =>
      rw [close_outside hlevels, hlevels]
      rfl
  | cons level outer =>
      by_cases hcommands : level.commands = []
      · rw [close_empty hlevels hcommands]
        rfl
      cases outer with
      | nil =>
          rw [close_outermost hlevels hcommands, Answered.map_snd, levels_execute rfl]
          rfl
      | cons parent rest =>
          rw [close_nested hlevels hcommands]
          rfl

/-- A rollback closes one level, if there is one. -/
theorem length_rollback (c : Connection) : c.rollback.2.levels.length = c.levels.length - 1 := by
  cases hlevels : c.levels with
  | nil =>
      rw [rollback_outside hlevels, hlevels]
      rfl
  | cons level outer =>
      rw [rollback_inside hlevels]
      rfl

/-- A lost connection leaves no level open. -/
theorem levels_settle_of_dropped {result : Except Error α} (h : Dropped result) (attempts : Nat) :
    (c.settle attempts result).2.levels = [] := by
  obtain ⟨e, rfl, hlost⟩ := h
  rw [settle, if_pos hlost]
  rfl

/-- One level is closed, however the callback has left the levels. -/
theorem length_settle {result : Except Error α} (h : ¬ Dropped result) (attempts : Nat) :
    (c.settle attempts result).2.levels.length = c.levels.length - 1 := by
  cases result with
  | ok value =>
      rw [settle, Answered.map_snd]
      exact length_close c attempts
  | error e =>
      have hlost : ¬ e.isLostConnection = true := fun hlost => h ⟨e, rfl, hlost⟩
      have hrollback := length_rollback c
      rw [settle, if_neg hlost]
      generalize c.rollback = answered at hrollback ⊢
      obtain ⟨_ | _, c'⟩ := answered <;> exact hrollback

/-- A transaction succeeds only if its callback and the close do. -/
theorem settle_ok {result : Except Error α} {attempts : Nat} {value : α}
    (h : (c.settle attempts result).1 = .ok value) : ∃ row, (c.close attempts).1 = .ok row ∧
      (c.settle attempts result).2 = (c.close attempts).2 := by
  cases result with
  | ok value' =>
      rw [settle] at h ⊢
      generalize c.close attempts = answered at h ⊢
      obtain ⟨e | row, c'⟩ := answered
      · exact absurd h nofun
      · exact ⟨row, rfl, rfl⟩
  | error e =>
      rw [settle] at h
      generalize c.rollback = answered at h
      obtain ⟨_ | _, c'⟩ := answered <;> split at h <;> exact absurd h nofun

/-- A close that succeeds has carried out the outermost level or has left the commands of an inner
one to the level around it. -/
theorem closed_cases {attempts : Nat} {row : Option Json} (h : (c.close attempts).1 = .ok row) :
    (∃ level, c.levels = [level] ∧ c.CarriedOut level.toTransaction (c.close attempts).2) ∨
    (2 ≤ c.levels.length ∧ (c.close attempts).2.server = c.server ∧
      (c.close attempts).2.levels.queued = c.levels.queued) := by
  cases hlevels : c.levels with
  | nil =>
      rw [close_outside hlevels] at h
      exact absurd h nofun
  | cons level outer =>
      by_cases hcommands : level.commands = []
      · rw [close_empty hlevels hcommands] at h
        exact absurd h nofun
      cases outer with
      | nil =>
          refine .inl ⟨level, rfl, ?_⟩
          rw [close_outermost hlevels hcommands] at h ⊢
          rw [Answered.map_snd]
          rcases hexecuted : execute { c with levels := [] } level.toTransaction attempts with
            ⟨_ | result, c'⟩ <;> rw [hexecuted] at h
          · exact absurd h nofun
          · have hresult := congrArg Prod.fst hexecuted
            exact hexecuted ▸ (carriedOut_execute hresult).of_levels
      | cons parent rest =>
          refine .inr ⟨by simp, ?_⟩
          rw [close_nested hlevels hcommands]
          exact ⟨rfl, (List.append_assoc _ _ _).symm⟩

end closing

section callback

variable {callback : Callback α} {collections : Collections} {next : Nat}

/-- The depth after a callback, before its level is closed. -/
theorem length_callback [Naming] (callback : Callback α) (collections : Collections)
    (c : Connection) (next : Nat) :
    ((callback.session (c.start collections) next).1.2.levels.length : Int) =
      c.levels.length + 1 + depthChange (callback.moves (c.start collections) next) := by
  have hmoved := callback.moved_session (c.start collections) next
  rw [hmoved.levels, Levels.length_perform hmoved.admits]
  rfl

/-- Outside of a transaction, the commands that a callback leaves are those that it queued and did
not roll back. -/
theorem queued_callback [Naming] (callback : Callback α) (collections : Collections)
    (h : c.levels = []) (next : Nat) :
    (callback.session (c.start collections) next).1.2.levels.queued =
      survivors (callback.moves (c.start collections) next) := by
  have hmoved := callback.moved_session (c.start collections) next
  rw [hmoved.levels, Levels.queued_of_admits hmoved.admits hmoved.uncommitted]
  change Levels.remaining _ 0 (Levels.start collections c.levels) ++ _ = _
  rw [h]
  change (if discards 0 _ then [] else []) ++ _ = _
  rw [ite_self, List.nil_append]

end callback

/-- **A transaction takes back one level, whatever its callback has done to the others.** If the
callback fails because the connection dropped, no level is open afterwards. Otherwise the depth
differs from the one before by the starts and rollbacks of the callback, so it is restored just if
these balance, or if outside of a transaction there was one rollback more. A transaction that
succeeds outside of others has carried out what the callback queued and did not roll back if they
balance; if not, the callback has left levels open, which still hold all of it, and the server has
heard nothing. -/
theorem depth_after_callback [Naming] (collections : Collections) (attempts : Nat)
    (callback : Callback α) (c : Connection) (next : Nat) :
    let inside := (callback.session (c.start collections) next).1
    let moves := callback.moves (c.start collections) next
    let answer := (Session.transaction collections attempts callback.session c next).1
    (Dropped inside.1 → answer.2.levels = []) ∧
    (¬ Dropped inside.1 →
      (answer.2.levels.length : Int) = max 0 (c.levels.length + depthChange moves) ∧
      (answer.2.levels.length = c.levels.length ↔
        depthChange moves = 0 ∨ c.levels = [] ∧ depthChange moves = -1)) ∧
    (c.levels = [] → ∀ value, answer.1 = .ok value →
      (depthChange moves = 0 ∧ ∃ t : Transaction, t.action = actionOf (survivors moves) ∧
        inside.2.CarriedOut t answer.2) ∨
      (0 < depthChange moves ∧ answer.2.server = c.server ∧
        answer.2.levels.queued = survivors moves)) := by
  intro inside moves answer
  have hanswer : answer = inside.2.settle attempts inside.1 := rfl
  have hinside : (inside.2.levels.length : Int) = c.levels.length + 1 + depthChange moves :=
    length_callback callback collections c next
  refine ⟨fun hdropped => ?_, fun hkept => ?_, fun houtside value hvalue => ?_⟩
  · rw [hanswer]
    exact levels_settle_of_dropped hdropped attempts
  · have hlength : answer.2.levels.length = inside.2.levels.length - 1 := by
      rw [hanswer]
      exact length_settle hkept attempts
    have houtside : c.levels = [] ↔ c.levels.length = 0 := List.length_eq_zero_iff.symm
    rw [houtside]
    omega
  · have hserver : inside.2.server = c.server :=
      (callback.moved_session (c.start collections) next).server
    have hqueued : inside.2.levels.queued = survivors moves :=
      queued_callback callback collections houtside next
    have hdepth : c.levels.length = 0 := List.length_eq_zero_iff.mpr houtside
    rw [hanswer] at hvalue ⊢
    obtain ⟨row, hrow, hclosed⟩ := settle_ok hvalue
    rw [hclosed]
    rcases closed_cases hrow with ⟨level, hlevel, hcarried⟩ | ⟨hlevels, hsame, hkept⟩
    · have hone : inside.2.levels.length = 1 := by rw [hlevel]; rfl
      refine .inl ⟨by omega, level.toTransaction, ?_, hcarried⟩
      rw [← hqueued, hlevel]
      rfl
    · exact .inr ⟨by omega, hsame.trans hserver, hkept.trans hqueued⟩

/-- A statement queued on a level that the callback opens and leaves open: the transaction succeeds
and the server hears nothing. If the callback fails, its level is left open too. -/
theorem leaking_callback_deepens :
    let s : Compiled := ⟨"FOR doc IN users REMOVE doc IN users", []⟩
    let add : LocalOperation := .enqueue (.given s) none
    let c := ofConfig {} ⟨[], [], [], [], [], []⟩ 0
    let answer operations := ((Operation.transaction .empty 1 operations).perform c 0).1
    c.levels.length = 0 ∧
      ((answer [.start .empty, add]).1.isOk = true ∧
        (answer [.start .empty, add]).2.levels.length = 1 ∧
        (answer [.start .empty, add]).2.server.requests = []) ∧
      (answer [add, .start .empty, .fail "changed my mind"]).2.levels.length = 1 :=
  ⟨rfl, ⟨rfl, rfl, rfl⟩, rfl⟩

/-- A callback that opens a level, rolls it back and queues a statement, and one that opens a level
and fails: the first restores the depth and is carried out, the second leaves its own level open. -/
theorem balanced_callback_restores :
    let s : Compiled := ⟨"FOR doc IN users REMOVE doc IN users", []⟩
    let add : LocalOperation := .enqueue (.given s) none
    let c := ofConfig {} ⟨[], [], [], [], [], []⟩ 0
    let balanced := Callback.ofOperations [.start .empty, add, .rollback, add]
    let leaking := Callback.ofOperations [add, .start .empty, .fail "changed my mind"]
    let answer callback := (Session.transaction .empty 1 (Callback.session callback) c 0).1
    (∃ t : Transaction, t.action = actionOf [.ofStatement s none] ∧
      ((balanced.session (c.start .empty) 0).1.2).CarriedOut t (answer balanced).2) ∧
    (answer balanced).2.levels.length = c.levels.length ∧
    (answer leaking).2.levels.length ≠ c.levels.length := by
  intro s add c balanced leaking answer
  have hchange : depthChange (leaking.moves (c.start .empty) 0) = 1 := rfl
  have hkept : ¬ Dropped (leaking.session (c.start .empty) 0).1.1 := by
    rintro ⟨e, he, hlost⟩
    rw [← Except.error.inj he] at hlost
    exact absurd hlost nofun
  obtain ⟨-, hlevels, hcarried⟩ := depth_after_callback .empty 1 balanced c 0
  obtain ⟨-, hleaked, -⟩ := depth_after_callback .empty 1 leaking c 0
  refine ⟨?_, (hlevels ?_).2.mpr (.inl rfl), fun hrestored => ?_⟩
  · rcases hcarried rfl _ rfl with ⟨-, t, ht, hran⟩ | ⟨hpositive, -⟩
    · exact ⟨t, ht, hran⟩
    · exact absurd hpositive (by decide)
  · rintro ⟨e, he, -⟩
    exact absurd he nofun
  · rcases (hleaked hkept).2.mp hrestored with hzero | ⟨-, hzero⟩
    · exact absurd (hchange.symm.trans hzero) (by decide)
    · exact absurd (hchange.symm.trans hzero) (by decide)

end Connection

end AqlBuilder
