import AqlBuilder.Proofs.Connection.Queue

/-!
# Attempts of a transaction

Which attempt to run a transaction is the last one is settled by the replies alone: those to the
transactions, counted from the first attempt, and those to the reconnects, counted by the attempts
that dropped the connection. A conflict is treated before a dropped connection, so a failure of both
kinds is repeated without a reconnect.

- `Connection.Ends`: whether an attempt is followed by no other.
- `Connection.Settled`: what the server has got, what is answered and what is announced if a given
  attempt is the last.
- `Connection.Settled.later`: one attempt in front of the others.
- `Connection.FirstReply`: the kinds of replies, one case of the loop for each.
- `Connection.exists_settled_send`: the loop, by induction on the attempts that are left.
- `Connection.retried_as_configured` is the law of an execution.
-/

namespace AqlBuilder

/-- Whether a failure calls for a reconnect: the connection dropped, and there was no conflict. -/
def ClientError.isDrop (e : ClientError) : Bool := !e.isConcurrency && e.isLostConnection

namespace Server

variable {server server' : Server} {i : Nat}

/-- The reply to the transaction that comes after a number of others. -/
def transactionReply (server : Server) (i : Nat) : Except ClientError Json :=
  server.transactions.getD i (.ok .null)

/-- The reply to the reconnect that comes after a number of others. -/
def reconnectReply (server : Server) (i : Nat) : Except ClientError Unit :=
  server.reconnects.getD i (.ok ())

/-- Whether the transaction after a number of others calls for a reconnect. -/
def drops (server : Server) (i : Nat) : Bool :=
  match server.transactionReply i with
  | .ok _ => false
  | .error source => source.isDrop

/-- The reply to the reconnect that a transaction calls for, if those before it have called for all
the earlier ones. -/
def replyAfterDrop (server : Server) (i : Nat) : Except ClientError Unit :=
  server.reconnectReply ((List.range i).countP server.drops)

/-- What a server gets with an attempt that is followed by another one. -/
def exchange (server : Server) (t : Transaction) (i : Nat) : List Request :=
  .transaction t :: if server.drops i then [.reconnect] else []

/-- A transaction gets the first reply, and the server is left with the others. -/
theorem transact_eq (server : Server) (t : Transaction) :
    server.transact t = (server.transactionReply 0,
      { server with
        transactions := server.transactions.tail
        requests := server.requests ++ [.transaction t] }) := by
  unfold transact transactionReply
  cases server.transactions <;> rfl

/-- A reconnect gets the first reply, and the server is left with the others. -/
theorem reconnect_eq (server : Server) :
    server.reconnect = (server.reconnectReply 0,
      { server with
        reconnects := server.reconnects.tail
        requests := server.requests ++ [.reconnect] }) := by
  unfold reconnect reconnectReply
  cases server.reconnects <;> rfl

/-- What a server answers to a transaction that it has a given reply to. -/
theorem transact_of_reply {server : Server} {reply : Except ClientError Json} (t : Transaction)
    (h : server.transactionReply 0 = reply) :
    server.transact t = (reply, (server.transact t).2) := by
  rw [transact_eq, h]

/-- What comes at a place of the rest comes one place later in the whole. -/
theorem getD_tail {α : Type} (replies : List α) (i : Nat) (standard : α) :
    replies.tail.getD i standard = replies.getD (i + 1) standard := by
  cases replies <;> rfl

/-- A server has the replies that are left after one attempt. -/
structure After (server server' : Server) : Prop where
  transactions : ∀ i, server'.transactionReply i = server.transactionReply (i + 1)
  reconnects : ∀ i, server'.reconnectReply i =
    server.reconnectReply ((if server.drops 0 then 1 else 0) + i)

namespace After

/-- After an attempt without a reconnect the server has the replies that are left. -/
theorem transact (t : Transaction) (h : server.drops 0 = false) :
    server.After (server.transact t).2 := by
  rw [transact_eq]
  constructor
  · intro i
    exact getD_tail server.transactions i _
  · intro i
    rw [h, if_neg Bool.false_ne_true, Nat.zero_add]
    rfl

/-- After an attempt with a reconnect the server has the replies that are left. -/
theorem reconnect (t : Transaction) (h : server.drops 0 = true) :
    server.After (server.transact t).2.reconnect.2 := by
  rw [transact_eq, reconnect_eq]
  constructor
  · intro i
    exact getD_tail server.transactions i _
  · intro i
    rw [if_pos h, Nat.add_comm 1 i]
    exact getD_tail server.reconnects i _

/-- The next transactions call for reconnects as they would have done. -/
theorem drops (h : server.After server') (i : Nat) : server'.drops i = server.drops (i + 1) := by
  unfold Server.drops
  rw [h.transactions]

/-- What the server gets with the next attempts is what it would have got. -/
theorem exchange (h : server.After server') (t : Transaction) (i : Nat) :
    server'.exchange t i = server.exchange t (i + 1) := by
  unfold Server.exchange
  rw [h.drops]

/-- The next reconnects have the replies that they would have had. -/
theorem replyAfterDrop (h : server.After server') (i : Nat) :
    server'.replyAfterDrop i = server.replyAfterDrop (i + 1) := by
  have hcount : (List.range (i + 1)).countP server.drops =
      (if server.drops 0 then 1 else 0) + (List.range i).countP server'.drops := by
    have hshift : server.drops ∘ Nat.succ = server'.drops := funext fun j => (h.drops j).symm
    rw [List.range_succ_eq_map, List.countP_cons, List.countP_map, hshift, Nat.add_comm]
  unfold Server.replyAfterDrop
  rw [h.reconnects, hcount]

/-- What the server gets in all is what it gets with the first attempt and with the others. -/
theorem exchanges (h : server.After server') (t : Transaction) (last : Nat) :
    (List.range (last + 1)).flatMap (server.exchange t) =
      server.exchange t 0 ++ (List.range last).flatMap (server'.exchange t) := by
  have hshift : (fun i => server.exchange t (i + 1)) = server'.exchange t :=
    funext fun i => (h.exchange t i).symm
  rw [List.range_succ_eq_map, List.flatMap_cons, List.flatMap_map, hshift]

end After

end Server

namespace Connection

variable {c : Connection} {t : Transaction} {server' : Server} {levels : Levels}
  {most last i : Nat} {answer : Answered Json}

/-- Of a number of attempts, counted from zero, one is not followed by another. -/
inductive Ends (c : Connection) (most i : Nat) : Prop
  | succeeded {result : Json} (reply : c.server.transactionReply i = .ok result)
  | incurable {source : ClientError} (reply : c.server.transactionReply i = .error source)
      (conflict : source.isConcurrency = false)
      (lost : (source.isLostConnection && c.config.reconnect) = false)
  | exhausted (count : i + 1 = most)
  | cutOff {source : ClientError} (drops : c.server.drops i = true)
      (reply : c.server.replyAfterDrop i = .error source)

/-- Whether the server is asked to reconnect after an attempt. -/
def reconnectsAfter (c : Connection) (most i : Nat) : Bool :=
  c.config.reconnect && c.server.drops i && decide (i + 1 < most)

/-- What happened in an execution of a transaction by a number of attempts of which one was the
last. -/
structure Settled (c : Connection) (t : Transaction) (most last : Nat) (answer : Answered Json) :
    Prop where
  ends : c.Ends most last
  /-- No earlier attempt could have been the last one. -/
  first : ∀ i < last, ¬ c.Ends most i
  /-- The same transaction is sent in every attempt, with a reconnect behind each that calls for
  it. -/
  requests : answer.2.server.requests = c.server.requests ++
    (List.range last).flatMap (c.server.exchange t) ++
    .transaction t :: if c.reconnectsAfter most last then [.reconnect] else []
  success : ∀ result, c.server.transactionReply last = .ok result → answer.1 = .ok result
  failure : ∀ source, c.server.transactionReply last = .error source →
    c.reconnectsAfter most last = false → answer.1 = .error (.query c.name t.action [] source)
  /-- A reconnect after the last attempt has failed. -/
  disconnected : c.reconnectsAfter most last = true → ∃ source,
    c.server.replyAfterDrop last = .error source ∧
    answer.1 = .error (.query c.name t.action [] source)
  /-- A success is announced once, a failure is not. -/
  announced : (answer.2.heard, answer.2.log) = match answer.1 with
    | .ok _ => ((c.record t.statement).heard, (c.record t.statement).log)
    | .error _ => (c.heard, c.log)

section loop

/-- An attempt is followed by another if its failure can be cured, there are attempts left and a
reconnect that it calls for succeeds. -/
theorem not_ends {source : ClientError} (hreply : c.server.transactionReply i = .error source)
    (hcurable : source.isConcurrency = true ∨
      (source.isLostConnection && c.config.reconnect) = true)
    (hcount : i + 1 ≠ most)
    (hreconnected : c.server.drops i = true → c.server.replyAfterDrop i = .ok ()) :
    ¬ c.Ends most i := by
  rintro (hok | ⟨herror, hconflict, hlost⟩ | hlast | ⟨hdrops, hcut⟩)
  · exact absurd (hreply.symm.trans hok) nofun
  · rw [← Except.error.inj (hreply.symm.trans herror)] at hconflict hlost
    rcases hcurable with h | h
    · exact absurd (hconflict.symm.trans h) Bool.false_ne_true
    · exact absurd (hlost.symm.trans h) Bool.false_ne_true
  · exact hcount hlast
  · exact absurd ((hreconnected hdrops).symm.trans hcut) nofun

/-- Where the attempts end can be counted from the second one. -/
theorem ends_succ (h : c.server.After server') :
    Ends { c with server := server', levels := levels } most i ↔ c.Ends (most + 1) (i + 1) := by
  constructor
  · rintro (hreply | ⟨hreply, hconflict, hlost⟩ | hcount | ⟨hdrops, hreply⟩)
    · exact .succeeded ((h.transactions i).symm.trans hreply)
    · exact .incurable ((h.transactions i).symm.trans hreply) hconflict hlost
    · exact .exhausted (congrArg (· + 1) hcount)
    · exact .cutOff ((h.drops i).symm.trans hdrops) ((h.replyAfterDrop i).symm.trans hreply)
  · rintro (hreply | ⟨hreply, hconflict, hlost⟩ | hcount | ⟨hdrops, hreply⟩)
    · exact .succeeded ((h.transactions i).trans hreply)
    · exact .incurable ((h.transactions i).trans hreply) hconflict hlost
    · exact .exhausted (Nat.succ.inj hcount)
    · exact .cutOff ((h.drops i).trans hdrops) ((h.replyAfterDrop i).trans hreply)

/-- Which attempts are followed by reconnects can be counted from the second one. -/
theorem reconnectsAfter_succ (h : c.server.After server') :
    reconnectsAfter { c with server := server', levels := levels } most i =
      c.reconnectsAfter (most + 1) (i + 1) := by
  unfold reconnectsAfter
  simp only [h.drops, Nat.add_lt_add_iff_right]

/-- An attempt that is followed by others goes in front of them. -/
theorem Settled.later (hafter : c.server.After server') (hfirst : ¬ c.Ends (most + 1) 0)
    (hrequests : server'.requests = c.server.requests ++ c.server.exchange t 0)
    (h : Settled { c with server := server', levels := levels } t most last answer) :
    c.Settled t (most + 1) (last + 1) answer where
  ends := (ends_succ hafter).mp h.ends
  first i hi := by
    cases i with
    | zero => exact hfirst
    | succ i =>
        exact fun hends => h.first i (Nat.lt_of_succ_lt_succ hi) ((ends_succ hafter).mpr hends)
  requests := by
    rw [h.requests, reconnectsAfter_succ hafter, hafter.exchanges, hrequests]
    simp only [List.append_assoc]
  success result hreply := h.success result ((hafter.transactions last).trans hreply)
  failure source hreply hreconnect := h.failure source ((hafter.transactions last).trans hreply)
    ((reconnectsAfter_succ hafter).trans hreconnect)
  disconnected hreconnect := by
    obtain ⟨source, hreply, hanswer⟩ :=
      h.disconnected ((reconnectsAfter_succ hafter).trans hreconnect)
    exact ⟨source, (hafter.replyAfterDrop last).symm.trans hreply, hanswer⟩
  announced := h.announced

/-- The first attempt is the last one if it succeeds. -/
theorem Settled.of_success {result : Json} (hreply : c.server.transactionReply 0 = .ok result) :
    c.Settled t most 0
      (.ok result, { c with server := (c.server.transact t).2 }.record t.statement) where
  ends := .succeeded hreply
  first _ hi := absurd hi (Nat.not_lt_zero _)
  requests := by
    have hdrops : c.server.drops 0 = false := by rw [Server.drops, hreply]
    simp [reconnectsAfter, hdrops, Server.transact_eq, record]
  success _ hresult := congrArg Except.ok (Except.ok.inj (hreply.symm.trans hresult))
  failure _ hfailure := absurd (hreply.symm.trans hfailure) nofun
  disconnected hreconnect := by
    rw [reconnectsAfter, Server.drops, hreply, Bool.and_false, Bool.false_and] at hreconnect
    exact absurd hreconnect Bool.false_ne_true
  announced := rfl

/-- The first attempt is the last one if it fails and nothing is done about it. -/
theorem Settled.of_failure {source : ClientError} (hends : c.Ends most 0)
    (hreply : c.server.transactionReply 0 = .error source)
    (hreconnect : c.reconnectsAfter most 0 = false) :
    c.Settled t most 0 (giveUp { c with server := (c.server.transact t).2 } t source) where
  ends := hends
  first _ hi := absurd hi (Nat.not_lt_zero _)
  requests := by
    rw [hreconnect, giveUp]
    split <;> simp [Server.transact_eq, dropLevels]
  success _ hresult := absurd (hreply.symm.trans hresult) nofun
  failure _ hfailure _ := by
    rw [← Except.error.inj (hreply.symm.trans hfailure)]
    rfl
  disconnected h := absurd (hreconnect.symm.trans h) Bool.false_ne_true
  announced := by
    rw [giveUp]
    dsimp only
    split <;> rfl

/-- The first attempt is the last one if the connection drops and cannot be made again. -/
theorem Settled.of_cutOff {source : ClientError} (hreconnect : c.reconnectsAfter most 0 = true)
    (hreply : c.server.reconnectReply 0 = .error source) :
    c.Settled t most 0 (.error (c.failure t.statement source),
      { c with server := (c.server.transact t).2.reconnect.2, levels := [] }) where
  ends := by
    have hdrops : c.server.drops 0 = true := by
      rw [reconnectsAfter, Bool.and_eq_true, Bool.and_eq_true] at hreconnect
      exact hreconnect.1.2
    exact .cutOff hdrops hreply
  first _ hi := absurd hi (Nat.not_lt_zero _)
  requests := by
    simp [hreconnect, Server.transact_eq, Server.reconnect_eq]
  success _ hresult := by
    rw [reconnectsAfter, Server.drops, hresult, Bool.and_false, Bool.false_and] at hreconnect
    exact absurd hreconnect Bool.false_ne_true
  failure _ _ h := absurd (hreconnect.symm.trans h) nofun
  disconnected _ := ⟨source, hreply, rfl⟩
  announced := rfl

/-- A transaction that is run is not sent again. -/
theorem send_of_success {result : Json} (again : Nat)
    (hreply : c.server.transactionReply 0 = .ok result) :
    send t again c =
      (.ok result, { c with server := (c.server.transact t).2 }.record t.statement) := by
  unfold send
  rw [Server.transact_of_reply t hreply]

/-- Without a conflict or a lost connection no attempt is made again. -/
theorem send_of_failure {source : ClientError} (again : Nat)
    (hreply : c.server.transactionReply 0 = .error source)
    (hconflict : source.isConcurrency = false)
    (hlost : (source.isLostConnection && c.config.reconnect) = false) :
    send t again c = giveUp { c with server := (c.server.transact t).2 } t source := by
  unfold send
  rw [Server.transact_of_reply t hreply]
  cases again with
  | zero => rfl
  | succ again =>
      dsimp only
      rw [if_neg (hconflict ▸ Bool.false_ne_true), if_neg (hlost ▸ Bool.false_ne_true)]

/-- Without attempts left a failure is final. -/
theorem send_last {source : ClientError} (hreply : c.server.transactionReply 0 = .error source) :
    send t 0 c = giveUp { c with server := (c.server.transact t).2 } t source := by
  unfold send
  rw [Server.transact_of_reply t hreply]

/-- After a conflict the transaction is sent again at once. -/
theorem send_of_conflict {source : ClientError} (again : Nat)
    (hreply : c.server.transactionReply 0 = .error source)
    (hconflict : source.isConcurrency = true) :
    send t (again + 1) c = send t again { c with server := (c.server.transact t).2 } := by
  rw [send, Server.transact_of_reply t hreply]
  dsimp only
  rw [if_pos hconflict]

/-- After a lost connection the transaction is sent again if the reconnect succeeds. -/
theorem send_of_drop {source : ClientError} (again : Nat)
    (hreply : c.server.transactionReply 0 = .error source) (hdrop : source.isDrop = true)
    (hreconnect : c.config.reconnect = true) :
    send t (again + 1) c =
      let server := (c.server.transact t).2.reconnect.2
      match c.server.reconnectReply 0 with
      | .error cut =>
          (.error (c.failure t.statement cut), { c with server := server, levels := [] })
      | .ok _ => send t again { c with server := server, levels := [] } := by
  obtain ⟨hconflict, hlost⟩ : source.isConcurrency = false ∧ source.isLostConnection = true := by
    simpa [ClientError.isDrop] using hdrop
  have hagain : (c.server.transact t).2.reconnect =
      (c.server.reconnectReply 0, (c.server.transact t).2.reconnect.2) := by
    rw [Server.reconnect_eq, Server.transact_eq]
    rfl
  rw [send, Server.transact_of_reply t hreply]
  dsimp only [dropLevels]
  rw [if_neg (hconflict ▸ Bool.false_ne_true), if_pos (by rw [hlost, hreconnect]; rfl), hagain]
  cases c.server.reconnectReply 0 <;> rfl

/-- After a conflict the next attempt follows at once. -/
theorem Settled.after_conflict {source : ClientError}
    (hreply : c.server.transactionReply 0 = .error source) (hconflict : source.isConcurrency = true)
    (hmost : most ≠ 0)
    (h : Settled { c with server := (c.server.transact t).2 } t most last answer) :
    c.Settled t (most + 1) (last + 1) answer := by
  have hdrop : c.server.drops 0 = false := by
    rw [Server.drops, hreply]
    simp [ClientError.isDrop, hconflict]
  refine h.later (.transact t hdrop) ?_ ?_
  · exact not_ends hreply (.inl hconflict) (by omega) fun hdrops =>
      absurd (hdrop.symm.trans hdrops) Bool.false_ne_true
  · rw [Server.exchange, hdrop, Server.transact_eq]
    rfl

/-- When the connection is there again, the next attempt follows. -/
theorem Settled.after_reconnect {source : ClientError}
    (hreply : c.server.transactionReply 0 = .error source) (hdrop : source.isDrop = true)
    (hreconnect : c.config.reconnect = true) (hdone : c.server.reconnectReply 0 = .ok ())
    (hmost : most ≠ 0)
    (h : Settled { c with server := (c.server.transact t).2.reconnect.2, levels := [] } t most last
      answer) :
    c.Settled t (most + 1) (last + 1) answer := by
  have hdrops : c.server.drops 0 = true := by rw [Server.drops, hreply]; exact hdrop
  have hlost : (source.isLostConnection && c.config.reconnect) = true := by
    rw [ClientError.isDrop, Bool.and_eq_true] at hdrop
    rw [hdrop.2, hreconnect]
    rfl
  refine h.later (.reconnect t hdrops) ?_ ?_
  · exact not_ends hreply (.inr hlost) (by omega) fun _ => hdone
  · rw [Server.exchange, hdrops, Server.reconnect_eq, Server.transact_eq]
    exact List.append_assoc _ _ _

/-- The kinds of replies to an attempt, as far as what follows depends on them. -/
inductive FirstReply (c : Connection) : Prop
  | success {result : Json} (reply : c.server.transactionReply 0 = .ok result)
  | conflict {source : ClientError} (reply : c.server.transactionReply 0 = .error source)
      (conflict : source.isConcurrency = true)
  | drop {source : ClientError} (reply : c.server.transactionReply 0 = .error source)
      (drop : source.isDrop = true) (reconnect : c.config.reconnect = true)
  | incurable {source : ClientError} (reply : c.server.transactionReply 0 = .error source)
      (conflict : source.isConcurrency = false)
      (lost : (source.isLostConnection && c.config.reconnect) = false)

/-- Every reply to an attempt is of one of these kinds. -/
theorem firstReply (c : Connection) : c.FirstReply := by
  rcases hreply : c.server.transactionReply 0 with source | result
  · by_cases hconflict : source.isConcurrency = true
    · exact .conflict hreply hconflict
    · rw [Bool.not_eq_true] at hconflict
      by_cases hlost : (source.isLostConnection && c.config.reconnect) = true
      · obtain ⟨hgone, hreconnect⟩ := Bool.and_eq_true_iff.mp hlost
        exact .drop hreply (by rw [ClientError.isDrop, hconflict, hgone]; rfl) hreconnect
      · exact .incurable hreply hconflict (Bool.not_eq_true _ ▸ hlost)
  · exact .success hreply

/-- The loop over the attempts has a last one, after which everything is as the replies have it. -/
theorem exists_settled_send (t : Transaction) (again : Nat) (c : Connection) :
    ∃ last, c.Settled t (again + 1) last (send t again c) := by
  induction again generalizing c with
  | zero =>
      rcases hreply : c.server.transactionReply 0 with source | result
      · have hlast : c.reconnectsAfter 1 0 = false := by simp [reconnectsAfter]
        rw [send_last hreply]
        exact ⟨0, .of_failure (.exhausted rfl) hreply hlast⟩
      · rw [send_of_success 0 hreply]
        exact ⟨0, .of_success hreply⟩
  | succ again ih =>
      cases c.firstReply with
      | success hreply =>
          rw [send_of_success (again + 1) hreply]
          exact ⟨0, .of_success hreply⟩
      | conflict hreply hconflict =>
          obtain ⟨last, hsettled⟩ := ih { c with server := (c.server.transact t).2 }
          rw [send_of_conflict again hreply hconflict]
          exact ⟨last + 1, hsettled.after_conflict hreply hconflict again.succ_ne_zero⟩
      | drop hreply hdrop hreconnect =>
          rw [send_of_drop again hreply hdrop hreconnect]
          dsimp only
          rcases hcut : c.server.reconnectReply 0 with cut | done
          · have hasked : c.reconnectsAfter (again + 1 + 1) 0 = true := by
              simp [reconnectsAfter, Server.drops, hreply, hreconnect, hdrop]
            exact ⟨0, .of_cutOff hasked hcut⟩
          · obtain ⟨last, hsettled⟩ :=
              ih { c with server := (c.server.transact t).2.reconnect.2, levels := [] }
            exact ⟨last + 1,
              hsettled.after_reconnect hreply hdrop hreconnect hcut again.succ_ne_zero⟩
      | @incurable source hreply hconflict hlost =>
          have hnone : c.reconnectsAfter (again + 1 + 1) 0 = false := by
            have hdrops : c.server.drops 0 = source.isDrop := by rw [Server.drops, hreply]
            rcases Bool.and_eq_false_iff.mp hlost with h | h <;>
              simp [reconnectsAfter, hdrops, ClientError.isDrop, h]
          rw [send_of_failure (again + 1) hreply hconflict hlost]
          exact ⟨0, .of_failure (.incurable hreply hconflict hlost) hreply hnone⟩

end loop

end Connection

end AqlBuilder
