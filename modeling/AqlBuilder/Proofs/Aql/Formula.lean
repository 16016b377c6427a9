import AqlBuilder.Proofs.Aql.Reading

/-!
# Formulas

A list of conditions with groups in it is a tree: a formula. Its meaning is given by its structure:
a list holds if all conditions of one of its runs do, and a new run begins with every `OR`. What is
written of it has no such structure. There are only conditions, connectors and parentheses one after
another, and it takes a reader who knows that `AND` binds tighter than `OR` to see the formula in
them.

- `Formula.value` is the meaning of a formula for given values of its conditions.
- `Formula.tokens` and `Formula.listTokens` are what is written, and `Reading.step` is how it is
  read.
- `Formula.read_listTokens`: a list in which no group is empty is read as what it means.
- `Formula.connectors_listTokens`: a list is written with all of its connectors but the first.
-/

namespace AqlBuilder

/-- A condition with its structure: an atomic one, or a group of conditions with their
connectors. -/
inductive Formula (α : Type)
  | atom (a : α)
  | group (parts : List (Connector × Formula α))

/-- A piece of what is written of a formula, with the atomic conditions as they are. -/
inductive Token (α : Type)
  | atom (a : α)
  | connector (c : Connector)
  | opening
  | closing

/-- The longest parts of a list that are connected by `AND`. -/
def Aql.runs {β : Type} (list : List (Connector × β)) : List (List (Connector × β)) :=
  list.splitBy fun _ next => next.1 == .and

/-- The disjunction of the runs of a list. -/
def Aql.someRun (values : List (Connector × Bool)) : Bool :=
  (Aql.runs values).any fun run => run.all Prod.snd

namespace Formula

variable {α : Type}

section meaning

variable (v : α → Bool)

mutual
/-- The meaning of a formula, if the atomic conditions have the given values. -/
def value : Formula α → Bool
  | .atom a => v a
  | .group parts => Aql.someRun (values parts)

/-- The meanings of the parts of a list. -/
def values : List (Connector × Formula α) → List (Connector × Bool)
  | [] => []
  | (connector, x) :: rest => (connector, x.value) :: values rest
end

end meaning

mutual
/-- What is written of a formula. -/
def tokens : Formula α → List (Token α)
  | .atom a => [.atom a]
  | .group parts => .opening :: (listTokens parts ++ [.closing])

/-- What is written of a list: the connector of the first part is dropped. -/
def listTokens : List (Connector × Formula α) → List (Token α)
  | [] => []
  | (_, x) :: rest => x.tokens ++ furtherTokens rest

/-- What is written of the parts behind the first one. -/
def furtherTokens : List (Connector × Formula α) → List (Token α)
  | [] => []
  | (connector, x) :: rest => .connector connector :: (x.tokens ++ furtherTokens rest)
end

/-- A formula without an empty group. -/
inductive Filled : Formula α → Prop
  | atom (a : α) : Filled (.atom a)
  | group {parts : List (Connector × Formula α)} (hne : parts ≠ [])
      (h : ∀ part ∈ parts, Filled part.2) : Filled (.group parts)

end Formula

/-! ### Reading -/

/-- What has been read of a formula. -/
structure Reading where
  /-- Whether one of the runs before the last `OR` holds. -/
  settled : Bool
  /-- Whether everything behind the last `OR` holds. -/
  run : Bool
  /-- Whether a condition has just been read, and not a connector or an opening parenthesis. -/
  complete : Bool
  /-- The same two values of the groups around this one, the innermost first. -/
  outer : List (Bool × Bool)

namespace Reading

/-- Nothing has been read. -/
def start : Reading := ⟨false, true, false, []⟩

/-- A condition with a value has been read. -/
def take (s : Reading) (value : Bool) : Reading :=
  { s with run := s.run && value, complete := true }

/-- The value of the conditions that have been read since the last parenthesis was opened. -/
def value (s : Reading) : Bool := s.settled || s.run

/-- Read one token. Conditions stand between connectors, and parentheses around conditions. -/
def step {α : Type} (v : α → Bool) (s : Reading) : Token α → Option Reading
  | .atom a => if s.complete then none else some (s.take (v a))
  | .opening =>
    if s.complete then none else some ⟨false, true, false, (s.settled, s.run) :: s.outer⟩
  | .closing =>
    match s.complete, s.outer with
    | true, (settled, run) :: outer => some (take ⟨settled, run, false, outer⟩ s.value)
    | _, _ => none
  | .connector .and => if s.complete then some { s with complete := false } else none
  | .connector .or => if s.complete then some ⟨s.value, true, false, s.outer⟩ else none

end Reading

/-- The value of a text, read from the beginning to the end, if it is well-formed. -/
def Token.read {α : Type} (v : α → Bool) (tokens : List (Token α)) : Option Bool := do
  let s ← tokens.foldlM (Reading.step v) Reading.start
  if s.complete && s.outer.isEmpty then some s.value else none

/-- The connectors that stand outside of all parentheses, at a given depth of them. -/
def Token.connectors {α : Type} : Nat → List (Token α) → List Connector
  | _, [] => []
  | depth, .atom _ :: rest => connectors depth rest
  | depth, .opening :: rest => connectors (depth + 1) rest
  | depth, .closing :: rest => connectors (depth - 1) rest
  | 0, .connector c :: rest => c :: connectors 0 rest
  | depth + 1, .connector _ :: rest => connectors (depth + 1) rest

section runs

open Aql

/-- The runs of a list hold as its conditions do when they are taken one after another. -/
theorem any_splitBy_loop (values : List (Connector × Bool)) (last : Connector × Bool)
    (run : List (Connector × Bool)) (runs : List (List (Connector × Bool))) :
    (List.splitBy.loop (fun _ next => next.1 == Connector.and) values last run runs).any
        (fun run => run.all Prod.snd) =
      (runs.any (fun run => run.all Prod.snd) || holdsAfter
        (run.all Prod.snd && last.2) values) := by
  induction values generalizing last run runs with
  | nil =>
    change ((last :: run).reverse :: runs).reverse.any _ = _
    simp [holdsAfter, Bool.or_comm, Bool.and_comm]
  | cons next rest ih =>
      obtain ⟨connector, value⟩ := next
      cases connector with
      | and =>
          change (List.splitBy.loop _ rest (.and, value) (last :: run) runs).any _ = _
          rw [ih, holdsAfter, List.all_cons, Bool.and_comm last.2]
      | or =>
          change (List.splitBy.loop _ rest (.or, value) []
            ((last :: run).reverse :: runs)).any _ = _
          rw [ih, holdsAfter, List.any_cons, List.all_reverse, List.all_cons, List.all_nil,
            Bool.true_and, Bool.and_comm last.2, Bool.or_left_comm, Bool.or_assoc]

/-- A list of conditions holds if one of its runs does. -/
theorem Aql.someRun_eq_holds {values : List (Connector × Bool)} (h : values ≠ []) :
    someRun values = holds values := by
  cases values with
  | nil => exact absurd rfl h
  | cons first rest => exact (any_splitBy_loop rest first [] []).trans (by simp [holds])

end runs

namespace Formula

variable {α : Type} {v : α → Bool}

/-- A formula with parts has values. -/
theorem values_ne_nil {parts : List (Connector × Formula α)} (h : parts ≠ []) :
    values v parts ≠ [] := by
  cases parts with
  | nil => exact absurd rfl h
  | cons first rest => exact List.cons_ne_nil _ _

/-! ### What is read -/

/-- Where a condition may stand, what is written of a formula is read as a condition with its
value. -/
def IsRead (v : α → Bool) (x : Formula α) : Prop :=
  ∀ s : Reading, s.complete = false → x.tokens.foldlM (Reading.step v) s = some (s.take (x.value v))

/-- Reading conditions behind another one, one after another: none of the groups around changes. -/
theorem read_furtherTokens {parts : List (Connector × Formula α)}
    (h : ∀ part ∈ parts, part.2.IsRead v) {s : Reading} (hs : s.complete = true) :
    ∃ s', (furtherTokens parts).foldlM (Reading.step v) s = some s' ∧ s'.complete = true ∧
      s'.outer = s.outer ∧ s'.value = (s.settled || Aql.holdsAfter s.run (values v parts)) := by
  induction parts generalizing s with
  | nil => exact ⟨s, rfl, hs, rfl, rfl⟩
  | cons first rest ih =>
      obtain ⟨connector, x⟩ := first
      obtain ⟨hx, hrest⟩ := List.forall_mem_cons.mp h
      -- The connector decides which run the next condition belongs to.
      obtain ⟨next, hnext, hincomplete, houter, hvalue⟩ : ∃ next,
          Reading.step v s (.connector connector) = some next ∧ next.complete = false ∧
            next.outer = s.outer ∧
            (next.settled || Aql.holdsAfter (next.run && x.value v) (values v rest)) =
              (s.settled || Aql.holdsAfter s.run (values v ((connector, x) :: rest))) := by
        cases connector with
        | and => exact ⟨{ s with complete := false }, by simp [Reading.step, hs], rfl, rfl, rfl⟩
        | or =>
            refine ⟨⟨s.value, true, false, s.outer⟩, by simp [Reading.step, hs], rfl, rfl, ?_⟩
            simp [values, Aql.holdsAfter, Reading.value, Bool.or_assoc]
      obtain ⟨s', hs', hcomplete, hsame, hread⟩ := ih hrest (s := next.take (x.value v)) rfl
      refine ⟨s', ?_, hcomplete, hsame.trans houter, hread.trans hvalue⟩
      rw [furtherTokens, List.foldlM_cons, hnext, Option.bind_eq_bind, Option.bind_some,
        List.foldlM_append, hx next hincomplete]
      exact hs'

/-- Reading a list from its beginning. -/
theorem read_list {parts : List (Connector × Formula α)} (hne : parts ≠ [])
    (h : ∀ part ∈ parts, part.2.IsRead v) (outer : List (Bool × Bool)) :
    ∃ s, (listTokens parts).foldlM (Reading.step v) ⟨false, true, false, outer⟩ = some s ∧
      s.complete = true ∧ s.outer = outer ∧ s.value = Aql.someRun (values v parts) := by
  rw [Aql.someRun_eq_holds (values_ne_nil hne)]
  cases parts with
  | nil => exact absurd rfl hne
  | cons first rest =>
      obtain ⟨connector, x⟩ := first
      obtain ⟨hx, hrest⟩ := List.forall_mem_cons.mp h
      obtain ⟨s, hs, hcomplete, houter, hvalue⟩ := read_furtherTokens hrest
        (s := Reading.take ⟨false, true, false, outer⟩ (x.value v)) rfl
      refine ⟨s, ?_, hcomplete, houter, hvalue⟩
      rw [listTokens, List.foldlM_append, hx _ rfl]
      exact hs

/-- **A formula without an empty group is read as a condition with its value.** -/
theorem Filled.isRead {x : Formula α} (h : x.Filled) : x.IsRead v := by
  induction h with
  | atom a =>
      intro s hs
      simp [tokens, Reading.step, hs, value]
  | @group parts hne _ ih =>
      intro s hs
      obtain ⟨s', hs', hcomplete, houter, hvalue⟩ :=
        read_list hne ih ((s.settled, s.run) :: s.outer)
      have hopened : Reading.step v s .opening =
          some ⟨false, true, false, (s.settled, s.run) :: s.outer⟩ := by simp [Reading.step, hs]
      have hclosed : Reading.step v s' .closing = some (s.take (value v (.group parts))) := by
        simp [Reading.step, hcomplete, houter, hvalue, value, Reading.take]
      rw [tokens, List.foldlM_cons, hopened, Option.bind_eq_bind, Option.bind_some,
        List.foldlM_append, hs']
      simp [hclosed]

/-- **A list in which no group is empty is read as what it means**, whichever conditions hold. -/
theorem read_listTokens {parts : List (Connector × Formula α)} (hne : parts ≠ [])
    (h : ∀ part ∈ parts, part.2.Filled) (v : α → Bool) :
    Token.read v (listTokens parts) = some (Aql.someRun (values v parts)) := by
  obtain ⟨s, hs, hcomplete, houter, hvalue⟩ :=
    read_list (v := v) hne (fun part hpart => (h part hpart).isRead) []
  change (listTokens parts).foldlM (Reading.step v) Reading.start = some s at hs
  simp [Token.read, hs, hcomplete, houter, hvalue]

/-! ### Connectors -/

/-- No connector of a formula stands outside of its parentheses. -/
def IsClosed (x : Formula α) : Prop :=
  ∀ depth rest, Token.connectors depth (x.tokens ++ rest) = Token.connectors depth rest

/-- Of the parts that follow the first, the connectors in front of each are seen, but only outside
of all parentheses. -/
theorem connectors_furtherTokens {parts : List (Connector × Formula α)}
    (h : ∀ part ∈ parts, part.2.IsClosed) (depth : Nat) (rest : List (Token α)) :
    Token.connectors depth (furtherTokens parts ++ rest) =
      (if depth = 0 then parts.map Prod.fst else []) ++ Token.connectors depth rest := by
  induction parts with
  | nil => simp [furtherTokens]
  | cons first others ih =>
      obtain ⟨connector, x⟩ := first
      obtain ⟨hx, hothers⟩ := List.forall_mem_cons.mp h
      rw [furtherTokens, List.cons_append, List.append_assoc]
      cases depth with
      | zero => rw [Token.connectors, hx, ih hothers]; rfl
      | succ depth => rw [Token.connectors, hx, ih hothers]; rfl

/-- Of a list the connectors between its parts are seen, and none if it is in parentheses. -/
theorem connectors_list {parts : List (Connector × Formula α)}
    (h : ∀ part ∈ parts, part.2.IsClosed) (depth : Nat) (rest : List (Token α)) :
    Token.connectors depth (listTokens parts ++ rest) =
      (if depth = 0 then (parts.map Prod.fst).tail else []) ++ Token.connectors depth rest := by
  cases parts with
  | nil => simp [listTokens]
  | cons first others =>
      obtain ⟨hfirst, hothers⟩ := List.forall_mem_cons.mp h
      rw [listTokens, List.append_assoc, hfirst, connectors_furtherTokens hothers]
      rfl

/-- In a formula without empty groups the parentheses match. -/
theorem Filled.isClosed {x : Formula α} (h : x.Filled) : x.IsClosed := by
  induction h with
  | atom a => exact fun depth rest => rfl
  | @group parts _ _ ih =>
      intro depth rest
      rw [tokens, List.cons_append, List.append_assoc, Token.connectors, connectors_list ih]
      rfl

/-- **A list is written with all of its connectors but the first**, apart from those in groups. -/
theorem connectors_listTokens {parts : List (Connector × Formula α)}
    (h : ∀ part ∈ parts, part.2.Filled) :
    Token.connectors 0 (listTokens parts) = (parts.map Prod.fst).tail := by
  have hlist := connectors_list (fun part hpart => (h part hpart).isClosed) 0 []
  rw [List.append_nil] at hlist
  exact hlist.trans (List.append_nil _)

end Formula

/-! ### Writing -/

/-- A token is written as a text, with the atomic conditions written in a given way. -/
inductive Token.Written {α : Type} (writes : α → String → Prop) : Token α → String → Prop
  | atom {a : α} {text : String} (h : writes a text) : Written writes (.atom a) text
  | connector (c : Connector) : Written writes (.connector c) (" " ++ c.text ++ " ")
  | opening : Written writes .opening "("
  | closing : Written writes .closing ")"

/-- A text is the tokens of a list written one after another. -/
def Token.Spell {α : Type} (writes : α → String → Prop) (tokens : List (Token α)) (text : String) :
    Prop :=
  ∃ texts, List.Forall₂ (Token.Written writes) tokens texts ∧ text = String.join texts

namespace Token.Spell

variable {α : Type} {writes : α → String → Prop} {first rest : List (Token α)} {token : Token α}
  {left right text : String}

theorem nil : Spell writes [] "" := ⟨[], .nil, rfl⟩

theorem single (h : token.Written writes text) : Spell writes [token] text :=
  ⟨[text], .cons h .nil, by simp [String.join]⟩

/-- Two lists of tokens are written one behind the other. -/
theorem append (hfirst : Spell writes first left) (hrest : Spell writes rest right) :
    Spell writes (first ++ rest) (left ++ right) := by
  obtain ⟨texts, htexts, rfl⟩ := hfirst
  obtain ⟨others, hothers, rfl⟩ := hrest
  exact ⟨texts ++ others, List.rel_append htexts hothers, by simp [String.join_append]⟩

theorem cons (h : token.Written writes left) (hrest : Spell writes rest right) :
    Spell writes (token :: rest) (left ++ right) := (single h).append hrest

end Token.Spell

end AqlBuilder
