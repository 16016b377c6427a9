import AqlBuilder.Aql.Outcome

/-!
# Results under different counters

Two outcomes are compared by their results alone, and under every pair of counters. An outcome is
steady if the counter makes no difference to its result and never goes back.

- `Outcome.Alike.bind` chains two computations that run side by side.
- `Outcome.Steady.eq`: a steady outcome has one result.
-/

namespace AqlBuilder

namespace Outcome

variable {α β γ δ : Type}

/-- An outcome with some query numbers taken before it. -/
def after (count : Nat) (x : Outcome α) : Outcome α := fun next => x (next + count)

/-- Two results that are the same error or stand in a relation. -/
inductive Agree (r : α → β → Prop) : Except Error α → Except Error β → Prop
  | error (e : Error) : Agree r (Except.error e) (Except.error e)
  | ok {a : α} {b : β} (h : r a b) : Agree r (Except.ok a) (Except.ok b)

/-- Two outcomes whose results agree, whichever numbers are the next ones. -/
def Alike (r : α → β → Prop) (x : Outcome α) (y : Outcome β) : Prop :=
  ∀ m n, Agree r (x m).1 (y n).1

/-- A success with this result, whichever number is the next one. -/
def Gives (x : Outcome α) (a : α) : Prop := ∀ n, (x n).1 = .ok a

/-- An outcome whose result does not depend on the next number, and that gives no number back. -/
structure Steady (x : Outcome α) : Prop where
  alike : x.Alike Eq x
  rises : ∀ n, n ≤ (x n).2

/-- A result that is no error is a success. -/
theorem exists_ok {result : Except Error α} (h : result.isOk = true) : ∃ a, result = .ok a := by
  cases result with
  | error e => cases h
  | ok a => exact ⟨a, rfl⟩

/-- A computation that goes wrong goes wrong with everything behind it. -/
theorem bind_error {x : Outcome α} {f : α → Outcome β} {e : Error} {n n' : Nat}
    (hx : x n = (.error e, n')) : (x >>= f) n = (.error e, n') := by
  simp only [bind, hx]

/-- A computation that succeeds goes on with its result and its counter. -/
theorem bind_ok {x : Outcome α} {f : α → Outcome β} {a : α} {n n' : Nat}
    (hx : x n = (.ok a, n')) : (x >>= f) n = f a n' := by
  simp only [bind, hx]

/-- Computations may be put together in any order. -/
theorem bind_bind (x : Outcome α) (f : α → Outcome β) (g : β → Outcome γ) :
    (x >>= f) >>= g = x >>= fun a => f a >>= g := by
  funext n
  rcases hx : x n with ⟨_ | a, n'⟩
  · rw [bind_error (bind_error hx), bind_error hx]
  · rw [bind_ok hx]
    rcases hf : f a n' with ⟨_ | c, n''⟩
    · rw [bind_error hf, bind_error ((bind_ok hx).trans hf)]
    · rw [bind_ok hf, bind_ok ((bind_ok hx).trans hf)]

/-- A computation with a function behind it succeeds where the computation does. -/
theorem map_ok_iff {x : Outcome α} {f : α → β} {n : Nat} {c : β} :
    ((x >>= fun a => pure (f a)) n).1 = .ok c ↔ ∃ a, (x n).1 = .ok a ∧ f a = c := by
  rcases hx : x n with ⟨_ | a, n'⟩
  · rw [bind_error hx]
    simp
  · rw [bind_ok hx]
    constructor
    · intro h
      exact ⟨a, rfl, Except.ok.inj h⟩
    · rintro ⟨a', ha, rfl⟩
      rw [Except.ok.inj ha]
      rfl

variable {r : α → β → Prop} {s : γ → δ → Prop}

/-- Results that agree up to equality are equal. -/
theorem Agree.eq {x y : Except Error α} (h : Agree Eq x y) : x = y := by
  cases h with
  | error e => rfl
  | ok h => rw [h]

theorem Agree.refl {r : α → α → Prop} (hr : ∀ a, r a a) (x : Except Error α) : Agree r x x := by
  cases x with
  | error e => exact Agree.error e
  | ok a => exact Agree.ok (hr a)

/-- Results that agree in one way agree in every weaker way. -/
theorem Agree.mono {r' : α → β → Prop} {x : Except Error α} {y : Except Error β}
    (h : Agree r x y) (hr : ∀ a b, r a b → r' a b) : Agree r' x y := by
  cases h with
  | error e => exact Agree.error e
  | ok h => exact Agree.ok (hr _ _ h)

theorem alike_pure {a : α} {b : β} (h : r a b) : Alike r (pure a) (pure b) :=
  fun _ _ => Agree.ok h

theorem alike_fail (e : Error) : Alike r (fail e) (fail e) := fun _ _ => Agree.error e

/-- Alike computations go on alike. -/
theorem Alike.bind {x : Outcome α} {y : Outcome β} {f : α → Outcome γ} {g : β → Outcome δ}
    (hxy : Alike r x y) (hfg : ∀ a b, r a b → Alike s (f a) (g b)) :
    Alike s (x >>= f) (y >>= g) := by
  intro m n
  have h := hxy m n
  rcases hx : x m with ⟨_ | a, m'⟩ <;> rcases hy : y n with ⟨_ | b, n'⟩ <;> rw [hx, hy] at h
  · rw [bind_error hx, bind_error hy]
    cases h
    exact Agree.error _
  · cases h
  · cases h
  · rw [bind_ok hx, bind_ok hy]
    cases h with
    | ok hab => exact hfg a b hab m' n'

theorem steady_pure (a : α) : Steady (pure a) := ⟨alike_pure rfl, fun n => Nat.le_refl n⟩

theorem steady_fail (e : Error) : Steady (fail e : Outcome α) :=
  ⟨alike_fail e, fun n => Nat.le_refl n⟩

/-- A computation whose parts never set the counter back never does so. -/
theorem rises_bind {x : Outcome α} {f : α → Outcome β} (hx : ∀ n, n ≤ (x n).2)
    (hf : ∀ a n, n ≤ (f a n).2) (n : Nat) : n ≤ ((x >>= f) n).2 := by
  have hfirst := hx n
  rcases h : x n with ⟨_ | a, n'⟩ <;> rw [h] at hfirst
  · rw [bind_error h]
    exact hfirst
  · rw [bind_ok h]
    have hrest := hf a n'
    dsimp only at hfirst
    omega

/-- A computation is steady if its parts are. -/
theorem Steady.bind {x : Outcome α} {f : α → Outcome β} (hx : x.Steady)
    (hf : ∀ a, (f a).Steady) : (x >>= f).Steady := by
  refine ⟨Alike.bind hx.alike fun a b hab => ?_, rises_bind hx.rises fun a => (hf a).rises⟩
  subst hab
  exact (hf a).alike

theorem Steady.map {x : Outcome α} {f : α → β} (hx : x.Steady) :
    Steady (do pure (f (← x))) :=
  hx.bind fun a => steady_pure (f a)

/-- A steady computation is steady after numbers are taken. -/
theorem Steady.after {x : Outcome α} (hx : x.Steady) (count : Nat) : (x.after count).Steady := by
  refine ⟨fun m n => hx.alike (m + count) (n + count), fun n => ?_⟩
  have h := hx.rises (n + count)
  change n ≤ (x (n + count)).2
  omega

/-- A steady outcome has one result. -/
theorem Steady.eq {x : Outcome α} (hx : x.Steady) (m n : Nat) : (x m).1 = (x n).1 :=
  (hx.alike m n).eq

/-- Going through a list is steady if each step is. -/
theorem steady_each {f : α → Outcome β} {items : List α} (h : ∀ i ∈ items, (f i).Steady) :
    (each f items).Steady := by
  induction items with
  | nil => exact steady_pure []
  | cons item items ih =>
      refine (h item List.mem_cons_self).bind fun first => ?_
      exact (ih fun i hi => h i (List.mem_cons_of_mem item hi)).map

theorem gives_pure (a : α) : Gives (pure a) a := fun _ => rfl

/-- A computation gives what its rest gives for the value of its first part. -/
theorem Gives.bind {x : Outcome α} {f : α → Outcome β} {a : α} {b : β} (hx : x.Gives a)
    (hf : (f a).Gives b) : (x >>= f).Gives b := by
  intro n
  have ha := hx n
  rcases hrun : x n with ⟨_ | a', n'⟩ <;> rw [hrun] at ha
  · cases ha
  · rw [bind_ok hrun, Except.ok.inj ha]
    exact hf n'

theorem Gives.map {x : Outcome α} {a : α} (hx : x.Gives a) (f : α → β) :
    Gives (do pure (f (← x))) (f a) :=
  hx.bind (gives_pure (f a))

theorem Gives.after {x : Outcome α} {a : α} (hx : x.Gives a) (count : Nat) :
    (x.after count).Gives a := fun n => hx (n + count)

/-- A steady outcome that succeeds once always gives the same. -/
theorem Steady.gives {x : Outcome α} {a : α} {n : Nat} (hx : x.Steady) (h : (x n).1 = .ok a) :
    x.Gives a := fun m => (hx.eq m n).trans h

end Outcome

end AqlBuilder
