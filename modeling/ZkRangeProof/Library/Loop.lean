import Mathlib.Order.Basic

/-! Loops as imperative code writes them. `WhileLoop.run` is `while (guard) state = body(state)`
with at most `fuel` tests of the guard: it is `none` when the tests run out with the guard still
true, so `run … = some final` says that the loop exits, in `final`. Two rules go with it: an
invariant that every round keeps holds on exit, with the guard false, and a measure that every
round lowers bounds the tests the loop needs. `WhileLoop.draw` is
`do { x = round(draw) } while (again)` over a list of random draws: the first value the loop
keeps, an exception of a round, or `none` when the draws end before the loop does; `drawM` is
the same loop when a round is itself such code.
`Returns post x` is the partial correctness of such code: no exception, and `post` of whatever
it returns; `returns_bind` composes it. -/

namespace WhileLoop

section Run

variable {σ : Type*} (guard : σ → Bool) (body : σ → σ)

/-- `while (guard) state = body(state)`, testing the guard at most `fuel` times. -/
def run : ℕ → σ → Option σ
  | 0, _ => none
  | fuel + 1, state => if guard state then run fuel (body state) else some state

variable {guard body}

theorem run_succ_of_guard {state : σ} (continues : guard state = true) (fuel : ℕ) :
    run guard body (fuel + 1) state = run guard body fuel (body state) := by
  simp [run, continues]

theorem run_succ_of_not_guard {state : σ} (stops : guard state = false) (fuel : ℕ) :
    run guard body (fuel + 1) state = some state := by
  simp [run, stops]

/-- Invariant rule: what holds before the loop and is kept by every round holds on exit, where
the guard fails. -/
theorem run_invariant (Inv : σ → Prop)
    (keeps : ∀ state, guard state = true → Inv state → Inv (body state)) {fuel : ℕ}
    {state final : σ} (initial : Inv state) (exits : run guard body fuel state = some final) :
    Inv final ∧ guard final = false := by
  induction fuel generalizing state with
  | zero => cases exits
  | succ fuel ih =>
    cases continues : guard state
    · rw [run_succ_of_not_guard continues] at exits
      cases exits
      exact ⟨initial, continues⟩
    · rw [run_succ_of_guard continues] at exits
      exact ih (keeps state continues initial) exits

/-- Variant rule: if every round from a state of the invariant keeps it and lowers `measure`,
the loop exits within `measure state + 1` tests of its guard. -/
theorem exists_run_of_measure (Inv : σ → Prop) (measure : σ → ℕ)
    (keeps : ∀ state, guard state = true → Inv state →
      Inv (body state) ∧ measure (body state) < measure state)
    {fuel : ℕ} {state : σ} (initial : Inv state) (enough : measure state < fuel) :
    ∃ final, run guard body fuel state = some final := by
  induction fuel generalizing state with
  | zero => omega
  | succ fuel ih =>
    cases continues : guard state
    · exact ⟨state, run_succ_of_not_guard continues fuel⟩
    · obtain ⟨kept, lower⟩ := keeps state continues initial
      rw [run_succ_of_guard continues]
      exact ih kept (by omega)

end Run

section Returns

variable {ε α β : Type}

/-- `x` raises no exception and every value it returns satisfies `post`. It may also not
return at all (`none`), as a loop that never exits. -/
def Returns (post : α → Prop) (x : ExceptT ε Option α) : Prop :=
  ∀ outcome, x.run = some outcome → ∃ a, outcome = .ok a ∧ post a

theorem run_bind (x : ExceptT ε Option α) (f : α → ExceptT ε Option β) :
    (x >>= f).run = x.run.bind fun outcome => match outcome with
      | .ok a => (f a).run
      | .error e => some (.error e) := by
  rw [ExceptT.run_bind]
  rcases x.run with _ | (e | a) <;> rfl

theorem returns_imp {post weaker : α → Prop} {x : ExceptT ε Option α} (returns : Returns post x)
    (implies : ∀ a, post a → weaker a) : Returns weaker x := by
  intro outcome returned
  obtain ⟨a, rfl, holds⟩ := returns outcome returned
  exact ⟨a, rfl, implies a holds⟩

theorem returns_pure {post : α → Prop} {a : α} (holds : post a) :
    Returns post (pure a : ExceptT ε Option α) := by
  intro outcome returned
  cases returned
  exact ⟨a, rfl, holds⟩

/-- Sequencing: the second part may use that the first returned `a`, and what it returns. -/
theorem returns_bind {mid : α → Prop} {post : β → Prop} {x : ExceptT ε Option α}
    {f : α → ExceptT ε Option β} (first : Returns mid x)
    (rest : ∀ a, x.run = some (.ok a) → mid a → Returns post (f a)) :
    Returns post (x >>= f) := by
  intro outcome returned
  rw [run_bind] at returned
  rcases ran : x.run with _ | firstOutcome
  · rw [ran] at returned
    cases returned
  · obtain ⟨a, rfl, holds⟩ := first firstOutcome ran
    rw [ran] at returned
    exact rest a ran holds outcome returned

theorem returns_except {post : α → Prop} {x : Except ε α} {a : α} (ok : x = .ok a)
    (holds : post a) : Returns post (liftM x : ExceptT ε Option α) := by
  subst ok
  intro outcome returned
  cases returned
  exact ⟨a, rfl, holds⟩

theorem returns_except_bind {post : β → Prop} {x : Except ε α} {a : α}
    {f : α → ExceptT ε Option β} (ok : x = .ok a) (rest : Returns post (f a)) :
    Returns post (liftM x >>= f) := by
  subst ok
  exact rest

theorem returns_option_bind {post : β → Prop} {o : Option α} {a : α}
    {f : α → ExceptT ε Option β} (some : o = .some a) (rest : Returns post (f a)) :
    Returns post (liftM o >>= f) := by
  subst some
  exact rest

end Returns

section Draw

variable {ε α : Type} {γ : Type*} (round : γ → Except ε (α × Bool))

/-- `do { x = round(draw) } while (again)`, one draw a round: `round` returns the value drawn
and whether the loop condition holds on it. -/
def draw : List γ → ExceptT ε Option α
  | [] => ExceptT.lift none
  | next :: draws => do
    let (x, again) ← round next
    if again then draw draws else pure x

variable {round}

theorem draw_cons (next : γ) (draws : List γ) :
    (draw round (next :: draws)).run =
      match round next with
      | .error e => some (.error e)
      | .ok (x, again) => if again then (draw round draws).run else some (.ok x) := by
  rw [draw, run_bind]
  cases round next <;> rfl

theorem returns_draw_of_mem {post : α → Prop} (draws : List γ)
    (rounds : ∀ next ∈ draws, ∃ x again, round next = .ok (x, again) ∧ (again = false → post x)) :
    Returns post (draw round draws) := by
  induction draws with
  | nil =>
    intro outcome returned
    cases returned
  | cons next draws ih =>
    intro outcome returned
    obtain ⟨x, again, drawn, exit⟩ := rounds next List.mem_cons_self
    rw [draw_cons, drawn] at returned
    cases again with
    | false =>
      cases returned
      exact ⟨x, rfl, exit rfl⟩
    | true =>
      exact ih (fun later member => rounds later (List.mem_cons_of_mem next member)) outcome returned

theorem returns_draw {post : α → Prop}
    (rounds : ∀ next, ∃ x again, round next = .ok (x, again) ∧ (again = false → post x))
    (draws : List γ) : Returns post (draw round draws) :=
  returns_draw_of_mem draws fun next _ => rounds next

end Draw

section DrawM

variable {ε α : Type} {γ : Type*} (round : γ → ExceptT ε Option (α × Bool))

/-- `do { x = round(draw) } while (again)` where a round may itself raise or not return, such
as a round that runs an inner loop. -/
def drawM : List γ → ExceptT ε Option α
  | [] => ExceptT.lift none
  | next :: draws => do
    let (x, again) ← round next
    if again then drawM draws else pure x

variable {round}

/-- Loop rule for `drawM`: every round on a draw of the list raises nothing, and whatever it
returns with the loop condition false satisfies `post`. -/
theorem returns_drawM {post : α → Prop} (draws : List γ)
    (rounds : ∀ next ∈ draws,
      Returns (fun pair : α × Bool => pair.2 = false → post pair.1) (round next)) :
    Returns post (drawM round draws) := by
  induction draws with
  | nil =>
    intro outcome returned
    cases returned
  | cons next draws ih =>
    apply returns_bind (rounds next List.mem_cons_self)
    rintro ⟨x, again⟩ - exit
    cases again with
    | false => exact returns_pure (exit rfl)
    | true => exact ih fun later member => rounds later (List.mem_cons_of_mem next member)

end DrawM

end WhileLoop
