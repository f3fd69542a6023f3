import Mathlib.Logic.Basic

/-! Sequencing lemmas for the `Except` monad: when a chain of binds, guards and join points
returns normally. A verifier written as a `do` block of checks is accepted exactly when every
check in it is; these lemmas peel the checks off one at a time, and `mapM` returns exactly when
its function does on every element. `Outcome` states what a
computation returns and what it may raise; its rules compose it over binds, `mapM` and weaker
postconditions, and a check is a case split. -/

namespace ExceptSeq

variable {ε α β : Type _}

@[simp] theorem ok_bind (a : α) (f : α → Except ε β) : (Except.ok a >>= f) = f a := rfl

@[simp] theorem error_bind (e : ε) (f : α → Except ε β) : (Except.error e >>= f) = .error e := rfl

@[simp] theorem pure_eq_ok (a : α) : (pure a : Except ε α) = .ok a := rfl

@[simp] theorem throw_eq_error (e : ε) : (throw e : Except ε α) = .error e := rfl

theorem bind_eq_ok_iff {x : Except ε α} {f : α → Except ε β} {b : β} :
    (x >>= f) = .ok b ↔ ∃ a, x = .ok a ∧ f a = .ok b := by
  cases x <;> simp

@[simp] theorem exists_unit_ok_and (x : Except ε Unit) (P : Unit → Prop) :
    (∃ u, x = .ok u ∧ P u) ↔ x = .ok () ∧ P () := by
  constructor
  · rintro ⟨⟨⟩, passed, rest⟩
    exact ⟨passed, rest⟩
  · rintro ⟨passed, rest⟩
    exact ⟨(), passed, rest⟩

theorem unit_bind_eq_ok_iff {x : Except ε Unit} {f : Unit → Except ε β} {b : β} :
    (x >>= f) = .ok b ↔ x = .ok () ∧ f () = .ok b := by
  rw [bind_eq_ok_iff, exists_unit_ok_and]

@[simp] theorem ite_throw_join_eq_ok_iff (p : Prop) [Decidable p] (e : ε)
    (k : Unit → Except ε β) (b : β) :
    (if p then (throw e >>= k) else k ()) = .ok b ↔ ¬p ∧ k () = .ok b := by
  by_cases holds : p <;> simp [holds]

@[simp] theorem ite_throw_eq_ok_iff (p : Prop) [Decidable p] (e : ε) :
    (if p then throw e else pure () : Except ε Unit) = .ok () ↔ ¬p := by
  by_cases holds : p <;> simp [holds]

@[simp] theorem ite_ok_error_eq_ok_iff (p : Prop) [Decidable p] (e : ε) :
    (if p then .ok () else .error e : Except ε Unit) = .ok () ↔ p := by
  by_cases holds : p <;> simp [holds]

/-- `mapM` returns `ys` exactly when `f` accepts every element and `ys` lists what it returns,
for an `f` that accepts the elements of `valid` and returns `g` of them. -/
theorem mapM_eq_ok_iff {f : α → Except ε β} {valid : α → Prop} {g : α → β}
    (spec : ∀ a b, f a = .ok b ↔ valid a ∧ b = g a) (l : List α) (ys : List β) :
    l.mapM f = .ok ys ↔ (∀ a ∈ l, valid a) ∧ ys = l.map g := by
  induction l generalizing ys with
  | nil =>
    simp only [List.mapM_nil, pure_eq_ok, Except.ok.injEq, List.not_mem_nil, false_imp_iff,
      implies_true, List.map_nil, true_and]
    exact eq_comm
  | cons a l ih =>
    simp only [List.mapM_cons, bind_eq_ok_iff, pure_eq_ok, Except.ok.injEq, spec, ih,
      List.forall_mem_cons, List.map_cons]
    constructor
    · rintro ⟨b, ⟨first, rfl⟩, bs, ⟨rest, rfl⟩, rfl⟩
      exact ⟨⟨first, rest⟩, rfl⟩
    · rintro ⟨⟨first, rest⟩, rfl⟩
      exact ⟨g a, ⟨first, rfl⟩, l.map g, ⟨rest, rfl⟩, rfl⟩

/-! ### What a computation returns or raises -/

section Outcome

/-- `x` returns a value of `values` or raises an error of `errors`: a postcondition split into
its normal and its exceptional part. It is an inductive predicate so that stating it of a large
`do` block never unfolds the block. -/
inductive Outcome (values : α → Prop) (errors : ε → Prop) : Except ε α → Prop
  | ok {a : α} (holds : values a) : Outcome values errors (.ok a)
  | error {e : ε} (holds : errors e) : Outcome values errors (.error e)

variable {values : β → Prop} {errors : ε → Prop}

/-- Sequencing: the rest may assume what the first part returned. -/
theorem outcome_bind {mid : α → Prop} {x : Except ε α} {f : α → Except ε β}
    (first : Outcome mid errors x) (rest : ∀ a, mid a → Outcome values errors (f a)) :
    Outcome values errors (x >>= f) := by
  cases first with
  | ok holds => exact rest _ holds
  | error holds => exact .error holds

theorem outcome_imp {weakerValues : β → Prop} {weakerErrors : ε → Prop} {x : Except ε β}
    (outcome : Outcome values errors x) (onValue : ∀ b, values b → weakerValues b)
    (onError : ∀ e, errors e → weakerErrors e) : Outcome weakerValues weakerErrors x := by
  cases outcome with
  | ok holds => exact .ok (onValue _ holds)
  | error holds => exact .error (onError _ holds)

theorem outcome_mapM {f : α → Except ε β} (l : List α)
    (each : ∀ a ∈ l, Outcome (fun _ => True) errors (f a)) :
    Outcome (fun _ => True) errors (l.mapM f) := by
  induction l with
  | nil => exact .ok trivial
  | cons a l ih =>
    rw [List.mapM_cons]
    apply outcome_bind (each a List.mem_cons_self)
    rintro b -
    apply outcome_bind (ih fun later member => each later (List.mem_cons_of_mem a member))
    rintro bs -
    exact .ok trivial

end Outcome

end ExceptSeq
