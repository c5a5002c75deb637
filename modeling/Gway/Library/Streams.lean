import Mathlib.Data.List.Infix

/-! Streams that are polled until their end, and operations on a stream that are performed one
after the other until one of them fails.
-/

universe u v w x

/-- What a stream answers to each poll until its end, which may be an error. -/
inductive Polled (Item : Type u) (Err : Type v) where
  | pending (later : Polled Item Err)
  | ready (item : Item) (later : Polled Item Err)
  | ended
  | failed (err : Err)

namespace Polled

variable {Item : Type u} {Err : Type v} {Other : Type w} {OtherErr : Type x}

/-- The items in order. -/
def items : Polled Item Err → List Item
  | pending later => later.items
  | ready item later => item :: later.items
  | ended => []
  | failed _ => []

/-- How the stream ends. -/
def outcome : Polled Item Err → Except Err Unit
  | pending later => later.outcome
  | ready _ later => later.outcome
  | ended => .ok ()
  | failed err => .error err

/-- Every answer is passed on, with its item or error changed. -/
def map (onItem : Item → Other) (onError : Err → OtherErr)
    : Polled Item Err → Polled Other OtherErr
  | pending later => pending (later.map onItem onError)
  | ready item later => ready (onItem item) (later.map onItem onError)
  | ended => ended
  | failed err => failed (onError err)

@[simp] theorem items_map (onItem : Item → Other) (onError : Err → OtherErr)
    (stream : Polled Item Err)
    : (stream.map onItem onError).items = stream.items.map onItem := by
  induction stream with
  | pending later ih => exact ih
  | ready item later ih => exact congrArg _ ih
  | ended => rfl
  | failed err => rfl

@[simp] theorem outcome_map (onItem : Item → Other) (onError : Err → OtherErr)
    (stream : Polled Item Err)
    : (stream.map onItem onError).outcome = stream.outcome.mapError onError := by
  induction stream with
  | pending later ih => exact ih
  | ready item later ih => exact ih
  | ended => rfl
  | failed err => rfl

end Polled

-----------------------------------------------------------------------------------------
-- Operations in order
-----------------------------------------------------------------------------------------

/-- The operations of a plan are performed in order until one fails. `outcome` says how each
operation on the stream ends, by its number, and `count` have been performed before.
-/
def performAll {Op : Type u} {Err : Type v} (outcome : Nat → Except Err Unit) (count : Nat)
    : List Op → List Op × Except Err Unit
  | [] => ([], .ok ())
  | op :: rest =>
      match outcome count with
      | .error err => ([op], .error err)
      | .ok () =>
          let (performed, result) := performAll outcome (count + 1) rest
          (op :: performed, result)

section PerformAll

variable {Op : Type u} {Err : Type v} {outcome : Nat → Except Err Unit} {count : Nat}
  {first second : List Op}

/-- No operation is left out and none is performed twice or in another order. -/
theorem performAll_prefix (plan : List Op) : (performAll outcome count plan).1 <+: plan := by
  induction plan generalizing count with
  | nil => exact List.prefix_rfl
  | cons op rest ih =>
      unfold performAll
      cases outcome count with
      | error err => exact List.prefix_append [op] rest
      | ok _ => exact (List.prefix_cons_inj op).mpr ih

/-- A plan succeeds exactly if each of its operations does. -/
theorem performAll_eq_ok (plan : List Op)
    : (performAll outcome count plan).2 = .ok ()
      ↔ ∀ i < plan.length, outcome (count + i) = .ok () := by
  induction plan generalizing count with
  | nil => simp [performAll]
  | cons op rest ih =>
      unfold performAll
      rw [List.length_cons, Nat.forall_lt_succ_left]
      cases own : outcome count with
      | error err => simp
      | ok _ => simp only [true_and, ih, Nat.add_assoc, Nat.add_comm 1]

/-- A plan that succeeds has been performed. -/
theorem performAll_fst_of_ok {plan : List Op}
    (succeeded : (performAll outcome count plan).2 = .ok ())
    : (performAll outcome count plan).1 = plan := by
  induction plan generalizing count with
  | nil => rfl
  | cons op rest ih =>
      unfold performAll at succeeded ⊢
      cases own : outcome count with
      | error err => simp [own] at succeeded
      | ok _ =>
          simp only [own] at succeeded ⊢
          rw [ih succeeded]

/-- If none of the operations that are performed fails, the plan succeeds. -/
theorem performAll_snd_of_performed {plan : List Op}
    (succeeded : ∀ i < (performAll outcome count plan).1.length, outcome (count + i) = .ok ())
    : (performAll outcome count plan).2 = .ok () := by
  induction plan generalizing count with
  | nil => rfl
  | cons op rest ih =>
      unfold performAll at succeeded ⊢
      cases own : outcome count with
      | error err =>
          simp only [own] at succeeded
          have first := succeeded 0 Nat.one_pos
          rw [Nat.add_zero, own] at first
          cases first
      | ok _ =>
          simp only [own, List.length_cons] at succeeded
          refine ih fun i inside => ?_
          rw [Nat.add_assoc, Nat.add_comm 1]
          exact succeeded (i + 1) (Nat.succ_lt_succ inside)

/-- A plan that does not succeed ends with the first of its operations that fails. -/
theorem performAll_of_error {plan : List Op} {err : Err}
    (failed : (performAll outcome count plan).2 = .error err)
    : ∃ last < plan.length,
        (performAll outcome count plan).1.length = last + 1
        ∧ outcome (count + last) = .error err
        ∧ ∀ i < last, outcome (count + i) = .ok () := by
  induction plan generalizing count with
  | nil => cases failed
  | cons op rest ih =>
      unfold performAll at failed ⊢
      cases own : outcome count with
      | error first =>
          simp only [own] at failed
          exact ⟨0, by simp, rfl, own.trans failed, by simp⟩
      | ok _ =>
          simp only [own] at failed
          obtain ⟨last, inside, length, fails, before⟩ := ih failed
          refine ⟨last + 1, Nat.succ_lt_succ inside, congrArg (· + 1) length, ?_, ?_⟩
          · rwa [Nat.add_comm last, ← Nat.add_assoc]
          · intro i earlier
            cases i with
            | zero => exact own
            | succ i =>
                rw [Nat.add_comm i, ← Nat.add_assoc]
                exact before i (Nat.lt_of_succ_lt_succ earlier)

/-- The first operation is always performed. -/
theorem head?_performAll (plan : List Op)
    : (performAll outcome count plan).1.head? = plan.head? := by
  cases plan with
  | nil => rfl
  | cons op rest =>
      unfold performAll
      cases outcome count <;> rfl

/-- Of two plans in a row the second is begun if the first succeeds. -/
theorem performAll_append
    : performAll outcome count (first ++ second)
      = match performAll outcome count first with
        | (performed, .error err) => (performed, .error err)
        | (performed, .ok ()) =>
            let (more, result) := performAll outcome (count + first.length) second
            (performed ++ more, result) := by
  induction first generalizing count with
  | nil => simp [performAll]
  | cons op rest ih =>
      simp only [List.cons_append, performAll]
      cases own : outcome count with
      | error err => rfl
      | ok _ =>
          simp only [ih, List.length_cons]
          rcases performAll outcome (count + 1) rest with ⟨performed, err | _⟩
          · rfl
          · simp [Nat.add_assoc, Nat.add_comm 1]

end PerformAll
