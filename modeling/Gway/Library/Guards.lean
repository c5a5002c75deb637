import Mathlib.Data.List.Basic

/-! Guards that exclude each other, at most one in the hands of each process. A guard is only
taken when it is free, so the guards in use never conflict.
-/

universe u v

namespace Guards

variable {Process : Type u} {Guard : Type v}

/-- The guard that a process holds, where processes are numbered by their places. -/
def heldBy (guard : Process → Option Guard) (processes : List Process) (id : Nat)
    : Option Guard :=
  processes[id]?.bind guard

/-- No process holds a guard that conflicts with this one. -/
def Free (guard : Process → Option Guard) (conflicts : Guard → Guard → Prop)
    (processes : List Process) (wanted : Guard) : Prop :=
  ∀ process ∈ processes, ∀ held ∈ guard process, ¬ conflicts held wanted

instance (guard : Process → Option Guard) (conflicts : Guard → Guard → Prop)
    [∀ held wanted, Decidable (conflicts held wanted)] (processes : List Process)
    (wanted : Guard) : Decidable (Free guard conflicts processes wanted) :=
  inferInstanceAs (Decidable (∀ process ∈ processes, ∀ held ∈ guard process, _))

/-- The guards of two different processes do not conflict. -/
def Exclusive (guard : Process → Option Guard) (conflicts : Guard → Guard → Prop)
    (processes : List Process) : Prop :=
  ∀ id other held taken,
    id ≠ other
    → heldBy guard processes id = some held
    → heldBy guard processes other = some taken
    → ¬ conflicts held taken

/-- What a step of a process may do with its guard. -/
inductive Change (guard : Process → Option Guard) (conflicts : Guard → Guard → Prop)
    (processes : List Process) (before after : Process) : Prop where
  | kept (same : guard after = guard before)
  | dropped (bare : guard after = none)
  | taken (wanted : Guard) (now : guard after = some wanted)
      (free : Free guard conflicts processes wanted)

variable {guard : Process → Option Guard} {conflicts : Guard → Guard → Prop}
  {processes : List Process} {id : Nat} {before after : Process}

theorem heldBy_eq {held : Guard} (present : processes[id]? = some before)
    (holds : guard before = some held)
    : heldBy guard processes id = some held := by
  rw [heldBy, present, Option.bind_some, holds]

theorem mem_of_heldBy {held : Guard} (holds : heldBy guard processes id = some held)
    : ∃ process ∈ processes, guard process = some held := by
  obtain ⟨process, present, holds⟩ := Option.bind_eq_some_iff.mp holds
  exact ⟨process, List.mem_of_getElem? present, holds⟩

theorem heldBy_set (present : processes[id]? = some before) (other : Nat)
    : heldBy guard (processes.set id after) other
      = if id = other then guard after else heldBy guard processes other := by
  obtain ⟨inside, -⟩ := List.getElem?_eq_some_iff.mp present
  rw [heldBy, List.getElem?_set, if_pos inside]
  split <;> rfl

/-- A process that joins without a guard leaves the guards with those that hold them. -/
theorem heldBy_append {joined : Process} (bare : guard joined = none) (id : Nat)
    : heldBy guard (processes ++ [joined]) id = heldBy guard processes id := by
  unfold heldBy
  rcases Nat.lt_trichotomy id processes.length with inside | rfl | beyond
  · rw [List.getElem?_append_left inside]
  · simp [bare]
  · rw [List.getElem?_eq_none (by simp; omega), List.getElem?_eq_none (by omega)]

theorem Exclusive.nil : Exclusive guard conflicts [] := by
  rintro id other held taken - holds -
  cases holds

theorem Exclusive.append {joined : Process} (exclusive : Exclusive guard conflicts processes)
    (bare : guard joined = none)
    : Exclusive guard conflicts (processes ++ [joined]) := by
  intro id other held taken different holds rival
  rw [heldBy_append bare] at holds rival
  exact exclusive id other held taken different holds rival

/-- A step of one process keeps the guards apart. Witness: that process is one of the two
whose guards are compared, on either side, or neither.
-/
theorem Exclusive.set (symmetric : ∀ held taken, conflicts held taken → conflicts taken held)
    (exclusive : Exclusive guard conflicts processes)
    (present : processes[id]? = some before)
    (change : Change guard conflicts processes before after)
    : Exclusive guard conflicts (processes.set id after) := by
  have apart (other : Nat) (held taken : Guard) (different : id ≠ other)
      (holds : guard after = some held) (rival : heldBy guard processes other = some taken)
      : ¬ conflicts held taken := by
    cases change with
    | kept same =>
        exact exclusive id other held taken different (heldBy_eq present (same ▸ holds)) rival
    | dropped bare =>
        rw [bare] at holds
        cases holds
    | taken wanted now free =>
        obtain rfl := Option.some.inj (holds.symm.trans now)
        obtain ⟨process, member, keeps⟩ := mem_of_heldBy rival
        exact fun conflict => free process member taken keeps (symmetric _ _ conflict)
  intro first second held taken different holds rival
  rw [heldBy_set present] at holds rival
  split at holds
  case isTrue same =>
    subst same
    rw [if_neg different] at rival
    exact apart second held taken different holds rival
  case isFalse =>
    split at rival
    case isTrue same =>
      subst same
      exact fun conflict =>
        apart first taken held different.symm rival holds (symmetric _ _ conflict)
    case isFalse => exact exclusive first second held taken different holds rival

end Guards
