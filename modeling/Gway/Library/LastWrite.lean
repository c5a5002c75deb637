import Mathlib.Data.List.Induction

/-! A value that each operation of a sequence writes or leaves as it is. At the end it is what
the last operation has written that wrote it at all.
-/

universe u v w

namespace LastWrite

variable {State : Type u} {Op : Type v} {Value : Type w} {step : State → Op → State}
  {written : State → Op → Option Value} {state : State} {ops : List Op} {op : Op}
  {value : Value}

/-- No operation of the sequence writes the value. -/
def Quiet (step : State → Op → State) (written : State → Op → Option Value) (state : State)
    (ops : List Op) : Prop :=
  ∀ before op after, ops = before ++ op :: after → written (before.foldl step state) op = none

/-- Some operation of the sequence writes the value, and those after it do not. -/
def LastWritten (step : State → Op → State) (written : State → Op → Option Value)
    (state : State) (ops : List Op) (value : Value) : Prop :=
  ∃ before op after,
    ops = before ++ op :: after
    ∧ written (before.foldl step state) op = some value
    ∧ Quiet step written (step (before.foldl step state) op) after

theorem Quiet.nil : Quiet step written state [] := by
  intro before op after split
  cases before <;> cases split

/-- A split of a sequence with one more operation is at this operation or before it. -/
theorem split_concat {last : Op} {before after : List Op}
    (split : ops ++ [last] = before ++ op :: after)
    : (after = [] ∧ ops = before ∧ last = op)
      ∨ ∃ rest, after = rest ++ [last] ∧ ops = before ++ op :: rest := by
  rcases List.eq_nil_or_concat after with rfl | ⟨rest, other, rfl⟩
  case inl =>
    obtain ⟨same, its⟩ := List.append_inj' split rfl
    exact .inl ⟨rfl, same, List.head_eq_of_cons_eq its⟩
  case inr =>
    have shifted : ops ++ [last] = (before ++ op :: rest) ++ [other] := by
      rw [split, List.append_assoc, List.cons_append]
      simp
    obtain ⟨same, its⟩ := List.append_inj' shifted rfl
    obtain rfl := List.head_eq_of_cons_eq its
    exact .inr ⟨rest, by simp, same⟩

theorem quiet_concat_iff {last : Op}
    : Quiet step written state (ops ++ [last])
      ↔ Quiet step written state ops ∧ written (ops.foldl step state) last = none := by
  constructor
  · intro quiet
    refine ⟨fun before op after split => quiet before op (after ++ [last]) ?_, ?_⟩
    · rw [split, List.append_assoc, List.cons_append]
    · exact quiet ops last [] rfl
  · rintro ⟨quiet, silent⟩ before op after split
    rcases split_concat split with ⟨-, rfl, rfl⟩ | ⟨rest, -, same⟩
    · exact silent
    · exact quiet before op rest same

/-- An operation that writes the value is the last one to have written it. -/
theorem lastWritten_concat_of_written {last : Op} {new : Value}
    (writes : written (ops.foldl step state) last = some new)
    : LastWritten step written state (ops ++ [last]) value ↔ new = value := by
  constructor
  · rintro ⟨before, op, after, split, wrote, quiet⟩
    rcases split_concat split with ⟨-, rfl, rfl⟩ | ⟨rest, rfl, same⟩
    · exact Option.some.inj (writes.symm.trans wrote)
    · have silent := (quiet_concat_iff.mp quiet).2
      rw [same, List.foldl_append, List.foldl_cons, silent] at writes
      cases writes
  · rintro rfl
    exact ⟨ops, last, [], rfl, writes, .nil⟩

/-- An operation that leaves the value alone is not the last one to have written it. -/
theorem lastWritten_concat_of_silent {last : Op}
    (silent : written (ops.foldl step state) last = none)
    : LastWritten step written state (ops ++ [last]) value
      ↔ LastWritten step written state ops value := by
  constructor
  · rintro ⟨before, op, after, split, wrote, quiet⟩
    rcases split_concat split with ⟨-, rfl, rfl⟩ | ⟨rest, rfl, same⟩
    · rw [silent] at wrote
      cases wrote
    · exact ⟨before, op, rest, same, wrote, (quiet_concat_iff.mp quiet).1⟩
  · rintro ⟨before, op, after, rfl, wrote, quiet⟩
    refine ⟨before, op, after ++ [last], by simp, wrote, quiet_concat_iff.mpr ⟨quiet, ?_⟩⟩
    rwa [List.foldl_append, List.foldl_cons] at silent

/-- If each operation writes the value or leaves it as it is, it is in the end what was written
last, or what it was at the start if no operation has written it. Witness: induction on the
operations, the last one first.
-/
theorem observe_iff (observe : State → Option Value)
    (law : ∀ state op, observe (step state op) = (written state op).or (observe state))
    : observe (ops.foldl step state) = some value
      ↔ LastWritten step written state ops value
        ∨ observe state = some value ∧ Quiet step written state ops := by
  induction ops using List.reverseRecOn with
  | nil =>
      constructor
      · exact fun held => .inr ⟨held, .nil⟩
      · rintro (⟨before, op, after, split, -⟩ | ⟨held, -⟩)
        · cases before <;> cases split
        · exact held
  | append_singleton ops last ih =>
      rw [List.foldl_append, List.foldl_cons, List.foldl_nil, law]
      cases writes : written (ops.foldl step state) last with
      | some new =>
          rw [lastWritten_concat_of_written writes, quiet_concat_iff, writes]
          simp
      | none =>
          rw [lastWritten_concat_of_silent writes, quiet_concat_iff, writes]
          simpa using ih

/-- There is no value in the end exactly if there was none and no operation has written one. -/
theorem observe_eq_none_iff (observe : State → Option Value)
    (law : ∀ state op, observe (step state op) = (written state op).or (observe state))
    : observe (ops.foldl step state) = none
      ↔ observe state = none ∧ Quiet step written state ops := by
  induction ops using List.reverseRecOn with
  | nil => exact (and_iff_left .nil).symm
  | append_singleton ops last ih =>
      rw [List.foldl_append, List.foldl_cons, List.foldl_nil, law, Option.or_eq_none_iff, ih,
        quiet_concat_iff]
      tauto

end LastWrite
