import Mathlib.Data.Option.Basic

/-! Resources that have at most one owner. A holding says what each place of a state has in
its hands; it is linear when no two places hold things of one name.
-/

universe u v w

variable {Place : Type u} {Resource : Type v} {Name : Type w}

/-- No two places hold resources of the same name. -/
def Linear (name : Resource → Name) (holding : Place → Option Resource) : Prop :=
  ∀ ⦃left right : Place⦄ ⦃one other : Resource⦄,
    holding left = some one
    → holding right = some other
    → name one = name other
    → left = right

/-- A place keeps its resource or loses it, but gets no other one. -/
def Keeps (before after : Place → Option Resource) (place : Place) : Prop :=
  ∀ ⦃resource⦄, after place = some resource → before place = some resource

namespace Linear

variable {name : Resource → Name} {before after : Place → Option Resource}

/-- Places that only lose resources stay linear. -/
theorem shrink (linear : Linear name before) (keeps : ∀ place, Keeps before after place)
    : Linear name after :=
  fun _ _ _ _ held also => linear (keeps _ held) (keeps _ also)

/-- One place may receive a resource of a name that no other place holds any more.
Witness: two places with the name are both the receiver, or both held it before.
-/
theorem receive {target : Place} (linear : Linear name before)
    (keeps : ∀ place, place ≠ target → Keeps before after place)
    (alone
      : ∀ place received held,
          place ≠ target
          → after target = some received
          → after place = some held
          → name received ≠ name held)
    : Linear name after := by
  intro left right one other held also same
  by_cases on_left : left = target
  case pos =>
    subst on_left
    by_contra apart
    exact alone right one other (Ne.symm apart) held also same
  case neg =>
    by_cases on_right : right = target
    case pos =>
      subst on_right
      exact absurd same.symm (alone left other one on_left also held)
    case neg => exact linear (keeps left on_left held) (keeps right on_right also) same

/-- A resource may move from one place to another if it leaves nothing behind.
Witness: any other holder of its name would have shared it with the source before.
-/
theorem transfer {source target : Place} (linear : Linear name before)
    (keeps : ∀ place, place ≠ target → Keeps before after place)
    (moved : ∀ resource, after target = some resource → before source = some resource)
    (emptied : after source = none)
    : Linear name after := by
  refine linear.receive keeps fun place received held apart got also same => ?_
  have shared := linear (moved received got) (keeps place apart also) same
  subst shared
  rw [emptied] at also
  cases also

end Linear
