import Mathlib.Data.Finset.Card
import Mathlib.Data.List.Nodup
import Mathlib.Data.Nat.ModEq

/-! Rounds and balance. The choices among `len` entries are cut into rounds of `len` choices
each. They stay balanced exactly as long as no entry is chosen twice in a round.
-/

universe u v

namespace RoundRobin

variable {Item : Type u} {Other : Type v}

/-- The unfinished round after one more item: a round ends with its `len`-th item. -/
def nextRound (len : Nat) (current : List Item) (item : Item) : List Item :=
  if current.length + 1 = len then [] else current ++ [item]

/-- The items of the unfinished round. -/
def currentRound (len : Nat) (items : List Item) : List Item :=
  items.foldl (nextRound len) []

/-- No entry has been chosen more than once more than another. -/
def Balanced (len : Nat) (entries : List Nat) : Prop :=
  ∀ first < len, ∀ second < len, entries.count first ≤ entries.count second + 1

/-- No entry occurs twice in the unfinished round, and all occur equally often in the others.
-/
structure InRounds (len : Nat) (entries : List Nat) : Prop where
  once : (currentRound len entries).Nodup
  inside : ∀ entry ∈ currentRound len entries, entry < len
  short : (currentRound len entries).length < len
  counts
    : ∃ rounds,
        ∀ entry < len, entries.count entry = rounds + (currentRound len entries).count entry

variable {len entry : Nat} {entries : List Nat}

theorem currentRound_concat (items : List Item) (item : Item)
    : currentRound len (items ++ [item]) = nextRound len (currentRound len items) item := by
  simp [currentRound]

/-- The rounds depend only on how many items there are, by induction on the items. -/
theorem currentRound_map (transform : Item → Other) (items : List Item)
    : currentRound len (items.map transform) = (currentRound len items).map transform := by
  induction items using List.reverseRecOn with
  | nil => rfl
  | append_singleton items item ih =>
      rw [List.map_append, List.map_singleton, currentRound_concat, currentRound_concat, ih]
      unfold nextRound
      split <;> simp_all

/-- The unfinished round is made of the items, by induction on them. -/
theorem mem_of_mem_currentRound {items : List Item} {item : Item}
    (member : item ∈ currentRound len items)
    : item ∈ items := by
  induction items using List.reverseRecOn with
  | nil => cases member
  | append_singleton items last ih =>
      rw [currentRound_concat, nextRound] at member
      split at member
      case isTrue => cases member
      case isFalse =>
        rcases List.mem_append.mp member with earlier | now
        · exact List.mem_append_left _ (ih earlier)
        · exact List.mem_append_right _ now

/-- As many different entries as there are contain each of them. -/
theorem count_of_full {round : List Nat} (once : round.Nodup)
    (inside : ∀ entry ∈ round, entry < len) (full : round.length = len)
    : ∀ entry < len, round.count entry = 1 := by
  intro entry below
  have within : round.toFinset ⊆ Finset.range len := fun other member =>
    Finset.mem_range.mpr (inside other (List.mem_toFinset.mp member))
  have all : round.toFinset = Finset.range len :=
    Finset.eq_of_subset_of_card_le within (by
      rw [Finset.card_range, List.toFinset_card_of_nodup once, full])
  have member : entry ∈ round := by
    rw [← List.mem_toFinset, all]
    exact Finset.mem_range.mpr below
  exact List.count_eq_one_of_mem once member

/-- Fewer entries than there are leave one out. -/
theorem exists_not_mem {round : List Nat} (short : round.length < len)
    : ∃ entry < len, entry ∉ round := by
  by_contra none
  have all : ∀ entry < len, entry ∈ round := fun entry below =>
    Classical.not_not.mp fun missing => none ⟨entry, below, missing⟩
  have within : Finset.range len ⊆ round.toFinset := fun entry member =>
    List.mem_toFinset.mpr (all entry (Finset.mem_range.mp member))
  have card := (Finset.card_le_card within).trans (List.toFinset_card_le round)
  rw [Finset.card_range] at card
  omega

theorem InRounds.nil (some_entry : 0 < len) : InRounds len [] where
  once := List.nodup_nil
  inside := fun _ member => by cases member
  short := some_entry
  counts := ⟨0, fun _ _ => rfl⟩

/-- Each entry of the unfinished round has been chosen once more than the others. -/
theorem InRounds.balanced (rounds : InRounds len entries) : Balanced len entries := by
  intro first first_below second second_below
  obtain ⟨finished, counts⟩ := rounds.counts
  have once := List.nodup_iff_count_le_one.mp rounds.once first
  rw [counts first first_below, counts second second_below]
  omega

/-- An entry that is new to the round keeps the choices in rounds; the last of a round makes
it one of the finished ones.
-/
theorem InRounds.concat (rounds : InRounds len entries) (below : entry < len)
    (fresh : entry ∉ currentRound len entries)
    : InRounds len (entries ++ [entry]) := by
  obtain ⟨finished, counts⟩ := rounds.counts
  have once : (currentRound len entries ++ [entry]).Nodup :=
    List.nodup_append.mpr ⟨rounds.once, List.nodup_singleton entry, by
      intro other member chosen single
      rw [List.mem_singleton.mp single]
      exact fun same => fresh (same ▸ member)⟩
  have inside : ∀ other ∈ currentRound len entries ++ [entry], other < len := by
    intro other member
    rcases List.mem_append.mp member with earlier | now
    · exact rounds.inside other earlier
    · exact List.mem_singleton.mp now ▸ below
  have total
      : ∀ other < len,
          (entries ++ [entry]).count other
          = finished + (currentRound len entries ++ [entry]).count other := by
    intro other other_below
    rw [List.count_append, List.count_append, counts other other_below, Nat.add_assoc]
  by_cases full : (currentRound len entries).length + 1 = len
  case pos =>
    have next : currentRound len (entries ++ [entry]) = [] := by
      rw [currentRound_concat, nextRound, if_pos full]
    have each := count_of_full once inside (by rw [List.length_append]; exact full)
    constructor
    case once => simp [next]
    case inside => simp [next]
    case short =>
      rw [next]
      exact Nat.zero_lt_of_lt below
    case counts =>
      refine ⟨finished + 1, fun other other_below => ?_⟩
      rw [total other other_below, each other other_below, next, List.count_nil, Nat.add_zero]
  case neg =>
    have next : currentRound len (entries ++ [entry]) = currentRound len entries ++ [entry] := by
      rw [currentRound_concat, nextRound, if_neg full]
    have short := rounds.short
    constructor
    case once => rwa [next]
    case inside => rwa [next]
    case short =>
      rw [next, List.length_append, List.length_singleton]
      omega
    case counts => exact ⟨finished, by rwa [next]⟩

/-- One more choice leaves the entries balanced exactly if it is new to its round: otherwise
it is two ahead of an entry that the round has left out so far.
-/
theorem InRounds.balanced_concat_iff (rounds : InRounds len entries) (below : entry < len)
    : Balanced len (entries ++ [entry]) ↔ entry ∉ currentRound len entries := by
  constructor
  · intro balanced member
    obtain ⟨finished, counts⟩ := rounds.counts
    obtain ⟨other, other_below, missing⟩ := exists_not_mem rounds.short
    have apart : other ≠ entry := fun same => missing (same ▸ member)
    have ahead := balanced entry below other other_below
    rw [List.count_append, List.count_append, counts entry below, counts other other_below,
      List.count_eq_one_of_mem rounds.once member, List.count_eq_zero_of_not_mem missing,
      List.count_singleton_self, List.count_singleton] at ahead
    simp only [beq_iff_eq, apart.symm, if_false] at ahead
    omega
  · exact fun fresh => (rounds.concat below fresh).balanced

/-- From any place the entries are all reached within one round. -/
theorem exists_step (start : Nat) (below : entry < len)
    : ∃ steps < len, (start + steps) % len = entry := by
  have some_entry := Nat.zero_lt_of_lt below
  refine ⟨(entry + (len - start % len)) % len, Nat.mod_lt _ some_entry, ?_⟩
  have around : start + (entry + (len - start % len)) = entry + len * (start / len + 1) := by
    have split := Nat.mod_add_div start len
    have inside := Nat.mod_lt start some_entry
    rw [Nat.mul_add, Nat.mul_one]
    omega
  rw [Nat.add_mod_mod, around, Nat.add_mul_mod_self_left, Nat.mod_eq_of_lt below]

/-- As many steps in a row as there are entries, or fewer, reach different ones. -/
theorem card_image_steps (start : Nat) (some_entry : 0 < len) (steps : Nat)
    : ((Finset.range steps).image fun step => (start + step) % len).card = min len steps := by
  by_cases few : steps ≤ len
  case pos =>
    have apart : Set.InjOn (fun step => (start + step) % len) (Finset.range steps) := by
      intro one one_below other other_below same
      rw [Finset.coe_range, Set.mem_Iio] at one_below other_below
      exact (Nat.ModEq.add_left_cancel' start same).eq_of_lt_of_lt
        (one_below.trans_le few) (other_below.trans_le few)
    rw [Finset.card_image_of_injOn apart, Finset.card_range, min_eq_right few]
  case neg =>
    have enough : len ≤ steps := Nat.le_of_not_le few
    have all : ((Finset.range steps).image fun step => (start + step) % len)
        = Finset.range len := by
      ext entry
      rw [Finset.mem_image, Finset.mem_range]
      constructor
      · rintro ⟨step, -, rfl⟩
        exact Nat.mod_lt _ some_entry
      · intro below
        obtain ⟨step, soon, reached⟩ := exists_step start below
        exact ⟨step, Finset.mem_range.mpr (soon.trans_le enough), reached⟩
    rw [all, Finset.card_range, min_eq_left enough]

end RoundRobin
