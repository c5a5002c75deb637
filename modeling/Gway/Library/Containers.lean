import Mathlib.Data.Finmap

/-! Containers of Rust's libraries. A map whose order is never looked at is a finite map; an
ordered map is a search tree up to its shape.
-/

universe u v

abbrev DashMap (Key : Type u) (Value : Type v) := Finmap fun _ : Key => Value

abbrev HashMap (Key : Type u) (Value : Type v) := Finmap fun _ : Key => Value

abbrev SkipMap (Key : Type u) [Ord Key] (Value : Type v) :=
  Std.ExtTreeMap Key Value compare

abbrev BTreeMap (Key : Type u) [Ord Key] (Value : Type v) :=
  Std.ExtTreeMap Key Value compare

/-- A shared value; two of them are the same if their pointers are. -/
structure Arc (Value : Type u) where
  ptr : Nat
  val : Value
deriving DecidableEq, Repr

namespace Finmap

variable {Key : Type u} {Value : Type v} [DecidableEq Key]

/-- An insertion changes the lookup of its own key and of no other. -/
theorem lookup_insert_eq (map : Finmap fun _ : Key => Value) (key other : Key)
    (value : Value)
    : (map.insert key value).lookup other
      = if other = key then some value else map.lookup other := by
  split
  case isTrue same => rw [same, lookup_insert]
  case isFalse different => rw [lookup_insert_of_ne map different]

/-- An erasure empties the lookup of its own key and of no other. -/
theorem lookup_erase_eq (map : Finmap fun _ : Key => Value) (key other : Key)
    : (map.erase key).lookup other
      = if other = key then none else map.lookup other := by
  split
  case isTrue same => rw [same, lookup_erase]
  case isFalse different => rw [lookup_erase_ne different]

/-- Erasing keys one after the other empties their lookups, by induction on the keys. -/
theorem lookup_foldl_erase (keys : List Key) (map : Finmap fun _ : Key => Value)
    (other : Key)
    : (keys.foldl (fun map key => map.erase key) map).lookup other
      = if other ∈ keys then none else map.lookup other := by
  induction keys generalizing map with
  | nil => simp
  | cons key rest ih =>
      rw [List.foldl_cons, ih, lookup_erase_eq]
      by_cases same : other = key <;> by_cases later : other ∈ rest <;> simp [same, later]

end Finmap

namespace Std.ExtTreeMap

variable {Key : Type u} {Value : Type v} [Ord Key] [TransOrd Key] [LawfulEqOrd Key]

/-- An insertion changes the lookup of its own key and of no other. -/
theorem lookup_insert_eq [DecidableEq Key] (map : SkipMap Key Value) (key other : Key)
    (value : Value)
    : (map.insert key value)[other]? = if other = key then some value else map[other]? := by
  rw [getElem?_insert]
  simp only [Std.LawfulEqOrd.compare_eq_iff_eq, @eq_comm Key key other]

/-- An erasure empties the lookup of its own key and of no other. -/
theorem lookup_erase_eq [DecidableEq Key] (map : SkipMap Key Value) (key other : Key)
    : (map.erase key)[other]? = if other = key then none else map[other]? := by
  rw [getElem?_erase]
  simp only [Std.LawfulEqOrd.compare_eq_iff_eq, @eq_comm Key key other]

/-- Erasing keys one after the other empties their lookups, by induction on the keys. -/
theorem lookup_foldl_erase [DecidableEq Key] (keys : List Key) (map : SkipMap Key Value)
    (other : Key)
    : (keys.foldl (fun map key => map.erase key) map)[other]?
      = if other ∈ keys then none else map[other]? := by
  induction keys generalizing map with
  | nil => simp
  | cons key rest ih =>
      rw [List.foldl_cons, ih, lookup_erase_eq]
      by_cases same : other = key <;> by_cases later : other ∈ rest <;> simp [same, later]

/-- Takes the entry with the greatest key out of the map, as `SkipMap::pop_back` does. -/
def popBack (map : SkipMap Key Value) : Option ((Key × Value) × SkipMap Key Value) :=
  map.toList.getLast?.map fun entry => (entry, map.erase entry.1)

/-- The popped entry was in the map, and only its key is empty afterwards. -/
theorem popBack_eq_some {map rest : SkipMap Key Value} {entry : Key × Value}
    (popped : map.popBack = some (entry, rest))
    : map[entry.1]? = some entry.2 ∧ rest = map.erase entry.1 := by
  obtain ⟨last, found, paired⟩ := Option.map_eq_some_iff.mp popped
  obtain ⟨rfl, rfl⟩ := Prod.mk.inj paired
  exact ⟨mem_toList_iff_getElem?_eq_some.mp (List.mem_of_getLast? found), rfl⟩

/-- Nothing is popped exactly from an empty map. -/
theorem popBack_eq_none {map : SkipMap Key Value}
    : map.popBack = none ↔ ∀ key : Key, map[key]? = none := by
  rw [popBack, Option.map_eq_none_iff, List.getLast?_eq_none_iff]
  constructor
  · intro empty key
    refine Option.eq_none_iff_forall_ne_some.mpr fun value found => ?_
    have listed := mem_toList_iff_getElem?_eq_some.mpr found
    rw [empty] at listed
    exact List.not_mem_nil listed
  · intro vacant
    refine List.eq_nil_iff_forall_not_mem.mpr fun entry listed => ?_
    have found := mem_toList_iff_getElem?_eq_some.mp listed
    rw [vacant entry.1] at found
    cases found

theorem toList_nodup (map : SkipMap Key Value) : map.toList.Nodup := by
  refine distinct_keys_toList.imp fun {left right} apart same => apart ?_
  rw [same]
  exact Std.ReflCmp.compare_self

/-- The entries after an insertion are the new one and those of other keys. -/
theorem toList_insert_perm [DecidableEq Key] (map : SkipMap Key Value) (key : Key)
    (value : Value)
    : (map.insert key value).toList.Perm
        ((key, value) :: map.toList.filter fun entry => entry.1 ≠ key) := by
  refine (List.perm_ext_iff_of_nodup (toList_nodup _) ?_).mpr fun entry => ?_
  · refine List.nodup_cons.mpr ⟨?_, (toList_nodup map).filter _⟩
    simp
  · obtain ⟨other, found⟩ := entry
    rw [mem_toList_iff_getElem?_eq_some, lookup_insert_eq, List.mem_cons, List.mem_filter,
      mem_toList_iff_getElem?_eq_some]
    by_cases same : other = key
    case pos => simp [same, eq_comm]
    case neg => simp [same]

/-- The entries after an erasure are those of other keys. -/
theorem toList_erase_perm [DecidableEq Key] (map : SkipMap Key Value) (key : Key)
    : (map.erase key).toList.Perm (map.toList.filter fun entry => entry.1 ≠ key) := by
  refine (List.perm_ext_iff_of_nodup (toList_nodup _) ((toList_nodup map).filter _)).mpr
    fun entry => ?_
  rw [mem_toList_iff_getElem?_eq_some, lookup_erase_eq, List.mem_filter,
    mem_toList_iff_getElem?_eq_some]
  by_cases same : entry.1 = key
  case pos => simp [same]
  case neg => simp [same]

/-- A walk in order that stops at the first key outside a lower set visits the entries of
all keys in the set. Witness: induction on the sorted entries; past the first key outside,
none is inside.
-/
theorem mem_takeWhile_toList {map : SkipMap Key Value} {inside : Key → Bool}
    (lower : ∀ left right, compare left right = .lt → inside right → inside left)
    {entry : Key × Value}
    : entry ∈ map.toList.takeWhile (fun entry => inside entry.1)
      ↔ map[entry.1]? = some entry.2 ∧ inside entry.1 := by
  rw [← mem_toList_iff_getElem?_eq_some]
  have sorted := ordered_keys_toList (t := map)
  generalize map.toList = entries at sorted ⊢
  induction entries with
  | nil => simp
  | cons first rest ih =>
      obtain ⟨before, sorted⟩ := List.pairwise_cons.mp sorted
      by_cases enters : inside first.1
      case pos =>
        have later := ih sorted
        rw [List.takeWhile_cons, if_pos enters, List.mem_cons, List.mem_cons]
        constructor
        · rintro (rfl | member)
          · exact ⟨Or.inl rfl, enters⟩
          · exact ⟨Or.inr (later.mp member).1, (later.mp member).2⟩
        · rintro ⟨rfl | member, inner⟩
          · exact Or.inl rfl
          · exact Or.inr (later.mpr ⟨member, inner⟩)
      case neg =>
        rw [List.takeWhile_cons, if_neg enters]
        constructor
        · intro member
          cases member
        · intro ⟨member, inner⟩
          rcases List.mem_cons.mp member with rfl | later
          · exact absurd inner enters
          · exact absurd (lower _ _ (before entry later) inner) enters

end Std.ExtTreeMap
