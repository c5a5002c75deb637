import Mathlib.Data.List.Basic

/-! Paths of a Unix file system as texts, and where they lead when every component is taken
at its word: `..` leads out of the directory entered last, whatever links there are.
-/

abbrev UnixPath := List Char

namespace UnixPath

abbrev Component := List Char

/-- What following a component does. -/
inductive Move where
  | stay
  | leave
  | enter
deriving DecidableEq, Repr

def Component.move (component : Component) : Move :=
  if component = [] ∨ component = ['.'] then .stay
  else if component = ['.', '.'] then .leave
  else .enter

def components (path : UnixPath) : List Component :=
  path.splitOn '/'

def IsAbsolute (path : UnixPath) : Prop :=
  path.head? = some '/'

instance (path : UnixPath) : Decidable path.IsAbsolute :=
  inferInstanceAs (Decidable (_ = _))

/-- An absolute path replaces the base that it is joined to; a separator comes between the
two others unless the base is empty or ends in one.
-/
def join (base path : UnixPath) : UnixPath :=
  if path.IsAbsolute then path
  else if base = [] ∨ base.getLast? = some '/' then base ++ path
  else base ++ '/' :: path

/-- The directory that a path sets out from: the root, or the one so many levels above the
current directory.
-/
inductive Anchor where
  | root
  | above (levels : Nat)
deriving DecidableEq, Repr

/-- A place in the file system, by the names from its anchor to it, the innermost first. -/
structure Location where
  anchor : Anchor
  names : List Component
deriving DecidableEq, Repr

/-- The directory above a place. The root is its own. -/
def Location.leave (location : Location) : Location :=
  match location.names with
  | _ :: outer => { location with names := outer }
  | [] =>
      match location.anchor with
      | .root => location
      | .above levels => { location with anchor := .above (levels + 1) }

def Location.follow (location : Location) (component : Component) : Location :=
  match component.move with
  | .stay => location
  | .leave => location.leave
  | .enter => { location with names := component :: location.names }

def Location.walk (location : Location) (components : List Component) : Location :=
  components.foldl Location.follow location

def start (path : UnixPath) : Location where
  anchor := if path.IsAbsolute then .root else .above 0
  names := []

def resolve (path : UnixPath) : Location :=
  path.start.walk path.components

/-- The path leads to the base or to a place below it. -/
def Inside (base path : UnixPath) : Prop :=
  path.resolve.anchor = base.resolve.anchor
  ∧ base.resolve.names <:+ path.resolve.names

instance (base path : UnixPath) : Decidable (Inside base path) :=
  inferInstanceAs (Decidable (_ ∧ _))

/-- How far below a directory a component leads from some depth below it, or none if it
leads out of the directory.
-/
def deeper (depth : Nat) (component : Component) : Option Nat :=
  match component.move with
  | .stay => some depth
  | .leave => if depth = 0 then none else some (depth - 1)
  | .enter => some (depth + 1)

/-- The same of several components: none if they lead out of the directory on the way. -/
def depthAfter (depth : Nat) (components : List Component) : Option Nat :=
  components.foldlM deeper depth

/-- A path that leaves no base that it is joined to, not even on its way. -/
def Confined (path : UnixPath) : Prop :=
  ¬ path.IsAbsolute ∧ (depthAfter 0 path.components).isSome

instance (path : UnixPath) : Decidable path.Confined :=
  inferInstanceAs (Decidable (_ ∧ _))

variable {base path : UnixPath} {component inner : Component}
  {first later outer entered : List Component} {location : Location} {depth below : Nat}

-----------------------------------------------------------------------------------------
-- Components
-----------------------------------------------------------------------------------------

/-- A component that is longer than `..` is the name of an entry. -/
theorem move_of_length (long : 2 < component.length) : component.move = .enter := by
  unfold Component.move
  split
  case isTrue short => rcases short with rfl | rfl <;> contradiction
  case isFalse =>
    split
    case isTrue short =>
      subst short
      contradiction
    case isFalse => rfl

theorem components_separated (base path : UnixPath)
    : components (base ++ '/' :: path) = base.components ++ path.components :=
  List.splitOn_append_cons_self base path

theorem components_ne_nil (path : UnixPath) : path.components ≠ [] :=
  List.splitOn_ne_nil '/' path

/-- Text without a separator goes into the last component. Witness: induction on the text
before it, whose first character either ends a component or begins the first one.
-/
theorem components_append (path : UnixPath) {tail : List Char} (plain : '/' ∉ tail)
    : components (path ++ tail)
      = path.components.dropLast
        ++ [path.components.getLast path.components_ne_nil ++ tail] := by
  unfold components
  induction path with
  | nil => simp [List.splitOn_eq_singleton plain]
  | cons char rest ih =>
      obtain ⟨head, others, split⟩ :=
        List.exists_cons_of_ne_nil (List.splitOn_ne_nil '/' rest)
      simp only [List.cons_append, List.splitOn_cons_eq_if_modifyHead, ih]
      by_cases separator : char = '/'
      case pos => simp [separator, split]
      case neg => cases others <;> simp [separator, split]

/-- No component is longer than its path, by induction on the path. -/
theorem length_component (member : component ∈ path.components)
    : component.length ≤ path.length := by
  unfold components at member
  induction path generalizing component with
  | nil =>
      obtain rfl : component = [] := by simpa using member
      exact Nat.le_refl 0
  | cons char rest ih =>
      rw [List.splitOn_cons_eq_if_modifyHead] at member
      split at member
      case isTrue =>
        rcases List.mem_cons.mp member with rfl | member
        · exact Nat.zero_le _
        · exact Nat.le_succ_of_le (ih member)
      case isFalse =>
        obtain ⟨head, others, split⟩ :=
          List.exists_cons_of_ne_nil (List.splitOn_ne_nil '/' rest)
        rw [split] at member
        rcases List.mem_cons.mp member with rfl | member
        · exact Nat.succ_le_succ (ih (by simp [split]))
        · exact Nat.le_succ_of_le (ih (by simp [split, member]))

-----------------------------------------------------------------------------------------
-- Walks
-----------------------------------------------------------------------------------------

theorem walk_cons
    : location.walk (component :: later) = (location.follow component).walk later :=
  List.foldl_cons

theorem walk_append
    : location.walk (first ++ later) = (location.walk first).walk later :=
  List.foldl_append

theorem depthAfter_cons
    : depthAfter depth (component :: later)
      = (deeper depth component).bind (depthAfter · later) :=
  List.foldlM_cons

theorem depthAfter_append
    : depthAfter depth (first ++ later)
      = (depthAfter depth first).bind (depthAfter · later) :=
  List.foldlM_append

/-- A relative path that is joined to a base sets out from where the base leads. -/
theorem resolve_join (relative : ¬ path.IsAbsolute)
    : (base.join path).resolve = base.resolve.walk path.components := by
  unfold join
  rw [if_neg relative]
  cases base with
  | nil =>
      have same : start [] = path.start := by
        rw [start, start, if_neg relative]
        rfl
      rw [if_pos (Or.inl rfl), List.nil_append, resolve, ← same]
      rfl
  | cons char rest =>
      have same (tail : List Char) : start (char :: rest ++ tail) = start (char :: rest) := by
        simp [start, IsAbsolute]
      split
      case isTrue ends =>
        -- the base ends in an empty component, which leads nowhere
        obtain ⟨front, shape⟩ : ∃ front, char :: rest = front ++ '/' :: [] := by
          have last := ends.resolve_left (List.cons_ne_nil char rest)
          exact ⟨_, (List.dropLast_append_getLast? '/' last).symm⟩
        have joined : char :: rest ++ path = front ++ '/' :: path := by simp [shape]
        have stays (location : Location) : location.walk (components []) = location := by
          simp [components, Location.walk, Location.follow, Component.move]
        rw [resolve, resolve, same, joined, components_separated, walk_append]
        conv_rhs => rw [shape, components_separated, walk_append, stays, ← shape]
      case isFalse => rw [resolve, resolve, same, components_separated, walk_append]

-----------------------------------------------------------------------------------------
-- Walks that stay below a directory
-----------------------------------------------------------------------------------------

/-- Below a directory, a component that does not lead out of it leads to the depth given by
`deeper`; the names of the directory stay.
-/
theorem follow_deeper (names : location.names = entered ++ outer)
    (moved : deeper entered.length component = some below)
    : ∃ left,
        left.length = below
        ∧ location.follow component = { location with names := left ++ outer } := by
  unfold deeper at moved
  unfold Location.follow
  cases move : component.move with
  | stay =>
      simp only [move, Option.some.injEq] at moved
      exact ⟨entered, moved, by simp only [← names]⟩
  | leave =>
      cases entered with
      | nil => simp [move] at moved
      | cons innermost left =>
          simp only [move, List.length_cons, Nat.add_one_ne_zero, if_false,
            Nat.add_one_sub_one, Option.some.injEq] at moved
          exact ⟨left, moved, by simp only [Location.leave, names, List.cons_append]⟩
  | enter =>
      simp only [move, Option.some.injEq] at moved
      exact ⟨component :: entered, moved, by simp only [names, List.cons_append]⟩

/-- The same of a walk, by induction on its components. -/
theorem walk_depthAfter {components : List Component}
    (names : location.names = entered ++ outer)
    (walked : depthAfter entered.length components = some below)
    : ∃ left,
        left.length = below
        ∧ location.walk components = { location with names := left ++ outer } := by
  induction components generalizing location entered with
  | nil => exact ⟨entered, Option.some.inj walked, by rw [← names]; rfl⟩
  | cons component rest ih =>
      rw [depthAfter_cons] at walked
      obtain ⟨depth, moved, walked⟩ := Option.bind_eq_some_iff.mp walked
      obtain ⟨left, rfl, followed⟩ := follow_deeper names moved
      rw [walk_cons, followed]
      exact ih rfl walked

/-- Components that stay below a directory do so from further down as well. -/
theorem deeper_add (moved : deeper depth component = some below) (more : Nat)
    : deeper (depth + more) component = some (below + more) := by
  unfold deeper at moved ⊢
  cases move : component.move with
  | stay =>
      simp only [move, Option.some.injEq] at moved ⊢
      omega
  | leave =>
      simp only [move] at moved ⊢
      split at moved
      case isTrue => contradiction
      case isFalse nonzero =>
        obtain rfl := Option.some.inj moved
        rw [if_neg (by omega), Option.some.injEq]
        omega
  | enter =>
      simp only [move, Option.some.injEq] at moved ⊢
      omega

theorem depthAfter_add {components : List Component}
    (walked : depthAfter depth components = some below) (more : Nat)
    : depthAfter (depth + more) components = some (below + more) := by
  induction components generalizing depth with
  | nil =>
      obtain rfl := Option.some.inj walked
      rfl
  | cons component rest ih =>
      rw [depthAfter_cons] at walked ⊢
      obtain ⟨next, moved, walked⟩ := Option.bind_eq_some_iff.mp walked
      rw [deeper_add moved more]
      exact ih walked

/-- A tail longer than `..` makes the last component a name, so only the components before
that one count.
-/
theorem depthAfter_append_tail (depth : Nat) (path : UnixPath) {tail : List Char}
    (plain : '/' ∉ tail) (long : 2 < tail.length)
    : depthAfter depth (components (path ++ tail))
      = (depthAfter depth path.components.dropLast).map (· + 1) := by
  have enters
      : (path.components.getLast path.components_ne_nil ++ tail).move = .enter :=
    move_of_length (by rw [List.length_append]; omega)
  rw [components_append path plain, depthAfter_append]
  cases depthAfter depth path.components.dropLast with
  | none => rfl
  | some below =>
      simp only [Option.bind_some, depthAfter_cons, deeper, enters, Option.map_some]
      rfl

theorem isAbsolute_append {tail : List Char} (relative : ¬ IsAbsolute tail)
    : IsAbsolute (path ++ tail) ↔ path.IsAbsolute := by
  cases path with
  | nil => exact iff_of_false relative (by simp [IsAbsolute])
  | cons => simp [IsAbsolute]

/-- A confined path stays inside whatever base it is joined to. -/
theorem Confined.inside_join (confined : path.Confined) (base : UnixPath)
    : Inside base (base.join path) := by
  obtain ⟨relative, stays⟩ := confined
  obtain ⟨below, walked⟩ := Option.isSome_iff_exists.mp stays
  have names : base.resolve.names = [] ++ base.resolve.names := rfl
  obtain ⟨left, -, resolved⟩ := walk_depthAfter names walked
  rw [Inside, resolve_join relative, resolved]
  exact ⟨rfl, left, rfl⟩

-----------------------------------------------------------------------------------------
-- Walks that leave a directory
-----------------------------------------------------------------------------------------

/-- No component brings back a name other than itself. -/
theorem count_follow (other : component ≠ inner)
    : (location.follow component).names.count inner ≤ location.names.count inner := by
  unfold Location.follow
  split
  case h_1 => exact Nat.le_refl _
  case h_2 =>
    unfold Location.leave
    split
    case h_1 innermost outer names =>
      rw [names]
      exact List.count_le_count_cons
    case h_2 names => split <;> exact Nat.le_refl _
  case h_3 => simp [List.count_cons_of_ne other]

theorem count_walk {components : List Component} (fresh : inner ∉ components)
    : (location.walk components).names.count inner ≤ location.names.count inner := by
  induction components generalizing location with
  | nil => exact Nat.le_refl _
  | cons component rest ih =>
      obtain ⟨other, fresh⟩ := not_or.mp (List.mem_cons.not.mp fresh)
      calc
        (location.walk (component :: rest)).names.count inner
            ≤ (location.follow component).names.count inner := by
          rw [walk_cons]
          exact ih fresh
        _ ≤ location.names.count inner := count_follow (Ne.symm other)

/-- A walk that leads out of a directory loses its name for good, unless one of the
components is that name. Witness: induction on the components up to the one that leads out.
-/
theorem count_walk_of_left {components : List Component}
    (names : location.names = entered ++ inner :: outer) (fresh : inner ∉ components)
    (left : depthAfter entered.length components = none)
    : (location.walk components).names.count inner ≤ outer.count inner := by
  induction components generalizing location entered with
  | nil => cases left
  | cons component rest ih =>
      obtain ⟨-, later⟩ := not_or.mp (List.mem_cons.not.mp fresh)
      rw [depthAfter_cons] at left
      rw [walk_cons]
      cases moved : deeper entered.length component with
      | some depth =>
          rw [moved] at left
          obtain ⟨still, rfl, followed⟩ := follow_deeper names moved
          rw [followed]
          exact ih rfl later left
      | none =>
          obtain ⟨leaves, rfl⟩ : component.move = .leave ∧ entered = [] := by
            unfold deeper at moved
            split at moved
            case h_2 leaves =>
              refine ⟨leaves, List.eq_nil_of_length_eq_zero ?_⟩
              by_contra nonzero
              simp [nonzero] at moved
            all_goals cases moved
          have followed : (location.follow component).names = outer := by
            simp [Location.follow, leaves, Location.leave, names]
          exact followed ▸ count_walk later

/-- A path that is not confined leads out of every base whose own name it does not repeat. -/
theorem not_inside_join (names : base.resolve.names = inner :: outer)
    (fresh : inner ∉ path.components) (loose : ¬ path.Confined)
    : ¬ Inside base (base.join path) := by
  rintro ⟨-, inside⟩
  have below : base.resolve.names = [] ++ inner :: outer := names
  have kept : (inner :: outer).count inner ≤ (base.join path).resolve.names.count inner := by
    rw [← names]
    exact inside.sublist.count_le inner
  have lost : (base.join path).resolve.names.count inner ≤ outer.count inner := by
    by_cases absolute : path.IsAbsolute
    case pos =>
      rw [join, if_pos absolute]
      exact Nat.le_trans (count_walk fresh) (Nat.zero_le _)
    case neg =>
      rw [resolve_join absolute]
      refine count_walk_of_left below fresh ?_
      by_contra stays
      exact loose ⟨absolute, Option.isSome_iff_ne_none.mpr stays⟩
  rw [List.count_cons_self] at kept
  omega

/-- For every path there is a base whose name it does not repeat. Witness: an entry of the
root with a name longer than the path.
-/
theorem exists_base (path : UnixPath)
    : ∃ base inner,
        resolve base = { anchor := .root, names := [inner] } ∧ inner ∉ path.components := by
  obtain ⟨inner, plain, long⟩
      : ∃ inner : Component, '/' ∉ inner ∧ path.length + 2 < inner.length :=
    ⟨List.replicate (path.length + 3) 'a', by simp [List.mem_replicate], by simp⟩
  refine ⟨[] ++ '/' :: inner, inner, ?_, fun member => ?_⟩
  · have apart : components ([] ++ '/' :: inner) = [[], inner] := by
      rw [components_separated]
      exact congrArg _ (List.splitOn_eq_singleton plain)
    have moved : inner.move = .enter := move_of_length (by omega)
    rw [resolve, apart, walk_cons, walk_cons, Location.follow, moved]
    rfl
  · have short := length_component member
    omega

/-- A path is confined exactly if it leads to a place inside every base that it is joined to.
Witness: the base whose name it does not repeat, for the direction to the right.
-/
theorem confined_iff_inside : path.Confined ↔ ∀ base : UnixPath, Inside base (base.join path) := by
  refine ⟨Confined.inside_join, fun inside => ?_⟩
  by_contra loose
  obtain ⟨base, inner, resolved, fresh⟩ := exists_base path
  exact not_inside_join (by rw [resolved]) fresh loose (inside base)

end UnixPath
