import Mathlib.Data.List.Basic

/-! A reader/writer lock: any number of read guards or one write guard, never both.
Exclusion is a field of the lock, so no operation can build a lock that breaks it.
-/

universe u v

/-- The guards that are alive and the writers that are waiting, in their order. -/
structure RwLock (Reader : Type u) (Writer : Type v) where
  readers : List Reader
  writer : Option Writer
  queue : List Writer
  exclusive : writer ≠ none → readers = []
deriving DecidableEq

namespace RwLock

variable {Reader : Type u} {Writer : Type v}

/-- Nobody holds the lock and nobody waits for it. -/
def unlocked : RwLock Reader Writer :=
  { readers := [], writer := none, queue := [], exclusive := fun _ => rfl }

/-- `read()` is granted when no writer holds the lock and, unless readers may barge past
them, no writer waits for it.
-/
def Readable (barging : Bool) (lock : RwLock Reader Writer) : Prop :=
  lock.writer = none ∧ (barging = true ∨ lock.queue = [])

instance (barging : Bool) (lock : RwLock Reader Writer) : Decidable (lock.Readable barging) :=
  decidable_of_iff (lock.writer.isNone ∧ (barging = true ∨ lock.queue.isEmpty)) (by
    simp [Readable])

/-- Grants `read()`, or refuses it. -/
def acquireRead (barging : Bool) (reader : Reader) (lock : RwLock Reader Writer)
    : Option (RwLock Reader Writer) :=
  if free : lock.Readable barging then
    some { lock with
      readers := reader :: lock.readers
      exclusive := fun held => absurd free.1 held }
  else none

/-- Drops one read guard. -/
def releaseRead [DecidableEq Reader] (reader : Reader) (lock : RwLock Reader Writer)
    : RwLock Reader Writer :=
  { lock with
    readers := lock.readers.erase reader
    exclusive := fun held => by simp [lock.exclusive held] }

/-- A writer starts to wait. -/
def enqueue (writer : Writer) (lock : RwLock Reader Writer) : RwLock Reader Writer :=
  { lock with queue := lock.queue ++ [writer] }

/-- A writer gives up waiting. -/
def dequeue [DecidableEq Writer] (writer : Writer) (lock : RwLock Reader Writer)
    : RwLock Reader Writer :=
  { lock with queue := lock.queue.erase writer }

/-- Grants `write()` when no guard is alive, or refuses it; a waiting writer stops waiting. -/
def acquireWrite [DecidableEq Writer] (writer : Writer) (lock : RwLock Reader Writer)
    : Option (RwLock Reader Writer) :=
  if lock.writer = none ∧ lock.readers = [] then
    some
      { readers := []
        writer := some writer
        queue := lock.queue.erase writer
        exclusive := fun _ => rfl }
  else none

/-- Drops the write guard. -/
def releaseWrite (lock : RwLock Reader Writer) : RwLock Reader Writer :=
  { lock with writer := none, exclusive := fun held => absurd rfl held }

@[simp] theorem unlocked_writer : (unlocked : RwLock Reader Writer).writer = none := rfl
@[simp] theorem unlocked_queue : (unlocked : RwLock Reader Writer).queue = [] := rfl

/-- A granted `read()` found no writer and only adds the reader's guard. -/
theorem acquireRead_eq_some {barging : Bool} {reader : Reader}
    {lock next : RwLock Reader Writer}
    : lock.acquireRead barging reader = some next
      ↔ lock.Readable barging
        ∧ next.readers = reader :: lock.readers
        ∧ next.writer = none
        ∧ next.queue = lock.queue := by
  obtain ⟨readers, writer, queue, exclusive⟩ := next
  unfold acquireRead
  split
  case isTrue free =>
    simp only [Option.some.injEq, mk.injEq, free, true_and]
    constructor
    · rintro ⟨rfl, rfl, rfl⟩
      exact ⟨rfl, free.1, rfl⟩
    · rintro ⟨rfl, rfl, rfl⟩
      exact ⟨rfl, free.1, rfl⟩
  case isFalse held => simp [held]

/-- A granted `write()` found no guard alive and leaves the writer as the only holder. -/
theorem acquireWrite_eq_some [DecidableEq Writer] {writer : Writer}
    {lock next : RwLock Reader Writer}
    : lock.acquireWrite writer = some next
      ↔ (lock.writer = none ∧ lock.readers = [])
        ∧ next.readers = []
        ∧ next.writer = some writer
        ∧ next.queue = lock.queue.erase writer := by
  obtain ⟨readers, held, queue, exclusive⟩ := next
  unfold acquireWrite
  split
  case isTrue free =>
    simp only [Option.some.injEq, mk.injEq, free, true_and]
    constructor
    · rintro ⟨rfl, rfl, rfl⟩
      exact ⟨rfl, rfl, rfl⟩
    · rintro ⟨rfl, rfl, rfl⟩
      exact ⟨rfl, rfl, rfl⟩
  case isFalse held => simp [held]

end RwLock
