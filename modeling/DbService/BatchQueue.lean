import Mathlib.Data.List.Sort

/-!
# A queue served in batches

A consumer takes everything that is queued as one batch, finishes the batch from its
head, and may put what is left of it back in front of what arrived meanwhile.  Producers
push at the end at any time.

`BatchQueue` carries the accounting as a field: what was pushed is what is finished, then
the batch, then the queue.  Each operation re-establishes it, so the order theorems read
it off any value of the type, whatever operations built it.

* `finished_prefix`, `finished_eq_pushed` -- the order, and that nothing is left in the end.
-/

/-- The queue, the batch taken from it, and the history of both. -/
structure BatchQueue (α : Type*) where
  queue : List α
  /-- The rest of the batch under way. -/
  batch : List α
  pushed : List α
  finished : List α
  conserved : pushed = finished ++ (batch ++ queue)

namespace BatchQueue

variable {α : Type*}

/-- Nothing was put in yet. -/
def empty : BatchQueue α := ⟨[], [], [], [], rfl⟩

/-- A producer pushes at the end. -/
def push (q : BatchQueue α) (a : α) : BatchQueue α where
  queue := q.queue ++ [a]
  batch := q.batch
  pushed := q.pushed ++ [a]
  finished := q.finished
  conserved := by simp [q.conserved]

/-- The consumer adds all that is queued to its batch. -/
def take (q : BatchQueue α) : BatchQueue α where
  queue := []
  batch := q.batch ++ q.queue
  pushed := q.pushed
  finished := q.finished
  conserved := by simp [q.conserved]

/-- The consumer finishes the head of its batch. -/
def finish (q : BatchQueue α) : BatchQueue α where
  queue := q.queue
  batch := q.batch.tail
  pushed := q.pushed
  finished := q.finished ++ q.batch.take 1
  conserved := by
    cases hbatch : q.batch with
    | nil => simp [q.conserved, hbatch]
    | cons a rest => simp [q.conserved, hbatch]

/-- The consumer puts the rest of its batch back in front. -/
def putBack (q : BatchQueue α) : BatchQueue α where
  queue := q.batch ++ q.queue
  batch := []
  pushed := q.pushed
  finished := q.finished
  conserved := by simp [q.conserved]

/-- **In order, exactly once.**  The finished sequence is a prefix of the pushed one. -/
theorem finished_prefix (q : BatchQueue α) : q.finished <+: q.pushed := by
  rw [q.conserved]
  exact List.prefix_append _ _

/-- With nothing queued and no batch under way, everything pushed is finished. -/
theorem finished_eq_pushed {q : BatchQueue α} (hbatch : q.batch = []) (hqueue : q.queue = []) :
    q.finished = q.pushed := by
  simp [q.conserved, hbatch, hqueue]

end BatchQueue
