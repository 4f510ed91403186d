/-! # Stable sorting by binary insertion

The elements in front that are in order already, or strictly in reverse order, are taken as a sorted
run. Each further element is put into the run at the place that a binary search finds for it. For an
order in which incomparability is transitive this is the stable sort. Other orders still have one
answer, which the search determines.
-/
namespace SnapshotSql.Sorting

variable {α : Type}

/-- Lengthens a run, kept in reverse, while no element comes before the one in front of it. -/
def ascending (before : α → α → Bool) (last : α) (run : List α) : List α → List α × List α
  | [] => (run.reverse, [])
  | x :: rest =>
      if before x last then (run.reverse, x :: rest) else ascending before x (x :: run) rest

/-- Lengthens a run, turned round, while each element comes before the one in front of it. -/
def descending (before : α → α → Bool) (last : α) (run : List α) : List α → List α × List α
  | [] => (run, [])
  | x :: rest =>
      if before x last then descending before x (x :: run) rest else (run, x :: rest)

def firstRun (before : α → α → Bool) : List α → List α × List α
  | [] => ([], [])
  | [x] => ([x], [])
  | x :: y :: rest =>
      if before y x then descending before y [y, x] rest else ascending before y [y, x] rest

/-- The place between `low` and `high` behind the elements of a run that the new one does not come
before; each step halves the distance, so that their number is bounded by the fuel. -/
def place (comesBefore : α → Bool) (run : List α) : Nat → Nat → Nat → Nat
  | 0, low, _ => low
  | fuel + 1, low, high =>
      if low < high then
        let middle := low + (high - low) / 2
        if (run[middle]?).any comesBefore then place comesBefore run fuel low middle
        else place comesBefore run fuel (middle + 1) high
      else low

def insertInto (before : α → α → Bool) (run : List α) (x : α) : List α :=
  let k := place (before x) run run.length 0 run.length
  run.take k ++ x :: run.drop k

def sort (before : α → α → Bool) (list : List α) : List α :=
  let (run, rest) := firstRun before list
  rest.foldl (insertInto before) run

end SnapshotSql.Sorting
