import ComputeMarket.Error

/-
This file defines the matching queue of a market: jobs that wait or nodes that wait, never both.
-/

namespace ComputeMarket

/-- The side of the market that an arrival belongs to. -/
inductive Side where
  | job
  | node
  deriving DecidableEq

namespace Side

def entry : Side → Entry
  | job => .job
  | node => .node

/-- The side that an arrival of this side is matched with. -/
def opposite : Side → Side
  | job => node
  | node => job

end Side

/-- First come, first served, for one side at a time. The entries are listed oldest first;
a tag without entries does not outlast an operation. -/
inductive Queue where
  | empty
  | jobs (waiting : List Key)
  | nodes (waiting : List Key)
  deriving DecidableEq, Inhabited

/-- What becomes of an arrival. -/
inductive Admission where
  | matched (counterpart : Key)
  /-- The arrival waits at a position, counted from one. -/
  | queued (position : Nat)
  deriving DecidableEq

namespace Queue

/-- The side that waits. -/
def side? : Queue → Option Side
  | empty => none
  | jobs _ => some .job
  | nodes _ => some .node

def entries : Queue → List Key
  | empty => []
  | jobs waiting | nodes waiting => waiting

/-- The entries that wait on a side. -/
def entriesOf (queue : Queue) (side : Side) : List Key :=
  if queue.side? = some side then queue.entries else []

/-- The queue of the given entries on a side. -/
def ofEntries (side : Side) : List Key → Queue
  | [] => empty
  | first :: rest =>
    match side with
    | .job => jobs (first :: rest)
    | .node => nodes (first :: rest)

/-- The same queue, without a tag when nothing waits. -/
def normalize (queue : Queue) : Queue :=
  match queue.side? with
  | none => empty
  | some side => ofEntries side queue.entries

def length (queue : Queue) : Nat := queue.entries.length

def isEmpty (queue : Queue) : Bool := queue.length == 0

/-- Whether somebody waits on a side. -/
def contains (queue : Queue) (side : Side) (id : Key) : Bool :=
  (queue.entriesOf side).contains id

/-- The place of an entry on a side, counted from one. -/
def position (queue : Queue) (side : Side) (id : Key) : Option Nat :=
  ((queue.entriesOf side).idxOf? id).map (· + 1)

/-- Whether an arrival would be refused. One that finds the other side waiting never is. -/
def screen (queue : Queue) (side : Side) (id : Key) (capacity : Count) :
    Except MarketError Unit :=
  if queue.side? = some side.opposite then .ok ()
  else if queue.contains side id then .error (.duplicate side.entry id)
  else if queue.length ≥ capacity.value then .error (.queueFull capacity)
  else .ok ()

/-- Matches an arrival with the oldest entry of the other side, or puts it last on its own. -/
def submit (queue : Queue) (side : Side) (id : Key) (capacity : Count) :
    Except MarketError (Admission × Queue) := do
  queue.screen side id capacity
  if queue.side? = some side.opposite then
    match queue.entries with
    | [] => throw (.violation .emptyTaggedQueue)
    | head :: rest => return (.matched head, ofEntries side.opposite rest)
  else
    return (.queued (queue.length + 1), ofEntries side (queue.entries ++ [id]))

/-- Takes an entry from a side. -/
def remove (queue : Queue) (side : Side) (id : Key) : Queue :=
  if queue.side? = some side then ofEntries side (queue.entries.erase id) else queue.normalize

/-- Looks for an entry on a side and takes it out. Tells whether it waited there. -/
def extract (queue : Queue) (side : Side) (id : Key) : Bool × Queue :=
  match (queue.entriesOf side).idxOf? id with
  | some index => (true, ofEntries side (queue.entries.eraseIdx index))
  | none => (false, queue.normalize)

/-- The tag stands for entries, and no entry waits twice. -/
def isWellFormed : Queue → Bool
  | empty => true
  | jobs waiting | nodes waiting => !waiting.isEmpty && decide waiting.Nodup

@[simp] theorem entries_ofEntries (side : Side) (waiting : List Key) :
    (ofEntries side waiting).entries = waiting := by
  cases waiting <;> cases side <;> rfl

/-- Somebody waits on a side exactly if the side has the entry. -/
theorem contains_iff {queue : Queue} {side : Side} {id : Key} :
    queue.contains side id = true ↔ id ∈ queue.entriesOf side := by
  simp [contains]

end Queue

end ComputeMarket
