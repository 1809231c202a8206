import FileWatch.Notification

/-! # Queue — notifications that wait to be fetched

A `Queue` holds notifications first in, first out. Queues are shared: a `QueueTable` keeps several
of them, and each of its handles names one. A copy of a handle names the same queue.
-/

namespace FileWatch

/-- Notifications in the order in which they will be fetched. -/
structure Queue where
  toList : List Notification := []
  deriving DecidableEq, Repr, Inhabited

namespace Queue

/-- The queue that holds nothing. -/
def empty : Queue := {}

/-- Puts a batch behind what is there. -/
def extend (q : Queue) (batch : List Notification) : Queue := ⟨q.toList ++ batch⟩

/-- Puts one notification behind what is there. -/
def push (q : Queue) (n : Notification) : Queue := q.extend [n]

/-- Takes the oldest notification. -/
def poll (q : Queue) : Option Notification × Queue := (q.toList.head?, ⟨q.toList.tail⟩)

/-- How many notifications wait. -/
def length (q : Queue) : Nat := q.toList.length

/-- Whether none waits. -/
def isEmpty (q : Queue) : Bool := q.toList.isEmpty

@[simp] theorem toList_empty : empty.toList = [] := rfl

@[simp] theorem toList_extend (q : Queue) (b : List Notification) :
    (q.extend b).toList = q.toList ++ b := rfl

@[simp] theorem toList_push (q : Queue) (n : Notification) :
    (q.push n).toList = q.toList ++ [n] := rfl

end Queue

/-- Queues, and handles that each name one of them by its place. -/
structure QueueTable where
  queues : List Queue := [Queue.empty]
  handles : List Nat := [0]
  deriving Repr

/-- What can be done through a handle. -/
inductive QueueAction where
  | push (n : Notification)
  | extend (batch : List Notification)
  | poll
  | clear
  /-- Asks how many notifications wait. -/
  | length
  /-- Asks whether none waits. -/
  | isEmpty
  /-- Makes another handle of the same queue. -/
  | clone
  /-- Makes a queue of its own, and a handle of it. -/
  | fresh
  deriving Repr

/-- What a handle gives back. -/
inductive QueueReply where
  | nothing
  | polled (n : Option Notification)
  | counted (n : Nat)
  | told (b : Bool)
  /-- The new handle. -/
  | handle (h : Nat)
  deriving DecidableEq, Repr

namespace QueueTable

/-- One empty queue and one handle of it. -/
def single : QueueTable := {}

/-- The place of the queue that a handle names. -/
def placeOf (t : QueueTable) (h : Nat) : Nat := t.handles.getD h 0

/-- The queue that a handle names. -/
def queueOf (t : QueueTable) (h : Nat) : Queue := t.queues.getD (t.placeOf h) Queue.empty

/-- Puts another queue in the place that a handle names. -/
def put (t : QueueTable) (h : Nat) (q : Queue) : QueueTable :=
  { t with queues := t.queues.set (t.placeOf h) q }

/-- Acts through a handle. -/
def act (t : QueueTable) (h : Nat) : QueueAction → QueueReply × QueueTable
  | .push n => (.nothing, t.put h ((t.queueOf h).push n))
  | .extend batch => (.nothing, t.put h ((t.queueOf h).extend batch))
  | .poll => (.polled (t.queueOf h).poll.1, t.put h (t.queueOf h).poll.2)
  | .clear => (.nothing, t.put h Queue.empty)
  | .length => (.counted (t.queueOf h).length, t)
  | .isEmpty => (.told (t.queueOf h).isEmpty, t)
  | .clone => (.handle t.handles.length, { t with handles := t.handles ++ [t.placeOf h] })
  | .fresh =>
    (.handle t.handles.length,
      { queues := t.queues ++ [Queue.empty], handles := t.handles ++ [t.queues.length] })

end QueueTable

end FileWatch
