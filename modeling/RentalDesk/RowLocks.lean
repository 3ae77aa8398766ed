import RentalDesk.RowKey
import RentalDesk.Table

/-!
# Row locks

Every row that somebody locks has a mutex, which is made when the row is first asked for. Asking
for a row gives a ticket, which waits in the queue of the mutex, then holds it, and is given back
in the end; a ticket that still waits can be given back as well. A free mutex goes to the ticket
that has waited longest, so a later ticket never overtakes an earlier one.

From time to time the entries of rows that nobody uses are pruned. A mutex is referred to by its
entry and by every ticket that has not been given back, so an entry can go if its mutex has no
reference but the entry's own.
-/

namespace RentalDesk

abbrev MutexId := Nat

/-- A claim to a row, on the mutex that the row had when the claim was made. -/
structure Ticket where
  key : RowKey
  mutex : MutexId
  number : Nat
deriving DecidableEq

/-- The ticket that holds a mutex and the tickets that wait for it, longest first. -/
structure Mutex where
  holder : Option Nat
  queue : List Nat
deriving DecidableEq, Inhabited

namespace Mutex

/-- A mutex that nobody holds or waits for. -/
def idle : Mutex := ⟨none, []⟩

def tickets (m : Mutex) : List Nat := m.holder.toList ++ m.queue

/-- The references to the mutex while it has an entry: one from the entry, and one from each
ticket. -/
def references (m : Mutex) : Nat := 1 + m.tickets.length

/-- The mutex with one more ticket at the end of its queue. -/
def enqueue (m : Mutex) (ticket : Nat) : Mutex := { m with queue := m.queue ++ [ticket] }

/-- The mutex after the ticket was granted: it must be free and the ticket first in its queue. -/
def grant? (m : Mutex) (ticket : Nat) : Option Mutex :=
  match m.holder, m.queue with
  | none, first :: rest => if first = ticket then some ⟨some ticket, rest⟩ else none
  | _, _ => none

/-- The mutex without the ticket, whether it held the mutex or waited. -/
def leave (m : Mutex) (ticket : Nat) : Mutex where
  holder := m.holder.filter (· ≠ ticket)
  queue := m.queue.filter (· ≠ ticket)

end Mutex

/-- The row locks of a store. -/
structure RowLocks where
  /-- The mutex that a row has at present. -/
  entries : Table RowKey MutexId
  /-- The state of every mutex that is referred to. -/
  mutexes : Table MutexId Mutex
  nextMutex : MutexId
  nextTicket : Nat

namespace RowLocks

/-- Row locks of which nobody has asked for one. -/
def empty : RowLocks := ⟨.empty, .empty, 0, 0⟩

def mutex (l : RowLocks) (id : MutexId) : Mutex := (l.mutexes.get? id).getD .idle

/-- Looks the mutex of a row up, or makes one. -/
def entry (l : RowLocks) (key : RowKey) : MutexId × RowLocks :=
  match l.entries.get? key with
  | some id => (id, l)
  | none =>
    (l.nextMutex,
      { l with
        entries := l.entries.insert key l.nextMutex
        mutexes := l.mutexes.insert l.nextMutex .idle
        nextMutex := l.nextMutex + 1 })

/-- Asks for a row. The ticket waits until it is granted or given back. -/
def request (l : RowLocks) (key : RowKey) : Ticket × RowLocks :=
  let (id, l) := l.entry key
  (⟨key, id, l.nextTicket⟩,
    { l with
      mutexes := l.mutexes.insert id ((l.mutex id).enqueue l.nextTicket)
      nextTicket := l.nextTicket + 1 })

/-- The locks after the ticket was granted, if it is its turn. -/
def grant? (l : RowLocks) (t : Ticket) : Option RowLocks :=
  ((l.mutex t.mutex).grant? t.number).map fun m =>
    { l with mutexes := l.mutexes.insert t.mutex m }

/-- The locks after the ticket was given back. -/
def giveBack (l : RowLocks) (t : Ticket) : RowLocks :=
  { l with mutexes := l.mutexes.insert t.mutex ((l.mutex t.mutex).leave t.number) }

/-- The locks after all of the tickets were given back. -/
def giveBackAll (l : RowLocks) (ts : List Ticket) : RowLocks := ts.foldl giveBack l

/-- Forgets the rows whose mutex has no reference but that of its entry. -/
def prune (l : RowLocks) : RowLocks :=
  { l with
    entries := l.entries.filter fun _ id => 1 < (l.mutex id).references
    mutexes := l.mutexes.filter fun _ m => 1 < m.references }

end RowLocks

end RentalDesk
