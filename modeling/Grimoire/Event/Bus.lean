import Grimoire.Event.Basic

/-!
# The event bus

A bus keeps the latest events, as many as its capacity, and each subscriber reads on from the event
it has not seen yet. A subscriber that has fallen behind first learns how many events it missed.

| here | there |
| --- | --- |
| `Bus`                      | `EventBus` and the channel behind it |
| `empty`, `defaultCapacity` | `EventBus::new`, `DEFAULT_EVENT_CAPACITY` |
| `emit`                     | `EventBus::emit` |
| `subscribe`, `count`       | `EventBus::subscribe`, `EventBus::subscriber_count` |
| `unsubscribe`, `drain`     | a receiver that is dropped, and one that is read to its end |
-/
namespace Grimoire.Event

structure Bus where
  capacity : Nat
  /-- How many events were sent in all. -/
  sent : Nat := 0
  /-- The latest events, the oldest first. -/
  kept : List Event := []
  /-- For each subscriber the number of the event it reads next; `none` when it has gone. -/
  readers : List (Option Nat) := []

/-- What a subscriber finds. -/
inductive Delivery
  | event (e : Event)
  | missed (count : Nat)

namespace Bus

def defaultCapacity : Nat := 256

/-- A bus keeps at least one event. -/
def empty (capacity : Nat) : Bus := { capacity := max capacity 1 }

/-- How many subscribers are listening. -/
def count (b : Bus) : Nat := (b.readers.filter Option.isSome).length

/-- A new subscriber, who sees the events to come. -/
def subscribe (b : Bus) : Bus := { b with readers := b.readers ++ [some b.sent] }

def unsubscribe (b : Bus) (reader : Nat) : Bus := { b with readers := b.readers.set reader none }

/-- An event without a listener is not kept. -/
def emit (b : Bus) (e : Event) : Bus :=
  if b.count = 0 then b
  else
    let kept := b.kept ++ [e]
    { b with sent := b.sent + 1, kept := kept.drop (kept.length - b.capacity) }

/-- The number of the oldest event kept. -/
def oldest (b : Bus) : Nat := b.sent - b.kept.length

/-- All that a subscriber has not seen; `none` when it has gone. -/
def drain (b : Bus) (reader : Nat) : Option (List Delivery) × Bus :=
  match b.readers[reader]?.join with
  | none => (none, b)
  | some next =>
    let missed := if next < b.oldest then [Delivery.missed (b.oldest - next)] else []
    (some (missed ++ (b.kept.drop (next - b.oldest)).map .event),
      { b with readers := b.readers.set reader (some b.sent) })

end Bus

end Grimoire.Event
