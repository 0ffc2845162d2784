import Grimoire.Provider.Scripted
import Grimoire.Event.Basic

/-!
# The host of a run

What sessions, triggers and workflows share with the world around them: the provider with the queries
that reached it, the events announced so far, and a clock in milliseconds. A query is asked at one
moment and answered at another, when the provider's delay is over; the reply depends on the queries
answered before it.

| here | there |
| --- | --- |
| `Line`                            | the `GenerationProvider` that sessions, engines and orchestrators are given |
| `Host.announced`, `Host.announce` | what was given to `EventBus::emit` |
| `Host.clock`                      | `now`, in whole milliseconds |
| `Host.ask`, `Host.answer`         | a call of the provider and its return |
| `Host.call`                       | a call that is awaited with nothing beside it |
-/
namespace Grimoire

/-- A provider with what has passed between it and those who share it. -/
structure Line where
  provider : Provider
  /-- The queries that reached the provider, the latest first. -/
  asked : List Provider.Query := []
  /-- The queries it has answered, the latest first. -/
  answered : List Provider.Query := []

structure Host extends Line where
  /-- The events announced, the latest first. -/
  announced : List Event := []
  /-- Milliseconds since the epoch. -/
  clock : Nat := 0

namespace Host

def announce (h : Host) (e : Event) : Host := { h with announced := e :: h.announced }

/-- A query reaches the provider. -/
def ask (h : Host) (q : Provider.Query) : Host := { h with asked := q :: h.asked }

/-- The provider answers a query. -/
def answer (h : Host) (q : Provider.Query) : Provider.Reply × Host :=
  (h.provider.reply h.answered q, { h with answered := q :: h.answered })

/-- Ask, wait as long as the provider takes, and hear the answer. -/
def call (h : Host) (q : Provider.Query) : Provider.Reply × Host :=
  let h := h.ask q
  { h with clock := h.clock + h.provider.delay q }.answer q

/-- The calls the provider noted, in order. -/
def notes (h : Host) : List Provider.NotedCall := (h.answered.filterMap h.provider.note?).reverse

end Host

end Grimoire
