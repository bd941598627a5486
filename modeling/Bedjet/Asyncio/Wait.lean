import Mathlib.Data.Rat.Floor

/-!
`asyncio.wait_for(event.wait(), timeout)`. The event is a flag kept by its
owner; what belongs to the waiting coroutine is whether its wait has looked at
the flag, whether it has found it set or been woken by its being set since
(clearing it afterwards does not put a waiter back to sleep), and the time from
which the timer may fire instead.

Up to CPython 3.11 the awaitable runs in a task of its own, so that the caller
is suspended before anybody has looked, even at a flag that is set, and whoever
runs in between may clear it. From 3.12 on the wait looks in the caller's own
task: these are the runs in which nothing comes between.
-/

namespace Bedjet.Asyncio

structure Wait where
  looked : Bool := false
  woken : Bool := false
  due : ℚ
  deriving DecidableEq

namespace Wait

/-- Setting the event: whoever has looked in vain is woken. -/
def wake (w : Wait) : Wait :=
  { w with woken := w.woken || w.looked }

/-- Setting an event that the waiter alone clears: a wait that has not looked
will find it set, so its first look needs no step of its own. -/
def notify (w : Wait) : Wait :=
  { w with woken := true }

/-- The first look at the event. -/
def look (w : Wait) (set : Bool) : Wait :=
  { w with looked := true, woken := set }

@[simp] theorem woken_wake (w : Wait) : w.wake.woken = (w.woken || w.looked) := rfl

@[simp] theorem looked_wake (w : Wait) : w.wake.looked = w.looked := rfl

@[simp] theorem woken_notify (w : Wait) : w.notify.woken = true := rfl

@[simp] theorem due_notify (w : Wait) : w.notify.due = w.due := rfl

@[simp] theorem looked_look (w : Wait) (set : Bool) : (w.look set).looked = true := rfl

@[simp] theorem woken_look (w : Wait) (set : Bool) : (w.look set).woken = set := rfl

end Wait

end Bedjet.Asyncio
