import Bedjet.Asyncio.Machine

/-!
The watch on the Bluetooth adapter: the event that wakes a reconnect which backs off.
The adapter changes as it likes; the watcher is told of changes, possibly of several
at once, and looks at the state the adapter is in by then.
-/

namespace Bedjet.Transport

open Asyncio

/-- How often the adapter turned on, by its states, the newest first. -/
def rises : List Bool → ℕ
  | on :: was :: states => rises (was :: states) + if on && !was then 1 else 0
  | _ => 0

/-- `_adapter_watcher`, by where `_watch_adapter` is. -/
inductive Watcher
  /-- not created yet -/
  | absent
  | scheduled
  /-- waiting for `did_update_state_event` -/
  | waiting
  | ended
  deriving DecidableEq

structure Adapter where
  /-- whether the adapter is on now -/
  on : Bool
  /-- its earlier states, the newest first; the code has no such list -/
  past : List Bool := []
  /-- `did_update_state_event` -/
  updated : Bool := false
  watcher : Watcher := .absent
  /-- `was_on` -/
  wasOn : Option Bool := none
  /-- the flag of `adapter_power_on_event()` -/
  poweredOn : Bool := false
  /-- what the watcher saw, the newest first; the code keeps only the last -/
  seen : List Bool := []
  /-- how often the event was set; the code has no such counter -/
  signals : ℕ := 0

namespace Adapter

def states (a : Adapter) : List Bool :=
  a.on :: a.past

inductive Action
  /-- `adapter_power_on_event()` is called -/
  | watch
  /-- the watcher starts; its imports and its manager may not be available -/
  | start (available : Bool)
  /-- the adapter turns on or off -/
  | change (on : Bool)
  /-- the manager reports a change -/
  | report
  /-- the watcher, told of a change, looks at the state, which may raise -/
  | look (raises : Bool)
  /-- the loop shuts down -/
  | cancel
  /-- the reconnect clears the event -/
  | clear

/-- `powered_on.set()` -/
def signal (a : Adapter) : Adapter :=
  { a with poweredOn := true, signals := a.signals + 1 }

/-- One turn of the loop of `_watch_adapter`, with the state it has read. -/
def observe (a : Adapter) : Adapter :=
  let b := if a.on ∧ a.wasOn = some false then a.signal else a
  { b with wasOn := some a.on, seen := a.on :: a.seen }

def step (a : Adapter) : Action → Option Adapter
  | .watch => some (if a.watcher = .absent then { a with watcher := .scheduled } else a)
  | .start available =>
      if a.watcher = .scheduled then
        some { a with watcher := if available then .waiting else .ended }
      else none
  | .change on => some { a with on, past := a.on :: a.past }
  | .report => some { a with updated := true }
  | .look raises =>
      if a.watcher = .waiting ∧ a.updated then
        let a := { a with updated := false }
        some (if raises then { a with watcher := .ended } else a.observe)
      else none
  | .cancel => some { a with watcher := .ended }
  | .clear => some { a with poweredOn := false }

def machine : Machine Adapter Action where
  step := step

/-! ### Rises -/

/-- Whether the adapter has turned on since the watcher last looked. -/
def pending (a : Adapter) : ℕ :=
  if a.on ∧ a.wasOn = some false then 1 else 0

theorem rises_cons (on : Bool) (states : List Bool) :
    rises (on :: states) = rises states + if on ∧ states.head? = some false then 1 else 0 := by
  cases states with
  | nil => simp [rises]
  | cons was states => cases on <;> cases was <;> simp [rises]

theorem signals_observe (a : Adapter) : a.observe.signals = a.signals + a.pending := by
  by_cases h : a.on ∧ a.wasOn = some false <;> simp [observe, pending, signal, h]

@[simp] theorem seen_observe (a : Adapter) : a.observe.seen = a.on :: a.seen := rfl

@[simp] theorem wasOn_observe (a : Adapter) : a.observe.wasOn = some a.on := rfl

theorem states_observe (a : Adapter) : a.observe.states = a.states := by
  by_cases h : a.on ∧ a.wasOn = some false <;> simp [observe, states, signal, h]

theorem pending_observe (a : Adapter) : a.observe.pending = 0 := by
  have hon : a.observe.on = a.on := by
    have hstates := a.states_observe
    simp only [states, List.cons.injEq] at hstates
    exact hstates.1
  simp [pending, hon]

/-- The event is set as often as the watcher saw the adapter turned on, which is no
more often than it did. -/
structure Told (a : Adapter) : Prop where
  wasOn_eq : a.wasOn = a.seen.head?
  signals_eq : a.signals = rises a.seen
  signals_le : a.signals + a.pending ≤ rises a.states
  signalled : a.poweredOn → 0 < a.signals

theorem told_initial (on : Bool) : Told { on } where
  wasOn_eq := rfl
  signals_eq := rfl
  signals_le := by simp [pending]
  signalled h := by simp at h

namespace Told

variable {a a' : Adapter} {action : Action}

theorem observe (h : Told a) : Told a.observe where
  wasOn_eq := rfl
  signals_eq := by
    rw [signals_observe, seen_observe, rises_cons, h.signals_eq, ← h.wasOn_eq, pending]
  signals_le := by
    rw [signals_observe, pending_observe, states_observe]
    exact h.signals_le
  signalled hon := by
    rw [signals_observe]
    by_cases hrise : a.on ∧ a.wasOn = some false
    · simp [pending, hrise]
    · have hon' : a.poweredOn := by simpa [Adapter.observe, hrise] using hon
      have hpos := h.signalled hon'
      omega

theorem change (h : Told a) (on : Bool) : Told { a with on, past := a.on :: a.past } where
  wasOn_eq := h.wasOn_eq
  signals_eq := h.signals_eq
  signals_le := by
    have hle := h.signals_le
    have hrises : rises (on :: a.states) = _ := rises_cons on a.states
    simp only [states, List.head?_cons, Option.some.injEq] at hrises
    simp only [states, pending] at hle ⊢
    rw [hrises]
    cases on <;> cases hnow : a.on <;> by_cases hwas : a.wasOn = some false <;>
      simp [hnow, hwas] at hle ⊢ <;> omega
  signalled := h.signalled

theorem step (h : Told a) (hstep : machine.step a action = some a') : Told a' := by
  have hstep : a.step action = some a' := hstep
  cases action with
  | watch =>
      simp only [Adapter.step, Option.some.injEq] at hstep
      subst hstep
      split
      · exact ⟨h.wasOn_eq, h.signals_eq, h.signals_le, h.signalled⟩
      · exact h
  | start available =>
      by_cases hready : a.watcher = .scheduled
      · simp only [Adapter.step, if_pos hready, Option.some.injEq] at hstep
        subst hstep
        exact ⟨h.wasOn_eq, h.signals_eq, h.signals_le, h.signalled⟩
      · simp [Adapter.step, hready] at hstep
  | change on =>
      obtain rfl := Option.some.inj hstep
      exact h.change on
  | report =>
      obtain rfl := Option.some.inj hstep
      exact ⟨h.wasOn_eq, h.signals_eq, h.signals_le, h.signalled⟩
  | look raises =>
      by_cases hready : a.watcher = .waiting ∧ a.updated
      · simp only [Adapter.step, if_pos hready, Option.some.injEq] at hstep
        subst hstep
        have hcleared : Told { a with updated := false } :=
          ⟨h.wasOn_eq, h.signals_eq, h.signals_le, h.signalled⟩
        split
        · exact ⟨h.wasOn_eq, h.signals_eq, h.signals_le, h.signalled⟩
        · exact hcleared.observe
      · simp [Adapter.step, hready] at hstep
  | cancel =>
      obtain rfl := Option.some.inj hstep
      exact ⟨h.wasOn_eq, h.signals_eq, h.signals_le, h.signalled⟩
  | clear =>
      obtain rfl := Option.some.inj hstep
      exact ⟨h.wasOn_eq, h.signals_eq, h.signals_le, by simp⟩

theorem of_run {on : Bool} {as : List Action} (hrun : machine.run { on } as = some a) : Told a :=
  Machine.run_invariant' (fun _ _ _ h hstep => h.step hstep) (told_initial on) hrun

end Told

/-! ### A watcher that keeps up -/

/-- The adapter changes only after the watcher has seen the state it is in. -/
def KeptUp (a : Adapter) : Action → Prop
  | .change _ => a.wasOn = some a.on
  | _ => True

variable {a a' b : Adapter} {action : Action}

/-- Since `b`, the event was set for every rise but one the watcher has yet to see. -/
def Balanced (b a : Adapter) : Prop :=
  a.signals + a.pending + rises b.states = b.signals + rises a.states

theorem Balanced.change (h : Balanced b a) (hseen : a.wasOn = some a.on) (on : Bool) :
    Balanced b { a with on, past := a.on :: a.past } := by
  have hrises : rises (on :: a.states) = _ := rises_cons on a.states
  simp only [states, List.head?_cons, Option.some.injEq] at hrises
  simp only [Balanced, states, pending, hseen, Option.some.injEq] at h ⊢
  rw [hrises]
  cases on <;> cases hnow : a.on <;> simp [hnow] at h ⊢ <;> omega

theorem Balanced.step (h : Balanced b a) (hok : KeptUp a action)
    (hstep : machine.step a action = some a') : Balanced b a' := by
  have hstep : a.step action = some a' := hstep
  cases action with
  | watch =>
      simp only [Adapter.step, Option.some.injEq] at hstep
      subst hstep
      split <;> exact h
  | start available =>
      by_cases hready : a.watcher = .scheduled
      · simp only [Adapter.step, if_pos hready, Option.some.injEq] at hstep
        subst hstep
        exact h
      · simp [Adapter.step, hready] at hstep
  | change on =>
      obtain rfl := Option.some.inj hstep
      exact h.change hok on
  | report =>
      obtain rfl := Option.some.inj hstep
      exact h
  | look raises =>
      by_cases hready : a.watcher = .waiting ∧ a.updated
      · simp only [Adapter.step, if_pos hready, Option.some.injEq] at hstep
        subst hstep
        have hcleared : Balanced b { a with updated := false } := h
        split
        · exact h
        · rw [Balanced, signals_observe, pending_observe, states_observe]
          exact hcleared
      · simp [Adapter.step, hready] at hstep
  | cancel =>
      obtain rfl := Option.some.inj hstep
      exact h
  | clear =>
      obtain rfl := Option.some.inj hstep
      exact h

/-- In every run, the event is set once for each time the watcher saw the adapter turned
on: never for the state it first finds, and never more often than the adapter did turn
on. Once the watcher has seen the present state, and as long as the adapter does not
change before it has, the event is set for every time that the adapter turns on. -/
theorem adapter_is_told {on : Bool} {as : List Action} (hrun : machine.run { on } as = some a) :
    (a.signals = rises a.seen ∧ a.signals ≤ rises a.states ∧ (a.poweredOn → 0 < a.signals)) ∧
      ∀ as' a', machine.run a as' = some a' → machine.Meets KeptUp a as' →
        a.wasOn = some a.on → a'.wasOn = some a'.on →
          a'.signals + rises a.states = a.signals + rises a'.states := by
  have htold : Told a := .of_run hrun
  have hle := htold.signals_le
  refine ⟨⟨htold.signals_eq, by omega, htold.signalled⟩, fun as' a' hrun' hmeets hseen hseen' => ?_⟩
  have hnothing {c : Adapter} (hc : c.wasOn = some c.on) : c.pending = 0 := by
    simp [pending, hc]
  have hbalanced : Balanced a a' :=
    Machine.run_invariant (fun _ _ _ h hok hstep => h.step hok hstep)
      (by simp [Balanced, hnothing hseen]) hmeets hrun'
  rw [Balanced, hnothing hseen'] at hbalanced
  exact hbalanced

/-- The adapter is off when the watcher starts, and turns on. -/
def powerCycle : List Action :=
  [.watch, .start true, .report, .look false, .change true, .report, .look false]

theorem adapter_is_told_powerCycle :
    ∃ a, machine.run { on := false } powerCycle = some a ∧
      (a.signals = rises a.seen ∧ a.signals ≤ rises a.states ∧ (a.poweredOn → 0 < a.signals)) ∧
      ∀ as' a', machine.run a as' = some a' → machine.Meets KeptUp a as' →
        a.wasOn = some a.on → a'.wasOn = some a'.on →
          a'.signals + rises a.states = a.signals + rises a'.states :=
  have hrun : machine.run { on := false } powerCycle = some _ := rfl
  ⟨_, hrun, adapter_is_told hrun⟩

end Adapter

end Bedjet.Transport
