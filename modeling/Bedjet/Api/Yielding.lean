import Bedjet.Api.Evidence
import Bedjet.Api.LinkRuns

/-!
A yield is not lost to a race: once the `yield_link` call that set the deadline
has returned, and until the deadline is gone, the link is down and stays so,
whatever reconnects and other yields were under way.
-/

namespace Bedjet.Api

open Python Protocol Device Service Asyncio

namespace System

variable {cfg : Config} {s s' : System}

/-- Nobody stops the session, and it is started only while it is not yielded. -/
def keepsRunning : Slot.Rules where
  starts c := c.yieldUntil = none
  stops := False

/-- The runs of a session that was started and is not stopped. -/
theorem givesAway_of_run {rest : List Action} (hrest : ∀ a ∈ rest, a ≠ .start ∧ a ≠ .stop)
    (hrun : (machine cfg).run {} (.start :: rest) = some s) : s.slot.Sound ∧ s.slot.GivesAway := by
  let ok (s : System) (a : Action) : Prop := (a = .start → s.lease.yieldUntil = none) ∧ a ≠ .stop
  have hmeets : (machine cfg).Meets ok {} (.start :: rest) := by
    refine ⟨⟨fun _ => rfl, by simp⟩, fun _ _ => Machine.meets_of_forall fun a ha s => ?_⟩
    exact ⟨fun h => absurd h (hrest a ha).1, (hrest a ha).2⟩
  have hrefines : (machine cfg).Refines slot (Slot.Moves keepsRunning)
      (fun a => a.Sound ∧ a.GivesAway) ok := by
    have hobeys (s : System) (a : Action) (hok : ok s a) : Obeys keepsRunning s a :=
      ⟨fun _ => trivial, hok.1, fun h => absurd h hok.2, fun _ _ _ _ => trivial⟩
    exact (machine_refines hobeys).imp fun a h => h.1
  refine hrefines.run_keeps (fun a b h hmove => ?_) ?_ hmeets hrun
  · exact ⟨h.1.moves hmove, h.2.moves (fun _ h => h) id h.1 hmove⟩
  · rw [slot_initial]
    exact ⟨Slot.sound_unused, Slot.givesAway_unused⟩

/-- Nobody may connect. -/
def noConnect : Slot.Rules where
  connects := False

theorem not_connecting_of_still (h : s.slot.Still) {k : LinkTask} (hk : k ∈ s.lease.tasks) :
    k.pc ≠ .connecting := by
  obtain ⟨t, ht⟩ := List.mem_iff_getElem?.mp hk
  have hphase := (h t k.party (by simp [slot, Lease.slot, ht])).1
  rintro hpc
  exact hphase (by rw [LinkTask.party, hpc]; rfl)

/-- While the deadline is set, a step begins no `transport.connect`. -/
theorem still_of_step {a : Action} (hsound : s.slot.Sound) (hstill : s.slot.Still)
    (hdeadline : s.lease.yieldUntil ≠ none) (h : (machine cfg).step s a = some s') :
    s'.slot.Still := by
  have hobeys : Obeys noConnect s a :=
    ⟨fun hfree => absurd hfree hdeadline, fun _ => trivial, fun _ => trivial,
      fun _ _ _ _ => trivial⟩
  exact keeps_of_moves (fun _ _ hstill hmove => hstill.moves (fun _ => id) hmove) hstill
    (step_refines hsound hobeys h)

theorem deliver_eq_none (hdown : s.lease.transport.isConnected = false) (i : ℕ) :
    s.deliver i = none := by
  rw [Option.eq_none_iff_forall_not_mem]
  intro s' hs'
  obtain ⟨c, hc, hs'⟩ := Option.bind_eq_some_iff.mp hs'
  split at hs'
  · simp [hdown] at hs'
  · simp at hs'

/-- In a session that was started and is not stopped, while the deadline of a
yield is set and the call that set it has returned: the transport is not
connected, no `transport.connect` is in progress and none can begin, the link is
yielded, and no bytes can reach the device. -/
theorem yield_is_kept {rest : List Action} (hrest : ∀ a ∈ rest, a ≠ .start ∧ a ≠ .stop)
    (hrun : (machine cfg).run {} (.start :: rest) = some s) {deadline : ℚ} {y : ℕ} {k : LinkTask}
    (hdeadline : s.lease.yieldUntil = some deadline) (hy : s.lease.yieldedBy = some y)
    (hk : s.lease.tasks[y]? = some k) (hreturned : k.pc = .returned) :
    s.lease.transport.isConnected = false ∧ s.lease.link = .yielded ∧
      (∀ k ∈ s.lease.tasks, k.pc ≠ .connecting) ∧
      (∀ a s', (machine cfg).step s a = some s' → ∀ k ∈ s'.lease.tasks, k.pc ≠ .connecting) ∧
      ∀ i, s.deliver i = none := by
  obtain ⟨hsound, hgivesAway⟩ := givesAway_of_run hrest hrun
  have hset : s.lease.yieldUntil ≠ none := by simp [hdeadline]
  have hreleased : s.slot.Released := by
    refine hgivesAway.released ⟨hset, y, k.party, hy, ?_, ?_⟩
    · simp [slot, Lease.slot, hk]
    · rw [LinkTask.party, hreturned]
      rfl
  refine ⟨hreleased.down, hreleased.link, fun k hk => not_connecting_of_still hreleased.still hk,
    fun a s' hstep k hk => ?_, deliver_eq_none hreleased.down⟩
  exact not_connecting_of_still (still_of_step hsound hreleased.still hset hstep) hk

/-- A yield arrives while a reconnect is inside `transport.connect`, which goes
on to succeed. -/
def yieldDuringReconnect : List Action :=
  [.link 0 .connected, .link 0 .subscribed, .link 1 .begun, .drop, .pass 1, .link 1 .slept,
    .link 1 .unsubscribed, .link 1 .disconnected, .yieldLink 60, .link 1 .connected,
    .link 1 .subscribed, .link 2 .granted, .link 2 .unsubscribed, .link 2 .disconnected]

/-- Whether the deadline of a yield is set and the call that set it has
returned. -/
def yieldReturned (s : System) : Bool :=
  s.lease.yieldUntil.isSome &&
    (s.lease.yieldedBy.bind (s.lease.tasks[·]?)).any (·.pc = .returned)

theorem yield_is_kept_yieldDuringReconnect :
    ∃ s, (machine {}).run {} (.start :: yieldDuringReconnect) = some s ∧
      s.lease.transport.isConnected = false ∧ s.lease.link = .yielded ∧
      (∀ k ∈ s.lease.tasks, k.pc ≠ .connecting) ∧
      (∀ a s', (machine {}).step s a = some s' → ∀ k ∈ s'.lease.tasks, k.pc ≠ .connecting) ∧
      ∀ i, s.deliver i = none := by
  have hany : ((machine {}).run {} (.start :: yieldDuringReconnect)).any (·.yieldReturned) := by
    decide +kernel
  obtain ⟨s, hrun, hcheck⟩ := Machine.exists_of_run_any hany
  obtain ⟨hset, htask⟩ := Bool.and_eq_true_iff.mp hcheck
  obtain ⟨deadline, hdeadline⟩ := Option.isSome_iff_exists.mp hset
  obtain ⟨k, hbind, hreturned⟩ := (Option.any_eq_true _ _).mp htask
  obtain ⟨y, hy, hk⟩ := Option.bind_eq_some_iff.mp hbind
  have hrest : ∀ a ∈ yieldDuringReconnect, a ≠ .start ∧ a ≠ .stop := by
    simp [yieldDuringReconnect]
  exact ⟨s, hrun,
    yield_is_kept hrest hrun hdeadline hy hk (of_decide_eq_true hreturned)⟩

end System

end Bedjet.Api
