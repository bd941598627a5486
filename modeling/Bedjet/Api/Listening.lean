import Bedjet.Api.Evidence
import Bedjet.Api.LinkRuns

/-!
What a session that says it is connected can hear. The supervisor takes a
transport that is connected for a link that is up, whoever listens to it; a
reconnect that connects and fails to subscribe leaves one that nobody does.
-/

namespace Bedjet.Api

open Python Protocol Device Service Asyncio

namespace System

variable {cfg : Config} {s s' : System}

/-- A session that says it is connected, over a transport that is and with
nobody at work on the link, listens on the connection that is there. -/
def Listening (s : System) : Prop :=
  s.lease.link = .connected → s.lease.transport.isConnected → s.lease.lock.holder = none →
    s.lease.reader.running ∧ s.lease.startedOn = some s.lease.transport.connection

/-- The step is a tick that takes the transport for a link that is up although
nobody is at work on the link and the reader does not run. -/
def blindTick (s : System) : Action → Bool
  | .link t step =>
      s.lease.trusts s.now t step && s.lease.lock.holder.isNone && !s.lease.reader.running
  | _ => false

/-- The supervisor trusts a transport only where somebody listens. -/
def sighted : Slot.Rules where
  trusts c := c.holder = none → c.running

theorem obeys_sighted {a : Action} (h : s.blindTick a = false) : Obeys sighted s a where
  connects _ := trivial
  starts _ := trivial
  stops _ := trivial
  trusts := by
    rintro t step rfl htrusts hholder
    have hholder : s.lease.lock.holder = none := hholder
    have hrunning : s.lease.reader.running := by simpa [blindTick, htrusts, hholder] using h
    exact hrunning

theorem listening_of_reports (hheard : s.slot.Heard) (hreports : s.slot.Reports) : s.Listening := by
  intro hlink hconnected hholder
  have hrunning := hreports.listening hlink hconnected hholder
  exact ⟨hrunning, hheard.current hrunning⟩

theorem trusts_eq_true {t : ℕ} {step : Lease.LinkStep} (h : s.lease.trusts s.now t step) :
    step = .slept ∧ ∃ k due, s.lease.tasks[t]? = some k ∧ k.cancelled = false ∧
      k.pc = .sleeping due ∧ due ≤ s.now ∧ s.lease.yieldUntil.any (s.now < ·) = false ∧
      s.lease.transport.isConnected := by
  unfold Lease.trusts at h
  split at h
  · rw [Bool.and_eq_true, Bool.and_eq_true] at h
    obtain ⟨⟨htask, hover⟩, hconnected⟩ := h
    obtain ⟨k, hk, hsleeps⟩ := (Option.any_eq_true _ _).mp htask
    rw [Bool.and_eq_true] at hsleeps
    obtain ⟨hcancelled, hpc⟩ := hsleeps
    split at hpc
    · rename_i due hdue
      exact ⟨rfl, k, due, hk, by simpa using hcancelled, hdue, by simpa using hpc,
        by simpa using hover, hconnected⟩
    · simp at hpc
  · simp at h

theorem tick_of_connected {l : Lease} {now : ℚ} {t : ℕ}
    (hover : l.yieldUntil.any (now < ·) = false) (hconnected : l.transport.isConnected) :
    l.tick cfg now t = ((({ l with yieldUntil := none }.setLink .connected).setTask t fun k =>
      { k with backoff := cfg.backoffInitial }).sleep cfg now t) := by
  simp [Lease.tick, hover, hconnected]

/-- A blind tick makes the session say what is not so. -/
theorem not_listening_of_blindTick {a : Action} (hblind : s.blindTick a)
    (h : (machine cfg).step s a = some s') : ¬s'.Listening := by
  cases a with
  | link t step =>
      simp only [blindTick, Bool.and_eq_true] at hblind
      obtain ⟨⟨htrusts, hholder⟩, hdeaf⟩ := hblind
      obtain ⟨rfl, k, due, hk, hcancelled, hpc, hdue, hover, hconnected⟩ := trusts_eq_true htrusts
      obtain ⟨lease, hlease, hs'⟩ := Option.bind_eq_some_iff.mp h
      obtain rfl : s.setLease lease = s' := by simpa using hs'
      obtain rfl : s.lease.tick cfg s.now t = lease := by
        simpa [Lease.taskStep, hk, hcancelled, hpc, hdue] using hlease
      rw [tick_of_connected hover hconnected]
      have hfree : s.lease.lock.holder = none := by simpa using hholder
      intro hlistening
      have hrunning : s.lease.reader.running := (hlistening rfl hconnected hfree).1
      simp [hrunning] at hdeaf
  | _ => simp [blindTick] at hblind

/-- A session listens throughout a run whenever it says it is connected, if and
only if no tick of the run is blind. -/
theorem connected_is_listening_iff {actions : List Action}
    (hrun : (machine cfg).run {} actions = some s) :
    (machine cfg).Always Listening {} actions ↔
      (machine cfg).Meets (fun s a => s.blindTick a = false) {} actions := by
  constructor
  · intro halways
    refine Machine.meets_of_always (I := fun _ => True) (fun _ _ _ _ _ => trivial) ?_ trivial hrun
      halways
    intro s a s' _ _ hblind hstep
    exact not_listening_of_blindTick (by simpa using hblind) hstep
  · intro hmeets
    have hrefines : (machine cfg).Refines slot (Slot.Moves sighted)
        (fun a => a.Sound ∧ a.Reports) (fun s a => s.blindTick a = false) :=
      (machine_refines fun s a hsighted => obeys_sighted hsighted).imp fun a h => h.1
    refine hrefines.always ?_ ?_ ?_ hmeets
    · intro a b h hmove
      exact ⟨h.1.moves hmove,
        h.2.moves (fun _ h => h) h.1.fit h.1.exclusive h.1.lifecycle hmove⟩
    · intro s h
      exact listening_of_reports h.1.heard h.2
    · rw [slot_initial]
      exact ⟨Slot.sound_unused, ⟨Slot.each_unused _, by simp [Slot.unused]⟩⟩

theorem connected_is_listening_iff_switchOff :
    (∃ s, (machine {}).run {} switchOff = some s) ∧
      (machine {}).Always Listening {} switchOff := by
  have hany : ((machine {}).run {} switchOff).any fun _ => true := by decide +kernel
  obtain ⟨s, hrun, -⟩ := Machine.exists_of_run_any hany
  have hsighted : (machine {}).Meets (fun s a => s.blindTick a = false) {} switchOff := by
    decide +kernel
  exact ⟨⟨s, hrun⟩, (connected_is_listening_iff hrun).mpr hsighted⟩

/-- The link drops, a reconnect connects and fails to subscribe, and the next
tick finds the transport connected. -/
def deafReconnect : List Action :=
  [.start, .link 0 .connected, .link 0 .subscribed, .link 1 .begun, .drop, .pass 1,
    .link 1 .slept, .link 1 .unsubscribed, .link 1 .disconnected, .link 1 .connected,
    .link 1 .subscribeFailed, .pass 2, .link 1 .backoffElapsed, .pass 1, .link 1 .slept]

/-- Whether the session says that it is connected while its reader does not run. -/
def deaf (s : System) : Bool :=
  s.lease.link = .connected ∧ s.lease.transport.isConnected ∧ s.lease.lock.holder = none ∧
    s.lease.reader.running = false

/-- A session says that it is connected and nothing listens. -/
theorem connected_can_be_deaf :
    ¬∀ (cfg : Config) (actions : List Action) (s : System), cfg.pollInterval = none →
      (machine cfg).run {} actions = some s → s.Listening := by
  intro h
  have hany : ((machine {}).run {} deafReconnect).any fun s => s.deaf := by decide +kernel
  obtain ⟨s, hrun, hdeaf⟩ := Machine.exists_of_run_any hany
  obtain ⟨hlink, hconnected, hholder, hstill⟩ := of_decide_eq_true hdeaf
  have hrunning := (h {} deafReconnect s rfl hrun hlink hconnected hholder).1
  simp [hstill] at hrunning

end System

end Bedjet.Api
