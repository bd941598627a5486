import Bedjet.Api.CallRuns
import Bedjet.Service.Adoption

/-!
Every write, with the command it was made for. What a command waits for after
its write is what it asked for, byte for byte.
-/

namespace Bedjet.Api

open Python Protocol Device Service Asyncio

namespace System

variable {cfg : Config} {s s' : System}

/-- Every payload handed to `transport.write` was ordered by a command that had
decided to write it. -/
def Issued (s : System) : Prop :=
  ∀ i payload, payload ∈ writesOf i s.trace →
    ∃ c order base, s.commander.commands[i]? = some c ∧ Wrote c order base ∧
      order.payload = payload

/-- Steps that write nothing, and leave every command what it was asked for. -/
theorem Issued.grow (events : List Event) (h : s.Issued)
    (htrace : s'.trace = events ++ s.trace)
    (hquiet : ∀ i, writesOf i events = [])
    (hcommands : ∀ (i : ℕ) (c : Command), s.commander.commands[i]? = some c →
      ∃ d, s'.commander.commands[i]? = some d ∧ d.request = c.request ∧ d.dryRun = c.dryRun) :
    s'.Issued := by
  intro i payload hmem
  rw [htrace, writesOf_append, hquiet i, List.nil_append] at hmem
  obtain ⟨c, order, base, hc, hwrote, hpayload⟩ := h i payload hmem
  obtain ⟨d, hd, hrequest, hdry⟩ := hcommands i c hc
  refine ⟨d, order, base, hd, ?_, hpayload⟩
  exact ⟨hdry.trans hwrote.dryRun, hrequest ▸ hwrote.orders, hwrote.trustworthy,
    hwrote.unsatisfied⟩

theorem Issued.takeIn (h : s.Issued) (intake : Intake) : (s.takeIn intake).Issued := by
  have hquiet (i : ℕ) : writesOf i (intake.events.map Event.reader) = [] := by
    apply writesOf_eq_nil
    intro payload hmem
    obtain ⟨r, -, heq⟩ := List.mem_map.mp hmem
    simp at heq
  have h₁ : ((s.setLease { s.lease with reader := intake.reader }).emit
      (intake.events.map .reader)).Issued :=
    h.grow _ rfl hquiet fun i c hc => ⟨c, hc, rfl, rfl⟩
  rw [System.takeIn]
  cases intake.published with
  | none => exact h₁
  | some sample =>
      refine h₁.grow [.published sample] rfl (fun i => rfl) fun i c hc => ?_
      exact ⟨c.wake, by simpa [Commander.onState] using ⟨c, hc, rfl⟩, rfl, rfl⟩

theorem Issued.enroll (h : s.Issued) (request : Request) (dryRun : Bool)
    (calls : List ApiCall) : (s.enroll request dryRun calls).Issued := by
  refine h.grow [] rfl (fun i => rfl) fun i c hc => ⟨c, ?_, rfl, rfl⟩
  rw [System.enroll, List.getElem?_append_left (List.getElem?_eq_some_iff.mp hc).1, hc]

theorem Issued.run {i : ℕ} {c : Command} {why : Option Wakeup} {segment : Segment}
    (h : s.Issued) (hc : s.commander.commands[i]? = some c)
    (hruns : Runs cfg.settleTimeout s.now c s.commander.shared why segment) :
    (s.runCommand cfg i c segment).Issued := by
  have hcommands (j : ℕ) (d : Command) (hd : s.commander.commands[j]? = some d) :
      ∃ d', (s.runCommand cfg i c segment).commander.commands[j]? = some d' ∧
        d'.request = d.request ∧ d'.dryRun = d.dryRun := by
    by_cases hji : j = i
    · subst hji
      obtain rfl : c = d := Option.some.inj (hc.symm.trans hd)
      exact ⟨_, commands_runCommand_self hc, rfl, rfl⟩
    · refine ⟨d, ?_, rfl, rfl⟩
      rw [commander_runCommand, Commander.put, List.getElem?_set_ne (Ne.symm hji), hd]
  intro j payload hmem
  rw [trace_runCommand, writesOf_append, List.mem_append] at hmem
  rcases hmem with hmem | hmem
  · -- the only command that can have written is the one that ran
    obtain ⟨x, hx, heq⟩ := List.mem_map.mp (mem_writesOf.mp hmem)
    obtain ⟨rfl, rfl⟩ : i = j ∧ x = .wrote payload := by simpa using heq
    rcases hruns.writes_or_keeps with ⟨order, base, hwrites⟩ | ⟨-, hquiet⟩
    · obtain ⟨based, hbased, rfl⟩ := hwrites.shape
      rcases List.mem_cons.mp hx with heq | hx
      · obtain rfl : payload = order.payload := by simpa using heq
        exact ⟨_, order, base, commands_runCommand_self hc, { hwrites.wrote with }, rfl⟩
      · obtain ⟨b, -, heq⟩ := hbased _ hx
        simp at heq
    · exact absurd hx (hquiet payload)
  · obtain ⟨d, order, base, hd, hwrote, hpayload⟩ := h j payload hmem
    obtain ⟨d', hd', hrequest, hdry⟩ := hcommands j d hd
    exact ⟨d', order, base, hd', ⟨hdry.trans hwrote.dryRun, hrequest ▸ hwrote.orders,
      hwrote.trustworthy, hwrote.unsatisfied⟩, hpayload⟩

theorem Issued.effect {a : Action} (h : s.Issued) (heffect : Effect cfg s a s') : s'.Issued := by
  cases heffect with
  | passes | links | rejects =>
      exact h.grow [] rfl (fun i => rfl) fun i c hc => ⟨c, hc, rfl, rfl⟩
  | connects =>
      exact h.grow [.connected] rfl (fun i => rfl) fun i c hc => ⟨c, hc, rfl, rfl⟩
  | takesIn => exact h.takeIn _
  | begins hcalls hruns => exact (h.enroll _ _ _).run (enroll_getElem? s _ _ _) hruns
  | wakes hcommand hruns => exact h.run hcommand hruns
  | @delivers i c order base hcommand hpc =>
      refine h.grow [.command i (.delivered order.payload)] rfl (fun j => rfl)
        fun j d hd => ?_
      by_cases hji : j = i
      · subst hji
        obtain rfl : c = d := Option.some.inj (hcommand.symm.trans hd)
        refine ⟨{ c with pc := .writing order base true }, ?_, rfl, rfl⟩
        exact List.getElem?_set_self (List.getElem?_eq_some_iff.mp hd).1
      · refine ⟨d, ?_, rfl, rfl⟩
        exact (List.getElem?_set_ne (Ne.symm hji)).trans hd

theorem Reachable.issued (h : Reachable cfg s) : s.Issued := by
  refine (h.invariant (I := Issued) ?_ fun _ _ _ _ hI heffect => hI.effect heffect).2
  intro i payload hmem
  simp [writesOf] at hmem

/-- The predicate that a command waits for, or has waited for after its write,
holds of a status of at least the minimum length exactly when that status
reports the value that the payload asks for. -/
theorem sent_is_verified (h : Reachable cfg s) {i : ℕ} {c : Command}
    (hc : s.commander.commands[i]? = some c) :
    (∀ order, c.pc.order? = some order → ∀ (d : Bytes) (available : Bool),
      minStatusLength ≤ d.length →
        (order.goal.satisfied (.fromStatus (decodeStatus d) available) ↔
          Adopts d order.payload)) ∧
    ∀ payload ∈ writesOf i s.trace, ∃ goal, c.request.goal? = some goal ∧
      ∀ (d : Bytes) (available : Bool), minStatusLength ≤ d.length →
        (goal.satisfied (.fromStatus (decodeStatus d) available) ↔ Adopts d payload) := by
  constructor
  · intro order horder d available hd
    obtain ⟨base, horders⟩ := (h.sound c (List.mem_of_getElem? hc)).orders horder
    exact horders.satisfied_iff hd available
  · intro payload hpayload
    obtain ⟨c', order, base, hc', hwrote, rfl⟩ := h.issued i payload hpayload
    obtain rfl : c = c' := Option.some.inj (hc.symm.trans hc')
    exact ⟨order.goal, hwrote.orders.goal_eq, fun d available hd =>
      hwrote.orders.satisfied_iff hd available⟩

theorem sent_is_verified_switchOff :
    ∃ s c, (machine {}).run {} switchOff = some s ∧ s.commander.commands[0]? = some c ∧
      [0x01, 0x01] ∈ writesOf 0 s.trace ∧
      ∀ payload ∈ writesOf 0 s.trace, ∃ goal, c.request.goal? = some goal ∧
        ∀ (d : Bytes) (available : Bool), minStatusLength ≤ d.length →
          (goal.satisfied (.fromStatus (decodeStatus d) available) ↔ Adopts d payload) := by
  have hany : ((machine {}).run {} switchOff).any fun s =>
      [0x01, 0x01] ∈ writesOf 0 s.trace ∧ s.commander.commands[0]?.isSome := by
    decide +kernel
  obtain ⟨s, hrun, hcheck⟩ := Machine.exists_of_run_any hany
  obtain ⟨hmem, hsome⟩ := of_decide_eq_true hcheck
  obtain ⟨c, hc⟩ := Option.isSome_iff_exists.mp hsome
  exact ⟨s, c, hrun, hc, hmem, (sent_is_verified ⟨_, hrun⟩ hc).2⟩

end System

end Bedjet.Api
