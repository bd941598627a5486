import Bedjet.Api.Evidence

/-!
Which packets become state. The decoder reads the packet type and nothing asks
for it: what begins like a packet, is complete and passes its checksum is
published whatever its type byte says.
-/

namespace Bedjet.Api

open Python Protocol Device Service Asyncio

/-- Decoded from a packet whose type byte says status. -/
def IsStatus (sample : Sample) : Prop :=
  sample.packet.packetType = some packetTypeStatus

instance (sample : Sample) : Decidable (IsStatus sample) :=
  inferInstanceAs (Decidable (_ = _))

theorem packetType_decodeStatus (d : Bytes) :
    (decodeStatus d).packetType = u8 d Offset.packetType := by
  rw [decodeStatus]
  split
  · rename_i hempty
    obtain rfl := List.isEmpty_iff.mp hempty
    rfl
  · split <;> rfl

namespace System

/-- Every state that was delivered to `on_state`, and every reading a command
was based on or confirmed by, was decoded from a status packet. -/
structure OnlyStatus (s : System) : Prop where
  published : ∀ sample, .published sample ∈ s.trace → IsStatus sample
  baselines : ∀ i sample, .command i (.based sample) ∈ s.trace → IsStatus sample
  results : ∀ (i : ℕ) (c : Command) (result : CommandResult),
    s.commander.commands[i]? = some c → c.dryRun = false → c.pc = .ended (.returned result) →
    IsStatus result.before ∧ IsStatus result.after

/-- The bytes a step hands to the decoder that are believed: what begins like a
packet, or completes one, and is trustworthy. -/
def believed (s : System) : Action → Option Bytes
  | .notify data | .poll _ (.data data) =>
      if looksLikePacketStart data && (decodeStatus data).isTrustworthy then some data else none
  | .completion i (.data remainder) => do
      let c ← s.lease.reader.completions[i]?
      let data := reassemble c.first remainder
      if (decodeStatus data).isTrustworthy then some data else none
  | _ => none

/-- The bytes that are believed are those of a status packet. -/
def BelievesStatus (s : System) (a : Action) : Prop :=
  ∀ data ∈ s.believed a, u8 data Offset.packetType = some packetTypeStatus

/-! ### What a step publishes -/

theorem published_publish (r : Reader) (packet : StatusPacket) (chunk : ℕ) (available : Bool) :
    (r.publish packet chunk available).published.map (·.packet) =
      if packet.isTrustworthy then some packet else none := by
  rw [Reader.publish]
  split <;> rfl

theorem published_onNotify (r : Reader) (data : Bytes) (available : Bool) :
    (r.onNotify data available).published.map (·.packet) =
      if looksLikePacketStart data && (decodeStatus data).isTrustworthy then
        some (decodeStatus data) else none := by
  rw [Reader.onNotify]
  dsimp only
  split
  · rename_i hstart
    simp [show looksLikePacketStart data = false by simpa using hstart]
  · rename_i hstart
    have hyes : looksLikePacketStart data := by simpa using hstart
    split
    · rename_i hpart
      have hno : (decodeStatus data).isTrustworthy = false := by
        simp [StatusPacket.isTrustworthy, show (decodeStatus data).isComplete = false by
          simpa using hpart]
      rw [hno, Bool.and_false, if_neg Bool.false_ne_true]
      split <;> rfl
    · rw [published_publish, hyes, Bool.true_and]

theorem published_classifyPoll (r : Reader) (data : Bytes) (available : Bool) :
    (r.classifyPoll data available).published.map (·.packet) =
      if looksLikePacketStart data && (decodeStatus data).isTrustworthy then
        some (decodeStatus data) else none := by
  rw [Reader.classifyPoll]
  split
  · rename_i hyes
    dsimp only
    split
    · rw [published_publish, hyes, Bool.true_and]
    · rename_i hpart
      have hno : (decodeStatus data).isTrustworthy = false := by
        simp [StatusPacket.isTrustworthy, show (decodeStatus data).isComplete = false by
          simpa using hpart]
      rw [hno, Bool.and_false, if_neg Bool.false_ne_true]
      rfl
  · rename_i hstart
    simp [show looksLikePacketStart data = false by simpa using hstart]

theorem published_completionStep {r : Reader} {i : ℕ} {step : Reader.CompletionStep}
    {available : Bool} {intake : Intake} (h : r.completionStep i step available = some intake) :
    intake.published.map (·.packet) =
      match step, r.completions[i]? with
      | .data remainder, some c =>
          if (decodeStatus (reassemble c.first remainder)).isTrustworthy then
            some (decodeStatus (reassemble c.first remainder)) else none
      | _, _ => none := by
  cases Reader.completes_of_step h with
  | begins => rfl
  | ends hc _ hstep =>
      rcases hstep with ⟨rfl, -⟩ | rfl | rfl <;> rfl
  | readsBack hc =>
      rw [hc]
      dsimp only
      rw [published_publish]

theorem published_pollStep {r : Reader} {i : ℕ} {step : Reader.PollStep} {now interval : ℚ}
    {available : Bool} {intake : Intake}
    (h : r.pollStep i step now interval available = some intake) :
    intake.published.map (·.packet) =
      match step with
      | .data data =>
          if looksLikePacketStart data && (decodeStatus data).isTrustworthy then
            some (decodeStatus data) else none
      | _ => none := by
  cases Reader.polls_of_step h with
  | begins | fails => rfl
  | ends _ _ hstep => rcases hstep with rfl | rfl <;> rfl
  | reads => exact published_classifyPoll _ _ _
  | wakes _ _ _ hstep => rcases hstep with ⟨rfl, -⟩ | ⟨rfl, -⟩ <;> rfl

section

variable {cfg : Config} {s s' : System} {a : Action}

theorem mem_trace_takeIn {intake : Intake} {sample : Sample} :
    .published sample ∈ (s.takeIn intake).trace ↔
      intake.published = some sample ∨ .published sample ∈ s.trace := by
  rw [takeIn]
  cases intake.published with
  | none => simp
  | some sample' => simp [eq_comm]

/-- A step publishes what it believes, or it is no delivery and publishes
nothing. -/
inductive Publishes (s : System) (a : Action) (s' : System) : Prop
  | delivery (intake : Intake) (hs' : s' = s.takeIn intake)
      (hpublished : intake.published.map (·.packet) = (s.believed a).map decodeStatus)
  | nothing (hbelieved : s.believed a = none)
      (hold : ∀ sample, .published sample ∈ s'.trace → .published sample ∈ s.trace)

theorem step_publishes (hstep : (machine cfg).step s a = some s') : Publishes s a s' := by
  cases acts_of_step hstep with
  | notifies =>
      refine .delivery _ rfl ?_
      rw [published_onNotify, believed]
      split <;> rfl
  | @completes i step intake hintake =>
      refine .delivery _ rfl ?_
      rw [published_completionStep hintake]
      cases step with
      | data remainder =>
          dsimp only [believed]
          cases s.lease.reader.completions[i]? with
          | none => rfl
          | some c =>
              dsimp only [Option.bind_eq_bind, Option.bind_some]
              split <;> rfl
      | _ => rfl
  | @polls i step interval intake hinterval hintake =>
      refine .delivery _ rfl ?_
      rw [published_pollStep hintake]
      cases step with
      | data data =>
          dsimp only [believed]
          split <;> rfl
      | _ => rfl
  | connects | delivers => exact .nothing rfl fun _ hmem => by simpa using hmem
  | commands | calls => exact .nothing rfl fun _ hmem => by simpa [beginCommand] using hmem
  | wakes => exact .nothing rfl fun _ hmem => by simpa using hmem
  | _ => exact .nothing rfl fun _ hmem => hmem

/-! ### Baselines -/

/-- Every reading a command was based on had been published. -/
def Based (s : System) : Prop :=
  ∀ i sample, .command i (.based sample) ∈ s.trace → .published sample ∈ s.trace

theorem Based.grow {events : List Event} (h : s.Based) (htrace : s'.trace = events ++ s.trace)
    (hbased : ∀ i sample, .command i (.based sample) ∈ events → .published sample ∈ s.trace) :
    s'.Based := by
  intro i sample hmem
  rw [htrace] at hmem ⊢
  rcases List.mem_append.mp hmem with hnew | hold
  · exact List.mem_append_right _ (hbased i sample hnew)
  · exact List.mem_append_right _ (h i sample hold)

theorem Based.run {i : ℕ} {c : Command} {why : Option Wakeup} {segment : Segment} (h : s.Based)
    (hlatest : ∀ a, s.commander.shared.latest = some a → .published a ∈ s.trace)
    (hruns : Runs cfg.settleTimeout s.now c s.commander.shared why segment) :
    (s.runCommand cfg i c segment).Based := by
  apply h.grow (trace_runCommand cfg s i c segment)
  intro j sample hmem
  obtain ⟨x, hx, heq⟩ := List.mem_map.mp hmem
  obtain ⟨-, rfl⟩ : i = j ∧ x = .based sample := by simpa using heq
  exact hlatest sample (hruns.based hx)

theorem Based.takeIn (h : s.Based) (intake : Intake) : (s.takeIn intake).Based := by
  intro i sample hmem
  rw [mem_trace_takeIn]
  have hold : .command i (.based sample) ∈ s.trace := by
    rw [System.takeIn] at hmem
    cases hpublished : intake.published with
    | none => simpa [hpublished] using hmem
    | some sample' => simpa [hpublished] using hmem
  exact .inr (h i sample hold)

theorem Based.effect (h : s.Based) (haccounted : s.Accounted) (heffect : Effect cfg s a s') :
    s'.Based := by
  cases heffect with
  | passes | links | rejects => exact h
  | connects => exact h.grow rfl (by simp)
  | takesIn => exact h.takeIn _
  | begins hcalls hruns =>
      exact Based.run (show (s.enroll _ _ _).Based from h) haccounted.latest hruns
  | wakes hcommand hruns => exact h.run haccounted.latest hruns
  | delivers => exact h.grow rfl (by simp)

/-! ### Runs -/

/-- The invariant of a run, with the readings published so far all of status
packets. -/
structure Typed (s : System) : Prop where
  accounted : s.Accounted
  based : s.Based
  published : ∀ sample, .published sample ∈ s.trace → IsStatus sample

theorem typed_initial : Typed {} := by
  refine ⟨accounted_initial, ?_, ?_⟩
  · intro i sample hmem
    simp at hmem
  · intro sample hmem
    simp at hmem

theorem Typed.onlyStatus (h : s.Typed) : s.OnlyStatus := by
  refine ⟨h.published, ?_, ?_⟩
  · intro i sample hmem
    exact h.published sample (h.based i sample hmem)
  · intro i c result hc hdry hpc
    have hledger := h.accounted.ledger i c hc
    have hproven : Proven s.trace i c.request result := by
      simpa [Ledger, hpc, Settled, hdry] using hledger
    exact ⟨h.published _ hproven.before, h.published _ hproven.after.mem_right⟩

theorem Typed.step (hs : s.Sound) (h : s.Typed) (hbelieves : s.BelievesStatus a)
    (hstep : (machine cfg).step s a = some s') : s'.Typed := by
  have heffect := step_effect hs hstep
  refine ⟨h.accounted.effect hs heffect, h.based.effect h.accounted heffect, ?_⟩
  intro sample hmem
  cases step_publishes hstep with
  | nothing _ hold => exact h.published sample (hold sample hmem)
  | delivery intake hs' hpublished =>
      subst hs'
      rcases mem_trace_takeIn.mp hmem with hnew | hold
      · rw [hnew] at hpublished
        obtain ⟨data, hdata, hpacket⟩ := Option.map_eq_some_iff.mp hpublished.symm
        show sample.packet.packetType = _
        rw [← show decodeStatus data = sample.packet from hpacket, packetType_decodeStatus]
        exact hbelieves data hdata
      · exact h.published sample hold

/-- What is believed is published. -/
theorem not_onlyStatus_of_believed (hbelieves : ¬s.BelievesStatus a)
    (hstep : (machine cfg).step s a = some s') : ¬s'.OnlyStatus := by
  intro honly
  apply hbelieves
  intro data hdata
  cases step_publishes hstep with
  | nothing hbelieved _ =>
      rw [hbelieved] at hdata
      simp at hdata
  | delivery intake hs' hpublished =>
      subst hs'
      rw [hdata] at hpublished
      obtain ⟨sample, hsample, hpacket⟩ := Option.map_eq_some_iff.mp hpublished
      have hstatus := honly.published sample (mem_trace_takeIn.mpr (.inl hsample))
      rw [IsStatus, hpacket, packetType_decodeStatus] at hstatus
      exact hstatus

end

/-- Only status packets become state exactly in the runs in which nothing else is
believed. -/
theorem only_status_becomes_state_iff {cfg : Config} {actions : List Action} {s : System}
    (hrun : (machine cfg).run {} actions = some s) :
    (machine cfg).Always OnlyStatus {} actions ↔
      (machine cfg).Meets BelievesStatus {} actions := by
  constructor
  · intro halways
    refine Machine.meets_of_always (I := fun _ => True) (fun _ _ _ _ _ => trivial) ?_ trivial hrun
      halways
    intro s a s' _ _ hbelieves hstep
    exact not_onlyStatus_of_believed hbelieves hstep
  · refine Machine.always_of_meets (I := fun s => s.Sound ∧ s.Typed) ?_ ?_
      ⟨sound_initial, typed_initial⟩
    · intro s a s' hI hbelieves hstep
      exact ⟨(step_effect hI.1 hstep).sound hI.1, hI.2.step hI.1 hbelieves hstep⟩
    · intro s hI
      exact hI.2.onlyStatus

theorem only_status_becomes_state_iff_switchOff :
    (machine {}).Always OnlyStatus {} switchOff ↔
      (machine {}).Meets BelievesStatus {} switchOff := by
  have hany : ((machine {}).run {} switchOff).any fun _ => true := by decide +kernel
  obtain ⟨s, hrun, -⟩ := Machine.exists_of_run_any hany
  exact only_status_becomes_state_iff hrun

/-- A complete packet of debug format and type whose bytes sum to zero. -/
def debugPacket : Bytes :=
  [0x01, 0x05, 0x1b, 0x02, 0x00, 0x00, 0x00, 0x30, 0x30, 0x00, 0x09, 0x00, 0x00, 0x14, 0x50, 0x00,
    0x00, 0x2c, 0x00, 0x12, 0x01, 0x9a, 0x01, 0x10, 0xff, 0x00, 0x15, 0x34, 0x00, 0x00, 0xde]

/-- The last reading published is not of a status packet. -/
def publishedOther (s : System) : Bool :=
  match s.trace with
  | .published sample :: _ => sample.packet.packetType ≠ some packetTypeStatus
  | _ => false

theorem debug_packet_can_become_state :
    ¬∀ (cfg : Config) (s : System), Reachable cfg s → s.OnlyStatus := by
  intro hall
  have hany : ((machine {}).run {} [.start, .link 0 .connected, .link 0 .subscribed,
      .notify debugPacket]).any publishedOther := by
    decide +kernel
  obtain ⟨s, hrun, hother⟩ := Machine.exists_of_run_any hany
  have honly := hall {} s ⟨_, hrun⟩
  rw [publishedOther] at hother
  split at hother
  · rename_i sample _ htrace
    have hstatus := honly.published sample (by rw [htrace]; exact List.mem_cons_self)
    exact of_decide_eq_true hother hstatus
  · simp at hother

end System

end Bedjet.Api
