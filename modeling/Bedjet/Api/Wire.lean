import Bedjet.Api.Evidence
import Bedjet.Protocol.Snapping

/-!
What goes out on the wire. Nothing runs between the moment a command reads the
slot and the moment it calls `transport.write`, so each write is decided on the
reading held at that moment; and what is held is a function of the history.
-/

namespace Bedjet.Api

open Python Protocol Device Service Asyncio History

/-- The reading held after a history: the last one published, unless a command
has written since. -/
def held : List Event → Option Sample
  | [] => none
  | .published sample :: _ => some sample
  | .command _ (.wrote _) :: _ => none
  | _ :: earlier => held earlier

/-- Whether an event leaves what is held alone. -/
def Event.keepsHeld : Event → Bool
  | .published _ | .command _ (.wrote _) => false
  | _ => true

theorem held_append {events trace : List Event} (h : ∀ e ∈ events, e.keepsHeld) :
    held (events ++ trace) = held trace := by
  induction events with
  | nil => rfl
  | cons e events ih =>
      have hrest := ih fun e' he' => h e' (List.mem_cons_of_mem e he')
      have he := h e List.mem_cons_self
      cases e with
      | connected => exact hrest
      | reader event => exact hrest
      | published sample => simp [Event.keepsHeld] at he
      | command i event =>
          cases event with
          | wrote payload => simp [Event.keepsHeld] at he
          | _ => exact hrest

/-- The payloads the unit may be sent: off, cool, heat and dry, a fan step, or a
target temperature. -/
inductive Allowed : Bytes → Prop
  | off : Allowed [0x01, 0x01]
  | cool : Allowed [0x01, 0x02]
  | heat : Allowed [0x01, 0x03]
  | dry : Allowed [0x01, 0x05]
  | fan {s : UInt8} (h : s.toNat ≤ 19) : Allowed [0x07, s]
  | temperature (b : UInt8) : Allowed [0x03, b]

/-- What a write has to be for the reading it was decided on. -/
structure Permitted (request : Request) (payload : Bytes) (reading : Sample) : Prop where
  allowed : Allowed payload
  trustworthy : reading.packet.isTrustworthy
  unsatisfied : ∃ goal, request.goal? = some goal ∧ goal.satisfied reading.state = false
  running : payload.head? = some 0x07 ∨ payload.head? = some 0x03 → reading.state.power = .on
  bounded : ∀ b, payload = [0x03, b] → ∃ low high, reading.packet.minTempC = some low ∧
    reading.packet.maxTempC = some high ∧ low ≤ b.toNat / 2 ∧ (b.toNat : ℚ) / 2 ≤ high

theorem turnOff_eq : Encode.turnOff = [0x01, 0x01] := rfl

theorem permitted_of_orders {request : Request} {payload : Bytes} {goal : Goal} {reading : Sample}
    (horders : request.Orders reading payload goal) (htrust : reading.packet.isTrustworthy)
    (hgoal : goal.satisfied reading.state = false) : Permitted request payload reading := by
  have hunsatisfied : ∃ goal, request.goal? = some goal ∧ goal.satisfied reading.state = false :=
    ⟨goal, horders.goal_eq, hgoal⟩
  cases horders with
  | off => exact ⟨.off, htrust, hunsatisfied, by simp [turnOff_eq], by simp [turnOff_eq]⟩
  | @mode base operand expected hunlocked hexpected =>
      have hmode (value : UInt8) (hvalue : Encode.setMode operand = [0x01, value])
          (hallowed : Allowed [0x01, value]) :
          Permitted (.mode operand) (Encode.setMode operand) reading := by
        rw [hvalue]
        exact ⟨hallowed, htrust, hunsatisfied, by simp, by simp⟩
      cases operand with
      | off => exact hmode 0x01 rfl .off
      | cool => exact hmode 0x02 rfl .cool
      | heat => exact hmode 0x03 rfl .heat
      | dry => exact hmode 0x05 rfl .dry
      | turbo => simp [unlockedModes] at hunlocked
      | extendedHeat => simp [unlockedModes] at hunlocked
  | temperature hon hsnap hset =>
      -- snapping and the encoder together bound the byte
      obtain ⟨b, low, high, rfl, rfl, hlow, hhigh, hle, hge⟩ :=
        (Encode.setTemperature_ok_iff hsnap).mp hset
      refine ⟨.temperature b, htrust, hunsatisfied, fun _ => hon, fun b' hb' => ?_⟩
      obtain rfl : b = b' := by simpa [Encode.opcodeTemperature] using hb'
      exact ⟨low, high, hlow, hhigh, hle, hge⟩
  | fan hon hsnap hset =>
      obtain ⟨b, -, hb, -, hset'⟩ := Encode.setFanPercent_of_snapped hsnap
      obtain rfl := Except.ok.inj (hset.symm.trans hset')
      refine ⟨.fan hb, htrust, hunsatisfied, fun _ => hon, fun b' hb' => ?_⟩
      simp [Encode.opcodeFan] at hb'

namespace System

variable {cfg : Config} {s s' : System}

/-- The request of command `i`. -/
def requestOf (s : System) (i : ℕ) : Option Request :=
  s.commander.commands[i]?.map (·.request)

theorem requestOf_set {commands : List Command} {i j : ℕ} {c d : Command}
    (hc : commands[i]? = some c) (hrequest : d.request = c.request) :
    (commands.set i d)[j]?.map (·.request) = commands[j]?.map (·.request) := by
  rw [List.getElem?_set]
  split
  · rename_i hij
    subst hij
    obtain ⟨hi, rfl⟩ := List.getElem?_eq_some_iff.mp hc
    simp [hi, hrequest]
  · rfl

theorem requestOf_onState (sample : Sample) : (s.onState sample).requestOf = s.requestOf := by
  funext j
  rw [requestOf, commander_onState, Commander.onState, List.getElem?_map, Option.map_map]
  rfl

theorem requestOf_enroll {request : Request} {dryRun : Bool} {calls : List ApiCall} {j : ℕ}
    {r : Request} (h : s.requestOf j = some r) :
    (s.enroll request dryRun calls).requestOf j = some r := by
  obtain ⟨c, hc, rfl⟩ := Option.map_eq_some_iff.mp h
  have hj := (List.getElem?_eq_some_iff.mp hc).1
  rw [requestOf, System.enroll, List.getElem?_append_left hj, hc]
  rfl

theorem requestOf_runCommand {i : ℕ} {c : Command} {segment : Segment}
    (hc : s.commander.commands[i]? = some c) :
    (s.runCommand cfg i c segment).requestOf = s.requestOf := by
  funext j
  rw [requestOf, commander_runCommand]
  exact requestOf_set (d := { c with pc := segment.pc }) hc rfl

theorem requestOf_reach {i : ℕ} {c : Command} {order : Order} {base : Sample}
    (hc : s.commander.commands[i]? = some c) :
    (s.reach i c order base).requestOf = s.requestOf := by
  funext j
  exact requestOf_set (d := { c with pc := .writing order base true }) hc rfl

/-- A write, judged by the history before it. -/
def PermittedWrite (requests : ℕ → Option Request) : Event → List Event → Prop
  | .command i (.wrote payload), earlier => ∃ request reading, requests i = some request ∧
      held earlier = some reading ∧ Permitted request payload reading
  | _, _ => True

/-- What is held is what the history says, and every write so far was permitted. -/
structure Wired (s : System) : Prop where
  latest : s.commander.shared.latest = held s.trace
  writes : Each (PermittedWrite s.requestOf) s.trace

theorem permittedWrite_of_keepsHeld {requests : ℕ → Option Request} {e : Event}
    (h : e.keepsHeld) (earlier : List Event) : PermittedWrite requests e earlier := by
  cases e with
  | command i event =>
      cases event with
      | wrote payload => simp [Event.keepsHeld] at h
      | _ => trivial
  | _ => trivial

theorem Wired.writes_mono (h : s.Wired)
    (hrequests : ∀ i request, s.requestOf i = some request → s'.requestOf i = some request) :
    Each (PermittedWrite s'.requestOf) s.trace := by
  refine h.writes.imp fun e earlier hpermitted => ?_
  cases e with
  | command i event =>
      cases event with
      | wrote payload =>
          obtain ⟨request, reading, hrequest, hrest⟩ := hpermitted
          exact ⟨request, reading, hrequests i request hrequest, hrest⟩
      | _ => trivial
  | _ => trivial

/-- Steps that leave the slot alone and record nothing about it. -/
theorem Wired.grow {events : List Event} (h : s.Wired) (htrace : s'.trace = events ++ s.trace)
    (hlatest : s'.commander.shared.latest = s.commander.shared.latest)
    (hevents : ∀ e ∈ events, e.keepsHeld)
    (hrequests : ∀ i request, s.requestOf i = some request → s'.requestOf i = some request) :
    s'.Wired where
  latest := by rw [hlatest, htrace, held_append hevents, h.latest]
  writes := by
    rw [htrace]
    exact .append (fun e he _ _ => permittedWrite_of_keepsHeld (hevents e he) _)
      (h.writes_mono hrequests)

theorem Wired.onState (h : s.Wired) (sample : Sample) : (s.onState sample).Wired where
  latest := rfl
  writes := by
    refine Each.cons trivial (h.writes_mono fun i request hrequest => ?_)
    rwa [requestOf_onState]

theorem Wired.takeIn (h : s.Wired) (intake : Intake) : (s.takeIn intake).Wired := by
  have h₁ : ((s.setLease { s.lease with reader := intake.reader }).emit
      (intake.events.map .reader)).Wired := by
    refine h.grow rfl rfl (fun e he => ?_) fun i request hrequest => hrequest
    obtain ⟨r, -, rfl⟩ := List.mem_map.mp he
    rfl
  rw [System.takeIn]
  cases intake.published with
  | none => exact h₁
  | some sample => exact h₁.onState sample

theorem Wired.enroll (h : s.Wired) (request : Request) (dryRun : Bool) (calls : List ApiCall) :
    (s.enroll request dryRun calls).Wired :=
  h.grow (List.nil_append _).symm rfl (by simp) fun _ _ hrequest => requestOf_enroll hrequest

theorem Wired.run {i : ℕ} {c : Command} {why : Option Wakeup} {segment : Segment} (h : s.Wired)
    (hc : s.commander.commands[i]? = some c)
    (hruns : Runs cfg.settleTimeout s.now c s.commander.shared why segment) :
    (s.runCommand cfg i c segment).Wired := by
  have hrequests (j : ℕ) (request : Request) (hrequest : s.requestOf j = some request) :
      (s.runCommand cfg i c segment).requestOf j = some request := by
    rwa [requestOf_runCommand hc]
  have hcommand : s.requestOf i = some c.request := by simp [requestOf, hc]
  -- the segment that writes empties the slot; every other one leaves it as it is
  rcases hruns.writes_or_keeps with ⟨order, base, hwrites⟩ | ⟨hkeeps, hquiet⟩
  · obtain ⟨based, hbased, hsegment⟩ := hwrites.shape
    have hevents : ∀ e ∈ based.map (Event.command i), e.keepsHeld := by
      intro e he
      obtain ⟨x, hx, rfl⟩ := List.mem_map.mp he
      obtain ⟨b, -, rfl⟩ := hbased x hx
      rfl
    have htrace : (s.runCommand cfg i c segment).trace =
        .command i (.wrote order.payload) :: (based.map (.command i) ++ s.trace) := by
      rw [trace_runCommand, hsegment]
      rfl
    constructor
    · rw [htrace, commander_runCommand, hsegment]
      rfl
    · rw [htrace]
      refine Each.cons ?_ (.append (fun e he _ _ => permittedWrite_of_keepsHeld (hevents e he) _)
        (h.writes_mono hrequests))
      refine ⟨c.request, base, hrequests i _ hcommand, ?_, ?_⟩
      · rw [held_append hevents, ← h.latest, hwrites.latest]
      · exact permitted_of_orders hwrites.wrote.orders hwrites.wrote.trustworthy
          hwrites.wrote.unsatisfied
  · refine h.grow (trace_runCommand cfg s i c segment) ?_ (fun e he => ?_) hrequests
    · rw [commander_runCommand]
      exact hkeeps
    · obtain ⟨x, hx, rfl⟩ := List.mem_map.mp he
      cases x with
      | wrote payload => exact absurd hx (hquiet payload)
      | _ => rfl

theorem Wired.effect {a : Action} (h : s.Wired) (heffect : Effect cfg s a s') : s'.Wired := by
  cases heffect with
  | passes => exact ⟨h.latest, h.writes⟩
  | links => exact ⟨h.latest, h.writes⟩
  | connects => exact h.grow rfl rfl (by simp [Event.keepsHeld]) fun _ _ hrequest => hrequest
  | takesIn => exact h.takeIn _
  | rejects => exact ⟨h.latest, h.writes⟩
  | begins hcalls hruns =>
      exact (h.enroll _ _ _).run (enroll_getElem? s _ _ _) hruns
  | wakes hcommand hruns => exact h.run hcommand hruns
  | delivers hcommand hpc =>
      refine h.grow rfl rfl (by simp [Event.keepsHeld]) fun j request hrequest => ?_
      rwa [requestOf_reach hcommand]

theorem wired_initial : Wired {} := ⟨rfl, each_nil _⟩

theorem Reachable.wired (h : Reachable cfg s) : s.Wired :=
  (h.invariant wired_initial fun _ _ _ _ hI heffect => hI.effect heffect).2

/-- Every payload ever handed to `transport.write` is one the unit may be sent,
and the reading held when it was handed over permits it. -/
theorem write_is_permitted (h : Reachable cfg s) {i : ℕ} {payload : Bytes}
    {later earlier : List Event}
    (htrace : s.trace = later ++ .command i (.wrote payload) :: earlier) :
    Allowed payload ∧ ∃ c reading, s.commander.commands[i]? = some c ∧
      held earlier = some reading ∧ reading.packet.isTrustworthy ∧
      (∃ goal, c.request.goal? = some goal ∧ goal.satisfied reading.state = false) ∧
      (payload.head? = some 0x07 ∨ payload.head? = some 0x03 → reading.state.power = .on) ∧
      ∀ b, payload = [0x03, b] → ∃ low high, reading.packet.minTempC = some low ∧
        reading.packet.maxTempC = some high ∧ low ≤ b.toNat / 2 ∧ (b.toNat : ℚ) / 2 ≤ high := by
  obtain ⟨request, reading, hrequest, hheld, hpermitted⟩ := h.wired.writes later _ earlier htrace
  obtain ⟨c, hc, rfl⟩ := Option.map_eq_some_iff.mp hrequest
  exact ⟨hpermitted.allowed, c, reading, hc, hheld, hpermitted.trustworthy,
    hpermitted.unsatisfied, hpermitted.running, hpermitted.bounded⟩

theorem write_is_permitted_switchOff :
    ∃ s later earlier, (machine {}).run {} switchOff = some s ∧
      s.trace = later ++ .command 0 (.wrote [0x01, 0x01]) :: earlier ∧
      Allowed [0x01, 0x01] ∧ ∃ c reading, s.commander.commands[0]? = some c ∧
        held earlier = some reading ∧ reading.packet.isTrustworthy ∧
        ∃ goal, c.request.goal? = some goal ∧ goal.satisfied reading.state = false := by
  have hany : ((machine {}).run {} switchOff).any fun s =>
      [0x01, 0x01] ∈ writesOf 0 s.trace := by
    decide +kernel
  obtain ⟨s, hrun, hmem⟩ := Machine.exists_of_run_any hany
  obtain ⟨later, earlier, htrace⟩ :=
    List.append_of_mem (mem_writesOf.mp (of_decide_eq_true hmem))
  obtain ⟨hallowed, c, reading, hc, hheld, htrust, hgoal, -⟩ :=
    write_is_permitted ⟨_, hrun⟩ htrace
  exact ⟨s, later, earlier, hrun, htrace, hallowed, c, reading, hc, hheld, htrust, hgoal⟩

end System

end Bedjet.Api
