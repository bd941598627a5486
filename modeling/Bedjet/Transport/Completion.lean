import Bedjet.Transport.Serial

/-!
No call of a `BleakTransport` hangs by the transport's own doing: as long as bleak
answers, whichever answers it gives and in whichever order, every call ends.
-/

namespace Bedjet.Transport

open Asyncio

/-- How often a call can still be resumed. -/
def Pc.left : Pc → ℕ
  | .resolving _ _ | .waiting _ => 2
  | .establishing _ _ | .calling _ _ => 1
  | .returned _ | .raised _ => 0

theorem Pc.left_le (pc : Pc) : pc.left ≤ 2 := by
  cases pc <;> simp [left]

theorem Pc.left_inside {c : BleakTransport} (exchange : Exchange) :
    (c.inside exchange).2.left ≤ 1 := by
  cases hrequire : c.require <;>
    simp [BleakTransport.inside, hrequire, BleakTransport.notConnected, left]

theorem BleakTransport.resume_left {maxAttempts t : ℕ} {c c' : BleakTransport} {pc pc' : Pc}
    {outcome : Outcome} (h : c.resume maxAttempts t pc outcome = some (c', pc')) :
    pc'.left < pc.left := by
  have hr : Resumes c maxAttempts t pc outcome (c', pc') := resumes_of_resume h
  generalize hp : (c', pc') = r at hr
  obtain rfl : pc' = r.2 := by simp [← hp]
  cases hr with
  | comesIn exchange hgrants => exact Nat.lt_succ_of_le (Pc.left_inside exchange)
  | _ => simp [Pc.left]

def Outcome.isAnswer : Outcome → Bool
  | .threw _ => false
  | _ => true

/-- The action resumes the call `t`. -/
def Action.resumes (t : ℕ) : Action → Bool
  | .resume t' _ => t' = t
  | _ => false

namespace Ble

variable {maxAttempts : ℕ} {a a' : Ble} {h : List Event}

/-- How often the call `t` can still be resumed, once it is made. -/
def leftOf (a : Ble) (t : ℕ) : ℕ :=
  match a.parties t with
  | some call => call.pc.left
  | none => 2

theorem leftOf_of_call {t : ℕ} {call : Call} (hcall : a.parties t = some call) :
    a.leftOf t = call.pc.left := by
  simp [leftOf, hcall]

theorem leftOf_le (a : Ble) (t : ℕ) : a.leftOf t ≤ 2 := by
  cases hcall : a.parties t with
  | none => simp [leftOf, hcall]
  | some call =>
      rw [leftOf_of_call hcall]
      exact call.pc.left_le

theorem leftOf_put (a : Ble) (t : ℕ) (core : BleakTransport) (call : Call) :
    leftOf (a.put t core call) = Function.update a.leftOf t call.pc.left := by
  funext t'
  by_cases ht : t' = t
  · simp [leftOf, ht]
  · simp [leftOf, Pool.parties_put_of_ne ht, Function.update_of_ne ht]

/-- A step takes from what is left to the call it resumes, and adds to no other. -/
theorem step_left {action : Action} (hs : Serial a h)
    (hstep : (machine maxAttempts).step a action = some a') (t : ℕ) :
    a'.leftOf t + (action.resumes t).toNat ≤ a.leftOf t := by
  rcases step_cases hstep with ⟨request, rfl, rfl⟩ |
    ⟨t', outcome, call, core, pc, rfl, hcall, hresume, rfl⟩ | ⟨k, rfl, hk, rfl⟩
  · simp only [arrive, leftOf_put, Action.resumes, Bool.toNat_false, Nat.add_zero]
    by_cases ht : t = a.core.calls
    · -- the new call is the first of its number
      have hfresh := hs.fresh a.core.calls (Nat.le_refl _)
      simpa [ht, leftOf, hfresh] using Pc.left_le _
    · simp [Function.update_of_ne ht]
  · have hless : pc.left < call.pc.left := BleakTransport.resume_left hresume
    rw [leftOf_put]
    by_cases ht : t = t'
    · subst ht
      simpa [Action.resumes, leftOf_of_call hcall] using Nat.succ_le_of_lt hless
    · simp [Action.resumes, Function.update_of_ne ht, Ne.symm ht]
  · exact Nat.le_refl _

/-- Where nothing can be resumed with an answer, nothing is left to do. -/
theorem finished_of_stuck (hs : Serial a h)
    (hstuck : ∀ t outcome, outcome.isAnswer →
      (machine maxAttempts).step a (.resume t outcome) = none)
    {t : ℕ} {call : Call} (hcall : a.parties t = some call) : call.pc.finished := by
  have hblocked {t : ℕ} {call : Call} {r : BleakTransport × Pc} (outcome : Outcome)
      (hcall : a.parties t = some call) (hanswer : outcome.isAnswer) :
      a.core.resume maxAttempts t call.pc outcome ≠ some r := by
    intro hresume
    have hstep := step_resume hcall hresume
    rw [hstuck t outcome hanswer] at hstep
    simp at hstep
  obtain ⟨request, pc⟩ := call
  cases pc with
  | resolving address timeout => exact absurd rfl (hblocked (.found none) hcall rfl)
  | establishing address name =>
      exact absurd rfl (hblocked (.established ⟨.ok [], true⟩) hcall rfl)
  | waiting exchange =>
      have hwaiting : a.standing t = .waiting := standing_eq_waiting.mpr ⟨request, exchange, hcall⟩
      -- the call waits for one that can go on
      rcases hs.turns.exists_next hwaiting with ⟨t', ht'⟩ | ⟨t', ht', hgrants⟩
      · obtain ⟨request', k, exchange', hcall'⟩ := standing_eq_inside.mp ht'
        exact absurd rfl (hblocked (.done []) hcall' rfl)
      · obtain ⟨request', exchange', hcall'⟩ := standing_eq_waiting.mp ht'
        have hstep := hstuck t' .granted rfl
        rw [step_granted hcall' hgrants] at hstep
        simp at hstep
  | calling k operation => exact absurd rfl (hblocked (.done []) hcall rfl)
  | returned answer => rfl
  | raised e => rfl

/-- From any reachable state, however the calls are resumed, whatever links drop and
whatever calls are made: each call is resumed twice at most, one that has ended never
again, and when no call is left that bleak could answer or that could be given its turn,
every call has ended. -/
theorem calls_come_to_an_end {as as' : List Action}
    (hrun : (recorded maxAttempts).run (initial, []) as = some (a, h))
    (hrun' : (machine maxAttempts).run a as' = some a') :
    (∀ t, as'.countP (Action.resumes t) ≤ 2) ∧
      (∀ t call, a.parties t = some call → as'.countP (Action.resumes t) ≤ call.pc.left) ∧
      ((∀ t outcome, outcome.isAnswer →
          (machine maxAttempts).step a' (.resume t outcome) = none) →
        ∀ t call, a'.parties t = some call → call.pc.finished) := by
  have hs : Serial a h := Serial.of_run hrun
  have hend : (∃ g, Serial a' g) ∧ ∀ t, a'.leftOf t + as'.countP (Action.resumes t) ≤
      a.leftOf t := by
    have hkeep (t : ℕ) (b : Ble) (action : Action) (b' : Ble) (hb : ∃ g, Serial b g)
        (hstep : (machine maxAttempts).step b action = some b') :
        (∃ g, Serial b' g) ∧ b'.leftOf t + (action.resumes t).toNat ≤ b.leftOf t := by
      obtain ⟨g, hg⟩ := hb
      exact ⟨⟨_, hg.step hstep⟩, step_left hg hstep t⟩
    have hcount (t : ℕ) := Machine.count_le_of_variant (leftOf · t) (Action.resumes t) (hkeep t)
      ⟨h, hs⟩ hrun'
    exact ⟨(hcount 0).1, fun t => (hcount t).2⟩
  obtain ⟨⟨g, hg⟩, hcount⟩ := hend
  refine ⟨fun t => ?_, fun t call hcall => ?_, fun hstuck t call hcall => ?_⟩
  · have hle := leftOf_le a t
    have hc := hcount t
    omega
  · have hc := hcount t
    rw [leftOf_of_call hcall] at hc
    omega
  · exact finished_of_stuck hg hstuck hcall

theorem calls_come_to_an_end_queuedWrite :
    ∃ a h a', (recorded 4).run (initial, []) queuedWrite = some (a, h) ∧
      (machine 4).run a [.drop 0, .resume 2 (.threw .cancelledError)] = some a' ∧
      (∀ t, [Action.drop 0, .resume 2 (.threw .cancelledError)].countP (Action.resumes t) ≤ 2) ∧
      (∀ t call, a.parties t = some call →
        [Action.drop 0, .resume 2 (.threw .cancelledError)].countP (Action.resumes t) ≤
          call.pc.left) ∧
      ((∀ t outcome, outcome.isAnswer → (machine 4).step a' (.resume t outcome) = none) →
        ∀ t call, a'.parties t = some call → call.pc.finished) :=
  have hrun : (recorded 4).run (initial, []) queuedWrite = some (_, _) := rfl
  have hrun' : (machine 4).run _ [.drop 0, .resume 2 (.threw .cancelledError)] = some _ := rfl
  ⟨_, _, _, hrun, hrun', calls_come_to_an_end hrun hrun'⟩

end Ble

end Bedjet.Transport
