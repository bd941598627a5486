import Bedjet.Service.Adoption

/-!
The decision of an adjustment. What `set_temperature` and `set_fan_percent` make
of a reading of a running unit is a function of the request and the reading: an
order, or a failure of the encoder. Where the command gets to afterwards follows
from it.
-/

namespace Bedjet.Service

open Python Protocol Device Asyncio
open Encode (EncodeError)

/-- The order an adjustment works out on a reading. -/
def Adjustment.order (dryRun : Bool) (before : Sample) : Adjustment → Except EncodeError Order
  | .temperature celsius => do
      let rounded ← Encode.snapTargetC celsius
      let payload ← Encode.setTemperature rounded before.packet.minTempC before.packet.maxTempC
      return { payload
               description := "target -> " ++ fixed 1 rounded ++ "C (" ++
                 fixed 1 (cToF rounded) ++ "F)"
               goal := .target rounded, dryRun }
  | .fan percent => do
      let snapped ← Encode.snapFanPercent percent
      let payload ← Encode.setFanPercent snapped
      return { payload, description := "fan -> " ++ toString snapped ++ "%"
               goal := .fan snapped, dryRun }

/-- The unit runs, and reports the bounds of a target. -/
def Adjustment.Applies (before : Sample) : Adjustment → Prop
  | .temperature _ => before.state.power = .on ∧ before.packet.minTempC.isSome ∧
      before.packet.maxTempC.isSome
  | .fan _ => before.state.power = .on

section

variable {settleTimeout now : ℚ} {adjustment : Adjustment} {dryRun : Bool} {shared : Shared}
  {before : Sample}

/-- From its baseline on, an adjustment of a running unit fails to encode its
request, or proceeds with its order. -/
theorem Adjustment.from_eq (happlies : adjustment.Applies before)
    (hlatest : shared.latest = some before) :
    adjustment.from settleTimeout now dryRun shared before =
      match adjustment.order dryRun before with
      | .error e => (Segment.raises shared (.encode e)).after (.based before)
      | .ok order => (proceed order shared before).after (.based before) := by
  cases adjustment with
  | temperature celsius =>
      obtain ⟨hon, hlow, hhigh⟩ := happlies
      have hbounds : ¬(before.packet.minTempC.isNone ∨ before.packet.maxTempC.isNone) := by
        simp [← Option.not_isSome, hlow, hhigh]
      rw [Adjustment.from, setTemperatureFrom, if_neg (not_not.mpr hon), if_neg hbounds]
      cases hsnap : Encode.snapTargetC celsius with
      | error e => simp [Adjustment.order, hsnap, bind, Except.bind]
      | ok rounded =>
          cases hset : Encode.setTemperature rounded before.packet.minTempC
              before.packet.maxTempC with
          | error e => simp [Adjustment.order, hsnap, hset, bind, Except.bind]
          | ok payload =>
              simp [Adjustment.order, hsnap, hset, bind, Except.bind, pure, Except.pure,
                sendVerified, hlatest]
  | fan percent =>
      have hon : before.state.power = .on := happlies
      rw [Adjustment.from, setFanPercentFrom, if_neg (not_not.mpr hon)]
      cases hsnap : Encode.snapFanPercent percent with
      | error e => simp [Adjustment.order, hsnap, bind, Except.bind]
      | ok snapped =>
          cases hset : Encode.setFanPercent snapped with
          | error e => simp [Adjustment.order, hsnap, hset, bind, Except.bind]
          | ok payload =>
              simp [Adjustment.order, hsnap, hset, bind, Except.bind, pure, Except.pure,
                sendVerified, hlatest]

end

/-! ### Where a decision leaves a command -/

/-- What a command wrote in a segment. -/
def Segment.writes (segment : Segment) : List Bytes :=
  segment.events.filterMap fun
    | .wrote payload => some payload
    | _ => none

/-- Where a command can be that has decided on `before`, and what it has written:
`verdict` is what its request came to on that reading. -/
def Judged (verdict : Except EncodeError Order) (before : Sample) (writes : List Bytes) :
    Pc → Prop
  | .fresh | .baseline .. | .before .. | .ended (.raised (.refused _)) => False
  | .writing order _ _ | .settling order _ _ _ => verdict = .ok order ∧ writes = [order.payload]
  | .ended (.returned result) => ∃ order, verdict = .ok order ∧ result.payload = order.payload ∧
      ∀ payload ∈ writes, payload = order.payload
  | .ended (.raised (.alreadySatisfied _)) => ∃ order, verdict = .ok order ∧
      order.goal.satisfied before.state ∧ writes = []
  | .ended (.raised (.encode e)) => verdict = .error e ∧ writes = []
  | .ended (.raised (.unverified _ _)) | .ended (.raised .assertion) =>
      ∃ order, verdict = .ok order ∧ writes = [order.payload]

section

variable {verdict : Except EncodeError Order} {before : Sample} {writes : List Bytes}

theorem Judged.not_early {pc : Pc} (h : Judged verdict before writes pc) : pc.early = false := by
  cases pc with
  | fresh => exact h.elim
  | baseline => exact h.elim
  | before => exact h.elim
  | _ => rfl

theorem Judged.of_error {e : EncodeError} {pc : Pc}
    (h : Judged (.error e) before writes pc) :
    pc = .ended (.raised (.encode e)) ∧ writes = [] := by
  cases pc with
  | ended ending =>
      cases ending with
      | returned => simp [Judged] at h
      | raised exception =>
          cases exception with
          | encode e' =>
              obtain ⟨hsame, hnone⟩ := h
              obtain rfl := Except.error.inj hsame
              exact ⟨rfl, hnone⟩
          | _ => simp [Judged] at h
  | _ => simp [Judged] at h

/-- A command that accepted its request sends its order, if anything. -/
theorem Judged.payload_eq {order : Order} {pc : Pc}
    (h : Judged (.ok order) before writes pc) : ∀ payload ∈ writes, payload = order.payload := by
  cases pc with
  | writing | settling =>
      obtain ⟨hsame, hwrites⟩ := h
      obtain rfl := Except.ok.inj hsame
      simp [hwrites]
  | ended ending =>
      cases ending with
      | returned =>
          obtain ⟨order', hsame, -, hwrites⟩ := h
          obtain rfl := Except.ok.inj hsame
          exact hwrites
      | raised exception =>
          cases exception with
          | refused => exact h.elim
          | alreadySatisfied =>
              obtain ⟨-, -, -, hnone⟩ := h
              simp [hnone]
          | encode => simp [Judged] at h
          | unverified | assertion =>
              obtain ⟨order', hsame, hwrites⟩ := h
              obtain rfl := Except.ok.inj hsame
              simp [hwrites]
  | _ => exact h.elim

theorem Judged.order_eq {order order' : Order} {pc : Pc}
    (h : Judged (.ok order) before writes pc) (horder : pc.order? = some order') :
    order' = order := by
  cases pc with
  | writing | settling =>
      obtain rfl := Option.some.inj horder
      exact (Except.ok.inj h.1).symm
  | before => exact h.elim
  | _ => simp [Pc.order?] at horder

theorem Judged.mapWait {pc : Pc} (h : Judged verdict before writes pc) (f : Wait → Wait) :
    Judged verdict before writes (pc.mapWait f) := by
  cases pc <;> exact h

theorem Judged.delivered {order : Order} {base : Sample} {delivered delivered' : Bool}
    (h : Judged verdict before writes (.writing order base delivered)) :
    Judged verdict before writes (.writing order base delivered') := h

/-- A reading that may be believed leaves a command that proceeds nothing but
these ways. -/
theorem judged_proceed {order : Order} {shared : Shared} (htrust : before.packet.isTrustworthy) :
    Judged (.ok order) before ((proceed order shared before).after (.based before)).writes
      (proceed order shared before).pc := by
  rw [proceed, if_neg (by simp [htrust])]
  split
  · rename_i hgoal
    exact ⟨order, rfl, hgoal, rfl⟩
  · split
    · exact ⟨order, rfl, rfl, by simp [Segment.writes, Segment.after, Segment.returns]⟩
    · exact ⟨rfl, rfl⟩

theorem judged_from {settleTimeout now : ℚ} {adjustment : Adjustment} {dryRun : Bool}
    {shared : Shared} (happlies : adjustment.Applies before)
    (hlatest : shared.latest = some before) (htrust : before.packet.isTrustworthy) :
    Judged (adjustment.order dryRun before) before
      (adjustment.from settleTimeout now dryRun shared before).writes
      (adjustment.from settleTimeout now dryRun shared before).pc := by
  rw [Adjustment.from_eq happlies hlatest]
  cases adjustment.order dryRun before with
  | error e => exact ⟨rfl, rfl⟩
  | ok order => exact judged_proceed htrust

theorem Settles.judged {now : ℚ} {order : Order} {base : Sample} {deadline : ℚ} {shared : Shared}
    {why : Wakeup} {segment : Segment}
    (hsettles : Settles now order base deadline shared why segment)
    (h : verdict = .ok order) (hwrites : writes = [order.payload]) :
    Judged verdict before writes segment.pc ∧ segment.writes = [] := by
  cases hsettles with
  | confirms => exact ⟨⟨order, h, rfl, by simp [hwrites]⟩, rfl⟩
  | waits => exact ⟨⟨h, hwrites⟩, rfl⟩
  | givesUp => exact ⟨⟨order, h, hwrites⟩, rfl⟩
  | trips => exact ⟨⟨order, h, hwrites⟩, rfl⟩

/-- A command that has decided writes nothing more. -/
theorem Runs.judged {settleTimeout now : ℚ} {c : Command} {shared : Shared}
    {why : Option Wakeup} {segment : Segment} (hruns : Runs settleTimeout now c shared why segment)
    (h : Judged verdict before writes c.pc) :
    Judged verdict before writes segment.pc ∧ segment.writes = [] := by
  have hlate := h.not_early
  cases hruns with
  | decides hearly => simp [hlate] at hearly
  | awaits hpc => simp [hpc, Pc.early] at hlate
  | looks => exact ⟨h.mapWait _, rfl⟩
  | misses hwoken hearly => simp [hlate] at hearly
  | linkFails hpc =>
      rw [hpc] at h
      exact ⟨⟨_, h⟩, rfl⟩
  | returns hpc hsettles =>
      rw [hpc] at h
      obtain ⟨hjudged, hnone⟩ := hsettles.judged h.1 h.2
      exact ⟨hjudged, by simpa [Segment.writes, Segment.after, Segment.poke] using hnone⟩
  | settles hpc hwhy hsettles =>
      rw [hpc] at h
      exact hsettles.judged h.1 h.2

end

/-! ### When it decides -/

theorem Runs.early_of_based {settleTimeout now : ℚ} {c : Command} {shared : Shared}
    {why : Option Wakeup} {segment : Segment} (hruns : Runs settleTimeout now c shared why segment)
    {sample : Sample} (hmem : .based sample ∈ segment.events) : c.pc.early := by
  cases hruns with
  | decides hearly => exact hearly
  | awaits => simp [awaitState] at hmem
  | looks => simp at hmem
  | misses => simp [Segment.raises] at hmem
  | linkFails => simp [Segment.raises] at hmem
  | returns hpc hsettles =>
      cases hsettles <;>
        simp [Segment.after, Segment.poke, Segment.raises, Segment.returns] at hmem
  | settles hpc hwhy hsettles =>
      cases hsettles <;> simp [Segment.raises, Segment.returns] at hmem

/-- An adjustment has its baseline when it enters `_send_verified`. -/
theorem Command.Sound.not_before {c : Command} {adjustment : Adjustment} {order : Order}
    {wait : Wait} (hsound : c.Sound) (hrequest : c.request = .adjust adjustment) :
    c.pc ≠ .before order wait := by
  intro hpc
  obtain ⟨-, horders⟩ : order.dryRun = c.dryRun ∧
      ∀ base, c.request.Orders base order.payload order.goal := by
    simpa [Command.Sound, hpc] using hsound
  -- it would order the same on the reading of a unit that is off
  have hidle := horders ⟨{}, decodeStatus [], 0⟩
  rw [hrequest] at hidle
  generalize order.payload = payload, order.goal = goal at hidle
  cases hidle with
  | temperature hon => simp at hon
  | fan hon => simp at hon

/-- An adjustment that goes on without a decision bases nothing on any reading;
one that decides does so by its code from the baseline on. -/
theorem adjusts {settleTimeout now : ℚ} {c : Command} {adjustment : Adjustment} {shared : Shared}
    {segment : Segment} (hrequest : c.request = .adjust adjustment) (hsound : c.Sound)
    (hearly : c.pc.early)
    (hsegment : c.pc = .fresh ∧
        segment = c.request.begin settleTimeout now c.dryRun shared ∨
      ∃ why, c.pc.resume settleTimeout now c.dryRun shared why = some segment) :
    (∀ sample, .based sample ∉ segment.events) ∨
      ∃ before, shared.latest = some before ∧
        segment = adjustment.from settleTimeout now c.dryRun shared before := by
  rcases hsegment with ⟨-, rfl⟩ | ⟨why, hresume⟩
  · rw [hrequest]
    cases hlatest : shared.latest with
    | none => exact .inl (by simp [Request.begin, beginAdjustment, hlatest, awaitState])
    | some before => exact .inr ⟨before, rfl, by simp [Request.begin, beginAdjustment, hlatest]⟩
  · cases hpc : c.pc with
    | fresh => simp [hpc] at hresume
    | baseline adjustment' wait =>
        have hsame : c.request = .adjust adjustment' := by
          simpa [Command.Sound, hpc] using hsound
        obtain rfl : adjustment = adjustment' := by simpa [hrequest] using hsame
        cases why with
        | looked =>
            obtain ⟨-, rfl⟩ : c.pc.unlooked ∧ _ = segment := by simpa using hresume
            exact .inl (by simp)
        | woken =>
            obtain ⟨-, rfl⟩ : wait.woken ∧ _ = segment := by simpa [hpc, Pc.resume] using hresume
            cases hlatest : shared.latest with
            | none => exact .inl (by simp [onWoken, hlatest, Segment.raises])
            | some before => exact .inr ⟨before, rfl, by simp [onWoken, hlatest]⟩
        | timedOut =>
            obtain ⟨-, rfl⟩ : (wait.looked ∧ wait.due ≤ now) ∧ _ = segment := by
              simpa [hpc, Pc.resume] using hresume
            exact .inl (by simp [Segment.raises])
        | writeReturned => simp [hpc, Pc.resume] at hresume
        | writeFailed => simp [hpc, Pc.resume] at hresume
    | before order wait => exact absurd hpc (hsound.not_before hrequest)
    | writing => simp [hpc, Pc.early] at hearly
    | settling => simp [hpc, Pc.early] at hearly
    | ended => simp [hpc, Pc.early] at hearly

end Bedjet.Service
