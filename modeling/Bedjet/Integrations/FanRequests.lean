import Bedjet.Integrations.Exchanges
import Bedjet.Integrations.Mqtt

/-!
Fan requests through the adapters. What is sent is a number; what reaches the API
is the integer part of the double nearest to it, which it refuses or snaps to the
nearest step. A number between two integers can come out on the wrong side of a
bound, or of the middle between two steps.
-/

namespace Bedjet.Integrations

open Python Protocol Device Service Asyncio Api
open Double (nearest overflowBound carry le_toInt_iff carry_lt sub_quarter_le_carry)
open Encode (opcodeFan fanPercentToStep fanPercentMin fanPercentMax)

/-- A value of a JSON text that is this number. -/
inductive Json.Is (p : ℚ) : Json → Prop
  | int {n : ℤ} (h : (n : ℚ) = p) : Is p (.int n)
  | real : Is p (.real p)

/-- A request to set the fan, as an adapter receives it. -/
inductive FanMessage
  | http (body : Body)
  | mqtt (payload : String)

namespace FanMessage

variable {decimal : Char → Option ℕ} {p : ℚ} {message : FanMessage}

/-- The message gives the number as the percentage. -/
def Gives (decimal : Char → Option ℕ) (p : ℚ) : FanMessage → Prop
  | .http body => (∃ dryRun, bool body "dry_run" = .ok dryRun) ∧
      ∃ value, body.get "percent" = some value ∧ value.Is p
  | .mqtt payload => exactValue decimal payload = some p

/-- What the adapter calls. -/
def calls (decimal : Char → Option ℕ) : FanMessage → Option (ApiRequest × Bool)
  | .http body =>
      match handleFan body with
      | .ok (.call request dryRun) => some (request, dryRun)
      | _ => none
  | .mqtt payload =>
      match dispatch decimal "fan" payload with
      | .ok (.call request) => some (request, false)
      | _ => none

/-- A number is converted to the double nearest to it, or is too large an integer. -/
theorem jsonNumber_of_is {body : Body} {key : String} {value : Json}
    (hget : body.get key = some value) (his : value.Is p) :
    jsonNumber body key = .ok (some (nearest p)) ∨
      jsonNumber body key = .error .overflowError ∧ ∃ e, (nearest p).toInt = .error e := by
  cases his with
  | real => exact .inl (by simp [jsonNumber, hget])
  | @int n hn =>
      rw [← hn]
      rcases floatOfInt_cases n with hfloat | hfloat
      · right
        refine ⟨by simp [jsonNumber, hget, hfloat, RouteRaised.ofConversionError], ?_⟩
        apply Double.toInt_error_iff.mpr
        unfold floatOfInt at hfloat
        split at hfloat
        · rename_i hnearest
          rw [hnearest]
          rfl
        · simp at hfloat
      · exact .inl (by simp [jsonNumber, hget, hfloat])

/-- The API is called with the integer part, if there is one. -/
theorem calls_of_toInt {percent : ℤ} (h : message.Gives decimal p)
    (hint : (nearest p).toInt = .ok percent) :
    ∃ dryRun, message.calls decimal = some (.setFan percent, dryRun) := by
  cases message with
  | http body =>
      obtain ⟨⟨dryRun, hdry⟩, value, hget, his⟩ := h
      rcases jsonNumber_of_is hget his with hnumber | ⟨-, e, he⟩
      · refine ⟨dryRun, ?_⟩
        rw [calls, Route.handleFan_eq hnumber, hint]
        simp [hdry, Except.map]
      · simp [hint] at he
  | mqtt payload =>
      have hfloat := parseFloat_of_exactValue h
      exact ⟨false, by simp [calls, dispatch, number, hfloat, hint, bind, Except.bind]⟩

theorem calls_of_error {e : ConversionError} (h : message.Gives decimal p)
    (hint : (nearest p).toInt = .error e) : message.calls decimal = none := by
  cases message with
  | http body =>
      obtain ⟨-, value, hget, his⟩ := h
      rcases jsonNumber_of_is hget his with hnumber | ⟨hnumber, -⟩
      · rw [calls, Route.handleFan_eq hnumber, hint]
      · simp [calls, handleFan, hnumber, bind, Except.bind]
  | mqtt payload =>
      have hfloat := parseFloat_of_exactValue h
      simp [calls, dispatch, number, hfloat, hint, bind, Except.bind]

end FanMessage

/-- What an adapter and the service owe to a fan speed of `p` percent. -/
structure SnapsFan (decimal : Char → Option ℕ) (p : ℚ) : Prop where
  /-- out of range it is refused, and no command is begun for it -/
  refused : p < 5 ∨ 100 < p → ∀ message : FanMessage, message.Gives decimal p →
    ∃ percent dryRun refusal, message.calls decimal = some (.setFan percent, dryRun) ∧
      (ApiRequest.setFan percent).resolve = .error (.refused refusal) ∧
      ∀ cfg t call, System.Asked cfg (.setFan percent) dryRun t call →
        call.command = none ∧ call.answer = some (.refused refusal)
  /-- in range it is not refused, and a nearest step is asked for, and is what is
  sent, or found on a unit that runs -/
  snapped : 5 ≤ p → p ≤ 100 → ∀ message : FanMessage, message.Gives decimal p →
    ∃ percent dryRun, ∃ b : UInt8, message.calls decimal = some (.setFan percent, dryRun) ∧
      (ApiRequest.setFan percent).resolve = .ok (resolvedFan b) ∧
      |5 + 5 * (b.toNat : ℚ) - p| ≤ 5 / 2 ∧
      ∀ cfg t call n base, System.Asked cfg (.setFan percent) dryRun t call →
        call.command = some n → .command n (.based base) ∈ t.trace → base.state.power = .on →
          (∀ refusal, call.answer ≠ some (.refused refusal)) ∧
          (∀ payload ∈ writesOf n t.trace, payload = [opcodeFan, b]) ∧
          ∀ c reason, t.commander.commands[n]? = some c →
            c.pc = .ended (.raised (.alreadySatisfied reason)) →
              base.state.fanPercent = some (5 + 5 * (b.toNat : ℤ))

/-- The integer part of the nearest double is in range just if the number is, and
is as near to the step it is snapped to: the number is no infinity as a double,
not so close under the lower bound that the double reaches it, not in the last
percent above the upper one, and not in the upper half of a percent that is
rounded down to its step. -/
def Snappable (p : ℚ) : Prop :=
  (-overflowBound < p ∧ p < overflowBound) ∧ ¬(carry 5 ≤ p ∧ p < 5) ∧
    ¬(100 < p ∧ p < carry 101) ∧
    ∀ m : ℕ, m % 5 = 2 → 5 ≤ m → m < 100 → ¬(m + 1 / 2 < p ∧ p < carry (m + 1))

/-! ### From the number to the step -/

/-- The step of a percentage is two percent away from it at most. -/
theorem abs_step_sub_le (percent : ℤ) :
    -2 ≤ 5 + 5 * fanPercentToStep percent - percent ∧
      5 + 5 * fanPercentToStep percent - percent ≤ 2 := by
  have hnear := Encode.fanPercents.abs_snap_sub_le nearest_roundHalfEven (percent : ℚ)
  rw [Rounding.Grid.snap, Encode.index_fanPercents, Encode.point_fanPercents,
    fanStepToPercent] at hnear
  obtain ⟨hlo, hhi⟩ := abs_le.mp hnear
  have hstep : Encode.fanPercents.step = 5 := rfl
  rw [hstep] at hlo hhi
  have hlo' : (-3 : ℚ) < ((5 + 5 * fanPercentToStep percent - percent : ℤ) : ℚ) := by
    push_cast at hlo ⊢
    linarith
  have hhi' : ((5 + 5 * fanPercentToStep percent - percent : ℤ) : ℚ) < 3 := by
    push_cast at hhi ⊢
    linarith
  have hlo'' : (-3 : ℤ) < 5 + 5 * fanPercentToStep percent - percent := by exact_mod_cast hlo'
  have hhi'' : 5 + 5 * fanPercentToStep percent - percent < (3 : ℤ) := by exact_mod_cast hhi'
  omega

/-- Between two integers the step of the lower one is near enough, but for the
upper half of a percent that is rounded down by two. -/
theorem step_nearest_iff {p : ℚ} {n : ℤ} (hlo : (n : ℚ) - 1 / 2 ≤ p) (hhi : p < n + 1) :
    |5 + 5 * (fanPercentToStep n : ℚ) - p| ≤ 5 / 2 ↔ ¬(n % 5 = 2 ∧ (n : ℚ) + 1 / 2 < p) := by
  obtain ⟨hdown, hup⟩ := abs_step_sub_le n
  generalize hδ : 5 + 5 * fanPercentToStep n - n = δ at hdown hup
  have hstep : 5 + 5 * (fanPercentToStep n : ℚ) = n + δ := by
    have hcast : ((5 + 5 * fanPercentToStep n - n : ℤ) : ℚ) = (δ : ℤ) := congrArg _ hδ
    push_cast at hcast
    linarith
  have hmod : n % 5 = 2 ↔ δ = -2 := by omega
  rw [hstep, hmod, abs_le]
  constructor
  · rintro ⟨hleft, -⟩ ⟨rfl, hp⟩
    push_cast at hleft
    linarith
  · intro h
    have hδup : (δ : ℚ) ≤ 2 := by exact_mod_cast hup
    refine ⟨?_, by linarith⟩
    by_cases hdelta : δ = -2
    · have hp : p ≤ n + 1 / 2 := not_lt.mp fun hp => h ⟨hdelta, hp⟩
      rw [hdelta]
      push_cast
      linarith
    · have hδdown : -1 ≤ δ := by omega
      have hδdown' : (-1 : ℚ) ≤ δ := by exact_mod_cast hδdown
      linarith

section

variable {p : ℚ} {percent : ℤ}

theorem le_percent_iff (hint : (nearest p).toInt = .ok percent) :
    fanPercentMin ≤ percent ↔ carry 5 ≤ p := by
  have h := le_toInt_iff hint (n := 5) (by norm_num) (by norm_num)
  simpa [fanPercentMin, fanPercentBase] using h

theorem percent_le_iff (hint : (nearest p).toInt = .ok percent) :
    percent ≤ fanPercentMax ↔ p < carry 101 := by
  have h := le_toInt_iff hint (n := 101) (by norm_num) (by norm_num)
  have hlast : percent ≤ fanPercentMax ↔ ¬((101 : ℕ) : ℤ) ≤ percent := by
    simp only [fanPercentMax, fanPercentBase, fanPercentStep, fanStepMax]
    omega
  rw [hlast, h, not_le]

/-- In range, the number is just above its integer part, or a little under it. -/
theorem percent_bounds (hint : (nearest p).toInt = .ok percent) (hlo : fanPercentMin ≤ percent)
    (hhi : percent ≤ fanPercentMax) :
    ∃ m : ℕ, percent = m ∧ 5 ≤ m ∧ m ≤ 100 ∧ carry m ≤ p ∧ p < carry (m + 1) := by
  simp only [fanPercentMin, fanPercentMax, fanPercentBase, fanPercentStep, fanStepMax] at hlo hhi
  obtain ⟨m, rfl⟩ := Int.eq_ofNat_of_zero_le (by omega : 0 ≤ percent)
  have hleft := le_toInt_iff hint (n := m) (by omega) (by omega)
  have hright := le_toInt_iff hint (n := m + 1) (by omega) (by omega)
  refine ⟨m, rfl, by omega, by omega, hleft.mp le_rfl, not_le.mp fun h => ?_⟩
  have hover := hright.mpr h
  omega

theorem exists_toInt (h : -overflowBound < p ∧ p < overflowBound) :
    ∃ percent, (nearest p).toInt = .ok percent := by
  rw [Double.nearest_of_lt h.1 h.2]
  exact ⟨_, rfl⟩

theorem toInt_of_out_of_range (h : ¬(-overflowBound < p ∧ p < overflowBound)) :
    (nearest p).toInt = .error .overflow := by
  rw [Double.nearest_eq_inf h]
  rfl

theorem not_in_range (h : ¬(-overflowBound < p ∧ p < overflowBound)) : p < 5 ∨ 100 < p := by
  by_contra hin
  obtain ⟨hlo, hhi⟩ := not_or.mp hin
  have hbound := Encode.overflowBound_gt
  exact h ⟨by linarith, by linarith⟩

end

/-! ### What is refused, and what is sent -/

section

variable {decimal : Char → Option ℕ} {p : ℚ}

theorem resolvedFan_injective {b b' : UInt8} (h : resolvedFan b = resolvedFan b') : b = b' := by
  have hrequest : (resolvedFan b).request = (resolvedFan b').request := by rw [h]
  have hpercent : fanStepToPercent b.toNat = fanStepToPercent b'.toNat := by
    simpa [resolvedFan] using hrequest
  have hstep : (b.toNat : ℤ) = b'.toNat := fanStepToPercent_injective hpercent
  exact UInt8.toNat_inj.mp (by exact_mod_cast hstep)

/-- A step that the commander was given is the one it sends, or finds. -/
theorem sends_step {cfg : Config} {request : ApiRequest} {dryRun : Bool} {t : System}
    {call : ApiCall} {n : ℕ} {base : Sample} {b : UInt8}
    (hasked : System.Asked cfg request dryRun t call)
    (hresolve : request.resolve = .ok (resolvedFan b)) (hb : b.toNat ≤ 19)
    (hcommand : call.command = some n) (hbased : .command n (.based base) ∈ t.trace)
    (hrunning : base.state.power = .on) :
    (∀ refusal, call.answer ≠ some (.refused refusal)) ∧
      (∀ payload ∈ writesOf n t.trace, payload = [opcodeFan, b]) ∧
      ∀ c reason, t.commander.commands[n]? = some c →
        c.pc = .ended (.raised (.alreadySatisfied reason)) →
          base.state.fanPercent = some (5 + 5 * (b.toNat : ℤ)) := by
  obtain ⟨c, hc, htold, hjudged⟩ := hasked.judged hresolve hb hcommand hbased hrunning
  refine ⟨?_, hjudged.payload_eq, ?_⟩
  · intro refusal hanswer
    obtain ⟨ending, description, first, last, hpc, htranslated⟩ :=
      System.answered_of_told htold hanswer
    rw [hpc] at hjudged
    exact Judged.not_refused hjudged description call.dryRun first last refusal htranslated.symm
  · intro c' reason hc' hpc
    obtain rfl : c = c' := Option.some.inj (hc.symm.trans hc')
    rw [hpc] at hjudged
    obtain ⟨order, horder, hsatisfied, -⟩ := hjudged
    obtain rfl := Except.ok.inj horder
    simpa [fanOrder, Goal.satisfied, fanStepToPercent, fanPercentBase, fanPercentStep, add_comm,
      mul_comm] using hsatisfied

theorem Snappable.snapsFan (h : Snappable p) : SnapsFan decimal p where
  refused hout message hgives := by
    obtain ⟨hrange, hlow, hhigh, -⟩ := h
    obtain ⟨percent, hint⟩ := exists_toInt hrange
    obtain ⟨dryRun, hcalls⟩ := FanMessage.calls_of_toInt hgives hint
    have hdeclined : ¬(fanPercentMin ≤ percent ∧ percent ≤ fanPercentMax) := by
      rw [le_percent_iff hint, percent_le_iff hint]
      rintro ⟨hmin, hmax⟩
      rcases hout with hout | hout
      · exact hlow ⟨hmin, hout⟩
      · exact hhigh ⟨hout, hmax⟩
    obtain ⟨refusal, hresolve⟩ :=
      resolve_setFan_refused (Double.natAbs_lt_of_toInt hint) hdeclined
    exact ⟨percent, dryRun, refusal, hcalls, hresolve, fun _ _ _ hasked =>
      hasked.refused hresolve⟩
  snapped hmin hmax message hgives := by
    obtain ⟨hrange, -, -, hhalf⟩ := h
    obtain ⟨percent, hint⟩ := exists_toInt hrange
    obtain ⟨dryRun, hcalls⟩ := FanMessage.calls_of_toInt hgives hint
    have hlo : fanPercentMin ≤ percent :=
      (le_percent_iff hint).mpr ((carry_lt 5).le.trans (by exact_mod_cast hmin))
    have hhi : percent ≤ fanPercentMax := by
      have hcarry := sub_quarter_le_carry (n := 101) (by norm_num)
      push_cast at hcarry
      exact (percent_le_iff hint).mpr (by linarith)
    obtain ⟨b, hb, hstep, hresolve⟩ := resolve_setFan hlo hhi
    refine ⟨percent, dryRun, b, hcalls, hresolve, ?_, fun _ _ _ _ _ hasked hcommand hbased hon =>
      sends_step hasked hresolve hstep hcommand hbased hon⟩
    obtain ⟨m, rfl, hm5, hm100, hleft, hright⟩ := percent_bounds hint hlo hhi
    have hcarry := sub_quarter_le_carry (n := m) (by omega)
    have hcarry' := carry_lt (m + 1)
    push_cast at hcarry'
    have hcast : ((b.toNat : ℕ) : ℚ) = (fanPercentToStep m : ℚ) := by exact_mod_cast hb
    rw [hcast, step_nearest_iff (by push_cast; linarith) (by push_cast; linarith)]
    rintro ⟨hmod, hp⟩
    exact hhalf m (by omega) hm5 (by omega) ⟨by exact_mod_cast hp, hright⟩

/-- Any number is a number in a body. -/
theorem gives_real (decimal : Char → Option ℕ) (p : ℚ) :
    (FanMessage.http [(Str.of "percent", .real p)]).Gives decimal p :=
  ⟨⟨false, rfl⟩, .real p, rfl, .real⟩

theorem SnapsFan.snappable (h : SnapsFan decimal p) : Snappable p := by
  have hgives := gives_real decimal p
  by_cases hrange : -overflowBound < p ∧ p < overflowBound
  · obtain ⟨percent, hint⟩ := exists_toInt hrange
    obtain ⟨dryRun, hcalls⟩ := FanMessage.calls_of_toInt hgives hint
    -- a percentage in range is not refused
    have haccepted (hlo : carry 5 ≤ p) (hhi : p < carry 101) : ¬(p < 5 ∨ 100 < p) := by
      intro hout
      obtain ⟨b, -, -, hresolve⟩ :=
        resolve_setFan ((le_percent_iff hint).mpr hlo) ((percent_le_iff hint).mpr hhi)
      obtain ⟨percent', dryRun', refusal, hcalls', hrefused, -⟩ := h.refused hout _ hgives
      obtain ⟨rfl, -⟩ : percent = percent' ∧ dryRun = dryRun' := by
        simpa [hcalls] using hcalls'
      simp [hresolve] at hrefused
    refine ⟨hrange, ?_, ?_, ?_⟩
    · rintro ⟨hlo, hp⟩
      have hcarry := sub_quarter_le_carry (n := 101) (by norm_num)
      push_cast at hcarry
      exact haccepted hlo (by linarith) (.inl hp)
    · rintro ⟨hp, hhi⟩
      have hcarry := carry_lt 5
      push_cast at hcarry
      exact haccepted (by linarith) hhi (.inr hp)
    · rintro m hmod hm5 hm100 ⟨hp, hhi⟩
      have hcarry := carry_lt m
      have hcarry' := carry_lt (m + 1)
      push_cast at hcarry'
      have hm5' : (5 : ℚ) ≤ m := by exact_mod_cast hm5
      have hm97 : (m : ℚ) ≤ 97 := by exact_mod_cast (by omega : m ≤ 97)
      obtain ⟨percent', dryRun', b, hcalls', hresolve, hnear, -⟩ :=
        h.snapped (by linarith) (by linarith) _ hgives
      obtain ⟨rfl, -⟩ : percent = percent' ∧ dryRun = dryRun' := by
        simpa [hcalls] using hcalls'
      have hpercent : percent = m := by
        have hleft := (Double.le_toInt_iff hint (n := m) (by omega) (by omega)).mpr (by linarith)
        have hright : ¬((m + 1 : ℕ) : ℤ) ≤ percent := by
          rw [Double.le_toInt_iff hint (by omega) (by omega)]
          exact not_le.mpr hhi
        omega
      subst hpercent
      have hlo : fanPercentMin ≤ (m : ℤ) := by
        simp only [fanPercentMin, fanPercentBase]
        omega
      have hup : (m : ℤ) ≤ fanPercentMax := by
        simp only [fanPercentMax, fanPercentBase, fanPercentStep, fanStepMax]
        omega
      obtain ⟨b', hb', -, hresolve'⟩ := resolve_setFan hlo hup
      obtain rfl : b' = b := resolvedFan_injective (Except.ok.inj (hresolve'.symm.trans hresolve))
      have hcast : ((b'.toNat : ℕ) : ℚ) = (fanPercentToStep m : ℚ) := by exact_mod_cast hb'
      rw [hcast, step_nearest_iff (by push_cast; linarith) (by push_cast; linarith)] at hnear
      exact hnear ⟨by omega, by exact_mod_cast hp⟩
  · -- the double is an infinity, which has no integer part
    have hnone := FanMessage.calls_of_error hgives (toInt_of_out_of_range hrange)
    obtain ⟨percent, dryRun, refusal, hcalls, -⟩ := h.refused (not_in_range hrange) _ hgives
    simp [hnone] at hcalls

end

/-- An adapter and the service give a fan speed what they owe it if and only if
the integer part of its double is where the number is. -/
theorem fan_is_snapped_iff (decimal : Char → Option ℕ) (p : ℚ) :
    SnapsFan decimal p ↔ Snappable p :=
  ⟨SnapsFan.snappable, Snappable.snapsFan⟩

/-- Half a percent above the range is accepted, as the last step. -/
theorem fan_can_be_out_of_range :
    ¬∀ (decimal : Char → Option ℕ) (p : ℚ), SnapsFan decimal p := by
  intro hall
  obtain ⟨-, -, hhigh, -⟩ := (hall (fun _ => none) (201 / 2)).snappable
  have hcarry := sub_quarter_le_carry (n := 101) (by norm_num)
  push_cast at hcarry
  exact hhigh ⟨by norm_num, by linarith⟩

end Bedjet.Integrations
