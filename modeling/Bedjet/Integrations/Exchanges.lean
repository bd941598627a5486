import Bedjet.Api.Parsing
import Bedjet.Integrations.HttpRoutes
import Bedjet.Python.Nearest

/-!
Runs of exchanges. A response has one of the statuses that the adapter gives a
meaning, whatever the number in the body, unless the number has no finite double
where one is needed, or the command awaited fails its assertion.
-/

namespace Bedjet.Integrations

open Python Protocol Device Service Asyncio Api

/-- The statuses an exchange may end with in which everything has a class. -/
def classifiedStatuses : List ℕ := [200, 400, 409, 502, 503]

/-- A number in the body has no finite double where the code needs one: it is an
integer too large for `float`, a fan speed that is no finite double, or a single
target that is none when doubled. -/
def Route.misconverts (body : Body) : Route → Bool
  | .off => false
  | .yield => jsonNumber body "seconds" = .error .overflowError
  | .fan =>
      match jsonNumber body "percent" with
      | .error .overflowError => true
      | .ok (some percent) => !percent.isFinite
      | _ => false
  | .temperature =>
      match jsonNumber body "celsius", jsonNumber body "fahrenheit", bool body "dry_run" with
      | .error .overflowError, _, _ => true
      | .ok _, .error .overflowError, _ => true
      | .ok (some target), .ok none, .ok _ => !(target.lift (· * tempScale)).isFinite
      | .ok none, .ok (some target), .ok _ =>
          !((fahrenheitToC target).lift (· * tempScale)).isFinite
      | _, _, _ => false

/-! ### What a number in the body leads to -/

theorem floatOfInt_cases (n : ℤ) :
    floatOfInt n = .error .overflow ∨ floatOfInt n = .ok (.nearest n) := by
  unfold floatOfInt
  split <;> simp

/-- A number that is not converted is no number, or too large an integer. -/
theorem jsonNumber_error {body : Body} {key : String} {e : RouteRaised}
    (h : jsonNumber body key = .error e) :
    e = .overflowError ∨ ∃ detail, e = .badRequest detail := by
  unfold jsonNumber at h
  split at h
  · simp at h
  · simp at h
  · rename_i n _
    rcases floatOfInt_cases n with hfloat | hfloat
    · left
      simpa [hfloat, RouteRaised.ofConversionError, eq_comm] using h
    · simp [hfloat] at h
  · simp at h
  · simp at h
  · simp at h
  · exact .inr ⟨_, (Except.error.inj h).symm⟩

/-- A number that is converted is the double nearest to it, or has a name. -/
theorem jsonNumber_ok {body : Body} {key : String} {x : Double}
    (h : jsonNumber body key = .ok (some x)) : (∃ q, x = .nearest q) ∨ x.isFinite = false := by
  unfold jsonNumber at h
  split at h
  · simp at h
  · simp at h
  · rename_i n _
    rcases floatOfInt_cases n with hfloat | hfloat
    · simp [hfloat] at h
    · left
      exact ⟨n, by simpa [hfloat, eq_comm] using h⟩
  · rename_i q _
    left
    exact ⟨q, by simpa [eq_comm] using h⟩
  · obtain rfl : Double.nan = x := by simpa using h
    exact .inr rfl
  · rename_i negative _
    obtain rfl : Double.inf negative = x := by simpa using h
    exact .inr rfl
  · simp at h

theorem bool_error {body : Body} {key : String} {e : RouteRaised} (h : bool body key = .error e) :
    ∃ detail, e = .badRequest detail := by
  unfold bool at h
  split at h
  · simp at h
  · simp at h
  · exact ⟨_, (Except.error.inj h).symm⟩

/-! ### What a handler makes of a body -/

namespace Route

variable {body : Body} {route : Route}

theorem handleFan_eq {percent : Double}
    (hpercent : jsonNumber body "percent" = .ok (some percent)) :
    handleFan body =
      match percent.toInt with
      | .error e => .error (.ofConversionError e)
      | .ok n => (bool body "dry_run").map (.call (.setFan n)) := by
  simp only [handleFan, hpercent, bind, Except.bind]
  cases percent.toInt with
  | error e => rfl
  | ok n => cases bool body "dry_run" <;> rfl

/-- A handler whose body has every number it needs raises only what is a response. -/
theorem handle_error {e : RouteRaised} (h : route.misconverts body = false)
    (herror : route.handle body = .error e) : ∃ detail, e = .badRequest detail := by
  cases route with
  | off =>
      cases hdry : bool body "dry_run" with
      | error e' =>
          obtain rfl : e' = e := by
            simpa [handle, handleOff, hdry, bind, Except.bind] using herror
          exact bool_error hdry
      | ok dryRun => simp [handle, handleOff, hdry, bind, Except.bind, pure, Except.pure] at herror
  | yield =>
      cases hseconds : jsonNumber body "seconds" with
      | error e' =>
          obtain rfl : e' = e := by
            simpa [handle, handleYield, hseconds, bind, Except.bind] using herror
          rcases jsonNumber_error hseconds with rfl | hbad
          · simp [misconverts, hseconds] at h
          · exact hbad
      | ok seconds =>
          cases seconds with
          | none =>
              simp only [handle, handleYield, hseconds, bind, Except.bind,
                Except.error.injEq] at herror
              exact ⟨_, herror.symm⟩
          | some seconds =>
              simp [handle, handleYield, hseconds, bind, Except.bind, pure, Except.pure] at herror
  | fan =>
      cases hpercent : jsonNumber body "percent" with
      | error e' =>
          obtain rfl : e' = e := by
            simpa [handle, handleFan, hpercent, bind, Except.bind] using herror
          rcases jsonNumber_error hpercent with rfl | hbad
          · simp [misconverts, hpercent] at h
          · exact hbad
      | ok percent =>
          cases percent with
          | none =>
              simp only [handle, handleFan, hpercent, bind, Except.bind,
                Except.error.injEq] at herror
              exact ⟨_, herror.symm⟩
          | some percent =>
              rw [handle, handleFan_eq hpercent] at herror
              have hround : percent.isFinite := by simpa [misconverts, hpercent] using h
              cases hint : percent.toInt with
              | error e' => simp [Double.toInt_error_iff.mp ⟨e', hint⟩] at hround
              | ok n =>
                  cases hdry : bool body "dry_run" with
                  | error e' =>
                      obtain rfl : e' = e := by simpa [hint, hdry, Except.map] using herror
                      exact bool_error hdry
                  | ok dryRun => simp [hint, hdry, Except.map] at herror
  | temperature =>
      cases hcelsius : jsonNumber body "celsius" with
      | error e' =>
          obtain rfl : e' = e := by
            simpa [handle, handleTemperature, hcelsius, bind, Except.bind] using herror
          rcases jsonNumber_error hcelsius with rfl | hbad
          · simp [misconverts, hcelsius] at h
          · exact hbad
      | ok celsius =>
          cases hfahrenheit : jsonNumber body "fahrenheit" with
          | error e' =>
              obtain rfl : e' = e := by
                simpa [handle, handleTemperature, hcelsius, hfahrenheit, bind, Except.bind]
                  using herror
              rcases jsonNumber_error hfahrenheit with rfl | hbad
              · simp [misconverts, hcelsius, hfahrenheit] at h
              · exact hbad
          | ok fahrenheit =>
              cases hdry : bool body "dry_run" with
              | error e' =>
                  obtain rfl : e' = e := by
                    simpa [handle, handleTemperature, hcelsius, hfahrenheit, hdry, bind,
                      Except.bind] using herror
                  exact bool_error hdry
              | ok dryRun =>
                  simp [handle, handleTemperature, hcelsius, hfahrenheit, hdry, bind, Except.bind,
                    pure, Except.pure] at herror

/-- The requests of a route, each of the numbers in the body. -/
def Requests (body : Body) (request : ApiRequest) : Route → Prop
  | .off => request = .turnOff
  | .temperature => ∃ celsius fahrenheit, jsonNumber body "celsius" = .ok celsius ∧
      jsonNumber body "fahrenheit" = .ok fahrenheit ∧ request = .setTemperature celsius fahrenheit
  | .fan => ∃ x percent, jsonNumber body "percent" = .ok (some x) ∧ x.toInt = .ok percent ∧
      request = .setFan percent
  | .yield => False

theorem handle_call {request : ApiRequest} {dryRun : Bool}
    (h : route.handle body = .ok (.call request dryRun)) :
    bool body "dry_run" = .ok dryRun ∧ route.Requests body request := by
  cases route with
  | off =>
      cases hdry : bool body "dry_run" with
      | error e => simp [handle, handleOff, hdry, bind, Except.bind] at h
      | ok dryRun' =>
          obtain ⟨rfl, rfl⟩ : ApiRequest.turnOff = request ∧ dryRun' = dryRun := by
            simpa [handle, handleOff, hdry, bind, Except.bind, pure, Except.pure] using h
          exact ⟨rfl, rfl⟩
  | yield =>
      rw [handle, handleYield] at h
      cases hseconds : jsonNumber body "seconds" with
      | error e => simp [hseconds, bind, Except.bind] at h
      | ok seconds => cases seconds <;> simp [hseconds, bind, Except.bind, pure, Except.pure] at h
  | fan =>
      cases hpercent : jsonNumber body "percent" with
      | error e => simp [handle, handleFan, hpercent, bind, Except.bind] at h
      | ok percent =>
          cases percent with
          | none => simp [handle, handleFan, hpercent, bind, Except.bind] at h
          | some x =>
              rw [handle, handleFan_eq hpercent] at h
              cases hint : x.toInt with
              | error e => simp [hint] at h
              | ok n =>
                  cases hdry : bool body "dry_run" with
                  | error e => simp [hint, hdry, Except.map] at h
                  | ok dryRun' =>
                      obtain ⟨rfl, rfl⟩ : ApiRequest.setFan n = request ∧ dryRun' = dryRun := by
                        simpa [hint, hdry, Except.map] using h
                      exact ⟨rfl, x, n, hpercent, hint, rfl⟩
  | temperature =>
      cases hcelsius : jsonNumber body "celsius" with
      | error e => simp [handle, handleTemperature, hcelsius, bind, Except.bind] at h
      | ok celsius =>
          cases hfahrenheit : jsonNumber body "fahrenheit" with
          | error e =>
              simp [handle, handleTemperature, hcelsius, hfahrenheit, bind, Except.bind] at h
          | ok fahrenheit =>
              cases hdry : bool body "dry_run" with
              | error e =>
                  simp [handle, handleTemperature, hcelsius, hfahrenheit, hdry, bind,
                    Except.bind] at h
              | ok dryRun' =>
                  obtain ⟨rfl, rfl⟩ : ApiRequest.setTemperature celsius fahrenheit = request ∧
                      dryRun' = dryRun := by
                    simpa [handle, handleTemperature, hcelsius, hfahrenheit, hdry, bind,
                      Except.bind, pure, Except.pure] using h
                  exact ⟨rfl, celsius, fahrenheit, hcelsius, hfahrenheit, rfl⟩

/-- The conversions of the arguments it calls with succeed. -/
theorem converts_of_handle {request : ApiRequest} {dryRun : Bool}
    (h : route.misconverts body = false)
    (hhandle : route.handle body = .ok (.call request dryRun)) : request.Converts := by
  obtain ⟨hdry, hrequests⟩ := handle_call hhandle
  cases route with
  | off =>
      obtain rfl := hrequests
      trivial
  | yield => exact hrequests.elim
  | fan =>
      obtain ⟨x, n, hpercent, hint, rfl⟩ := hrequests
      rcases jsonNumber_ok hpercent with ⟨q, hq⟩ | hround
      · rw [hq] at hint
        exact Double.natAbs_lt_of_toInt hint
      · simp [misconverts, hpercent, hround] at h
  | temperature =>
      obtain ⟨celsius, fahrenheit, hcelsius, hfahrenheit, rfl⟩ := hrequests
      cases celsius <;> cases fahrenheit
      case none.none | some.some => trivial
      case none.some | some.none =>
        simpa [misconverts, hcelsius, hfahrenheit, hdry, ApiRequest.Converts] using h

/-- A number that is missing where it is needed ends in an exception that is no
response, before the call of the API or in it. -/
theorem escapes_of_misconverts (h : route.misconverts body) :
    (∃ e, route.handle body = .error e ∧ e.status = 500) ∨
      ∃ request dryRun e, route.handle body = .ok (.call request dryRun) ∧
        request.resolve = .error (.escaped (.encode (.conversion e))) := by
  cases route with
  | off => simp [misconverts] at h
  | yield =>
      have hseconds : jsonNumber body "seconds" = .error .overflowError := by
        simpa [misconverts] using h
      left
      exact ⟨.overflowError, by simp [handle, handleYield, hseconds, bind, Except.bind], rfl⟩
  | fan =>
      left
      rw [misconverts] at h
      split at h
      · rename_i hpercent
        exact ⟨.overflowError, by simp [handle, handleFan, hpercent, bind, Except.bind], rfl⟩
      · rename_i x hpercent
        obtain ⟨e, he⟩ := Double.toInt_error_iff.mpr (by simpa using h)
        refine ⟨.ofConversionError e, ?_, by cases e <;> rfl⟩
        rw [handle, handleFan_eq hpercent, he]
      · simp at h
  | temperature =>
      rw [misconverts] at h
      split at h
      · rename_i hcelsius
        left
        exact ⟨.overflowError, by simp [handle, handleTemperature, hcelsius, bind, Except.bind],
          rfl⟩
      · rename_i celsius hcelsius hfahrenheit
        left
        refine ⟨.overflowError, ?_, rfl⟩
        simp [handle, handleTemperature, hcelsius, hfahrenheit, bind, Except.bind]
      · rename_i target dryRun hcelsius hfahrenheit hdry
        right
        obtain ⟨e, he⟩ := resolveTarget_escaped (by simpa using h)
        refine ⟨.setTemperature (some target) none, dryRun, e, ?_, he⟩
        simp [handle, handleTemperature, hcelsius, hfahrenheit, hdry, bind, Except.bind, pure,
          Except.pure]
      · rename_i target dryRun hcelsius hfahrenheit hdry
        right
        obtain ⟨e, he⟩ := resolveTarget_escaped (by simpa using h)
        refine ⟨.setTemperature none (some target), dryRun, e, ?_, he⟩
        simp [handle, handleTemperature, hcelsius, hfahrenheit, hdry, bind, Except.bind, pure,
          Except.pure]
      · simp at h

end Route

end Bedjet.Integrations
