import Bedjet.Integrations.HttpWs

/-!
Whom the guard admits. It lets the authorised through and turns everybody else
away, as long as the token comparison is one that `compare_digest` makes: it
refuses to compare texts that are not ASCII.
-/

namespace Bedjet.Integrations

open Python

variable {ρ : Type*} (u : UnicodeTables) (config : ServerConfig) (request : HttpRequest)

/-- The request carries no trace of a browser: it addresses this host, and says
nothing of an origin. -/
def Local : Prop :=
  hostIsPermitted u ((request.header "Host").getD []) config ∧ request.header "Origin" = none

/-- The request carries the token, where one is configured. -/
def Authorised : Prop :=
  ∀ token, config.token = some token →
    request.header "Authorization" = some (Str.of "Bearer " ++ token)

/-- The guard admits exactly those requests that are local and authorised, says
why it turns another away, and raises nothing that the route handler does not. -/
structure Guards (handler : HttpRequest → Except HttpException ρ) (passage : Passage ρ) :
    Prop where
  invoked : passage.invoked ↔ Local u config request ∧ Authorised config request
  forbidden : ¬Local u config request →
    ∃ detail, passage.result = .ok (.error "forbidden" detail 403)
  unauthorised : Local u config request → ¬Authorised config request →
    ∃ detail, passage.result = .ok (.error "unauthorized" detail 401)
  raised : ∀ exception, passage.result = .error exception →
    passage.invoked ∧ handler request = .error exception

/-- The token is compared, and one side of the comparison is not ASCII. -/
def ComparesNonAscii : Prop :=
  Local u config request ∧ ∃ token, config.token = some token ∧
    ¬(Str.isAscii (bearerToken ((request.header "Authorization").getD [])) ∧ Str.isAscii token)

variable {u config request} {handler : HttpRequest → Except HttpException ρ}

theorem error_translateErrors {result : Except HttpException ρ} {exception : HttpException}
    (h : translateErrors result = .error exception) : result = .error exception := by
  unfold translateErrors at h
  split at h
  all_goals simp_all

theorem compareDigest_eq_ok {a b : Str} {same : Bool} (h : compareDigest a b = .ok same) :
    Str.isAscii a ∧ Str.isAscii b ∧ (same ↔ a = b) := by
  unfold compareDigest at h
  split at h
  · rename_i hascii
    obtain ⟨ha, hb⟩ := Bool.and_eq_true_iff.mp hascii
    obtain rfl : decide (a = b) = same := by simpa using h
    exact ⟨ha, hb, decide_eq_true_iff⟩
  · simp at h

theorem compareDigest_eq_error {a b : Str} {exception : HttpException}
    (h : compareDigest a b = .error exception) : ¬(Str.isAscii a ∧ Str.isAscii b) := by
  unfold compareDigest at h
  split at h
  · simp at h
  · rename_i hascii
    simpa using hascii

/-- A token that is not empty is supplied in one way only. -/
theorem bearerToken_eq_iff {supplied : Option Str} {token : Str} (htoken : token ≠ []) :
    bearerToken (supplied.getD []) = token ↔ supplied = some (Str.of "Bearer " ++ token) := by
  constructor
  · intro h
    unfold bearerToken at h
    dsimp only at h
    split at h
    · rename_i hprefix
      obtain ⟨rest, hrest⟩ := List.isPrefixOf_iff_prefix.mp hprefix
      cases supplied with
      | none => simp [Str.of] at hrest
      | some text =>
          have htext : Str.of "Bearer " ++ rest = text := hrest
          subst htext
          rw [Option.getD_some, List.drop_left] at h
          rw [h]
    · exact absurd h.symm htoken
  · rintro rfl
    simp [bearerToken]

/-- A configured token has at least sixteen characters. -/
theorem ServerConfig.token_ne_nil {token : Str} (h : config.token = some token) : token ≠ [] := by
  rintro rfl
  have haccepted := config.accepted
  simp [ServerArgs.postInit, h] at haccepted

theorem authorised_iff {token : Str} (h : config.token = some token) :
    Authorised config request ↔
      bearerToken ((request.header "Authorization").getD []) = token := by
  rw [bearerToken_eq_iff (ServerConfig.token_ne_nil h)]
  simp [Authorised, h]

/-- A request that is admitted, and rightly so. -/
theorem guards_letIn (hlocal : Local u config request) (hauthorised : Authorised config request) :
    Guards u config request handler (letIn request handler) where
  invoked := iff_of_true rfl ⟨hlocal, hauthorised⟩
  forbidden hnot := absurd hlocal hnot
  unauthorised _ hnot := absurd hauthorised hnot
  raised _ h := ⟨rfl, error_translateErrors h⟩

theorem guards_forbid (hnot : ¬Local u config request) (detail : Str) :
    Guards u config request handler (turnAway "forbidden" detail 403) where
  invoked := iff_of_false (by simp [turnAway]) fun h => hnot h.1
  forbidden _ := ⟨detail, rfl⟩
  unauthorised hlocal := absurd hlocal hnot
  raised _ h := by simp [turnAway] at h

theorem guards_challenge (hlocal : Local u config request) (hnot : ¬Authorised config request)
    (detail : Str) : Guards u config request handler (turnAway "unauthorized" detail 401) where
  invoked := iff_of_false (by simp [turnAway]) fun h => hnot h.2
  forbidden hforeign := absurd hlocal hforeign
  unauthorised _ _ := ⟨detail, rfl⟩
  raised _ h := by simp [turnAway] at h

/-- A comparison that raises is an exception of the guard's own. -/
theorem not_guards_raise (exception : HttpException) :
    ¬Guards u config request handler { invoked := false, result := .error exception } := by
  intro h
  have hraised := (h.raised exception rfl).1
  simp at hraised

/-- The guard admits exactly the authorised requests to a route, and raises
nothing of its own, if and only if the token comparison is not one with a text
that is not ASCII. -/
theorem guard_admits_iff (hpath : request.path ≠ Str.of "/healthz") :
    Guards u config request handler (guard u config request handler) ↔
      ¬ComparesNonAscii u config request := by
  unfold guard
  rw [if_pos hpath]
  dsimp only
  split
  · rename_i hhost
    have hforeign : ¬Local u config request := fun h => by simp [h.1] at hhost
    exact iff_of_true (guards_forbid hforeign _) fun h => hforeign h.1
  rename_i hhost
  split
  · rename_i horigin
    have hforeign : ¬Local u config request := fun h => by simp [h.2] at horigin
    exact iff_of_true (guards_forbid hforeign _) fun h => hforeign h.1
  rename_i horigin
  have hlocal : Local u config request := ⟨by simpa using hhost, by simpa using horigin⟩
  split
  · rename_i htoken
    have hauthorised : Authorised config request := fun token h => by simp [htoken] at h
    refine iff_of_true (guards_letIn hlocal hauthorised) ?_
    rintro ⟨-, token, h, -⟩
    simp [htoken] at h
  · rename_i token htoken
    have hcompares : ComparesNonAscii u config request ↔
        ¬(Str.isAscii (bearerToken ((request.header "Authorization").getD [])) ∧
          Str.isAscii token) := by
      simp [ComparesNonAscii, hlocal, htoken]
    rw [hcompares]
    split
    · rename_i exception hcompare
      refine iff_of_false (not_guards_raise exception) fun h => h ?_
      exact compareDigest_eq_error hcompare
    · rename_i hcompare
      obtain ⟨hsupplied, hascii, hsame⟩ := compareDigest_eq_ok hcompare
      have hnot : ¬Authorised config request := by
        rw [authorised_iff htoken]
        simpa using hsame
      exact iff_of_true (guards_challenge hlocal hnot _) fun h => h ⟨hsupplied, hascii⟩
    · rename_i hcompare
      obtain ⟨hsupplied, hascii, hsame⟩ := compareDigest_eq_ok hcompare
      have hauthorised : Authorised config request := by
        rw [authorised_iff htoken]
        simpa using hsame
      exact iff_of_true (guards_letIn hlocal hauthorised) fun h => h ⟨hsupplied, hascii⟩

/-! ### A listener with a token -/

def asciiTables : UnicodeTables where
  lower := Str.lowerAscii
  isPrintable _ := true

def tokenConfig : ServerConfig where
  token := some (Str.of "a-token-long-enough")
  accepted := by decide +kernel

/-- A request for the state, with this `Authorization`. -/
def stateRequest (authorization : String) : HttpRequest where
  path := Str.of "/api/v1/state"
  headers := [(Str.of "Host", Str.of "localhost:8787"),
    (Str.of "Authorization", Str.of authorization)]

theorem guard_admits_iff_token :
    Guards asciiTables tokenConfig (stateRequest "Bearer a-token-long-enough")
      (fun _ => .ok ()) (guard asciiTables tokenConfig
        (stateRequest "Bearer a-token-long-enough") fun _ => .ok ()) := by
  have hpath : (stateRequest "Bearer a-token-long-enough").path ≠ Str.of "/healthz" := by
    decide +kernel
  rw [guard_admits_iff hpath]
  rintro ⟨-, token, htoken, hascii⟩
  obtain rfl : Str.of "a-token-long-enough" = token := Option.some.inj htoken
  exact hascii (by decide +kernel)

/-- Whether the guard raises a `TypeError`. -/
def Passage.raisesTypeError {ρ : Type*} (passage : Passage ρ) : Bool :=
  match passage.result with
  | .error .typeError => !passage.invoked
  | _ => false

/-- A wrong token that is not ASCII is neither admitted nor answered. -/
theorem guard_can_raise :
    ¬∀ (u : UnicodeTables) (config : ServerConfig) (request : HttpRequest)
      (handler : HttpRequest → Except HttpException Unit), request.path ≠ Str.of "/healthz" →
      Guards u config request handler (guard u config request handler) := by
  intro hall
  have hguards := hall asciiTables tokenConfig (stateRequest "Bearer clé") (fun _ => .ok ())
    (by decide +kernel)
  have hraises : (guard asciiTables tokenConfig (stateRequest "Bearer clé")
      fun _ => Except.ok ()).raisesTypeError := by
    decide +kernel
  unfold Passage.raisesTypeError at hraises
  split at hraises
  · rename_i hresult
    simp [(hguards.raised _ hresult).1] at hraises
  · simp at hraises

end Bedjet.Integrations
