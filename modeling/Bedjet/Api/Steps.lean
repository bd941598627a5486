import Bedjet.Api.Acting
import Bedjet.Service.LinkReader
import Bedjet.Service.Segments

/-!
What one step of the service can do. `Effect` lists it from the point of view of
the commands: a step lets the link coroutines act, hands the reader some data,
or runs one command for one segment. Invariants are proved by cases on it.
-/

namespace Bedjet.Api

open Python Protocol Device Service Asyncio

/-- The answers a call can get before it awaits a command. -/
def ApiAnswer.early : ApiAnswer → Bool
  | .refused _ | .unavailable _ | .escaped _ => true
  | .returned _ | .unverified _ => false

theorem early_ofEncodeError (e : Encode.EncodeError) : (ofEncodeError e).early := by
  cases e <;> rfl

/-- The target of `set_temperature`, where just one is given. -/
def singleTarget : Option Double → Option Double → Option Double
  | some celsius, none => some celsius
  | none, some fahrenheit => some (fahrenheitToC fahrenheit)
  | _, _ => none

namespace ApiRequest

/-- What the arguments of a call come to. -/
inductive Resolves : ApiRequest → Except ApiAnswer Resolved → Prop
  | turnOff : Resolves .turnOff (.ok { request := .off, description := "off" })
  | mode {mode : String} {commandMode : CommandMode} (hunlocked : commandMode ∈ unlockedModes) :
      Resolves (.setMode mode)
        (.ok { request := .mode commandMode, description := "mode " ++ lower mode })
  | target {celsius fahrenheit : Option Double} {target : Double} {snapped : ℚ}
      (hsingle : singleTarget celsius fahrenheit = some target)
      (hsnap : Encode.snapTargetC target = .ok snapped) :
      Resolves (.setTemperature celsius fahrenheit)
        (.ok { request := .adjust (.temperature (.finite snapped))
               description := "target " ++ fixed 1 snapped ++ "C" })
  | fan {percent snapped : ℤ} (hsnap : Encode.snapFanPercent percent = .ok snapped) :
      Resolves (.setFan percent)
        (.ok { request := .adjust (.fan snapped)
               description := "fan " ++ toString snapped ++ "%" })
  | refused {request : ApiRequest} (detail : String) : Resolves request (.error (.refused detail))
  | targetRaises {celsius fahrenheit : Option Double} {target : Double} {e : Encode.EncodeError}
      (hsingle : singleTarget celsius fahrenheit = some target)
      (hsnap : Encode.snapTargetC target = .error e) :
      Resolves (.setTemperature celsius fahrenheit) (.error (ofEncodeError e))
  | fanRaises {percent : ℤ} {e : Encode.EncodeError}
      (hsnap : Encode.snapFanPercent percent = .error e) :
      Resolves (.setFan percent) (.error (ofEncodeError e))

theorem singleTarget_cases {celsius fahrenheit : Option Double} {target : Double}
    (h : singleTarget celsius fahrenheit = some target) :
    (celsius = some target ∧ fahrenheit = none) ∨
      ∃ given, celsius = none ∧ fahrenheit = some given ∧ fahrenheitToC given = target := by
  cases celsius <;> cases fahrenheit <;> simp_all [singleTarget]

theorem resolve_of_single {celsius fahrenheit : Option Double} {target : Double}
    (h : singleTarget celsius fahrenheit = some target) :
    (setTemperature celsius fahrenheit).resolve = resolveTarget target := by
  rcases singleTarget_cases h with ⟨rfl, rfl⟩ | ⟨given, rfl, rfl, rfl⟩ <;> rfl

theorem resolve_of_not_single {celsius fahrenheit : Option Double}
    (h : singleTarget celsius fahrenheit = none) :
    ∃ detail, (setTemperature celsius fahrenheit).resolve = .error (.refused detail) := by
  cases celsius <;> cases fahrenheit <;> first | exact ⟨_, rfl⟩ | simp [singleTarget] at h

theorem resolves (request : ApiRequest) : request.Resolves request.resolve := by
  cases request with
  | turnOff => exact .turnOff
  | setMode mode =>
      rw [resolve]
      split
      · exact .refused _
      · split
        · exact .refused _
        · rename_i hlocked
          exact .mode (not_not.mp hlocked)
  | setTemperature celsius fahrenheit =>
      cases hsingle : singleTarget celsius fahrenheit with
      | none =>
          obtain ⟨detail, hresolve⟩ := resolve_of_not_single hsingle
          rw [hresolve]
          exact .refused detail
      | some target =>
          rw [resolve_of_single hsingle, resolveTarget]
          split
          · rename_i hsnap
            exact .targetRaises hsingle hsnap
          · rename_i hsnap
            exact .target hsingle hsnap
  | setFan percent =>
      rw [resolve]
      split
      · rename_i hsnap
        exact .fanRaises hsnap
      · rename_i hsnap
        exact .fan hsnap

theorem early_of_resolve {request : ApiRequest} {answer : ApiAnswer}
    (h : request.resolve = .error answer) : answer.early := by
  have hresolves := request.resolves
  rw [h] at hresolves
  cases hresolves with
  | refused detail => rfl
  | targetRaises | fanRaises => exact early_ofEncodeError _

end ApiRequest

/-- A call that has just called command `i`. -/
structure ApiCall.Awaits (call : ApiCall) (i : ℕ) (dryRun : Bool) : Prop where
  command : call.command = some i
  dryRun : call.dryRun = dryRun
  before : ∃ snapshot, call.before = some snapshot
  answer : call.answer = none

namespace System

/-! ### What the operations change -/

section

variable (cfg : Config) (s : System)

@[simp] theorem commander_emit (events : List Event) : (s.emit events).commander = s.commander :=
  rfl

@[simp] theorem trace_emit (events : List Event) : (s.emit events).trace = events ++ s.trace := rfl

@[simp] theorem calls_emit (events : List Event) : (s.emit events).calls = s.calls := rfl

@[simp] theorem lease_emit (events : List Event) : (s.emit events).lease = s.lease := rfl

@[simp] theorem commander_setLease (lease : Lease) : (s.setLease lease).commander = s.commander :=
  rfl

@[simp] theorem trace_setLease (lease : Lease) : (s.setLease lease).trace = s.trace := rfl

@[simp] theorem calls_setLease (lease : Lease) : (s.setLease lease).calls = s.calls := rfl

@[simp] theorem lease_setLease (lease : Lease) : (s.setLease lease).lease = lease := rfl

@[simp] theorem commander_onState (sample : Sample) :
    (s.onState sample).commander = s.commander.onState sample := rfl

@[simp] theorem trace_onState (sample : Sample) :
    (s.onState sample).trace = .published sample :: s.trace := rfl

@[simp] theorem calls_onState (sample : Sample) : (s.onState sample).calls = s.calls := rfl

@[simp] theorem lease_onState (sample : Sample) : (s.onState sample).lease = s.lease := rfl

@[simp] theorem commander_answer (i : ℕ) (pc : Pc) :
    (s.answer cfg i pc).commander = s.commander := by
  cases pc <;> rfl

@[simp] theorem trace_answer (i : ℕ) (pc : Pc) : (s.answer cfg i pc).trace = s.trace := by
  cases pc <;> rfl

@[simp] theorem lease_answer (i : ℕ) (pc : Pc) : (s.answer cfg i pc).lease = s.lease := by
  cases pc <;> rfl

variable (i : ℕ) (c : Command) (segment : Segment)

@[simp] theorem commander_runCommand :
    (s.runCommand cfg i c segment).commander = s.commander.put i c segment := by
  simp [runCommand]

@[simp] theorem now_runCommand : (s.runCommand cfg i c segment).now = s.now := by
  rw [runCommand]
  cases segment.pc <;> rfl

@[simp] theorem trace_runCommand :
    (s.runCommand cfg i c segment).trace = segment.events.map (.command i) ++ s.trace := by
  simp [runCommand]

theorem follows_runCommand :
    (s.runCommand cfg i c segment).lease.reader.Follows s.lease.reader := by
  rw [runCommand]
  simp only [lease_answer, lease_emit]
  split
  · exact .of_eq rfl rfl
  · rfl

end

/-- A command is on the list and has not run; so is the API call that awaits it,
if there is one. -/
def enroll (s : System) (request : Request) (dryRun : Bool) (calls : List ApiCall) : System :=
  { s with
    commander := { s.commander with commands := s.commander.commands ++ [{ request, dryRun }] }
    calls := s.calls ++ calls }

theorem getElem?_set_cases {commands : List Command} {i j : ℕ} {c d : Command}
    (h : (commands.set i c)[j]? = some d) : j ≠ i ∧ commands[j]? = some d ∨ j = i ∧ d = c := by
  rw [List.getElem?_set] at h
  split at h
  · rename_i hij
    split at h
    · exact .inr ⟨hij.symm, (Option.some.inj h).symm⟩
    · simp at h
  · rename_i hij
    exact .inl ⟨Ne.symm hij, h⟩

/-- After command `i` ran, it is where the segment left it and the others are
where they were. -/
theorem commands_runCommand {cfg : Config} {s : System} {i j : ℕ} {c d : Command}
    {segment : Segment}
    (h : (s.runCommand cfg i c segment).commander.commands[j]? = some d) :
    j ≠ i ∧ s.commander.commands[j]? = some d ∨ j = i ∧ d = { c with pc := segment.pc } := by
  rw [commander_runCommand] at h
  exact getElem?_set_cases h

theorem commands_runCommand_self {cfg : Config} {s : System} {i : ℕ} {c : Command}
    {segment : Segment} (hc : s.commander.commands[i]? = some c) :
    (s.runCommand cfg i c segment).commander.commands[i]? = some { c with pc := segment.pc } := by
  rw [commander_runCommand]
  exact List.getElem?_set_self (List.getElem?_eq_some_iff.mp hc).1

theorem commands_enroll {s : System} {request : Request} {dryRun : Bool} {calls : List ApiCall}
    {j : ℕ} {d : Command} (h : (s.enroll request dryRun calls).commander.commands[j]? = some d) :
    s.commander.commands[j]? = some d ∨
      j = s.commander.commands.length ∧ d = { request, dryRun } := by
  rcases lt_or_ge j s.commander.commands.length with hj | hj
  · exact .inl (by rwa [enroll, List.getElem?_append_left hj] at h)
  · rw [enroll, List.getElem?_append_right hj, List.getElem?_singleton] at h
    split at h
    · exact .inr ⟨by omega, (Option.some.inj h).symm⟩
    · simp at h

theorem commands_onState {s : System} {sample : Sample} {j : ℕ} {d : Command}
    (h : (s.onState sample).commander.commands[j]? = some d) :
    ∃ c, s.commander.commands[j]? = some c ∧ d = c.wake := by
  rw [commander_onState, Commander.onState, List.getElem?_map] at h
  obtain ⟨c, hc, rfl⟩ := Option.map_eq_some_iff.mp h
  exact ⟨c, hc, rfl⟩

@[simp] theorem enroll_getElem? (s : System) (request : Request) (dryRun : Bool)
    (calls : List ApiCall) :
    (s.enroll request dryRun calls).commander.commands[s.commander.commands.length]? =
      some { request, dryRun } := by
  simp [enroll]

/-- The bytes of the pending write of command `i` have reached the device. -/
def reach (s : System) (i : ℕ) (c : Command) (order : Order) (base : Sample) : System :=
  { s with commander := { s.commander with
    commands := s.commander.commands.set i { c with pc := .writing order base true } } }.emit
      [.command i (.delivered order.payload)]

theorem commands_reach {s : System} {i j : ℕ} {c d : Command} {order : Order} {base : Sample}
    (h : (s.reach i c order base).commander.commands[j]? = some d) :
    j ≠ i ∧ s.commander.commands[j]? = some d ∨
      j = i ∧ d = { c with pc := .writing order base true } := by
  exact getElem?_set_cases h

/-! ### The effect of a step -/

/-- What a step does to the service. -/
inductive Effect (cfg : Config) (s : System) : Action → System → Prop
  | passes {a : Action} {now : ℚ} (hnow : s.now ≤ now) : Effect cfg s a { s with now }
  | links {a : Action} {lease : Lease} (hreader : lease.reader.Follows s.lease.reader) :
      Effect cfg s a (s.setLease lease)
  | connects {t : ℕ} {lease : Lease} (hreader : lease.reader.Follows s.lease.reader) :
      Effect cfg s (.link t .connected) ((s.setLease lease).emit [.connected])
  | takesIn {a : Action} {intake : Intake} (htakes : s.lease.reader.Takes intake) :
      Effect cfg s a (s.takeIn intake)
  | rejects {a : Action} {call : ApiCall} {answer : ApiAnswer} (hcommand : call.command = none)
      (hanswer : call.answer = some answer) (hearly : answer.early) :
      Effect cfg s a { s with calls := s.calls ++ [call] }
  | begins {a : Action} {request : Request} {dryRun : Bool} {calls : List ApiCall}
      {segment : Segment}
      (hcalls : ∀ call ∈ calls, call.Awaits s.commander.commands.length dryRun)
      (hruns : Runs cfg.settleTimeout s.now { request, dryRun } s.commander.shared none segment) :
      Effect cfg s a ((s.enroll request dryRun calls).runCommand cfg s.commander.commands.length
        { request, dryRun } segment)
  | wakes {i : ℕ} {c : Command} {why : Wakeup} {segment : Segment}
      (hcommand : s.commander.commands[i]? = some c)
      (hruns : Runs cfg.settleTimeout s.now c s.commander.shared (some why) segment) :
      Effect cfg s (.wake i why) (s.runCommand cfg i c segment)
  | delivers {i : ℕ} {c : Command} {order : Order} {base : Sample}
      (hcommand : s.commander.commands[i]? = some c) (hpc : c.pc = .writing order base false)
      (hconnected : s.lease.transport.isConnected) :
      Effect cfg s (.deliver i) (s.reach i c order base)

/-- Every command on the list is sound. -/
def Sound (s : System) : Prop :=
  ∀ c ∈ s.commander.commands, c.Sound

variable {cfg : Config} {s s' : System} {a : Action}

theorem beginCommand_effect {request : Request} {dryRun : Bool} {calls : List ApiCall}
    (hcalls : ∀ call ∈ calls, call.Awaits s.commander.commands.length dryRun) :
    Effect cfg s a ({ s with calls := s.calls ++ calls }.beginCommand cfg request dryRun) :=
  .begins hcalls (begin_runs cfg.settleTimeout s.now (c := { request, dryRun }) rfl)

/-- A step does one of these. -/
theorem step_effect (hsound : s.Sound) (h : (machine cfg).step s a = some s') :
    Effect cfg s a s' := by
  cases acts_of_step h with
  | passes hdt => exact .passes (le_add_of_nonneg_right hdt)
  | drops | powersOn | resumes => exact .links (.refl _)
  | notifies => exact .takesIn (Reader.takes_onNotify _ _ _)
  | completes hintake => exact .takesIn (Reader.takes_completionStep hintake)
  | polls hinterval hintake => exact .takesIn (Reader.takes_pollStep hintake)
  | starts hlease => exact .links (Lease.follows_start hlease)
  | stops hlease => exact .links (Lease.follows_stop hlease)
  | yields seconds => exact .links (Lease.follows_yieldLink seconds)
  | connects hlease => exact .connects (Lease.follows_taskStep hlease)
  | links hother hlease => exact .links (Lease.follows_taskStep hlease)
  | commands request dryRun =>
      have heffect : Effect cfg s (.command request dryRun)
          ({ s with calls := s.calls ++ [] }.beginCommand cfg request dryRun) :=
        beginCommand_effect (by simp)
      simpa using heffect
  | refuses hresolve => exact .rejects rfl rfl (ApiRequest.early_of_resolve hresolve)
  | misses => exact .rejects rfl rfl rfl
  | calls =>
      apply beginCommand_effect
      intro call hcall
      obtain rfl := List.mem_singleton.mp hcall
      exact ⟨rfl, rfl, ⟨_, rfl⟩, rfl⟩
  | delivers hc hpc hconnected => exact .delivers hc hpc hconnected
  | wakes hc hsegment =>
      exact .wakes hc (resume_runs _ _ (hsound _ (List.mem_of_getElem? hc)) hsegment)

/-! ### Soundness of the commands, and the invariant rules -/

theorem Sound.setCommand {i : ℕ} {c : Command} (hs : s.Sound) (hc : c.Sound) :
    ∀ d ∈ s.commander.commands.set i c, d.Sound := by
  intro d hd
  rcases List.mem_or_eq_of_mem_set hd with hd | rfl
  · exact hs d hd
  · exact hc

theorem Sound.enroll (hs : s.Sound) (request : Request) (dryRun : Bool) (calls : List ApiCall) :
    (s.enroll request dryRun calls).Sound := by
  intro d hd
  rcases List.mem_append.mp hd with hd | hd
  · exact hs d hd
  · obtain rfl := List.mem_singleton.mp hd
    trivial

theorem Effect.sound (hs : s.Sound) (h : Effect cfg s a s') : s'.Sound := by
  cases h with
  | passes => exact hs
  | links => exact hs
  | connects => exact hs
  | takesIn =>
      rw [takeIn]
      dsimp only
      split
      · intro d hd
        obtain ⟨c, hc, rfl⟩ := List.mem_map.mp hd
        exact (hs c hc).wake
      · exact hs
  | rejects => exact hs
  | begins hcalls hruns =>
      simp only [Sound, commander_runCommand]
      exact (hs.enroll _ _ _).setCommand (hruns.sound trivial)
  | wakes hcommand hruns =>
      simp only [Sound, commander_runCommand]
      exact hs.setCommand (hruns.sound (hs _ (List.mem_of_getElem? hcommand)))
  | delivers hcommand hpc =>
      apply hs.setCommand
      exact { (hs _ (List.mem_of_getElem? hcommand)).wrote_of_writing hpc with }

theorem sound_initial : ({} : System).Sound := by
  intro c hc
  simp at hc

/-- The invariant rule over the effects of the steps, for runs of allowed steps. -/
theorem invariant_of_effects {ok : System → Action → Prop} {I : System → Prop} (hinit : I {})
    (hstep : ∀ s a s', s.Sound → I s → ok s a → (machine cfg).step s a = some s' →
      Effect cfg s a s' → I s')
    {actions : List Action} (hok : (machine cfg).Meets ok {} actions)
    (hrun : (machine cfg).run {} actions = some s) : s.Sound ∧ I s := by
  refine Machine.run_invariant (I := fun s => s.Sound ∧ I s) ?_ ⟨sound_initial, hinit⟩ hok hrun
  intro s a s' hI hallowed hs
  have heffect := step_effect hI.1 hs
  exact ⟨heffect.sound hI.1, hstep s a s' hI.1 hI.2 hallowed hs heffect⟩

/-- The invariant rule over the effects of the steps. -/
theorem Reachable.invariant {I : System → Prop} (h : Reachable cfg s) (hinit : I {})
    (hstep : ∀ s a s', s.Sound → I s → Effect cfg s a s' → I s') : s.Sound ∧ I s := by
  obtain ⟨actions, hrun⟩ := h
  exact invariant_of_effects hinit
    (fun s a s' hs hI _ _ heffect => hstep s a s' hs hI heffect) Machine.meets_true hrun

theorem Reachable.sound (h : Reachable cfg s) : s.Sound :=
  (h.invariant trivial fun _ _ _ _ _ _ => trivial).1

theorem Reachable.run {actions : List Action} (h : Reachable cfg s)
    (hrun : (machine cfg).run s actions = some s') : Reachable cfg s' := by
  obtain ⟨earlier, hearlier⟩ := h
  refine ⟨earlier ++ actions, ?_⟩
  rw [Machine.run_append, hearlier]
  exact hrun

theorem Reachable.step (h : Reachable cfg s) (hstep : (machine cfg).step s a = some s') :
    Reachable cfg s' := by
  have hrun : (machine cfg).run s [a] = some s' := by simp [Machine.run, hstep]
  exact h.run hrun

end System

end Bedjet.Api
