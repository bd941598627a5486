import Bedjet.Api.System

/-!
What a step of the service is, one case for each way an action can go.
-/

namespace Bedjet.Api.System

open Python Protocol Device Service Asyncio

/-- The call record of a command that is begun. -/
def enrolled (cfg : Config) (s : System) (resolved : Resolved) (dryRun : Bool) : ApiCall :=
  { dryRun
    command := some s.commander.commands.length
    description := resolved.description
    before := some (s.snapshot cfg) }

/-- The step that an enabled action takes. -/
inductive Acts (cfg : Config) (s : System) : Action → System → Prop
  | passes {dt : ℚ} (hdt : 0 ≤ dt) : Acts cfg s (.pass dt) { s with now := s.now + dt }
  | drops : Acts cfg s .drop (s.setLease s.lease.drop)
  | powersOn : Acts cfg s .powerOn (s.setLease s.lease.powerOn)
  | notifies {data : Bytes} (hinterval : cfg.pollInterval = none) :
      Acts cfg s (.notify data)
        (s.takeIn (s.lease.reader.onNotify data s.lease.transport.isConnected))
  | completes {i : ℕ} {step : Reader.CompletionStep} {intake : Intake}
      (hintake : s.lease.reader.completionStep i step s.lease.transport.isConnected = some intake) :
      Acts cfg s (.completion i step) (s.takeIn intake)
  | polls {i : ℕ} {step : Reader.PollStep} {interval : { q : ℚ // 0 < q }} {intake : Intake}
      (hinterval : cfg.pollInterval = some interval)
      (hintake : s.lease.reader.pollStep i step s.now interval.1 s.lease.transport.isConnected =
        some intake) : Acts cfg s (.poll i step) (s.takeIn intake)
  | starts {lease : Lease} (hlease : s.lease.start cfg s.now = some lease) :
      Acts cfg s .start (s.setLease lease)
  | stops {lease : Lease} (hlease : s.lease.stop cfg = some lease) :
      Acts cfg s .stop (s.setLease lease)
  | yields (seconds : ℚ) :
      Acts cfg s (.yieldLink seconds) (s.setLease (s.lease.yieldLink cfg s.now seconds))
  | resumes : Acts cfg s .resume (s.setLease s.lease.resume)
  | connects {t : ℕ} {lease : Lease}
      (hlease : s.lease.taskStep cfg s.now t .connected = some lease) :
      Acts cfg s (.link t .connected) ((s.setLease lease).emit [.connected])
  | links {t : ℕ} {step : Lease.LinkStep} {lease : Lease} (hother : step ≠ .connected)
      (hlease : s.lease.taskStep cfg s.now t step = some lease) :
      Acts cfg s (.link t step) (s.setLease lease)
  | commands (request : Request) (dryRun : Bool) :
      Acts cfg s (.command request dryRun) (s.beginCommand cfg request dryRun)
  | refuses {request : ApiRequest} {dryRun : Bool} {answer : ApiAnswer}
      (hresolve : request.resolve = .error answer) :
      Acts cfg s (.call request dryRun)
        { s with calls := s.calls ++ [{ dryRun, answer := some answer }] }
  | misses {request : ApiRequest} {dryRun : Bool} {resolved : Resolved}
      (hresolve : request.resolve = .ok resolved) (hlink : s.lease.link ≠ .connected) :
      Acts cfg s (.call request dryRun)
        { s with calls := s.calls ++ [{
            dryRun
            answer := some (.unavailable
              (unavailableMessage s.lease.link s.yieldRemainingS)) }] }
  | calls {request : ApiRequest} {dryRun : Bool} {resolved : Resolved}
      (hresolve : request.resolve = .ok resolved) (hlink : s.lease.link = .connected) :
      Acts cfg s (.call request dryRun)
        ({ s with calls := s.calls ++ [s.enrolled cfg resolved dryRun] }.beginCommand cfg
          resolved.request dryRun)
  | delivers {i : ℕ} {c : Command} {order : Order} {base : Sample}
      (hc : s.commander.commands[i]? = some c) (hpc : c.pc = .writing order base false)
      (hconnected : s.lease.transport.isConnected) :
      Acts cfg s (.deliver i)
        ({ s with commander := { s.commander with
          commands := s.commander.commands.set i { c with pc := .writing order base true } } }.emit
            [.command i (.delivered order.payload)])
  | wakes {i : ℕ} {why : Wakeup} {c : Command} {segment : Segment}
      (hc : s.commander.commands[i]? = some c)
      (hsegment : c.pc.resume cfg.settleTimeout s.now c.dryRun s.commander.shared why =
        some segment) : Acts cfg s (.wake i why) (s.runCommand cfg i c segment)

variable {cfg : Config} {s s' : System} {a : Action}

theorem acts_of_step (h : (machine cfg).step s a = some s') : Acts cfg s a s' := by
  cases a with
  | pass dt =>
      obtain ⟨hdt, rfl⟩ : 0 ≤ dt ∧ _ = s' := by simpa [machine, step] using h
      exact .passes hdt
  | drop =>
      obtain rfl : _ = s' := by simpa [machine, step] using h
      exact .drops
  | powerOn =>
      obtain rfl : _ = s' := by simpa [machine, step] using h
      exact .powersOn
  | notify data =>
      simp only [machine, step] at h
      split at h
      · simp at h
      · rename_i hinterval
        obtain rfl : _ = s' := by simpa using h
        exact .notifies hinterval
  | completion i step =>
      obtain ⟨intake, hintake, rfl⟩ := Option.map_eq_some_iff.mp h
      exact .completes hintake
  | poll i step =>
      simp only [machine, System.step] at h
      split at h
      · rename_i hinterval
        obtain ⟨intake, hintake, rfl⟩ := Option.map_eq_some_iff.mp h
        exact .polls hinterval hintake
      · simp at h
  | start =>
      obtain ⟨lease, hlease, rfl⟩ := Option.map_eq_some_iff.mp h
      exact .starts hlease
  | stop =>
      obtain ⟨lease, hlease, rfl⟩ := Option.map_eq_some_iff.mp h
      exact .stops hlease
  | yieldLink seconds =>
      obtain rfl : _ = s' := by simpa [machine, step] using h
      exact .yields seconds
  | resume =>
      obtain rfl : _ = s' := by simpa [machine, step] using h
      exact .resumes
  | link t step =>
      obtain ⟨lease, hlease, hs'⟩ := Option.bind_eq_some_iff.mp h
      split at hs'
      · obtain rfl : _ = s' := by simpa using hs'
        exact .connects hlease
      · rename_i hother
        obtain rfl : _ = s' := by simpa using hs'
        exact .links hother hlease
  | command request dryRun =>
      obtain rfl : _ = s' := by simpa [machine, step] using h
      exact .commands request dryRun
  | call request dryRun =>
      obtain rfl : s.beginCall cfg request dryRun = s' := by simpa [machine, step] using h
      rw [beginCall]
      split
      · rename_i hresolve
        exact .refuses hresolve
      · rename_i resolved hresolve
        split
        · rename_i hlink
          exact .misses hresolve hlink
        · rename_i hlink
          exact .calls hresolve (not_not.mp hlink)
  | deliver i =>
      obtain ⟨c, hc, hs'⟩ := Option.bind_eq_some_iff.mp h
      split at hs'
      · rename_i hpc
        split at hs'
        · rename_i hconnected
          obtain rfl : _ = s' := by simpa using hs'
          exact .delivers hc hpc hconnected
        · simp at hs'
      · simp at hs'
  | wake i why =>
      obtain ⟨c, hc, hs'⟩ := Option.bind_eq_some_iff.mp h
      obtain ⟨segment, hsegment, heq⟩ := Option.bind_eq_some_iff.mp hs'
      obtain rfl : _ = s' := by simpa using heq
      exact .wakes hc hsegment

end Bedjet.Api.System
