import Bedjet.Service.Commander

/-!
What one segment of a command can be. The code of a command between two
suspensions is a few nested branches; `Runs` lists what they amount to, with
everything later arguments ask of each, and the two lemmas at the end say that a
command called or resumed does nothing else.
-/

namespace Bedjet.Service

open Python Protocol Device Asyncio
open Encode (EncodeError)

/-! ### Requests and their orders -/

/-- The predicate a request will be verified by, if it can be encoded. -/
def Request.goal? : Request → Option Goal
  | .off => some .standby
  | .mode operand => (expectedStatusFor operand).map .mode
  | .adjust (.temperature celsius) => (Encode.snapTargetC celsius).toOption.map .target
  | .adjust (.fan percent) => (Encode.snapFanPercent percent).toOption.map .fan

/-- The payloads and predicates a request can send out on a reading: what the
code has checked when it enters `_send_verified`. -/
inductive Request.Orders : Request → Sample → Bytes → Goal → Prop
  | off (base : Sample) : Request.Orders .off base Encode.turnOff .standby
  | mode (base : Sample) {operand : CommandMode} {expected : StatusMode}
      (hunlocked : operand ∈ unlockedModes) (hexpected : expectedStatusFor operand = some expected) :
      Request.Orders (.mode operand) base (Encode.setMode operand) (.mode expected)
  | temperature {base : Sample} {celsius : Double} {rounded : ℚ} {payload : Bytes}
      (hon : base.state.power = .on) (hsnap : Encode.snapTargetC celsius = .ok rounded)
      (hset : Encode.setTemperature rounded base.packet.minTempC base.packet.maxTempC =
        .ok payload) :
      Request.Orders (.adjust (.temperature celsius)) base payload (.target rounded)
  | fan {base : Sample} {percent snapped : ℤ} {payload : Bytes}
      (hon : base.state.power = .on) (hsnap : Encode.snapFanPercent percent = .ok snapped)
      (hset : Encode.setFanPercent snapped = .ok payload) :
      Request.Orders (.adjust (.fan percent)) base payload (.fan snapped)

theorem Request.Orders.goal_eq {request : Request} {base : Sample} {payload : Bytes} {goal : Goal}
    (h : request.Orders base payload goal) : request.goal? = some goal := by
  cases h with
  | off => rfl
  | mode base hunlocked hexpected => simp [Request.goal?, hexpected]
  | temperature _ hsnap => simp [Request.goal?, hsnap, Except.toOption]
  | fan _ hsnap => simp [Request.goal?, hsnap, Except.toOption]

/-! ### What a command remembers -/

/-- A command that has written may go on: it had a trustworthy baseline that did
not satisfy its predicate. -/
structure Wrote (c : Command) (order : Order) (base : Sample) : Prop where
  dryRun : c.dryRun = false
  orders : c.request.Orders base order.payload order.goal
  trustworthy : base.packet.isTrustworthy
  unsatisfied : order.goal.satisfied base.state = false

/-- The failures of the encoder a request can meet. -/
inductive Request.Raises : Request → EncodeError → Prop
  | target {celsius : Double} {e : EncodeError} (hsnap : Encode.snapTargetC celsius = .error e) :
      Request.Raises (.adjust (.temperature celsius)) e
  | temperature {celsius : Double} {rounded : ℚ} {low high : Option ℚ} {e : EncodeError}
      (hsnap : Encode.snapTargetC celsius = .ok rounded)
      (hset : Encode.setTemperature rounded low high = .error e) :
      Request.Raises (.adjust (.temperature celsius)) e
  | percent {percent : ℤ} {e : EncodeError} (hsnap : Encode.snapFanPercent percent = .error e) :
      Request.Raises (.adjust (.fan percent)) e
  | fan {percent snapped : ℤ} {e : EncodeError}
      (hsnap : Encode.snapFanPercent percent = .ok snapped)
      (hset : Encode.setFanPercent snapped = .error e) :
      Request.Raises (.adjust (.fan percent)) e

/-- What the place where a command is suspended says about the command. -/
def Command.Sound (c : Command) : Prop :=
  match c.pc with
  | .fresh | .ended _ => True
  | .baseline adjustment _ => c.request = .adjust adjustment
  | .before order _ =>
      order.dryRun = c.dryRun ∧ ∀ base, c.request.Orders base order.payload order.goal
  | .writing order base _ | .settling order base _ _ => Wrote c order base

theorem Command.Sound.wrote_of_writing {c : Command} {order : Order} {base : Sample}
    {delivered : Bool} (h : c.Sound) (hpc : c.pc = .writing order base delivered) :
    Wrote c order base := by
  simpa [Command.Sound, hpc] using h

theorem Command.Sound.wrote_of_settling {c : Command} {order : Order} {base : Sample}
    {deadline : ℚ} {wait : Wait} (h : c.Sound) (hpc : c.pc = .settling order base deadline wait) :
    Wrote c order base := by
  simpa [Command.Sound, hpc] using h

/-- Whether a command has written nothing yet and has not ended. -/
def Pc.early : Pc → Bool
  | .fresh | .baseline .. | .before .. => true
  | _ => false

/-- Whether the wait the command is in has found the event set or was woken. -/
def Pc.woken : Pc → Bool
  | .baseline _ wait | .before _ wait | .settling _ _ _ wait => wait.woken
  | _ => false

@[simp] theorem Pc.early_mapWait (f : Wait → Wait) (pc : Pc) :
    (pc.mapWait f).early = pc.early := by
  cases pc <;> rfl

@[simp] theorem Pc.mapWait_eq_ended {f : Wait → Wait} {pc : Pc} {ending : Ending} :
    pc.mapWait f = .ended ending ↔ pc = .ended ending := by
  cases pc <;> simp [Pc.mapWait]

@[simp] theorem Pc.mapWait_eq_fresh {f : Wait → Wait} {pc : Pc} :
    pc.mapWait f = .fresh ↔ pc = .fresh := by
  cases pc <;> simp [Pc.mapWait]

@[simp] theorem Pc.mapWait_eq_writing {f : Wait → Wait} {pc : Pc} {order : Order} {base : Sample}
    {delivered : Bool} :
    pc.mapWait f = .writing order base delivered ↔ pc = .writing order base delivered := by
  cases pc <;> simp [Pc.mapWait]

theorem Pc.woken_look {pc : Pc} {set : Bool} (h : pc.unlooked) :
    (pc.mapWait (·.look set)).woken = set := by
  cases pc <;> simp_all [Pc.unlooked, Pc.mapWait, Pc.woken]

theorem Command.Sound.mapWait {c : Command} (h : c.Sound) (f : Wait → Wait) :
    Command.Sound { c with pc := c.pc.mapWait f } := by
  cases hpc : c.pc with
  | fresh => trivial
  | baseline adjustment wait => simpa [Command.Sound, hpc, Pc.mapWait] using h
  | before order wait => simpa [Command.Sound, hpc, Pc.mapWait] using h
  | writing order base delivered => exact { h.wrote_of_writing hpc with }
  | settling order base deadline wait => exact { h.wrote_of_settling hpc with }
  | ended => trivial

/-- The exceptions that say nothing was sent. -/
def Raised.early : Raised → Bool
  | .refused _ | .alreadySatisfied _ | .encode _ => true
  | _ => false

/-- The predicate of a command does not hold of a reading that may be believed. -/
def Unconfirmed (goal : Goal) (shared : Shared) : Prop :=
  ∀ a, shared.latest = some a → a.packet.isTrustworthy → goal.satisfied a.state = false

/-! ### The segments -/

section

variable (settleTimeout now : ℚ)

/-- What the settle loop does from `shared`; `why` says what it was resumed by.
The event makes it look at the reading held, and only that. -/
inductive Settles (order : Order) (base : Sample) (deadline : ℚ) (shared : Shared)
    (why : Wakeup) : Segment → Prop
  | confirms {after : Sample} (hlatest : shared.latest = some after)
      (htrust : after.packet.isTrustworthy) (hgoal : order.goal.satisfied after.state)
      (hwhy : why = .woken) :
      Settles order base deadline shared why
        (.returns { shared with updated := false }
          { payload := order.payload, before := base, after })
  | waits {updated : Bool} (hlt : now < deadline)
      (hlook : why = .woken ∧ updated = false ∧ Unconfirmed order.goal shared ∨
        why ≠ .woken ∧ updated = shared.updated) :
      Settles order base deadline shared why
        { shared := { shared with updated }
          pc := .settling order base deadline { due := now + 1 / 2 } }
  | givesUp {updated : Bool} {message : String} (hlate : deadline ≤ now)
      (hlook : why = .woken ∧ updated = false ∧ Unconfirmed order.goal shared ∨
        why ≠ .woken ∧ updated = shared.updated) :
      Settles order base deadline shared why
        (.raises { shared with updated } (.unverified message none))
  | trips (hwhy : why = .woken) (hnone : shared.latest = none) :
      Settles order base deadline shared why (.raises { shared with updated := false } .assertion)

/-- What command `c` does from `shared`, having written nothing yet. Whatever it
bases its decision on is the reading held. -/
inductive Decides (c : Command) (shared : Shared) : Segment → Prop
  | declines {e : Raised} {based : List CommandEvent} (he : e.early)
      (hencode : ∀ error, e = .encode error → c.request.Raises error)
      (hbased : ∀ x ∈ based, ∃ b, shared.latest = some b ∧ x = .based b) :
      Decides c shared
        { shared, pc := .ended (.raised e), events := .ended (.raised e) :: based }
  | pretends {payload : Bytes} {base : Sample} {based : List CommandEvent} (hdry : c.dryRun)
      (hlatest : shared.latest = some base)
      (hbased : ∀ x ∈ based, ∃ b, shared.latest = some b ∧ x = .based b) :
      Decides c shared
        { shared
          pc := .ended (.returned { payload, before := base, after := base })
          events := .ended (.returned { payload, before := base, after := base }) :: based }
  | writes {order : Order} {base : Sample} {based : List CommandEvent}
      (hlatest : shared.latest = some base) (hwrote : Wrote c order base)
      (hbased : ∀ x ∈ based, ∃ b, shared.latest = some b ∧ x = .based b) :
      Decides c shared
        { shared := {}, pc := .writing order base false, events := .wrote order.payload :: based }

/-- What command `c` does from `shared`; `why` is `none` when it is called. -/
inductive Runs (c : Command) (shared : Shared) : Option Wakeup → Segment → Prop
  | decides {why : Option Wakeup} {segment : Segment} (hpc : c.pc.early)
      (hdecides : Decides c shared segment) : Runs c shared why segment
  | awaits {pc : Wait → Pc} (hpc : c.pc = .fresh) (hlatest : shared.latest = none)
      (hearly : ∀ wait, (pc wait).early) (hwoken : ∀ wait, (pc wait).woken = wait.woken)
      (hsound : ∀ wait, Command.Sound { c with pc := pc wait }) :
      Runs c shared none (awaitState settleTimeout now pc shared)
  | looks (hpc : c.pc.unlooked) :
      Runs c shared (some .looked) { shared, pc := c.pc.mapWait (·.look shared.updated) }
  | misses (hpc : c.pc.woken) (hearly : c.pc.early) (hnone : shared.latest = none) :
      Runs c shared (some .woken) (.raises shared .assertion)
  | linkFails {order : Order} {base : Sample} {delivered : Bool} {message text : String}
      (hpc : c.pc = .writing order base delivered) :
      Runs c shared (some (.writeFailed message))
        (.raises shared (.unverified text (some message)))
  | returns {order : Order} {base : Sample} {delivered : Bool} {segment : Segment}
      (hpc : c.pc = .writing order base delivered)
      (hsettles : Settles now order base (now + settleTimeout) shared .writeReturned segment) :
      Runs c shared (some .writeReturned) (segment.poke.after .completed)
  | settles {order : Order} {base : Sample} {deadline : ℚ} {wait : Wait} {why : Wakeup}
      {segment : Segment} {poked : Bool} (hpc : c.pc = .settling order base deadline wait)
      (hwhy : why = .woken ∧ wait.woken ∨ why = .timedOut ∧ wait.looked ∧ wait.due ≤ now)
      (hsettles : Settles now order base deadline shared why segment) :
      Runs c shared (some why) { segment with poked }

/-! ### Every segment is one of these -/

theorem Decides.after {c : Command} {shared : Shared} {segment : Segment} {b : Sample}
    (h : Decides c shared segment) (hb : shared.latest = some b) :
    Decides c shared (segment.after (.based b)) := by
  have hcons (based : List CommandEvent)
      (hbased : ∀ x ∈ based, ∃ b, shared.latest = some b ∧ x = .based b) :
      ∀ x ∈ based ++ [.based b], ∃ b, shared.latest = some b ∧ x = .based b := by
    intro x hx
    rcases List.mem_append.mp hx with hx | hx
    · exact hbased x hx
    · exact ⟨b, hb, List.mem_singleton.mp hx⟩
  cases h with
  | declines he hencode hbased => exact .declines he hencode (hcons _ hbased)
  | pretends hdry hlatest hbased => exact .pretends hdry hlatest (hcons _ hbased)
  | writes hlatest hwrote hbased => exact .writes hlatest hwrote (hcons _ hbased)

/-- A refusal, or a failure of the encoder, before anything else happens. -/
theorem Decides.raises {c : Command} {shared : Shared} {e : Raised} (he : e.early)
    (hencode : ∀ error, e = .encode error → c.request.Raises error) :
    Decides c shared (.raises shared e) :=
  .declines he hencode (by simp)

theorem proceed_decides {c : Command} {order : Order} {shared : Shared} {before : Sample}
    (hdry : order.dryRun = c.dryRun) (hlatest : shared.latest = some before)
    (horders : c.request.Orders before order.payload order.goal) :
    Decides c shared (proceed order shared before) := by
  rw [proceed]
  split
  · exact (Decides.raises rfl (by simp)).after hlatest
  · rename_i htrust
    split
    · exact (Decides.raises rfl (by simp)).after hlatest
    · rename_i hgoal
      split
      · rename_i hdryRun
        exact .pretends (hdry ▸ hdryRun) hlatest (by simp [hlatest])
      · rename_i hdryRun
        exact .writes hlatest
          { dryRun := by simpa [hdry] using hdryRun
            orders := horders
            trustworthy := by simpa using htrust
            unsatisfied := by simpa using hgoal } (by simp [hlatest])

theorem sendVerified_decides {c : Command} {order : Order} {shared : Shared} {before : Sample}
    (hdry : order.dryRun = c.dryRun) (hlatest : shared.latest = some before)
    (horders : c.request.Orders before order.payload order.goal) :
    Decides c shared (sendVerified settleTimeout now order shared) := by
  simpa [sendVerified, hlatest] using proceed_decides hdry hlatest horders

/-- `_send_verified` called by `send_off` or `set_mode`: it waits for its
baseline, or has one. -/
theorem sendVerified_runs {c : Command} {order : Order} {shared : Shared} (hpc : c.pc = .fresh)
    (hdry : order.dryRun = c.dryRun)
    (horders : ∀ base, c.request.Orders base order.payload order.goal) :
    Runs settleTimeout now c shared none (sendVerified settleTimeout now order shared) := by
  cases hlatest : shared.latest with
  | none =>
      have hawaits : Runs settleTimeout now c shared none
          (awaitState settleTimeout now (.before order) shared) :=
        .awaits hpc hlatest (fun _ => rfl) (fun _ => rfl) (fun _ => ⟨hdry, horders⟩)
      simpa [sendVerified, hlatest] using hawaits
  | some before =>
      exact .decides (by simp [hpc, Pc.early])
        (sendVerified_decides settleTimeout now hdry hlatest (horders before))

theorem setMode_runs {c : Command} {operand : CommandMode} {shared : Shared} (hpc : c.pc = .fresh)
    (hrequest : c.request = .mode operand) :
    Runs settleTimeout now c shared none (setMode settleTimeout now operand c.dryRun shared) := by
  have hearly : c.pc.early := by simp [hpc, Pc.early]
  rw [setMode]
  split
  · exact .decides hearly (.raises rfl (by simp))
  · rename_i hunlocked
    split
    · exact .decides hearly (.raises rfl (by simp))
    · rename_i expected hexpected
      apply sendVerified_runs settleTimeout now hpc rfl
      intro base
      rw [hrequest]
      exact .mode base (by simpa using hunlocked) hexpected

/-- From its own baseline on, an adjustment decides on the reading it was woken
for: nothing else runs between the two reads. -/
theorem adjustment_decides {c : Command} {adjustment : Adjustment} {shared : Shared}
    {before : Sample} (hrequest : c.request = .adjust adjustment)
    (hlatest : shared.latest = some before) :
    Decides c shared (adjustment.from settleTimeout now c.dryRun shared before) := by
  cases adjustment with
  | temperature celsius =>
      refine Decides.after ?_ hlatest
      rw [setTemperatureFrom]
      split
      · -- the unit is not running
        exact .raises rfl (by simp)
      · rename_i hon
        split
        · -- no bounds were reported
          exact .raises rfl (by simp)
        · split
          · rename_i hsnap
            exact .raises rfl (by rintro _ ⟨⟩; exact hrequest ▸ .target hsnap)
          · rename_i hsnap
            split
            · rename_i hset
              exact .raises rfl (by rintro _ ⟨⟩; exact hrequest ▸ .temperature hsnap hset)
            · rename_i hset
              apply sendVerified_decides settleTimeout now rfl hlatest
              rw [hrequest]
              exact .temperature (by simpa using hon) hsnap hset
  | fan percent =>
      refine Decides.after ?_ hlatest
      rw [setFanPercentFrom]
      split
      · exact .raises rfl (by simp)
      · rename_i hon
        split
        · rename_i hsnap
          exact .raises rfl (by rintro _ ⟨⟩; exact hrequest ▸ .percent hsnap)
        · rename_i hsnap
          split
          · rename_i hset
            exact .raises rfl (by rintro _ ⟨⟩; exact hrequest ▸ .fan hsnap hset)
          · rename_i hset
            apply sendVerified_decides settleTimeout now rfl hlatest
            rw [hrequest]
            exact .fan (by simpa using hon) hsnap hset

/-- A command that is called runs as listed. -/
theorem begin_runs {c : Command} {shared : Shared} (hpc : c.pc = .fresh) :
    Runs settleTimeout now c shared none
      (c.request.begin settleTimeout now c.dryRun shared) := by
  cases hrequest : c.request with
  | off =>
      apply sendVerified_runs settleTimeout now hpc rfl
      intro base
      rw [hrequest]
      exact .off base
  | mode operand => exact setMode_runs settleTimeout now hpc hrequest
  | adjust adjustment =>
      cases hlatest : shared.latest with
      | none =>
          have hawaits : Runs settleTimeout now c shared none
              (awaitState settleTimeout now (.baseline adjustment) shared) :=
            .awaits hpc hlatest (fun _ => rfl) (fun _ => rfl) (fun _ => hrequest)
          simpa [Request.begin, beginAdjustment, hlatest] using hawaits
      | some before =>
          have hdecides := adjustment_decides settleTimeout now hrequest hlatest
          have hruns : Runs settleTimeout now c shared none _ :=
            .decides (by simp [hpc, Pc.early]) hdecides
          simpa [Request.begin, beginAdjustment, hlatest] using hruns

theorem settleLoop_settles {order : Order} {base : Sample} {deadline : ℚ} {shared : Shared}
    {why : Wakeup} {updated : Bool}
    (hlook : why = .woken ∧ updated = false ∧ Unconfirmed order.goal shared ∨
      why ≠ .woken ∧ updated = shared.updated) :
    Settles now order base deadline shared why
      (settleLoop settleTimeout now order base deadline { shared with updated }) := by
  rw [settleLoop]
  split
  · rename_i hlt
    exact .waits hlt hlook
  · rename_i hge
    exact .givesUp (not_lt.mp hge) hlook

/-- After the event: whatever is held has been looked at. -/
theorem examine_settles {order : Order} {base : Sample} {deadline : ℚ} {shared : Shared} :
    Settles now order base deadline shared .woken
      (examine settleTimeout now order base deadline shared) := by
  obtain ⟨latest, updated⟩ := shared
  cases latest with
  | none => exact .trips rfl rfl
  | some after =>
      -- the pass of the loop that looks: it returns, or goes on to wait
      by_cases hgood : (after.packet.isTrustworthy && order.goal.satisfied after.state) = true
      · obtain ⟨htrust, hgoal⟩ := Bool.and_eq_true_iff.mp hgood
        have hconfirms : Settles now order base deadline ⟨some after, updated⟩ .woken _ :=
          .confirms rfl htrust hgoal rfl
        simpa [examine, hgood] using hconfirms
      · have hlook : Unconfirmed order.goal ⟨some after, updated⟩ := by
          rintro a ⟨⟩ htrust
          simpa [htrust] using hgood
        have hloop : Settles now order base deadline ⟨some after, updated⟩ .woken
            (settleLoop settleTimeout now order base deadline ⟨some after, false⟩) :=
          settleLoop_settles settleTimeout now (.inl ⟨rfl, rfl, hlook⟩)
        simpa [examine, hgood] using hloop

@[simp] theorem resume_looked (dryRun : Bool) (shared : Shared) (pc : Pc) :
    pc.resume settleTimeout now dryRun shared .looked =
      if pc.unlooked then some { shared, pc := pc.mapWait (·.look shared.updated) } else none := by
  cases pc <;> rfl

@[simp] theorem resume_fresh (dryRun : Bool) (shared : Shared) (wakeup : Wakeup) :
    Pc.resume settleTimeout now dryRun shared .fresh wakeup = none := by
  cases wakeup <;> rfl

@[simp] theorem resume_ended (dryRun : Bool) (shared : Shared) (ending : Ending)
    (wakeup : Wakeup) :
    Pc.resume settleTimeout now dryRun shared (.ended ending) wakeup = none := by
  cases wakeup <;> rfl

/-- What a command that has written nothing does when it is told of a reading:
it decides on the one held, or fails its assertion where there is none. -/
theorem onWoken_runs {c : Command} {shared : Shared} {next : Sample → Segment}
    (hwoken : c.pc.woken) (hearly : c.pc.early)
    (hnext : ∀ before, shared.latest = some before → Decides c shared (next before)) :
    Runs settleTimeout now c shared (some .woken) (onWoken shared next) := by
  rw [onWoken]
  cases hlatest : shared.latest with
  | none => exact .misses hwoken hearly hlatest
  | some before => exact .decides hearly (hnext before hlatest)

/-- A command that is resumed runs as listed. -/
theorem resume_runs {c : Command} {shared : Shared} {wakeup : Wakeup} {segment : Segment}
    (hsound : c.Sound)
    (h : c.pc.resume settleTimeout now c.dryRun shared wakeup = some segment) :
    Runs settleTimeout now c shared (some wakeup) segment := by
  by_cases hlooked : wakeup = .looked
  · subst hlooked
    obtain ⟨hunlooked, rfl⟩ : c.pc.unlooked ∧ _ = segment := by simpa using h
    exact .looks hunlooked
  cases hpc : c.pc with
  | fresh => simp [hpc] at h
  | ended => simp [hpc] at h
  | baseline adjustment wait =>
      have hearly : c.pc.early := by simp [hpc, Pc.early]
      have hrequest : c.request = .adjust adjustment := by simpa [Command.Sound, hpc] using hsound
      cases wakeup with
      | looked => exact absurd rfl hlooked
      | woken =>
          obtain ⟨hwoken, rfl⟩ : wait.woken ∧ _ = segment := by simpa [hpc, Pc.resume] using h
          exact onWoken_runs settleTimeout now (by simpa [hpc, Pc.woken] using hwoken) hearly
            fun before hlatest => adjustment_decides settleTimeout now hrequest hlatest
      | timedOut =>
          obtain ⟨-, rfl⟩ : (wait.looked ∧ wait.due ≤ now) ∧ _ = segment := by
            simpa [hpc, Pc.resume] using h
          exact .decides hearly (.raises rfl (by simp [silence]))
      | writeReturned => simp [hpc, Pc.resume] at h
      | writeFailed => simp [hpc, Pc.resume] at h
  | before order wait =>
      have hearly : c.pc.early := by simp [hpc, Pc.early]
      obtain ⟨hdry, horders⟩ : order.dryRun = c.dryRun ∧
          ∀ base, c.request.Orders base order.payload order.goal := by
        simpa [Command.Sound, hpc] using hsound
      cases wakeup with
      | looked => exact absurd rfl hlooked
      | woken =>
          obtain ⟨hwoken, rfl⟩ : wait.woken ∧ _ = segment := by simpa [hpc, Pc.resume] using h
          exact onWoken_runs settleTimeout now (by simpa [hpc, Pc.woken] using hwoken) hearly
            fun before hlatest => proceed_decides hdry hlatest (horders before)
      | timedOut =>
          obtain ⟨-, rfl⟩ : (wait.looked ∧ wait.due ≤ now) ∧ _ = segment := by
            simpa [hpc, Pc.resume] using h
          exact .decides hearly (.raises rfl (by simp [silence]))
      | writeReturned => simp [hpc, Pc.resume] at h
      | writeFailed => simp [hpc, Pc.resume] at h
  | writing order base delivered =>
      cases wakeup with
      | looked => exact absurd rfl hlooked
      | writeReturned =>
          obtain rfl : _ = segment := by simpa [hpc, Pc.resume] using h
          exact .returns hpc (settleLoop_settles settleTimeout now (.inr ⟨by simp, rfl⟩))
      | writeFailed message =>
          obtain rfl : _ = segment := by simpa [hpc, Pc.resume] using h
          exact .linkFails hpc
      | woken => simp [hpc, Pc.resume] at h
      | timedOut => simp [hpc, Pc.resume] at h
  | settling order base deadline wait =>
      cases wakeup with
      | looked => exact absurd rfl hlooked
      | woken =>
          obtain ⟨hwoken, rfl⟩ : wait.woken ∧ _ = segment := by simpa [hpc, Pc.resume] using h
          exact .settles hpc (.inl ⟨rfl, hwoken⟩) (examine_settles settleTimeout now)
      | timedOut =>
          obtain ⟨hdue, rfl⟩ : (wait.looked ∧ wait.due ≤ now) ∧ _ = segment := by
            simpa [hpc, Pc.resume] using h
          exact .settles hpc (.inr ⟨rfl, hdue⟩)
            (settleLoop_settles settleTimeout now (.inr ⟨by simp, rfl⟩))
      | writeReturned => simp [hpc, Pc.resume] at h
      | writeFailed => simp [hpc, Pc.resume] at h

/-! ### Where a segment leaves the command -/

variable {settleTimeout now}

theorem Settles.sound {c : Command} {order : Order} {base : Sample} {deadline : ℚ}
    {shared : Shared} {why : Wakeup} {segment : Segment} (hwrote : Wrote c order base)
    (h : Settles now order base deadline shared why segment) :
    Command.Sound { c with pc := segment.pc } := by
  cases h with
  | confirms => trivial
  | waits => exact { hwrote with }
  | givesUp => trivial
  | trips => trivial

theorem Runs.sound {c : Command} {shared : Shared} {why : Option Wakeup} {segment : Segment}
    (hsound : c.Sound) (h : Runs settleTimeout now c shared why segment) :
    Command.Sound { c with pc := segment.pc } := by
  cases h with
  | decides hpc hdecides =>
      cases hdecides with
      | declines => trivial
      | pretends => trivial
      | writes hlatest hwrote => exact { hwrote with }
  | awaits hpc hlatest hearly hwoken hsound => exact hsound _
  | looks => exact hsound.mapWait _
  | misses => trivial
  | linkFails => trivial
  | returns hpc hsettles =>
      have hsound' := hsettles.sound (hsound.wrote_of_writing hpc)
      exact hsound'
  | settles hpc hwhy hsettles =>
      have hsound' := hsettles.sound (hsound.wrote_of_settling hpc)
      exact hsound'

/-- The segment in which a command discards the reading held and calls
`transport.write`. -/
structure WritesNow (c : Command) (shared : Shared) (order : Order) (base : Sample)
    (segment : Segment) : Prop where
  early : c.pc.early
  latest : shared.latest = some base
  wrote : Wrote c order base
  shape : ∃ based, (∀ x ∈ based, ∃ b, shared.latest = some b ∧ x = .based b) ∧
    segment = { shared := {}, pc := .writing order base false
                events := .wrote order.payload :: based }

/-- A segment that calls `transport.write` discards what is held; every other
keeps it and records no write. -/
theorem Runs.writes_or_keeps {c : Command} {shared : Shared} {why : Option Wakeup}
    {segment : Segment} (h : Runs settleTimeout now c shared why segment) :
    (∃ order base, WritesNow c shared order base segment) ∨
      segment.shared.latest = shared.latest ∧ ∀ payload, .wrote payload ∉ segment.events := by
  have hnone {based : List CommandEvent} (payload : Bytes)
      (hbased : ∀ x ∈ based, ∃ b, shared.latest = some b ∧ x = .based b) :
      .wrote payload ∉ based := by
    intro hmem
    obtain ⟨b, -, heq⟩ := hbased _ hmem
    simp at heq
  cases h with
  | decides hpc hdecides =>
      cases hdecides with
      | declines he hencode hbased =>
          exact .inr ⟨rfl, fun payload => by simpa using hnone payload hbased⟩
      | pretends hdry hlatest hbased =>
          exact .inr ⟨rfl, fun payload => by simpa using hnone payload hbased⟩
      | writes hlatest hwrote hbased =>
          exact .inl ⟨_, _, hpc, hlatest, hwrote, _, hbased, rfl⟩
  | awaits => exact .inr ⟨rfl, by simp [awaitState]⟩
  | looks => exact .inr ⟨rfl, by simp⟩
  | misses => exact .inr ⟨rfl, by simp [Segment.raises]⟩
  | linkFails => exact .inr ⟨rfl, by simp [Segment.raises]⟩
  | returns hpc hsettles =>
      cases hsettles <;>
        exact .inr ⟨rfl, by simp [Segment.after, Segment.poke, Segment.raises, Segment.returns]⟩
  | settles hpc hwhy hsettles =>
      cases hsettles <;> exact .inr ⟨rfl, by simp [Segment.raises, Segment.returns]⟩

/-- A segment never fills the slot. -/
theorem Runs.latest {c : Command} {shared : Shared} {why : Option Wakeup} {segment : Segment}
    (h : Runs settleTimeout now c shared why segment) {a : Sample}
    (ha : segment.shared.latest = some a) : shared.latest = some a := by
  rcases h.writes_or_keeps with ⟨order, base, hwrites⟩ | ⟨hkeeps, -⟩
  · obtain ⟨based, -, rfl⟩ := hwrites.shape
    simp at ha
  · exact hkeeps ▸ ha

/-- A command bases its decisions on the reading held. -/
theorem Runs.based {c : Command} {shared : Shared} {why : Option Wakeup} {segment : Segment}
    (h : Runs settleTimeout now c shared why segment) {sample : Sample}
    (hmem : .based sample ∈ segment.events) : shared.latest = some sample := by
  have hheld {based : List CommandEvent}
      (hbased : ∀ x ∈ based, ∃ b, shared.latest = some b ∧ x = .based b)
      (hmem : .based sample ∈ based) : shared.latest = some sample := by
    obtain ⟨b, hb, heq⟩ := hbased _ hmem
    obtain rfl : sample = b := by simpa using heq
    exact hb
  cases h with
  | decides hpc hdecides =>
      cases hdecides with
      | declines he hencode hbased => exact hheld hbased (by simpa using hmem)
      | pretends hdry hlatest hbased => exact hheld hbased (by simpa using hmem)
      | writes hlatest hwrote hbased => exact hheld hbased (by simpa using hmem)
  | awaits => simp [awaitState] at hmem
  | looks => simp at hmem
  | misses => simp [Segment.raises] at hmem
  | linkFails => simp [Segment.raises] at hmem
  | returns hpc hsettles =>
      cases hsettles <;>
        simp [Segment.after, Segment.poke, Segment.raises, Segment.returns] at hmem
  | settles hpc hwhy hsettles =>
      cases hsettles <;> simp [Segment.raises, Segment.returns] at hmem

/-- The end of a command is on the record when it has ended. -/
theorem Runs.ended {c : Command} {shared : Shared} {why : Option Wakeup} {segment : Segment}
    (h : Runs settleTimeout now c shared why segment) {ending : Ending}
    (hmem : .ended ending ∈ segment.events) : segment.pc = .ended ending := by
  have hbased {based : List CommandEvent}
      (hbased : ∀ x ∈ based, ∃ b, shared.latest = some b ∧ x = .based b) :
      .ended ending ∉ based := by
    intro hmem
    obtain ⟨b, -, heq⟩ := hbased _ hmem
    simp at heq
  cases h with
  | decides hpc hdecides =>
      cases hdecides with
      | declines he hencode h => simpa [hbased h, eq_comm] using hmem
      | pretends hdry hlatest h => simpa [hbased h, eq_comm] using hmem
      | writes hlatest hwrote h => simp [hbased h] at hmem
  | awaits => simp [awaitState] at hmem
  | looks => simp at hmem
  | misses => simpa [Segment.raises, eq_comm] using hmem
  | linkFails => simpa [Segment.raises, eq_comm] using hmem
  | returns hpc hsettles =>
      cases hsettles with
      | waits => simp [Segment.after, Segment.poke] at hmem
      | _ =>
          simpa [Segment.after, Segment.poke, Segment.raises, Segment.returns, eq_comm] using hmem
  | settles hpc hwhy hsettles =>
      cases hsettles with
      | waits => simp at hmem
      | _ => simpa [Segment.raises, Segment.returns, eq_comm] using hmem

/-- A segment leaves its command untold of any reading, unless it is the look
that finds the event set, and nothing else. -/
theorem Runs.updated_of_woken {c : Command} {shared : Shared} {why : Option Wakeup}
    {segment : Segment} (h : Runs settleTimeout now c shared why segment)
    (hwoken : segment.pc.woken) :
    why = some .looked ∧ segment.shared = shared ∧ shared.updated := by
  cases h with
  | decides hpc hdecides => cases hdecides <;> simp [Pc.woken] at hwoken
  | awaits hpc hlatest hearly hnew => simp [awaitState, hnew] at hwoken
  | looks hpc => exact ⟨rfl, rfl, by rwa [Pc.woken_look hpc] at hwoken⟩
  | misses => simp [Segment.raises, Pc.woken] at hwoken
  | linkFails => simp [Segment.raises, Pc.woken] at hwoken
  | returns hpc hsettles =>
      cases hsettles <;>
        simp [Segment.after, Segment.poke, Segment.raises, Segment.returns, Pc.woken] at hwoken
  | settles hpc hwhy hsettles =>
      cases hsettles <;> simp [Segment.raises, Segment.returns, Pc.woken] at hwoken

/-- A segment never sets the event. -/
theorem Runs.updated {c : Command} {shared : Shared} {why : Option Wakeup} {segment : Segment}
    (h : Runs settleTimeout now c shared why segment) (hupdated : segment.shared.updated) :
    shared.updated := by
  have hsettles {order : Order} {base : Sample} {deadline : ℚ} {why : Wakeup} {segment : Segment}
      (h : Settles now order base deadline shared why segment)
      (hupdated : segment.shared.updated) : shared.updated := by
    cases h with
    | confirms => simp [Segment.returns] at hupdated
    | waits hlt hlook | givesUp hlate hlook =>
        rcases hlook with ⟨-, rfl, -⟩ | ⟨-, rfl⟩
        · simp [Segment.raises] at hupdated
        · exact hupdated
    | trips => simp [Segment.raises] at hupdated
  cases h with
  | decides hpc hdecides =>
      cases hdecides with
      | declines => exact hupdated
      | pretends => exact hupdated
      | writes => simp at hupdated
  | awaits => simp [awaitState] at hupdated
  | looks => exact hupdated
  | misses => exact hupdated
  | linkFails => exact hupdated
  | returns hpc h => exact hsettles h hupdated
  | settles hpc hwhy h => exact hsettles h hupdated

/-- Only a command that has not ended runs. -/
theorem Runs.not_ended {c : Command} {shared : Shared} {why : Option Wakeup} {segment : Segment}
    {ending : Ending} (h : Runs settleTimeout now c shared why segment) :
    c.pc ≠ .ended ending := by
  intro hended
  cases h with
  | decides hpc => simp [hended, Pc.early] at hpc
  | awaits hpc => simp [hended] at hpc
  | looks hpc => simp [hended, Pc.unlooked] at hpc
  | misses hpc => simp [hended, Pc.woken] at hpc
  | linkFails hpc => simp [hended] at hpc
  | returns hpc => simp [hended] at hpc
  | settles hpc => simp [hended] at hpc

end

/-! ### A publication, as a suspended command feels it -/

theorem Command.Sound.wake {c : Command} (h : c.Sound) : c.wake.Sound :=
  h.mapWait Wait.wake

end Bedjet.Service
