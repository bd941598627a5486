import Bedjet.Service.Resuming
import Bedjet.Service.SlotLink

/-!
The lease refines the slot: whatever its coroutines do between two suspensions
is a sequence of moves of the slot. Where a coroutine goes through several
functions without suspending, each is accounted for from the phase its caller
left the task in, whatever the task's program counter still says.
-/

namespace Bedjet.Service

open Asyncio Device Relation

def LinkPc.phase : LinkPc → Phase
  | .scheduled | .sleeping _ | .backingOff _ => .idle
  | .connectLock => .seeking
  | .connecting => .connecting
  | .subscribing => .subscribing
  | .teardownLock => .dropping
  | .stoppingReader _ | .unsubscribing | .disconnecting => .tearing
  | .joining supervisor => .joining supervisor
  | .returned | .raised => .finished

theorem LinkPc.finished_iff {pc : LinkPc} : pc.finished ↔ pc.phase = .finished := by
  cases pc <;> simp [finished, phase]

def LinkTask.party (k : LinkTask) : Party where
  role := k.role
  phase := k.pc.phase
  cancelled := k.cancelled

/-- The party connects, and is to bring the supervisor where it is `start`. -/
def Party.Connects (p : Party) (supervisor : Option ℕ) : Prop :=
  p.role = .supervise ∨ p.role = .start ∧ supervisor = none

theorem Party.Connects.of_placed {p : Party} {supervisor : Option ℕ} {t : ℕ}
    (hplaced : p.Placed supervisor t) (hrole : p.role.connects) (hruns : p.phase ≠ .finished)
    (hwaits : p.phase ≠ .returning) : p.Connects supervisor := by
  rcases of_decide_eq_true hrole with hstart | hsupervise
  · exact .inr ⟨hstart, hplaced.starts hstart hruns hwaits⟩
  · exact .inl hsupervise

namespace Lease

/-- The slot a lease stands for. -/
def slot (l : Lease) : Slot where
  core := {
    isConnected := l.transport.isConnected
    connection := l.transport.connection
    running := l.reader.running
    startedOn := l.startedOn
    link := l.link
    yieldUntil := l.yieldUntil
    yieldedBy := l.yieldedBy
    supervisor := l.supervisor
    holder := l.lock.holder }
  parties t := l.tasks[t]?.map LinkTask.party

/-- A sequence of moves. -/
abbrev Steps (rules : Slot.Rules) : Slot → Slot → Prop :=
  ReflTransGen (Slot.Moves rules)

variable {cfg : Config} {now : ℚ} {l l' : Lease} {t : ℕ} {p : Party} {rules : Slot.Rules}

/-! ### The slot after an update -/

theorem slot_setTask {f : LinkTask → LinkTask} {g : Party → Party}
    (hfg : ∀ k, (f k).party = g k.party) : (l.setTask t f).slot = l.slot.modify t g := by
  apply Pool.ext
  · rfl
  funext t'
  have hget : (l.tasks.modify t f)[t']?.map LinkTask.party =
      if t' = t then (l.tasks[t]?.map LinkTask.party).map g
      else l.tasks[t']?.map LinkTask.party := by
    rw [List.getElem?_modify]
    by_cases h : t' = t
    · subst h
      cases l.tasks[t']? <;> simp [hfg]
    · simp [h, Ne.symm h]
  exact hget.trans (l.slot.parties_modify t t' g).symm

@[simp] theorem slot_setPc (l : Lease) (t : ℕ) (pc : LinkPc) :
    (l.setPc t pc).slot = Slot.setPhase l.slot t pc.phase :=
  slot_setTask fun _ => rfl

@[simp] theorem slot_setLink (l : Lease) (link : LinkState) :
    (l.setLink link).slot = { l.slot with core.link := link } := rfl

@[simp] theorem slot_release (l : Lease) :
    l.release.slot = { l.slot with core.holder := none } := rfl

/-- A task that is appended is a party that comes. -/
theorem slot_append (l : Lease) (k : LinkTask) :
    { l with tasks := l.tasks ++ [k] }.slot = l.slot.put l.tasks.length l.slot.core k.party := by
  apply Pool.ext
  · rfl
  funext t'
  have hget : (l.tasks ++ [k])[t']?.map LinkTask.party =
      if t' = l.tasks.length then some k.party else l.tasks[t']?.map LinkTask.party := by
    by_cases h : t' = l.tasks.length
    · simp [h]
    · rcases lt_or_gt_of_ne h with hlt | hgt
      · simp [h, List.getElem?_append_left hlt]
      · rw [List.getElem?_append_right hgt.le, List.getElem?_eq_none hgt.le]
        simp [h, Nat.sub_eq_zero_iff_le, not_le.mpr hgt]
  exact hget.trans (l.slot.parties_put _ t' _ _).symm

theorem slot_spawn (l : Lease) (role : Role) (pc : LinkPc) :
    (l.spawn role pc).slot = l.slot.put l.tasks.length l.slot.core ⟨role, pc.phase, false⟩ :=
  slot_append l { role, pc }

@[simp] theorem slot_parties_length (l : Lease) : l.slot.parties l.tasks.length = none := by
  simp [slot]

/-! ### `_connect` -/

theorem slot_sleep (l : Lease) (t : ℕ) : (l.sleep cfg now t).slot = Slot.setPhase l.slot t .idle :=
  slot_setPc l t _

/-- What a supervisor remembers of its backoff is no part of the slot. -/
theorem slot_setBackoff (l : Lease) (t : ℕ) (f : LinkTask → ℚ) :
    (l.setTask t fun k => { k with backoff := f k }).slot = l.slot := by
  have hmodify : (l.setTask t fun k => { k with backoff := f k }).slot = l.slot.modify t id :=
    slot_setTask fun _ => rfl
  rw [hmodify]
  exact Pool.modify_id _ _

theorem connectReturned_steps (hp : l.slot.parties t = some p) (hrole : p.Connects l.supervisor) :
    Steps rules (Slot.setPhase l.slot t p.role.back)
      (l.connectReturned cfg now t p.role).slot := by
  have hself := Slot.parties_setPhase_self hp p.role.back
  rcases hrole with hcase | ⟨hcase, hsupervisor⟩
  · rw [hcase, connectReturned, slot_sleep, slot_setBackoff]
    exact .refl
  · -- the supervisor comes, and `start` returns
    rw [hcase] at hself ⊢
    let n := (l.setPc t .returned).tasks.length
    let a : Slot := Slot.setPhase l.slot t .returning
    let c : Core := { l.slot.core with supervisor := some n }
    have hn : n = l.tasks.length := List.length_modify _ _ _
    have hne : t ≠ n := fun heq => by simp [heq, hn] at hp
    have hnew : a.parties n = none := by
      rw [Pool.parties_modify_eq_none, hn]
      exact l.slot_parties_length
    have hcomes : Slot.Moves rules a (a.put n c ⟨.supervise, .idle, false⟩) :=
      .comes hnew (.supervises hself rfl rfl hsupervisor)
    have hreturns : Slot.Moves rules (a.put n c ⟨.supervise, .idle, false⟩)
        (Slot.setPhase (a.put n c ⟨.supervise, .idle, false⟩) t .finished) := by
      refine .modify ((Pool.parties_put_of_ne hne).trans hself) (.returned rfl rfl ?_)
      simp [c]
    let l₁ : Lease := { l with supervisor := some n }
    have hself' : Slot.setPhase { a with core := c } t .finished = (l₁.setPc t .returned).slot := by
      rw [slot_setPc]
      exact Slot.setPhase_setPhase l₁.slot t .returning .finished
    have hslot : (l.connectReturned cfg now t .start).slot =
        Slot.setPhase (a.put n c ⟨.supervise, .idle, false⟩) t .finished :=
      calc
        (l.connectReturned cfg now t .start).slot =
            (l₁.setPc t .returned).slot.put n c ⟨.supervise, .idle, false⟩ :=
          slot_append (l₁.setPc t .returned) ⟨.supervise, .scheduled, false, cfg.backoffInitial⟩
        _ = (Slot.setPhase { a with core := c } t .finished).put n c
              ⟨.supervise, .idle, false⟩ := by rw [hself']
        _ = Slot.setPhase (a.put n c ⟨.supervise, .idle, false⟩) t .finished :=
          (Pool.modify_put hne c _).symm
    rw [hslot]
    exact .head hcomes (.single hreturns)

theorem connectLocked_steps (hl' : l'.slot = { l.slot with core.holder := some t })
    (hp : l.slot.parties t = some p) (hrole : p.Connects l.supervisor)
    (hholder : l.slot.core.holder = none) (hconnects : l.yieldUntil = none → rules.connects) :
    Steps rules (Slot.setPhase l.slot t .seeking) (l'.connectLocked cfg now t p.role).slot := by
  have hself := Slot.parties_setPhase_self hp .seeking
  have hyields : l.yieldUntil = l'.yieldUntil :=
    (congrArg (fun a => a.core.yieldUntil) hl').symm
  have hsupervisor : l.supervisor = l'.supervisor :=
    (congrArg (fun a => a.core.supervisor) hl').symm
  rw [connectLocked]
  split
  · -- the link has been given away
    have hslot : l'.release.slot = l.slot := by
      rw [slot_release, hl', ← hholder]
    have habandon : Slot.Moves rules (Slot.setPhase l.slot t .seeking)
        (Slot.setPhase (Slot.setPhase l.slot t .seeking) t p.role.back) :=
      .modify hself (.abandons rfl hholder)
    have hreturned : Steps rules (Slot.setPhase l'.release.slot t p.role.back)
        (l'.release.connectReturned cfg now t p.role).slot :=
      connectReturned_steps (hslot ▸ hp) (hsupervisor ▸ hrole)
    rw [Slot.setPhase_setPhase] at habandon
    rw [hslot] at hreturned
    exact .head habandon hreturned
  · -- the link has not been given away: it is taken
    rename_i hfree
    have hmove : Slot.Moves rules (Slot.setPhase l.slot t .seeking)
        (Slot.setPhase (Slot.setPhase { l.slot with core.holder := some t } t .seeking) t
          .connecting) :=
      .modify hself (.connects rfl hholder (hyields.trans hfree) (hconnects (hyields.trans hfree)))
    rw [Slot.setPhase_setPhase] at hmove
    rw [slot_setPc, hl']
    exact .single hmove

theorem beginConnect_steps (hp : l.slot.parties t = some p) (hrole : p.Connects l.supervisor)
    (hconnects : l.yieldUntil = none → rules.connects) :
    Steps rules (Slot.setPhase l.slot t .seeking) (l.beginConnect cfg now t p.role).slot := by
  rw [beginConnect]
  split
  · rename_i hfree
    have hl' : { l with lock := l.lock.take t }.slot = { l.slot with core.holder := some t } := rfl
    exact connectLocked_steps hl' hp hrole (Lock.holder_of_isFree hfree) hconnects
  · rw [slot_setPc]
    exact .refl

/-- The reader runs, and `_connect` returns. -/
theorem linkUp_steps (hl' : l'.slot = { l.slot with
      core.running := true
      core.startedOn := some l.slot.core.connection })
    (hp : l.slot.parties t = some p) (hrole : p.Connects l.supervisor) :
    Steps rules (Slot.setPhase l.slot t .subscribing) (l'.linkUp cfg now t p.role).slot := by
  have hself := Slot.parties_setPhase_self hp .subscribing
  have hslot : (l'.setLink .connected).release.slot = { l.slot with
      core.holder := none
      core.running := true
      core.startedOn := some l.slot.core.connection
      core.link := .connected } := by
    rw [slot_release, slot_setLink, hl']
  have hlistens : Slot.Moves rules (Slot.setPhase l.slot t .subscribing)
      (Slot.setPhase (Slot.setPhase (l'.setLink .connected).release.slot t .subscribing) t
        p.role.back) := by
    rw [hslot]
    exact .modify hself (.listens rfl)
  rw [Slot.setPhase_setPhase] at hlistens
  have hsupervisor : l.supervisor = l'.supervisor :=
    (congrArg (fun a => a.core.supervisor) hl').symm
  have hreturned : Steps rules (Slot.setPhase (l'.setLink .connected).release.slot t p.role.back)
      (l'.linkUp cfg now t p.role).slot :=
    connectReturned_steps (by rw [hslot]; exact hp) (hsupervisor ▸ hrole)
  exact .head hlistens hreturned

theorem onConnected_steps (hp : l.slot.parties t = some p) (hrole : p.Connects l.supervisor)
    (hphase : p.phase = .connecting) :
    Steps rules l.slot (l.onConnected cfg now t p.role).slot := by
  let l' := { l with transport :=
    { l.transport with isConnected := true, connection := l.transport.connection + 1 } }
  have hconnected : Slot.Moves rules l.slot (Slot.setPhase l'.slot t .subscribing) :=
    .modify hp (.connected hphase)
  rw [onConnected]
  dsimp only
  split
  · have hup : Steps rules (Slot.setPhase l'.slot t .subscribing)
        ({ l' with
          reader := l'.reader.startPolling
          startedOn := some l'.transport.connection }.linkUp cfg now t p.role).slot :=
      linkUp_steps rfl hp hrole
    exact .head hconnected hup
  · rw [slot_setPc]
    exact .single hconnected

theorem onSubscribed_steps (hp : l.slot.parties t = some p) (hrole : p.Connects l.supervisor)
    (hphase : p.phase = .subscribing) :
    Steps rules l.slot (l.onSubscribed cfg now t p.role).slot := by
  have hup : Steps rules (Slot.setPhase l.slot t .subscribing)
      (l.onSubscribed cfg now t p.role).slot := linkUp_steps rfl hp hrole
  rwa [Slot.setPhase_self hp hphase] at hup

theorem slot_backedOff (l : Lease) (t : ℕ) :
    (l.backedOff cfg now t).slot = Slot.setPhase l.slot t .idle := by
  rw [backedOff, slot_sleep, slot_setBackoff]

theorem connectRaised_steps (backoff : ℚ) (hp : l.slot.parties t = some p) (hrole : p.role.connects)
    (hphase : p.phase = .connecting ∨ p.phase = .subscribing) :
    Steps rules l.slot (l.release.connectRaised now t backoff p.role).slot := by
  cases hcase : p.role with
  | start =>
      have hgivesUp : Slot.Moves rules l.slot
          (Slot.setPhase (l.release.setLink .stopped).slot t .finished) :=
        .modify hp (.givesUp hcase hphase)
      rw [connectRaised, slot_setPc]
      exact .single hgivesUp
  | supervise =>
      have hfails : Slot.Moves rules l.slot (Slot.setPhase l.release.slot t .idle) :=
        .modify hp (.fails hcase hphase)
      rw [connectRaised, slot_setPc]
      exact .single hfails
  | yieldLink => simp [hcase, Role.connects] at hrole
  | stop => simp [hcase, Role.connects] at hrole

/-! ### `_teardown` -/

/-- Wherever the teardown is suspended first, the reader does not run. -/
theorem slot_teardownLocked (l : Lease) (t : ℕ) :
    (l.teardownLocked cfg t).slot =
      Slot.setPhase { l.slot with core.running := false } t .tearing := by
  rw [teardownLocked]
  split
  · -- the reader has been stopped before
    rename_i hnot
    have hrunning : l.slot.core.running = false := (Bool.not_eq_true' _).mp hnot
    rw [slot_setPc, ← hrunning]
    rfl
  · dsimp only
    split
    · split <;> rw [slot_setPc] <;> rfl
    · split
      · split <;> rw [slot_setPc] <;> rfl
      · rw [slot_setPc]
        rfl

theorem teardownLocked_steps (hl' : l'.slot = { l.slot with core.holder := some t })
    (hp : l.slot.parties t = some p) (hholder : l.slot.core.holder = none) :
    Steps rules (Slot.setPhase l.slot t .dropping) (l'.teardownLocked cfg t).slot := by
  have htears : Slot.Moves rules (Slot.setPhase l.slot t .dropping)
      (Slot.setPhase (Slot.setPhase
        { l.slot with core.holder := some t, core.running := false } t .dropping) t .tearing) :=
    .modify (Slot.parties_setPhase_self hp .dropping) (.tears rfl hholder)
  rw [Slot.setPhase_setPhase] at htears
  rw [slot_teardownLocked, hl']
  exact .single htears

theorem beginTeardown_steps (hp : l.slot.parties t = some p) :
    Steps rules (Slot.setPhase l.slot t .dropping) (l.beginTeardown cfg t).slot := by
  rw [beginTeardown]
  split
  · rename_i hfree
    have hl' : { l with lock := l.lock.take t }.slot = { l.slot with core.holder := some t } := rfl
    exact teardownLocked_steps hl' hp (Lock.holder_of_isFree hfree)
  · rw [slot_setPc]
    exact .refl

theorem slot_onReaderStopped (hp : l.slot.parties t = some p) (hphase : p.phase = .tearing) :
    (l.onReaderStopped cfg t).slot = l.slot := by
  have hself := Slot.setPhase_self hp hphase
  rw [onReaderStopped]
  split
  · rw [slot_setPc]
    exact hself
  · rw [slot_setPc]
    exact hself

theorem onDisconnected_steps (hp : l.slot.parties t = some p) (hfits : p.phase.fits p.role)
    (hphase : p.phase = .tearing) (hconnects : l.yieldUntil = none → rules.connects) :
    Steps rules l.slot (l.onDisconnected cfg now t p.role).slot := by
  let a : Slot := { l.slot with core.isConnected := false }
  have hdrops : Slot.Moves rules l.slot a := .outside .drops
  cases hcase : p.role with
  | start => simp [hphase, hcase, Phase.fits] at hfits
  | supervise =>
      -- it goes on to connect
      let l' : Lease := { l with
        transport := { l.transport with isConnected := false, adapterPowerOn := false }
        lock := l.lock.release }
      have hreclaims : Slot.Moves rules a (Slot.setPhase l'.slot t .seeking) :=
        .modify hp (.reclaims hcase hphase rfl)
      have hbegins : Steps rules (Slot.setPhase l'.slot t .seeking)
          (l'.beginConnect cfg now t p.role).slot :=
        beginConnect_steps hp (.inl hcase) hconnects
      rw [hcase] at hbegins
      exact .head hdrops (.head hreclaims hbegins)
  | yieldLink =>
      have hyielded : Slot.Moves rules a
          (Slot.setPhase { a with core.holder := none, core.link := .yielded } t .finished) :=
        .modify hp (.yielded hcase hphase rfl)
      rw [onDisconnected, teardownReturned, slot_setPc]
      exact .head hdrops (.single hyielded)
  | stop =>
      have hstopped : Slot.Moves rules a
          (Slot.setPhase { a with core.holder := none, core.link := .stopped } t .finished) :=
        .modify hp (.stopped hcase hphase rfl)
      rw [onDisconnected, teardownReturned, slot_setPc]
      exact .head hdrops (.single hstopped)

/-! ### The supervisor, and the end of a cancelled one -/

theorem tick_steps (hp : l.slot.parties t = some p) (hrole : p.role = .supervise)
    (hphase : p.phase = .idle)
    (htrusts : l.yieldUntil.any (now < ·) = false → l.transport.isConnected →
      rules.trusts { l.slot.core with yieldUntil := none }) :
    Steps rules l.slot (l.tick cfg now t).slot := by
  have hself := Slot.setPhase_self hp hphase
  rw [tick]
  split
  · rw [slot_sleep, hself]
  · rename_i hover
    let l' : Lease := { l with yieldUntil := none }
    have hfrees : Slot.Moves rules l.slot l'.slot := .outside .frees
    dsimp only
    split
    · rename_i hconnected
      have hconnected' := htrusts (by simpa using hover) hconnected
      have htrust : Slot.Moves rules l'.slot (l'.setLink .connected).slot :=
        .stays hp (.trusts hrole hphase rfl hconnected hconnected')
      have hp' : (l'.setLink .connected).slot.parties t = some p := hp
      rw [slot_sleep, slot_setBackoff, Slot.setPhase_self hp' hphase]
      exact .head hfrees (.single htrust)
    · have hloses : Slot.Moves rules l'.slot (Slot.setPhase (l'.setLink .lost).slot t .dropping) :=
        .modify hp (.loses hrole hphase rfl)
      have hbegins : Steps rules (Slot.setPhase (l'.setLink .lost).slot t .dropping)
          ((l'.setLink .lost).beginTeardown cfg t).slot := beginTeardown_steps hp
      exact .head hfrees (.head hloses hbegins)

/-- A cancellation is raised, or suppressed by the reader's `stop`. -/
theorem cancelTask_steps {k : LinkTask} (hk : l.tasks[t]? = some k) (hcancelled : k.cancelled)
    (h : (l.setTask t fun k => { k with cancelled := false }).cancelTask cfg t k.pc = some l') :
    Steps rules l.slot l'.slot := by
  have hp : l.slot.parties t = some k.party := by simp [slot, hk]
  let l₁ := l.setTask t fun k => { k with cancelled := false }
  have hl₁ : l₁.slot = l.slot.modify t fun p => { p with cancelled := false } :=
    slot_setTask fun _ => rfl
  -- where it is raised, the task is over and the lock is not with it
  have hraised {a : Slot} {l₂ : Lease} (hpa : a.parties t = some k.party)
      (hl₂ : l₂.slot = Pool.modify
        { a with core.holder := if k.pc.phase.holds then none else a.core.holder } t
        fun p => { p with cancelled := false }) :
      Steps rules a (l₂.setPc t .raised).slot := by
    rw [slot_setPc, hl₂, Slot.setPhase, Pool.modify_modify]
    exact .single (.modify hpa (.dies hcancelled))
  cases hpc : k.pc with
  | scheduled | sleeping | backingOff =>
      rw [hpc] at h
      obtain rfl : l₁.setPc t .raised = l' := Option.some.inj h
      exact hraised hp (by rw [hl₁, hpc]; rfl)
  | connectLock | teardownLock =>
      rw [hpc] at h
      let l₂ : Lease := { l₁ with lock := l₁.lock.leave t }
      obtain rfl : l₂.setPc t .raised = l' := Option.some.inj h
      apply hraised hp
      have hslot : l₂.slot = l₁.slot := rfl
      rw [hslot, hl₁, hpc]
      rfl
  | connecting | subscribing | unsubscribing =>
      rw [hpc] at h
      obtain rfl : l₁.release.setPc t .raised = l' := Option.some.inj h
      apply hraised hp
      rw [slot_release, hl₁, hpc]
      rfl
  | disconnecting =>
      rw [hpc] at h
      let l₂ : Lease := { l₁ with transport := { l₁.transport with isConnected := false } }
      obtain rfl : l₂.release.setPc t .raised = l' := Option.some.inj h
      have hdrops : Slot.Moves rules l.slot { l.slot with core.isConnected := false } :=
        .outside .drops
      refine .head hdrops (hraised hp ?_)
      have hslot : l₂.release.slot =
          { l₁.slot with core.isConnected := false, core.holder := none } := rfl
      rw [hslot, hl₁, hpc]
      rfl
  | stoppingReader child =>
      rw [hpc] at h
      obtain ⟨-, hstopped⟩ := Option.ite_none_right_eq_some.mp h
      obtain rfl : l₁.onReaderStopped cfg t = l' := Option.some.inj hstopped
      have hphase : k.party.phase = .tearing := by rw [LinkTask.party, hpc]; rfl
      have hp₁ : l₁.slot.parties t = some { k.party with cancelled := false } := by
        rw [hl₁, Pool.parties_modify_self, hp]
        rfl
      rw [slot_onReaderStopped hp₁ hphase, hl₁]
      exact .single (.modify hp (.survives hphase))
  | joining | returned | raised =>
      rw [hpc] at h
      exact absurd h.symm (Option.some_ne_none _)

/-! ### Every task step -/

/-- The step is a tick that finds the transport connected, and takes it for a
link that is up. -/
def trusts (l : Lease) (now : ℚ) (t : ℕ) : LinkStep → Bool
  | .slept =>
      (l.tasks[t]?).any (fun k => !k.cancelled &&
        match k.pc with
        | .sleeping due => due ≤ now
        | _ => false) &&
      !l.yieldUntil.any (now < ·) && l.transport.isConnected
  | _ => false

theorem trusts_slept {k : LinkTask} {due : ℚ} (hk : l.tasks[t]? = some k)
    (hcancelled : k.cancelled = false) (hpc : k.pc = .sleeping due) (hdue : due ≤ now)
    (hover : l.yieldUntil.any (now < ·) = false) (hconnected : l.transport.isConnected) :
    l.trusts now t .slept := by
  simp only [trusts, hk, Option.any_some, hcancelled, hpc, hover, hconnected]
  simpa using hdue

theorem taskStep_steps {step : LinkStep} (hfit : l.slot.Fit) (hlifecycle : l.slot.Lifecycle)
    (hconnects : l.yieldUntil = none → rules.connects)
    (htrusts : l.trusts now t step → rules.trusts { l.slot.core with yieldUntil := none })
    (h : l.taskStep cfg now t step = some l') : Steps rules l.slot l'.slot := by
  obtain ⟨k, hk, hcases⟩ := taskStep_cases h
  have hp : l.slot.parties t = some k.party := by simp [slot, hk]
  have hphase : k.party.phase = k.pc.phase := rfl
  have hfits : k.pc.phase.fits k.role := (hfit t _ hp).fits
  have hsame : Slot.setPhase l.slot t k.pc.phase = l.slot := Slot.setPhase_self hp rfl
  -- a task that may be connecting is one that connects
  have hrole (hrole : k.role.connects) (hruns : k.party.phase ≠ .finished)
      (hwaits : k.party.phase ≠ .returning) : k.party.Connects l.supervisor :=
    .of_placed (hlifecycle.placed t _ hp) hrole hruns hwaits
  rcases hcases with ⟨hcancelled, hcancel⟩ | ⟨hcancelled, hresumes⟩
  · exact cancelTask_steps hk hcancelled hcancel
  cases hresumes with
  | begun hpc =>
      rw [hpc, LinkPc.phase] at hsame
      rw [slot_sleep, hsame]
  | connects hpc hgrants =>
      simp only [hpc, LinkPc.phase] at hphase hfits hsame
      have hconnect : Steps rules (Slot.setPhase l.slot t .seeking)
          ({ l with lock := l.lock.grant t }.connectLocked cfg now t k.role).slot :=
        connectLocked_steps rfl hp (hrole hfits (by simp [hphase]) (by simp [hphase]))
          (Lock.holder_of_grants hgrants) hconnects
      rwa [hsame] at hconnect
  | connected hpc =>
      simp only [hpc, LinkPc.phase] at hphase hfits
      exact onConnected_steps hp (hrole hfits (by simp [hphase]) (by simp [hphase])) hphase
  | connectFailed hpc connected =>
      simp only [hpc, LinkPc.phase] at hphase hfits
      let l₁ : Lease := { l with transport := { l.transport with isConnected := connected } }
      have hp₁ : l₁.slot.parties t = some k.party := hp
      have hunsettles : Slot.Moves rules l.slot l₁.slot := .stays hp (.unsettles hphase connected)
      have hraised : Steps rules l₁.slot
          (l₁.release.connectRaised now t k.backoff k.role).slot :=
        connectRaised_steps k.backoff hp₁ hfits (.inl hphase)
      exact .head hunsettles hraised
  | subscribed hpc =>
      simp only [hpc, LinkPc.phase] at hphase hfits
      exact onSubscribed_steps hp (hrole hfits (by simp [hphase]) (by simp [hphase])) hphase
  | subscribeFailed hpc =>
      simp only [hpc, LinkPc.phase] at hphase hfits
      exact connectRaised_steps k.backoff hp hfits (.inr hphase)
  | tears hpc hgrants =>
      simp only [hpc, LinkPc.phase] at hsame
      have hteardown : Steps rules (Slot.setPhase l.slot t .dropping)
          ({ l with lock := l.lock.grant t }.teardownLocked cfg t).slot :=
        teardownLocked_steps rfl hp (Lock.holder_of_grants hgrants)
      rwa [hsame] at hteardown
  | readerStopped hpc =>
      simp only [hpc, LinkPc.phase] at hphase
      rw [slot_onReaderStopped hp hphase]
  | unsubscribed hpc =>
      simp only [hpc, LinkPc.phase] at hsame
      rw [slot_setPc, LinkPc.phase, hsame]
  | disconnected hpc =>
      simp only [hpc, LinkPc.phase] at hphase
      exact onDisconnected_steps hp (hfit t _ hp).fits hphase hconnects
  | slept hpc hdue =>
      simp only [hpc, LinkPc.phase] at hphase hfits
      apply tick_steps hp (of_decide_eq_true hfits) hphase
      intro hover hconnected
      exact htrusts (trusts_slept hk hcancelled hpc hdue hover hconnected)
  | backedOff step hpc =>
      simp only [hpc, LinkPc.phase] at hsame
      rw [slot_backedOff, hsame]
  | joined hpc hended =>
      -- the supervisor that `stop` has cancelled is over
      simp only [hpc, LinkPc.phase] at hphase
      let l₁ : Lease := { l with supervisor := none }
      have hjoins : Slot.Moves rules l.slot (Slot.setPhase l₁.slot t .dropping) := by
        refine .modify hp (.joins hphase fun q hq => ?_)
        obtain ⟨k', hk', rfl⟩ := Option.map_eq_some_iff.mp hq
        rw [hk'] at hended
        exact LinkPc.finished_iff.mp hended
      have hteardown : Steps rules (Slot.setPhase l₁.slot t .dropping)
          (l₁.beginTeardown cfg t).slot := beginTeardown_steps hp
      exact .head hjoins hteardown

/-! ### The calls, and what happens to the transport -/

theorem calm_of_not_busy (h : ¬l.lifecycleBusy) : l.slot.Calm := by
  intro t p hp hacts
  obtain ⟨k, hk, rfl⟩ := Option.map_eq_some_iff.mp hp
  obtain ⟨hrole, hphase⟩ : (k.role = .start ∨ k.role = .stop) ∧ k.pc.phase ≠ .finished :=
    of_decide_eq_true hacts
  refine h (List.any_eq_true.mpr ⟨k, List.mem_of_getElem? hk, ?_⟩)
  rw [Ne, ← LinkPc.finished_iff] at hphase
  simpa using ⟨hrole, by simpa using hphase⟩

/-- A party that has just come, in the phase it came in. -/
theorem spawn_steps {role : Role} {pc : LinkPc} {phase : Phase} (hphase : pc.phase = phase) :
    (l.spawn role pc).slot.parties l.tasks.length = some ⟨role, phase, false⟩ ∧
      Slot.setPhase (l.spawn role pc).slot l.tasks.length phase = (l.spawn role pc).slot := by
  have hp : (l.spawn role pc).slot.parties l.tasks.length = some ⟨role, phase, false⟩ := by
    rw [slot_spawn, Pool.parties_put_self, hphase]
  exact ⟨hp, Slot.setPhase_self hp rfl⟩

theorem start_steps (hstarts : rules.starts l.slot.core)
    (hconnects : l.yieldUntil = none → rules.connects) (h : l.start cfg now = some l') :
    Steps rules l.slot l'.slot := by
  cases starts_of_start h with
  | already => exact .refl
  | connects hbusy hsupervisor =>
      let l₁ : Lease := (l.setLink .connecting).spawn .start .connectLock
      have hslot : l₁.slot = l.slot.put l.tasks.length { l.slot.core with link := .connecting }
          ⟨.start, .seeking, false⟩ := slot_spawn (l.setLink .connecting) .start .connectLock
      have hmove : Slot.Moves rules l.slot l₁.slot := by
        rw [hslot]
        exact .comes l.slot_parties_length (.starts hstarts (calm_of_not_busy hbusy) hsupervisor)
      obtain ⟨hp, hsame⟩ : l₁.slot.parties l.tasks.length = some ⟨.start, .seeking, false⟩ ∧
          Slot.setPhase l₁.slot l.tasks.length .seeking = l₁.slot := spawn_steps rfl
      have hbegins : Steps rules (Slot.setPhase l₁.slot l.tasks.length .seeking)
          (l₁.beginConnect cfg now l.tasks.length .start).slot :=
        beginConnect_steps hp (.inr ⟨rfl, hsupervisor⟩) hconnects
      rw [hsame] at hbegins
      exact .head hmove hbegins

theorem stop_steps (hstops : rules.stops) (hlifecycle : l.slot.Lifecycle)
    (h : l.stop cfg = some l') : Steps rules l.slot l'.slot := by
  cases stops_of_stop h with
  | @cancels s hbusy hsupervisor =>
      have hcalm := calm_of_not_busy hbusy
      let l₁ : Lease := l.setTask s fun k => { k with cancelled := !k.pc.finished }
      obtain ⟨p, hp⟩ := Option.isSome_iff_exists.mp (hlifecycle.present s hsupervisor)
      have hslot : l₁.slot =
          l.slot.modify s fun p => { p with cancelled := p.phase ≠ .finished } := by
        apply slot_setTask
        intro k
        have hfinished : (!k.pc.finished) = decide (k.pc.phase ≠ .finished) := by
          rw [Bool.eq_iff_iff]
          simp [← LinkPc.finished_iff]
        rw [LinkTask.party, hfinished]
        rfl
      have hcancels : Slot.Moves rules l.slot l₁.slot := by
        rw [hslot]
        exact .modify hp (.cancels hstops ((hlifecycle.placed s p hp).supervisor hsupervisor))
      have hcalm₁ : l₁.slot.Calm := by
        intro t q hq hacts
        rw [hslot, Pool.parties_modify] at hq
        split at hq
        · obtain ⟨p, hp, rfl⟩ := Option.map_eq_some_iff.mp hq
          exact hcalm s p hp hacts
        · exact hcalm t q hq hacts
      have hstop : Slot.Moves rules l₁.slot (l₁.spawn .stop (.joining s)).slot := by
        rw [slot_spawn]
        exact .comes l₁.slot_parties_length (.stopsSupervisor hstops hcalm₁ hsupervisor)
      exact .head hcancels (.single hstop)
  | tearsDown hbusy hsupervisor =>
      have hcalm := calm_of_not_busy hbusy
      let l₁ : Lease := l.spawn .stop .teardownLock
      have hmove : Slot.Moves rules l.slot l₁.slot := by
        rw [slot_spawn]
        exact .comes l.slot_parties_length (.stops hstops hcalm hsupervisor)
      obtain ⟨hp, hsame⟩ : l₁.slot.parties l.tasks.length = some ⟨.stop, .dropping, false⟩ ∧
          Slot.setPhase l₁.slot l.tasks.length .dropping = l₁.slot := spawn_steps rfl
      have hbegins : Steps rules (Slot.setPhase l₁.slot l.tasks.length .dropping)
          (l₁.beginTeardown cfg l.tasks.length).slot := beginTeardown_steps hp
      rw [hsame] at hbegins
      exact .head hmove hbegins

theorem yieldLink_steps (l : Lease) (seconds : ℚ) :
    Steps rules l.slot (l.yieldLink cfg now seconds).slot := by
  rw [yieldLink]
  split
  · exact .refl
  · let n := l.tasks.length
    let l₀ : Lease := { l with yieldUntil := some (now + seconds), yieldedBy := some n }
    let l₁ : Lease := l₀.spawn .yieldLink .teardownLock
    have hslot : l₁.slot = l.slot.put n
        { l.slot.core with yieldUntil := some (now + seconds), yieldedBy := some n }
        ⟨.yieldLink, .dropping, false⟩ := slot_spawn l₀ .yieldLink .teardownLock
    have hmove : Slot.Moves rules l.slot l₁.slot := by
      rw [hslot]
      exact .comes l.slot_parties_length (.yields (now + seconds))
    obtain ⟨hp, hsame⟩ : l₁.slot.parties n = some ⟨.yieldLink, .dropping, false⟩ ∧
        Slot.setPhase l₁.slot n .dropping = l₁.slot := spawn_steps rfl
    have hbegins : Steps rules (Slot.setPhase l₁.slot n .dropping)
        (l₁.beginTeardown cfg n).slot := beginTeardown_steps hp
    rw [hsame] at hbegins
    exact .head hmove hbegins

theorem slot_powerOn (l : Lease) : l.powerOn.slot = l.slot := by
  apply Pool.ext
  · rfl
  funext t
  simp only [slot, powerOn, List.getElem?_map, Option.map_map]
  refine congrArg (Option.map · l.tasks[t]?) (funext fun k => ?_)
  obtain ⟨role, pc, cancelled, backoff⟩ := k
  cases pc <;> rfl

end Lease

end Bedjet.Service
