import Bedjet.Asyncio.Refinement
import Bedjet.Service.SlotSteps

/-!
What holds of the slot whatever its parties do: the lock is with one party at a
time, one supervisor or one `start` is there to connect, a reader that runs was
started on the connection that is there.
-/

namespace Bedjet.Service

open Asyncio

/-- What is known of the party `t` from who the supervisor is. -/
structure Party.Placed (p : Party) (supervisor : Option ℕ) (t : ℕ) : Prop where
  supervises : p.role = .supervise → p.phase ≠ .finished → supervisor = some t
  starts : p.role = .start → p.phase ≠ .finished → p.phase ≠ .returning → supervisor = none
  joins : ∀ s, p.phase = .joining s → supervisor = some s
  supervisor : supervisor = some t → p.role = .supervise

namespace Slot

variable {rules : Rules} {a b : Slot} {t t' n : ℕ} {p q p' : Party} {c : Core}

/-- Every party is in a phase of its role, and only supervisors are cancelled. -/
def Fit (a : Slot) : Prop :=
  a.Each fun _ _ p => p.Fit

theorem Fit.moves (h : a.Fit) (hmove : Moves rules a b) : b.Fit := by
  refine Pool.Each.moves h hmove (fun _ hp hdoes => hdoes.fit hp) (fun _ hcomes => ?_)
    (fun _ hp _ => hp)
  cases hcomes <;> exact ⟨rfl, by simp⟩

/-! ### The lock is with one party at a time -/

/-- The lock is with the one party whose phase needs it. -/
structure Exclusive (a : Slot) : Prop where
  holder : a.Each fun c t p => p.phase.holds ↔ c.holder = some t
  present : ∀ t, a.core.holder = some t → (a.parties t).isSome

/-- What others do leaves a party the lock, and does not give it the lock. -/
theorem Exclusive.beside (h : a.Exclusive) (hbeside : Pool.Beside (behaviour rules) a t c) :
    c.holder = some t ↔ a.core.holder = some t := by
  cases hbeside with
  | outside houtside => cases houtside <;> rfl
  | @does t' p q hne hp hdoes =>
      rcases hdoes.lock with ⟨hsame, -⟩ | ⟨hfree, htaken, -⟩ | ⟨hheld, hreleased, -⟩
      · rw [hsame]
      · simp [hfree, htaken, hne.symm]
      · rw [hreleased, (h.holder t' p hp).mp hheld]
        simp [hne.symm]
  | comes hne hnew hcomes => rw [hcomes.holder.1]

theorem Exclusive.moves (h : a.Exclusive) (hmove : Moves rules a b) : b.Exclusive where
  holder := by
    refine Pool.Each.moves h.holder hmove ?_ ?_ ?_
    · intro t p c q hp hholds hdoes
      rcases Does.lock hdoes with ⟨hsame, hphase⟩ | ⟨-, htaken, hphase⟩ | ⟨-, hreleased, hphase⟩
      · rw [hsame, hphase]
        exact hholds
      · simp [htaken, hphase]
      · simp [hreleased, hphase]
    · intro t c q hnew hcomes
      -- nobody has the lock before coming
      have hother : a.core.holder ≠ some t := fun hholder => by
        simpa [hnew] using h.present t hholder
      simp [Comes.holder hcomes, hother]
    · intro t p c hp hholds hbeside
      rw [h.beside hbeside]
      exact hholds
  present t ht := by
    cases hmove with
    | outside houtside => cases houtside <;> exact h.present t ht
    | @does t' p q c hp hdoes =>
        rcases Does.lock hdoes with ⟨hsame, -⟩ | ⟨-, htaken, -⟩ | ⟨-, hreleased, -⟩
        · exact Pool.isSome_put (h.present t (hsame ▸ ht))
        · obtain rfl : t' = t := by simpa [htaken] using ht
          simp
        · simp [hreleased] at ht
    | comes hnew hcomes => exact Pool.isSome_put (h.present t ((Comes.holder hcomes).1 ▸ ht))

/-! ### One supervisor, and one `start` or `stop` -/

structure Lifecycle (a : Slot) : Prop where
  placed : a.Each fun c t p => p.Placed c.supervisor t
  unique : ∀ {t p t' p'}, a.parties t = some p → p.acts → a.parties t' = some p' → p'.acts → t = t'
  present : ∀ s, a.core.supervisor = some s → (a.parties s).isSome

/-- Those that start or stop after a move did so before it, or the one that came
is the only one. -/
theorem acts_of_moves (hmove : Moves rules a b) :
    (∀ t q, b.parties t = some q → q.acts → ∃ p, a.parties t = some p ∧ p.acts) ∨
      ∃ n, ∀ t q, b.parties t = some q → q.acts → t = n := by
  cases hmove with
  | outside => exact .inl fun t q hq hacts => ⟨q, hq, hacts⟩
  | @does t' p q' c hp hdoes =>
      refine .inl fun t q hq hacts => ?_
      rcases Pool.parties_put_eq_some.mp hq with ⟨rfl, rfl⟩ | ⟨-, hq⟩
      · exact ⟨p, hp, Does.acts hdoes hacts⟩
      · exact ⟨q, hq, hacts⟩
  | @comes n q' c hnew hcomes =>
      by_cases hacts' : q'.acts
      · refine .inr ⟨n, fun t q hq hacts => ?_⟩
        rcases Pool.parties_put_eq_some.mp hq with ⟨rfl, -⟩ | ⟨-, hq⟩
        · rfl
        · exact absurd hacts (Comes.calm hcomes hacts' t q hq)
      · refine .inl fun t q hq hacts => ?_
        rcases Pool.parties_put_eq_some.mp hq with ⟨-, rfl⟩ | ⟨-, hq⟩
        · exact absurd hacts hacts'
        · exact ⟨q, hq, hacts⟩

theorem Lifecycle.own (hfit : p.Fit) (hplaced : p.Placed a.core.supervisor t)
    (h : Does rules a t p c q) : q.Placed c.supervisor t := by
  obtain ⟨hjoining, hreturning⟩ := h.waits
  rcases h.supervisor with hsame | ⟨s, hphase, -, hnone, hdropping⟩
  · rw [hsame]
    exact {
      supervises := fun hrole hphase =>
        hplaced.supervises (h.role ▸ hrole) (h.phase_ne_finished hphase)
      starts := fun hrole hphase hwaits =>
        hplaced.starts (h.role ▸ hrole) (h.phase_ne_finished hphase)
          fun hreturns => hphase (hreturning hreturns hwaits)
      joins := fun s hphase => hplaced.joins s (hjoining s hphase)
      supervisor := fun hsupervisor => h.role.trans (hplaced.supervisor hsupervisor) }
  · have hrole : q.role = .stop := h.role.trans (acts_of_joining hfit hphase).1
    rw [hnone]
    constructor <;> simp [hrole, hdropping]

theorem Lifecycle.beside (hfit : a.Fit) (h : a.Lifecycle) (hp : a.parties t = some p)
    (hbeside : Pool.Beside (behaviour rules) a t c) : p.Placed c.supervisor t := by
  have hplaced : p.Placed a.core.supervisor t := h.placed t p hp
  cases hbeside with
  | outside houtside => cases houtside <;> exact hplaced
  | @does t' p' q hne hp' hdoes =>
      rcases Does.supervisor hdoes with hsame | ⟨s, hphase, hended, hnone, -⟩
      · rw [hsame]
        exact hplaced
      · -- a `stop` has waited for the supervisor, which has ended
        have hs := (h.placed t' p' hp').joins s hphase
        have hacts := (acts_of_joining (hfit t' p' hp') hphase).2
        rw [hnone]
        refine ⟨fun hrole hruns => ?_, fun _ _ _ => rfl, fun s' hphase' => ?_, by simp⟩
        · obtain rfl : t = s := by simpa [hs] using (hplaced.supervises hrole hruns).symm
          exact absurd (hended p hp) hruns
        · exact absurd (h.unique hp (acts_of_joining (hfit t p hp) hphase').2 hp' hacts) hne
  | @comes n q hne hnew hcomes =>
      cases hcomes with
      | @supervises t' p' hp' hrole' hphase' hsupervisor =>
          -- the `start` that brings the supervisor is the only one
          have hacts' : p'.acts := by simp [Party.acts, hrole', hphase']
          rw [hsupervisor] at hplaced
          refine ⟨fun hrole hphase => ?_, fun hrole hphase hwaits => ?_, fun s hphase => ?_,
            fun hs => ?_⟩
          · simpa using hplaced.supervises hrole hphase
          · -- a second `start` would have to be the one that returns
            have hacts : p.acts := by simp [Party.acts, hrole, hphase]
            obtain rfl := h.unique hp hacts hp' hacts'
            obtain rfl : p = p' := by simpa [hp] using hp'
            exact absurd hphase' hwaits
          · simpa using hplaced.joins s hphase
          · exact absurd (by simpa using hs) hne.symm
      | _ => exact hplaced

theorem Lifecycle.new (h : a.Lifecycle) (hnew : a.parties n = none) (hcomes : Comes rules a n c q) :
    q.Placed c.supervisor n := by
  have hother : a.core.supervisor ≠ some n := fun hsupervisor => by
    simpa [hnew] using h.present n hsupervisor
  cases hcomes with
  | supervises => constructor <;> simp
  | starts hstarts hcalm hsupervisor => constructor <;> simp [hsupervisor]
  | stops hstops hcalm hsupervisor => constructor <;> simp [hsupervisor]
  | stopsSupervisor hstops hcalm hsupervisor =>
      rw [hsupervisor] at hother
      constructor <;> simp_all
  | yields => constructor <;> simp [hother]

theorem Lifecycle.moves (hfit : a.Fit) (h : a.Lifecycle) (hmove : Moves rules a b) :
    b.Lifecycle where
  placed := by
    refine Pool.Each.moves h.placed hmove (fun hp hplaced hdoes => ?_) h.new (fun hp _ => ?_)
    · exact own (hfit _ _ hp) hplaced hdoes
    · exact h.beside hfit hp
  unique := by
    intro t p t' p' hp hacts hp' hacts'
    rcases acts_of_moves hmove with hold | ⟨n, hnew⟩
    · obtain ⟨q, hq, hqacts⟩ := hold t p hp hacts
      obtain ⟨q', hq', hqacts'⟩ := hold t' p' hp' hacts'
      exact h.unique hq hqacts hq' hqacts'
    · rw [hnew t p hp hacts, hnew t' p' hp' hacts']
  present s hs := by
    cases hmove with
    | outside houtside => cases houtside <;> exact h.present s hs
    | does hp hdoes =>
        rcases Does.supervisor hdoes with hsame | ⟨-, -, -, hnone, -⟩
        · exact Pool.isSome_put (h.present s (hsame ▸ hs))
        · simp [hnone] at hs
    | @comes n q c hnew hcomes =>
        by_cases hne : s = n
        · simp [hne]
        · have hsame : c.supervisor = a.core.supervisor := by
            cases hcomes with
            | supervises => exact absurd (by simpa using hs.symm) hne
            | _ => rfl
          exact Pool.isSome_put (h.present s (hsame ▸ hs))

/-- Of those that connect, one at a time does. -/
theorem Lifecycle.connector_unique (h : a.Lifecycle) (hp : a.parties t = some p)
    (hrole : p.role.connects) (hphase : p.phase ≠ .finished) (hwaits : p.phase ≠ .returning)
    (hp' : a.parties t' = some p') (hrole' : p'.role.connects) (hphase' : p'.phase ≠ .finished)
    (hwaits' : p'.phase ≠ .returning) : t = t' := by
  have hplaced : p.Placed a.core.supervisor t := h.placed t p hp
  have hplaced' : p'.Placed a.core.supervisor t' := h.placed t' p' hp'
  rcases of_decide_eq_true hrole with hstart | hsupervise <;>
    rcases of_decide_eq_true hrole' with hstart' | hsupervise'
  · exact h.unique hp (by simp [Party.acts, hstart, hphase]) hp'
      (by simp [Party.acts, hstart', hphase'])
  · have hnone := hplaced.starts hstart hphase hwaits
    rw [hnone] at hplaced'
    exact absurd (hplaced'.supervises hsupervise' hphase') (by simp)
  · have hnone := hplaced'.starts hstart' hphase' hwaits'
    rw [hnone] at hplaced
    exact absurd (hplaced.supervises hsupervise hphase) (by simp)
  · have hs := hplaced.supervises hsupervise hphase
    rw [hplaced'.supervises hsupervise' hphase'] at hs
    simpa using hs.symm

/-! ### Who hears the device -/

/-- There is a supervisor, or somebody starts or stops. -/
def Awake (a : Slot) : Prop :=
  a.core.supervisor ≠ none ∨ ∃ t p, a.parties t = some p ∧ p.acts

/-- What the link coroutines know of the reader. -/
structure Heard (a : Slot) : Prop where
  quiet : a.Each fun c _ p => p.phase.quiet → c.running = false
  current : a.core.running → a.core.startedOn = some a.core.connection
  awake : a.core.running → a.Awake

theorem Heard.awake_moves (hfit : a.Fit) (hlifecycle : a.Lifecycle) (h : a.Heard)
    (hmove : Moves rules a b) (hrunning : b.core.running) : b.Awake := by
  cases hmove with
  | outside houtside => cases houtside <;> exact h.awake hrunning
  | @does t p q c hp hdoes =>
      have hput : (a.put t c q).parties t = some q := Pool.parties_put_self
      have hquiet := h.quiet t p hp
      rcases Does.reader hquiet hdoes with hnot | ⟨hphase, hreturns, -, hsame⟩ | ⟨hsame, -, -⟩
      · simp [hnot] at hrunning
      · -- `start` or the supervisor has just connected
        have hconnects : p.role.connects := by simpa [hphase, Phase.fits] using (hfit t p hp).fits
        rcases of_decide_eq_true hconnects with hrole | hrole
        · refine .inr ⟨t, q, hput, ?_⟩
          simp [Party.acts, Does.role hdoes, hreturns, hrole, Role.back]
        · have hs := (hlifecycle.placed t p hp).supervises hrole (by simp [hphase])
          exact .inl (by simp [hsame, hs])
      · rcases h.awake (hsame ▸ hrunning) with hsome | ⟨t', p', hp', hacts⟩
        · rcases Does.supervisor hdoes with hsame | ⟨s, hphase, -, -, hdrops⟩
          · exact .inl (by rwa [Pool.core_put, hsame])
          · refine .inr ⟨t, q, hput, ?_⟩
            simp [Party.acts, Does.role hdoes, (acts_of_joining (hfit t p hp) hphase).1, hdrops]
        · by_cases hne : t' = t
          · subst hne
            obtain rfl : p = p' := by simpa [hp] using hp'
            rcases Does.leaves (hfit t' p hp) hquiet hdoes hrunning hacts with hacts | hsome
            · exact .inr ⟨t', q, hput, hacts⟩
            · exact .inl hsome
          · exact .inr ⟨t', p', by rwa [Pool.parties_put_of_ne hne], hacts⟩
  | @comes n q c hnew hcomes =>
      rcases h.awake ((Comes.reader hcomes).1 ▸ hrunning) with hsome | ⟨t', p', hp', hacts⟩
      · refine .inl ?_
        cases hcomes with
        | supervises => simp
        | _ => exact hsome
      · have hne : t' ≠ n := fun heq => by simp [heq, hnew] at hp'
        exact .inr ⟨t', p', by rwa [Pool.parties_put_of_ne hne], hacts⟩

/-- Nobody is there to make the reader run. -/
theorem Heard.asleep (h : a.Heard) (hcalm : a.Calm) (hsupervisor : a.core.supervisor = none) :
    a.core.running = false := by
  by_contra hrunning
  rcases h.awake (by simpa using hrunning) with hsome | ⟨t, p, hp, hacts⟩
  · exact hsome hsupervisor
  · exact hcalm t p hp hacts

theorem Heard.quiet_own (hquiet : p.phase.quiet → a.core.running = false)
    (h : Does rules a t p c q) (hq : q.phase.quiet) : c.running = false := by
  have hback : p.role.back.quiet = false := by cases p.role <;> rfl
  cases h with
  | tears => rfl
  | reclaims hrole hphase => exact hquiet (by rw [hphase]; rfl)
  | connects hphase | connected hphase => exact hquiet (by rw [hphase]; rfl)
  | trusts | unsettles | cancels | survives => exact hquiet hq
  | abandons | listens => simp [hback] at hq
  | _ => simp [Phase.quiet, Phase.holds] at hq

theorem connects_of_quiet (hp : p.Fit) (hquiet : p.phase.quiet) :
    p.phase = .tearing ∨ p.role.connects ∧ p.phase ≠ .finished ∧ p.phase ≠ .returning := by
  obtain ⟨hfits, -⟩ := hp
  cases hphase : p.phase <;> simp_all [Phase.quiet, Phase.holds, Phase.fits]

theorem Heard.quiet_beside (hfit : a.Fit) (hexclusive : a.Exclusive) (hlifecycle : a.Lifecycle)
    (h : a.Heard) (hp : a.parties t = some p) (hbeside : Pool.Beside (behaviour rules) a t c)
    (hquiet : p.phase.quiet) : c.running = false := by
  have hnot : a.core.running = false := h.quiet t p hp hquiet
  cases hbeside with
  | outside houtside => cases houtside <;> exact hnot
  | @does t' p' q hne hp' hdoes =>
      rcases Does.reader (h.quiet t' p' hp') hdoes with hnot | ⟨hphase, -⟩ | ⟨hsame, -⟩
      · exact hnot
      · -- the one that has just connected had the lock, and is the only one to connect
        exfalso
        apply hne
        have hconnects : p'.role.connects := by
          simpa [hphase, Phase.fits] using (hfit t' p' hp').fits
        rcases connects_of_quiet (hfit t p hp) hquiet with htears | ⟨hrole, hruns, hwaits⟩
        · have hholder : a.core.holder = some t :=
            (hexclusive.holder t p hp).mp (by rw [htears]; rfl)
          have hholder' : a.core.holder = some t' :=
            (hexclusive.holder t' p' hp').mp (by rw [hphase]; rfl)
          simpa [hholder] using hholder'
        · exact hlifecycle.connector_unique hp hrole hruns hwaits hp' hconnects (by simp [hphase])
            (by simp [hphase])
      · rw [hsame]
        exact hnot
  | comes hne hnew hcomes =>
      rw [(Comes.reader hcomes).1]
      exact hnot

theorem Heard.moves (hfit : a.Fit) (hexclusive : a.Exclusive) (hlifecycle : a.Lifecycle)
    (h : a.Heard) (hmove : Moves rules a b) : b.Heard where
  quiet := by
    refine Pool.Each.moves h.quiet hmove (fun _ hquiet hdoes => quiet_own hquiet hdoes)
      (fun hnew hcomes hquiet => ?_)
      (fun hp _ hbeside => h.quiet_beside hfit hexclusive hlifecycle hp hbeside)
    cases hcomes with
    | starts hstarts hcalm hsupervisor => exact h.asleep hcalm hsupervisor
    | _ => simp [Phase.quiet, Phase.holds] at hquiet
  current := by
    cases hmove with
    | outside houtside => cases houtside <;> exact h.current
    | does hp hdoes =>
        rcases Does.reader (h.quiet _ _ hp) hdoes with
          hnot | ⟨-, -, hcurrent, -⟩ | ⟨hrunning, hstarted, hconnection⟩
        · simp [hnot]
        · exact fun _ => hcurrent
        · rw [Pool.core_put, hrunning, hstarted, hconnection]
          exact h.current
    | comes hnew hcomes =>
        obtain ⟨hrunning, hstarted, hconnection⟩ := Comes.reader hcomes
        rw [Pool.core_put, hrunning, hstarted, hconnection]
        exact h.current
  awake := h.awake_moves hfit hlifecycle hmove

/-! ### In every run -/

structure Sound (a : Slot) : Prop where
  fit : a.Fit
  exclusive : a.Exclusive
  lifecycle : a.Lifecycle
  heard : a.Heard

theorem each_unused (I : Core → ℕ → Party → Prop) : Pool.Each I unused :=
  fun _ _ hp => by simp [unused] at hp

theorem sound_unused : Sound unused where
  fit := each_unused _
  exclusive := ⟨each_unused _, by simp [unused]⟩
  lifecycle := ⟨each_unused _, by simp [unused], by simp [unused]⟩
  heard := ⟨each_unused _, by simp [unused], by simp [unused]⟩

theorem Sound.moves (h : a.Sound) (hmove : Moves rules a b) : b.Sound where
  fit := h.fit.moves hmove
  exclusive := h.exclusive.moves hmove
  lifecycle := h.lifecycle.moves h.fit hmove
  heard := h.heard.moves h.fit h.exclusive h.lifecycle hmove

end Slot

end Bedjet.Service
