import Bedjet.Service.Slot

/-!
What a move of the slot can do, one side of it at a time: to the party itself, to
the lock, to the supervisor, to the reader, to the link, to a yield.
-/

namespace Bedjet.Service

/-- The party is in a phase of its role, and only supervisors are cancelled. -/
structure Party.Fit (p : Party) : Prop where
  fits : p.phase.fits p.role
  cancelled : p.cancelled → p.role = .supervise

namespace Slot

variable {rules : Rules} {a : Slot} {t n : ℕ} {p q : Party} {c : Core}

/-! ### The party itself -/

theorem Does.role (h : Does rules a t p c q) : q.role = p.role := by
  cases h <;> rfl

theorem back_fits {role : Role} (h : role.connects) : role.back.fits role := by
  cases role <;> simp_all [Role.connects, Role.back, Phase.fits]

theorem Does.fit (hp : p.Fit) (h : Does rules a t p c q) : q.Fit := by
  obtain ⟨hfits, hcancelled⟩ := hp
  have hdone : Phase.finished.fits p.role := rfl
  cases h with
  | trusts | unsettles => exact ⟨hfits, hcancelled⟩
  | cancels hstops hrole => exact ⟨hfits, fun _ => hrole⟩
  | survives => exact ⟨hfits, by simp⟩
  | dies => exact ⟨hdone, by simp⟩
  | abandons hphase => exact ⟨back_fits (by simpa [hphase, Phase.fits] using hfits), hcancelled⟩
  | listens hphase => exact ⟨back_fits (by simpa [hphase, Phase.fits] using hfits), hcancelled⟩
  | yielded | stopped | givesUp | returned => exact ⟨hdone, hcancelled⟩
  | loses hrole | fails hrole => exact ⟨by simp [hrole, Phase.fits], hcancelled⟩
  | reclaims hrole => exact ⟨by simp [hrole, Phase.fits, Role.connects], hcancelled⟩
  | joins hphase =>
      have hrole : p.role = .stop := by simpa [hphase, Phase.fits] using hfits
      exact ⟨by simp [hrole, Phase.fits], hcancelled⟩
  | tears hphase | connects hphase | connected hphase =>
      exact ⟨by simpa [hphase, Phase.fits] using hfits, hcancelled⟩

/-- Who has ended has ended. -/
theorem Does.ended (h : Does rules a t p c q) (hphase : p.phase = .finished) :
    q.phase = .finished := by
  cases h <;> simp_all

theorem Does.phase_ne_finished (h : Does rules a t p c q) (hphase : q.phase ≠ .finished) :
    p.phase ≠ .finished :=
  fun hended => hphase (h.ended hended)

theorem Does.acts (h : Does rules a t p c q) (hacts : q.acts) : p.acts := by
  obtain ⟨hrole, hphase⟩ : (q.role = .start ∨ q.role = .stop) ∧ q.phase ≠ .finished :=
    of_decide_eq_true hacts
  rw [h.role] at hrole
  exact decide_eq_true ⟨hrole, h.phase_ne_finished hphase⟩

theorem Comes.calm (h : Comes rules a n c q) (hacts : q.acts) : a.Calm := by
  cases h with
  | starts hstarts hcalm => exact hcalm
  | stops hstops hcalm => exact hcalm
  | stopsSupervisor hstops hcalm => exact hcalm
  | supervises | yields => simp [Party.acts] at hacts

/-- Nobody begins to wait for the supervisor, and `start` leaves `returning` by
returning. -/
theorem Does.waits (h : Does rules a t p c q) :
    (∀ s, q.phase = .joining s → p.phase = .joining s) ∧
      (p.phase = .returning → q.phase ≠ .returning → q.phase = .finished) := by
  have hback (s : ℕ) : p.role.back ≠ .joining s := by cases p.role <;> simp [Role.back]
  cases h with
  | fails hrole hphase => exact ⟨by simp, fun hreturning => by simp [hreturning] at hphase⟩
  | givesUp => simp
  | _ => simp_all

/-! ### The lock -/

/-- The lock: left as it is, taken or released. -/
theorem Does.lock (h : Does rules a t p c q) :
    (c.holder = a.core.holder ∧ q.phase.holds = p.phase.holds) ∨
      (a.core.holder = none ∧ c.holder = some t ∧ q.phase.holds) ∨
      (p.phase.holds ∧ c.holder = none ∧ q.phase.holds = false) := by
  have hback : p.role.back.holds = false := by cases p.role <;> rfl
  have hback' : Phase.holds .finished = false := rfl
  cases h with
  | tears hphase hholder | connects hphase hholder => exact .inr (.inl ⟨hholder, rfl, rfl⟩)
  | reclaims hrole hphase | yielded hrole hphase | stopped hrole hphase =>
      exact .inr (.inr ⟨by rw [hphase]; rfl, rfl, rfl⟩)
  | fails hrole hphase | givesUp hrole hphase =>
      exact .inr (.inr ⟨by rcases hphase with h | h <;> rw [h] <;> rfl, rfl, rfl⟩)
  | listens hphase => exact .inr (.inr ⟨by rw [hphase]; rfl, rfl, hback⟩)
  | dies =>
      cases hholds : p.phase.holds
      · exact .inl ⟨rfl, rfl⟩
      · exact .inr (.inr ⟨rfl, rfl, rfl⟩)
  | trusts | unsettles | cancels | survives => exact .inl ⟨rfl, rfl⟩
  | abandons hphase => exact .inl ⟨rfl, by rw [hback, hphase]; rfl⟩
  | loses hrole hphase | connected hphase | returned hrole hphase | joins hphase =>
      exact .inl ⟨rfl, by rw [hphase]; rfl⟩

theorem Comes.holder (h : Comes rules a n c q) :
    c.holder = a.core.holder ∧ q.phase.holds = false := by
  cases h <;> exact ⟨rfl, rfl⟩

/-! ### The supervisor -/

theorem acts_of_joining (hp : p.Fit) {s : ℕ} (hphase : p.phase = .joining s) :
    p.role = .stop ∧ p.acts := by
  have hrole : p.role = .stop := by simpa [hphase, Phase.fits] using hp.fits
  exact ⟨hrole, by simp [Party.acts, hrole, hphase]⟩

/-- The supervisor is taken off only by a `stop` that has waited for its end. -/
theorem Does.supervisor (h : Does rules a t p c q) :
    c.supervisor = a.core.supervisor ∨
      ∃ s, p.phase = .joining s ∧ (∀ q, a.parties s = some q → q.phase = .finished) ∧
        c.supervisor = none ∧ q.phase = .dropping := by
  cases h with
  | joins hphase hended => exact .inr ⟨_, hphase, hended, rfl, rfl⟩
  | _ => exact .inl rfl

/-! ### The reader -/

theorem quiet_of_holds {phase : Phase} (h : phase.holds) : phase.quiet := by
  simp [Phase.quiet, h]

theorem Does.reader (hquiet : p.phase.quiet → a.core.running = false)
    (h : Does rules a t p c q) :
    c.running = false ∨
      (p.phase = .subscribing ∧ q.phase = p.role.back ∧ c.startedOn = some c.connection ∧
        c.supervisor = a.core.supervisor) ∨
      (c.running = a.core.running ∧ c.startedOn = a.core.startedOn ∧
        c.connection = a.core.connection) := by
  cases h with
  | tears => exact .inl rfl
  | connected hphase => exact .inl (hquiet (by rw [hphase]; rfl))
  | listens hphase => exact .inr (.inl ⟨hphase, rfl, rfl, rfl⟩)
  | _ => exact .inr (.inr ⟨rfl, rfl, rfl⟩)

theorem Comes.reader (h : Comes rules a n c q) :
    c.running = a.core.running ∧ c.startedOn = a.core.startedOn ∧
      c.connection = a.core.connection := by
  cases h <;> exact ⟨rfl, rfl, rfl⟩

/-- A `start` or `stop` that ends while the reader runs leaves a supervisor. -/
theorem Does.leaves (hfit : p.Fit) (hquiet : p.phase.quiet → a.core.running = false)
    (h : Does rules a t p c q) (hrunning : c.running) (hacts : p.acts) :
    q.acts ∨ c.supervisor ≠ none := by
  obtain ⟨hrole, hphase⟩ : (p.role = .start ∨ p.role = .stop) ∧ p.phase ≠ .finished :=
    of_decide_eq_true hacts
  have hgoes (hphase : q.phase ≠ .finished) : q.acts :=
    decide_eq_true ⟨by rwa [h.role], hphase⟩
  have hback : p.role.back ≠ .finished := by cases p.role <;> simp [Role.back]
  cases h with
  | yielded hyields => simp [hyields] at hrole
  | stopped hstops htears => exact absurd (hquiet (by rw [htears]; rfl)) (by simpa using hrunning)
  | givesUp hstarts hconnects =>
      have hholds : p.phase.holds := by rcases hconnects with h | h <;> rw [h] <;> rfl
      exact absurd (hquiet (quiet_of_holds hholds)) (by simpa using hrunning)
  | returned hstarts hreturns hsupervisor => exact .inr hsupervisor
  | dies hcancelled => simp [hfit.cancelled hcancelled] at hrole
  | abandons | listens => exact .inl (hgoes hback)
  | trusts | unsettles | cancels | survives => exact .inl (hgoes hphase)
  | _ => exact .inl (hgoes (by simp))

/-! ### The link, and a yield -/

/-- Whoever sets the link to connected connects, and is not at work on it after. -/
theorem Does.link (hfit : p.Fit) (h : Does rules a t p c q) :
    c.link = a.core.link ∨ c.link ≠ .connected ∨
      (p.role.connects ∧ p.phase ≠ .finished ∧ p.phase ≠ .returning ∧ q.phase.busy = false) := by
  cases h with
  | trusts hrole hphase => exact .inr (.inr (by simp [hrole, hphase, Role.connects, Phase.busy]))
  | listens hphase =>
      have hconnects : p.role.connects := by simpa [hphase, Phase.fits] using hfit.fits
      have hback : p.role.back.busy = false := by cases p.role <;> rfl
      exact .inr (.inr ⟨hconnects, by simp [hphase], by simp [hphase], hback⟩)
  | loses | yielded | stopped | givesUp => exact .inr (.inl (by simp))
  | _ => exact .inl rfl

theorem Does.busy (hfit : p.Fit) (h : Does rules a t p c q) (hrole : q.role.connects)
    (hbusy : q.phase.busy) : p.phase.busy ∨ c.link ≠ .connected := by
  have hback : p.role.back.busy = false := by cases p.role <;> rfl
  cases h with
  | loses => exact .inr (by simp)
  | joins hphase =>
      have hstop := (acts_of_joining hfit hphase).1
      simp [hstop, Role.connects] at hrole
  | trusts | unsettles | cancels | survives => exact .inl hbusy
  | abandons | listens => simp [hback] at hbusy
  | tears hphase | connects hphase | connected hphase | reclaims _ hphase =>
      exact .inl (by rw [hphase]; rfl)
  | _ => simp [Phase.busy] at hbusy

/-- The deadline goes by itself; to set it takes somebody who comes. -/
theorem Outside.yieldedBy (h : Outside a.core c) :
    c.yieldedBy = a.core.yieldedBy ∧ (c.yieldUntil = a.core.yieldUntil ∨ c.yieldUntil = none) := by
  cases h with
  | frees => exact ⟨rfl, .inr rfl⟩
  | drops => exact ⟨rfl, .inl rfl⟩

theorem Does.yieldedBy (h : Does rules a t p c q) :
    c.yieldedBy = a.core.yieldedBy ∧ c.yieldUntil = a.core.yieldUntil := by
  cases h <;> exact ⟨rfl, rfl⟩

theorem Comes.yieldedBy (h : Comes rules a n c q) :
    (c.yieldedBy = a.core.yieldedBy ∧ c.yieldUntil = a.core.yieldUntil) ∨
      (c.yieldedBy = some n ∧ q.role = .yieldLink) := by
  cases h with
  | yields => exact .inr ⟨rfl, rfl⟩
  | _ => exact .inl ⟨rfl, rfl⟩

/-- Who is not connecting begins to only while no yield is in force. -/
theorem Does.still (h : Does rules a t p c q)
    (hstill : p.phase ≠ .connecting ∧ p.phase ≠ .subscribing)
    (hnot : a.core.yieldUntil = none → ¬rules.connects) :
    q.phase ≠ .connecting ∧ q.phase ≠ .subscribing := by
  have hback : p.role.back ≠ .connecting ∧ p.role.back ≠ .subscribing := by
    cases p.role <;> simp [Role.back]
  cases h with
  | connects hphase hholder hfree hconnects => exact absurd hconnects (hnot hfree)
  | connected hphase => exact absurd hphase hstill.1
  | abandons | listens => exact hback
  | trusts | unsettles | cancels | survives => exact hstill
  | _ => simp

theorem Comes.still (h : Comes rules a n c q) :
    q.phase ≠ .connecting ∧ q.phase ≠ .subscribing := by
  cases h <;> simp

/-- A `yield_link` ends by giving the link away. -/
theorem Does.gives (hfit : p.Fit) (h : Does rules a t p c q) (hrole : p.role = .yieldLink)
    (hphase : q.phase = .finished) :
    p.phase = .finished ∨ p.phase = .tearing ∧ c.isConnected = false ∧ c.link = .yielded := by
  have hback : p.role.back ≠ .finished := by cases p.role <;> simp [Role.back]
  cases h with
  | yielded hrole' hphase' hdown => exact .inr ⟨hphase', hdown, rfl⟩
  | trusts | unsettles | cancels | survives => exact .inl hphase
  | stopped hrole' | givesUp hrole' | returned hrole' => simp [hrole] at hrole'
  | dies hcancelled => simp [hfit.cancelled hcancelled] at hrole
  | abandons | listens => exact absurd hphase hback
  | _ => simp at hphase

end Slot

end Bedjet.Service
