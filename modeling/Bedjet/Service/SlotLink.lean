import Bedjet.Service.SlotSafety

/-!
What the session says of the link, and what becomes of it once it is yielded: a
yield that has returned has released the link.
-/

namespace Bedjet.Service.Slot

open Asyncio

variable {rules : Rules} {a b : Slot} {t n : ℕ} {p q : Party} {c : Core}

/-! ### A session that says it is connected -/

/-- The session is told to be connected only by one who knows. -/
structure Reports (a : Slot) : Prop where
  busy : a.Each fun c _ p => p.role.connects → p.phase.busy → c.link ≠ .connected
  listening : a.core.link = .connected → a.core.isConnected → a.core.holder = none →
    a.core.running

theorem Reports.busy_beside (hfit : a.Fit) (hlifecycle : a.Lifecycle) (h : a.Reports)
    (hp : a.parties t = some p) (hbeside : Pool.Beside (behaviour rules) a t c)
    (hrole : p.role.connects) (hbusy : p.phase.busy) : c.link ≠ .connected := by
  have hnot : a.core.link ≠ .connected := h.busy t p hp hrole hbusy
  obtain ⟨-, hwaits, hruns⟩ : p.phase ≠ .idle ∧ p.phase ≠ .returning ∧ p.phase ≠ .finished :=
    of_decide_eq_true hbusy
  cases hbeside with
  | outside houtside => cases houtside <;> exact hnot
  | @does t' p' q hne hp' hdoes =>
      rcases Does.link (hfit t' p' hp') hdoes with hsame | hother | ⟨hconnects, hruns', hwaits', -⟩
      · rwa [hsame]
      · exact hother
      · -- only one of them connects at a time
        exact absurd
          (hlifecycle.connector_unique hp hrole hruns hwaits hp' hconnects hruns' hwaits') hne
  | comes hne hnew hcomes =>
      cases hcomes with
      | starts => simp
      | _ => exact hnot

theorem Reports.listening_does (htrusts : ∀ c, rules.trusts c → c.holder = none → c.running)
    (hfit : p.Fit) (hexclusive : p.phase.holds ↔ a.core.holder = some t)
    (hbusy : p.role.connects → p.phase.busy → a.core.link ≠ .connected)
    (h : a.core.link = .connected → a.core.isConnected → a.core.holder = none → a.core.running)
    (hdoes : Does rules a t p c q) :
    c.link = .connected → c.isConnected → c.holder = none → c.running := by
  cases hdoes with
  | trusts hrole hphase hfree hconnected htrusts' => exact fun _ _ => htrusts a.core htrusts'
  | tears | connects => simp
  | reclaims hrole hphase hdown => simp [hdown]
  | connected hphase | unsettles hphase =>
      have hholder : a.core.holder = some t := hexclusive.mp (by rw [hphase]; rfl)
      simp [hholder]
  | fails hrole hphase =>
      have hphase' : p.phase.busy := by rcases hphase with h | h <;> rw [h] <;> rfl
      exact fun hlink => absurd hlink (hbusy (by rw [hrole]; rfl) hphase')
  | listens => exact fun _ _ _ => rfl
  | dies hcancelled =>
      cases hholds : p.phase.holds
      · simpa using h
      · have hphase : p.phase.busy := by
          rcases of_decide_eq_true hholds with h | h | h <;> rw [h] <;> rfl
        have hrole : p.role.connects := by rw [hfit.cancelled hcancelled]; rfl
        exact fun hlink => absurd hlink (hbusy hrole hphase)
  | loses | yielded | stopped | givesUp => simp
  | _ => exact h

theorem Reports.moves (htrusts : ∀ c, rules.trusts c → c.holder = none → c.running)
    (hfit : a.Fit) (hexclusive : a.Exclusive) (hlifecycle : a.Lifecycle) (h : a.Reports)
    (hmove : Moves rules a b) : b.Reports where
  busy := by
    refine Pool.Each.moves h.busy hmove (fun {t p c q} hp hbusy hdoes hrole hq => ?_)
      (fun {t c q} _ hcomes hrole hq => ?_) (fun hp _ => h.busy_beside hfit hlifecycle hp)
    · rcases Does.busy (hfit t p hp) hdoes hrole hq with hbusy' | hother
      · rcases Does.link (hfit t p hp) hdoes with hsame | hother | ⟨-, -, -, hnot⟩
        · rw [hsame]
          exact hbusy (Does.role hdoes ▸ hrole) hbusy'
        · exact hother
        · simp [hnot] at hq
      · exact hother
    · cases hcomes with
      | starts => simp
      | supervises => simp [Phase.busy] at hq
      | _ => simp [Role.connects] at hrole
  listening := by
    cases hmove with
    | outside houtside =>
        cases houtside with
        | frees => exact h.listening
        | drops => simp
    | does hp hdoes =>
        exact listening_does htrusts (hfit _ _ hp) (hexclusive.holder _ _ hp) (h.busy _ _ hp)
          h.listening hdoes
    | comes hnew hcomes =>
        cases hcomes with
        | starts => simp
        | _ => exact h.listening

/-! ### A yield, and who asked for it -/

/-- While a yield is in force, the party that asked for it is there; nobody
stops the session. -/
structure Yielding (a : Slot) : Prop where
  noStop : a.Each fun _ _ p => p.role ≠ .stop
  yielder : a.Each fun c t p => c.yieldedBy = some t → p.role = .yieldLink
  present : ∀ t, a.core.yieldedBy = some t → (a.parties t).isSome

theorem yieldedBy_of_beside (h : Pool.Beside (behaviour rules) a t c)
    (ht : c.yieldedBy = some t) : a.core.yieldedBy = some t := by
  cases h with
  | outside houtside => rwa [← (Outside.yieldedBy houtside).1]
  | does hne hp hdoes => rwa [← (Does.yieldedBy hdoes).1]
  | comes hne hnew hcomes =>
      rcases Comes.yieldedBy hcomes with ⟨hsame, -⟩ | ⟨hother, -⟩
      · rwa [← hsame]
      · exact absurd (by simpa [hother] using ht.symm) hne

theorem Yielding.moves (hstops : ¬rules.stops) (h : a.Yielding) (hmove : Moves rules a b) :
    b.Yielding where
  noStop := by
    refine Pool.Each.moves h.noStop hmove (fun _ hstop hdoes => ?_) (fun _ hcomes => ?_)
      (fun _ hstop _ => hstop)
    · rwa [Does.role hdoes]
    · cases hcomes with
      | stops hstops' | stopsSupervisor hstops' => exact absurd hstops' hstops
      | _ => simp
  yielder := by
    refine Pool.Each.moves h.yielder hmove (fun _ hyielder hdoes => ?_)
      (fun {t c q} hnew hcomes => ?_)
      (fun _ hyielder hbeside ht => hyielder (yieldedBy_of_beside hbeside ht))
    · rw [Does.role hdoes, (Does.yieldedBy hdoes).1]
      exact hyielder
    · intro ht
      rcases Comes.yieldedBy hcomes with ⟨hsame, -⟩ | ⟨-, hrole⟩
      · simpa [hnew] using h.present t (hsame ▸ ht)
      · exact hrole
  present t ht := by
    cases hmove with
    | outside houtside => exact h.present t ((Outside.yieldedBy houtside).1 ▸ ht)
    | does hp hdoes => exact Pool.isSome_put (h.present t ((Does.yieldedBy hdoes).1 ▸ ht))
    | @comes n q c hnew hcomes =>
        rcases Comes.yieldedBy hcomes with ⟨hsame, -⟩ | ⟨hother, -⟩
        · exact Pool.isSome_put (h.present t (hsame ▸ ht))
        · obtain rfl : n = t := by simpa [hother] using ht
          simp

/-! ### What a yield that has returned leaves -/

/-- The yield in force has returned. -/
def YieldReturned (a : Slot) : Prop :=
  a.core.yieldUntil ≠ none ∧
    ∃ t p, a.core.yieldedBy = some t ∧ a.parties t = some p ∧ p.phase = .finished

/-- Nobody is connecting. -/
def Still (a : Slot) : Prop :=
  a.Each fun _ _ p => p.phase ≠ .connecting ∧ p.phase ≠ .subscribing

theorem Still.moves (hnot : a.core.yieldUntil = none → ¬rules.connects) (h : a.Still)
    (hmove : Moves rules a b) : b.Still :=
  Pool.Each.moves h hmove (fun _ hstill hdoes => Does.still hdoes hstill hnot)
    (fun _ hcomes => Comes.still hcomes) (fun _ hstill _ => hstill)

/-- The link is given away, and nobody is about to take it. -/
structure Released (a : Slot) : Prop where
  down : a.core.isConnected = false
  link : a.core.link = .yielded
  still : a.Still

/-- While one party tears down nobody connects, and what it does next leaves it so. -/
theorem Exclusive.still (h : a.Exclusive) (hp : a.parties t = some p) (hphase : p.phase = .tearing)
    (hq : q.phase = .finished) (c : Core) : Still (a.put t c q) := by
  have hholder : a.core.holder = some t := (h.holder t p hp).mp (by rw [hphase]; rfl)
  intro t' p' hp'
  rcases Pool.parties_put_eq_some.mp hp' with ⟨-, rfl⟩ | ⟨hne, hp'⟩
  · simp [hq]
  · have hnot : ¬p'.phase.holds := fun hholds => by
      have hholder' : a.core.holder = some t' := (h.holder t' p' hp').mp hholds
      exact hne (by simpa [hholder] using hholder'.symm)
    exact ⟨fun h => hnot (by rw [h]; rfl), fun h => hnot (by rw [h]; rfl)⟩

/-- A yield that returns leaves the link released, and one that has returned had
returned before. -/
theorem yieldReturned_of_moves (hfit : a.Fit) (hexclusive : a.Exclusive) (hyielding : a.Yielding)
    (hmove : Moves rules a b) (h : b.YieldReturned) : a.YieldReturned ∨ b.Released := by
  obtain ⟨hset, y, q, hy, hq, hphase⟩ := h
  cases hmove with
  | outside houtside =>
      obtain ⟨hsame, hkept | hnone⟩ := Outside.yieldedBy houtside
      · exact .inl ⟨hkept ▸ hset, y, q, hsame ▸ hy, hq, hphase⟩
      · exact absurd hnone hset
  | @does t p q' c hp hdoes =>
      obtain ⟨hsame, hkept⟩ := Does.yieldedBy hdoes
      rcases Pool.parties_put_eq_some.mp hq with ⟨rfl, rfl⟩ | ⟨hne, hq⟩
      · have hrole : p.role = .yieldLink := hyielding.yielder y p hp (hsame ▸ hy)
        -- the one that returns is the yield in force, at the end of its teardown
        rcases Does.gives (hfit y p hp) hdoes hrole hphase with hended | ⟨htears, hdown, hlink⟩
        · exact .inl ⟨hkept ▸ hset, y, p, hsame ▸ hy, hp, hended⟩
        · exact .inr ⟨hdown, hlink, hexclusive.still hp htears hphase c⟩
      · exact .inl ⟨hkept ▸ hset, y, q, hsame ▸ hy, hq, hphase⟩
  | @comes n q' c hnew hcomes =>
      rcases Pool.parties_put_eq_some.mp hq with ⟨rfl, rfl⟩ | ⟨hne, hq⟩
      · cases hcomes <;> simp at hphase
      · rcases Comes.yieldedBy hcomes with ⟨hsame, hkept⟩ | ⟨hother, -⟩
        · exact .inl ⟨hkept ▸ hset, y, q, hsame ▸ hy, hq, hphase⟩
        · exact absurd (by simpa [hother] using hy.symm) hne

/-- What is released stays so while the yield is in force. -/
theorem Released.moves (hstarts : ∀ c, rules.starts c → c.yieldUntil = none)
    (hyielding : a.Yielding) (h : a.Released) (hmove : Moves rules a b)
    (hset : a.core.yieldUntil ≠ none) : b.Released := by
  have hstill := h.still.moves (fun hfree => absurd hfree hset) hmove
  obtain ⟨hdown, hlink, hbefore⟩ := h
  suffices hcore : b.core.isConnected = false ∧ b.core.link = .yielded from
    ⟨hcore.1, hcore.2, hstill⟩
  cases hmove with
  | outside houtside =>
      cases houtside with
      | frees => exact ⟨hdown, hlink⟩
      | drops => exact ⟨rfl, hlink⟩
  | @does t p q c hp hdoes =>
      obtain ⟨hconnecting, hsubscribing⟩ := hbefore t p hp
      cases hdoes with
      | trusts hrole hphase hfree | loses hrole hphase hfree => exact absurd hfree hset
      | connected hphase | unsettles hphase => exact absurd hphase hconnecting
      | listens hphase => exact absurd hphase hsubscribing
      | givesUp hrole hphase => exact (hphase.elim hconnecting hsubscribing).elim
      | stopped hrole => exact absurd hrole (hyielding.noStop t p hp)
      | yielded => exact ⟨hdown, rfl⟩
      | _ => exact ⟨hdown, hlink⟩
  | comes hnew hcomes =>
      cases hcomes with
      | starts hstart => exact absurd (hstarts _ hstart) hset
      | _ => exact ⟨hdown, hlink⟩

/-- What holds besides in runs in which nobody stops the session. -/
structure GivesAway (a : Slot) : Prop where
  yielding : a.Yielding
  released : a.YieldReturned → a.Released

theorem givesAway_unused : GivesAway unused where
  yielding := ⟨each_unused _, each_unused _, by simp [unused]⟩
  released hreturned := absurd rfl hreturned.1

theorem GivesAway.moves (hstarts : ∀ c, rules.starts c → c.yieldUntil = none)
    (hstops : ¬rules.stops) (hsound : a.Sound) (h : a.GivesAway) (hmove : Moves rules a b) :
    b.GivesAway where
  yielding := h.yielding.moves hstops hmove
  released hreturned := by
    rcases yieldReturned_of_moves hsound.fit hsound.exclusive h.yielding hmove hreturned with
      hbefore | hreleased
    · exact (h.released hbefore).moves hstarts h.yielding hmove hbefore.1
    · exact hreleased

end Bedjet.Service.Slot
