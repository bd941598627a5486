import Bedjet.Api.Steps
import Bedjet.Device.Trust

/-!
What a command's ending is evidence of. Every command keeps, as it goes, an
account of its own writes and of the readings it may end on (`Ledger`); the
account says what each ending means, whatever packets, failures and other
commands come in between.
-/

namespace Bedjet.Api

open Python Protocol Device Service Asyncio History

/-! ### Writes, and where readings come from -/

/-- The payloads command `i` handed to `transport.write`, the last one first. -/
def writesOf (i : ℕ) (trace : List Event) : List Bytes :=
  trace.filterMap fun
    | .command j (.wrote payload) => if j = i then some payload else none
    | _ => none

theorem writesOf_append (i : ℕ) (events trace : List Event) :
    writesOf i (events ++ trace) = writesOf i events ++ writesOf i trace :=
  List.filterMap_append

theorem mem_writesOf {i : ℕ} {payload : Bytes} {trace : List Event} :
    payload ∈ writesOf i trace ↔ .command i (.wrote payload) ∈ trace := by
  simp only [writesOf, List.mem_filterMap]
  constructor
  · rintro ⟨e, he, hpayload⟩
    split at hpayload
    · split at hpayload
      · rename_i hji
        obtain rfl := Option.some.inj hpayload
        exact hji ▸ he
      · simp at hpayload
    · simp at hpayload
  · intro h
    exact ⟨_, h, by simp⟩

theorem writesOf_eq_nil {i : ℕ} {trace : List Event}
    (h : ∀ payload, .command i (.wrote payload) ∉ trace) : writesOf i trace = [] := by
  rw [List.eq_nil_iff_forall_not_mem]
  intro payload hmem
  exact h payload (mem_writesOf.mp hmem)

/-- The byte strings handed to the decoder: a notification or a poll read alone,
or a notification and the read that followed it up. -/
inductive Delivered (trace : List Event) : ℕ → Bytes → Prop
  | whole {chunk : ℕ} {data : Bytes} (h : .reader (.heard chunk data) ∈ trace) :
      Delivered trace chunk data
  | completed {chunk : ℕ} {first remainder : Bytes} (h : .reader (.heard chunk first) ∈ trace)
      (h' : .reader (.readBack chunk remainder) ∈ trace) :
      Delivered trace chunk (reassemble first remainder)

theorem Delivered.mono {trace trace' : List Event} {chunk : ℕ} {data : Bytes}
    (h : Delivered trace chunk data) (hsub : trace ⊆ trace') : Delivered trace' chunk data := by
  cases h with
  | whole h => exact .whole (hsub h)
  | completed h h' => exact .completed (hsub h) (hsub h')

/-- A reading decoded from delivered bytes that passed their checksum. -/
def Genuine (trace : List Event) (sample : Sample) : Prop :=
  ∃ chunk data, Delivered trace chunk data ∧ sample.MadeOf chunk data

/-! ### The account of one command -/

/-- A command has written and has no verdict yet. -/
structure Undecided (trace : List Event) (shared : Shared) (i : ℕ) (order : Order)
    (base : Sample) : Prop where
  writes : writesOf i trace = [order.payload]
  base : .published base ∈ trace
  latest : ∀ a, shared.latest = some a →
    Before (.command i (.wrote order.payload)) (.published a) trace

/-- What a returned result stands for. -/
structure Proven (trace : List Event) (i : ℕ) (request : Request) (result : CommandResult) :
    Prop where
  writes : writesOf i trace = [result.payload]
  completed : .command i .completed ∈ trace
  goal : ∃ goal, request.goal? = some goal ∧ goal.satisfied result.before.state = false ∧
    goal.satisfied result.after.state
  before : .published result.before ∈ trace
  after : Before (.command i (.wrote result.payload)) (.published result.after) trace

/-- What each ending says about the writes of the command. -/
def Settled (trace : List Event) (i : ℕ) (request : Request) (dryRun : Bool) : Ending → Prop
  | .returned result => if dryRun then writesOf i trace = [] else Proven trace i request result
  | .raised (.unverified _ _) => ∃ payload, writesOf i trace = [payload]
  | .raised (.refused _) | .raised (.alreadySatisfied _) | .raised (.encode _) =>
      writesOf i trace = []
  | .raised .assertion => True

/-- The account of command `i`. -/
def Ledger (trace : List Event) (shared : Shared) (i : ℕ) (c : Command) : Prop :=
  match c.pc with
  | .fresh | .baseline .. | .before .. => writesOf i trace = []
  | .writing order base _ => Undecided trace shared i order base
  | .settling order base _ _ =>
      Undecided trace shared i order base ∧ .command i .completed ∈ trace
  | .ended ending => Settled trace i c.request c.dryRun ending

section

variable {trace events : List Event} {shared shared' : Shared} {i : ℕ} {c : Command}

theorem Undecided.grow {order : Order} {base : Sample} (h : Undecided trace shared i order base)
    (hquiet : writesOf i events = [])
    (hlatest : ∀ a, shared'.latest = some a →
      shared.latest = some a ∨ ∃ earlier, events = .published a :: earlier) :
    Undecided (events ++ trace) shared' i order base := by
  have hwrote : .command i (.wrote order.payload) ∈ trace :=
    mem_writesOf.mp (by simp [h.writes])
  refine ⟨by rw [writesOf_append, hquiet, h.writes, List.nil_append],
    List.mem_append_right _ h.base, fun a ha => ?_⟩
  -- a reading published now comes after a write that is already on the record
  rcases hlatest a ha with ha | ⟨earlier, rfl⟩
  · exact (h.latest a ha).append events
  · exact before_head (List.mem_append_right _ hwrote)

theorem Proven.grow {request : Request} {result : CommandResult}
    (h : Proven trace i request result) (hquiet : writesOf i events = []) :
    Proven (events ++ trace) i request result where
  writes := by rw [writesOf_append, hquiet, h.writes, List.nil_append]
  completed := List.mem_append_right _ h.completed
  goal := h.goal
  before := List.mem_append_right _ h.before
  after := h.after.append events

theorem Settled.grow {request : Request} {dryRun : Bool} {ending : Ending}
    (h : Settled trace i request dryRun ending) (hquiet : writesOf i events = []) :
    Settled (events ++ trace) i request dryRun ending := by
  have hsame : writesOf i (events ++ trace) = writesOf i trace := by
    rw [writesOf_append, hquiet, List.nil_append]
  unfold Settled at h ⊢
  split at h
  · split at h
    · rename_i hdry
      rw [if_pos hdry, hsame, h]
    · rename_i hdry
      rw [if_neg hdry]
      exact h.grow hquiet
  · rwa [hsame]
  · rwa [hsame]
  · rwa [hsame]
  · rwa [hsame]
  · trivial

/-- An account stays right while others act: nothing is written on behalf of the
command, and what is held is what was held or was just published. -/
theorem Ledger.grow (h : Ledger trace shared i c) (hquiet : writesOf i events = [])
    (hlatest : ∀ a, shared'.latest = some a →
      shared.latest = some a ∨ ∃ earlier, events = .published a :: earlier) :
    Ledger (events ++ trace) shared' i c := by
  have hsame : writesOf i (events ++ trace) = writesOf i trace := by
    rw [writesOf_append, hquiet, List.nil_append]
  rw [Ledger] at h ⊢
  cases hpc : c.pc with
  | fresh => simpa [hpc, hsame] using h
  | baseline => simpa [hpc, hsame] using h
  | before => simpa [hpc, hsame] using h
  | writing =>
      simp only [hpc] at h ⊢
      exact h.grow hquiet hlatest
  | settling =>
      simp only [hpc] at h ⊢
      exact ⟨h.1.grow hquiet hlatest, List.mem_append_right _ h.2⟩
  | ended =>
      simp only [hpc] at h ⊢
      exact h.grow hquiet

theorem Ledger.mapWait (h : Ledger trace shared i c) (f : Wait → Wait) :
    Ledger trace shared i { c with pc := c.pc.mapWait f } := by
  unfold Ledger at *
  cases hpc : c.pc <;> simpa [hpc, Pc.mapWait] using h

end

/-! ### One segment keeps the account -/

section

variable {settleTimeout now : ℚ} {trace : List Event} {shared : Shared} {i : ℕ} {c : Command}
  {segment : Segment}

theorem writesOf_based {based : List CommandEvent}
    (hbased : ∀ x ∈ based, ∃ b, shared.latest = some b ∧ x = .based b) :
    writesOf i (based.map (.command i)) = [] := by
  apply writesOf_eq_nil
  intro payload hmem
  obtain ⟨x, hx, heq⟩ := List.mem_map.mp hmem
  obtain ⟨b, -, rfl⟩ := hbased x hx
  simp at heq

theorem Ledger.writesOf_early (h : Ledger trace shared i c) (hpc : c.pc.early) :
    writesOf i trace = [] := by
  rw [Ledger] at h
  cases hc : c.pc <;> simp_all [Pc.early]

theorem Ledger.of_writing (h : Ledger trace shared i c) {order : Order} {base : Sample}
    {delivered : Bool} (hpc : c.pc = .writing order base delivered) :
    Undecided trace shared i order base := by
  simpa [Ledger, hpc] using h

theorem Ledger.of_settling (h : Ledger trace shared i c) {order : Order} {base : Sample}
    {deadline : ℚ} {wait : Wait} (hpc : c.pc = .settling order base deadline wait) :
    Undecided trace shared i order base ∧ .command i .completed ∈ trace := by
  simpa [Ledger, hpc] using h

theorem ledger_of_decides (hlatest : ∀ a, shared.latest = some a → .published a ∈ trace)
    (hnone : writesOf i trace = []) (h : Decides c shared segment) :
    Ledger (segment.events.map (.command i) ++ trace) segment.shared i
      { c with pc := segment.pc } := by
  cases h with
  | @declines e based he hencode hbased =>
      have hwrites : writesOf i (based.map (.command i) ++ trace) = [] := by
        rw [writesOf_append, writesOf_based hbased, hnone, List.nil_append]
      cases e with
      | unverified => simp [Raised.early] at he
      | assertion => simp [Raised.early] at he
      | _ => exact hwrites
  | @pretends payload base based hdry hbase hbased =>
      have hwrites : writesOf i (based.map (.command i) ++ trace) = [] := by
        rw [writesOf_append, writesOf_based hbased, hnone, List.nil_append]
      simpa [Ledger, Settled, hdry, writesOf] using hwrites
  | @writes order base based hbase hwrote hbased =>
      refine ⟨?_, ?_, by simp⟩
      · have hwrites : writesOf i (based.map (.command i) ++ trace) = [] := by
          rw [writesOf_append, writesOf_based hbased, hnone, List.nil_append]
        simpa [writesOf] using hwrites
      · exact List.mem_append_right _ (hlatest base hbase)

/-- The settle loop ends a command only with what its account holds. -/
theorem ledger_of_settles {order : Order} {base : Sample} {deadline : ℚ} {why : Wakeup}
    (hwrote : Wrote c order base) (h : Undecided trace shared i order base)
    (hcompleted : .command i .completed ∈ trace)
    (hsettles : Settles now order base deadline shared why segment) :
    Ledger (segment.events.map (.command i) ++ trace) segment.shared i
      { c with pc := segment.pc } := by
  cases hsettles with
  | @confirms after hlatest htrust hgoal =>
      -- the write emptied the slot, so what it holds was published since
      have hproven : Proven trace i c.request
          { payload := order.payload, before := base, after } :=
        { writes := h.writes
          completed := hcompleted
          goal := ⟨order.goal, hwrote.orders.goal_eq, hwrote.unsatisfied, hgoal⟩
          before := h.base
          after := h.latest _ hlatest }
      have hsettled : Settled trace i c.request c.dryRun
          (.returned { payload := order.payload, before := base, after }) := by
        simpa [Settled, hwrote.dryRun] using hproven
      exact hsettled.grow rfl
  | waits => exact ⟨⟨h.writes, h.base, h.latest⟩, hcompleted⟩
  | @givesUp updated message =>
      have hsettled : Settled trace i c.request c.dryRun (.raised (.unverified message none)) :=
        ⟨order.payload, h.writes⟩
      exact hsettled.grow rfl
  | trips => trivial

theorem ledger_of_runs (hsound : c.Sound)
    (hlatest : ∀ a, shared.latest = some a → .published a ∈ trace)
    (h : Ledger trace shared i c) {why : Option Wakeup}
    (hruns : Runs settleTimeout now c shared why segment) :
    Ledger (segment.events.map (.command i) ++ trace) segment.shared i
      { c with pc := segment.pc } := by
  cases hruns with
  | decides hpc hdecides => exact ledger_of_decides hlatest (h.writesOf_early hpc) hdecides
  | @awaits pc hpc hnone hearly hwoken hsound =>
      -- a command that waits for its first reading has written nothing
      have hwrites := h.writesOf_early (by simp [hpc, Pc.early])
      have hpc' := hearly { due := now + settleTimeout }
      unfold Ledger awaitState
      dsimp only
      cases hc : pc { due := now + settleTimeout } <;> simp_all [Pc.early]
  | looks => exact h.mapWait _
  | misses => trivial
  | @linkFails order base delivered message text hpc =>
      have hsettled : Settled trace i c.request c.dryRun
          (.raised (.unverified text (some message))) :=
        ⟨order.payload, (h.of_writing hpc).writes⟩
      exact hsettled.grow rfl
  | returns hpc hsettles =>
      have hgrown : Undecided ([.command i .completed] ++ trace) shared i _ _ :=
        (h.of_writing hpc).grow rfl fun a ha => .inl ha
      have hledger := ledger_of_settles (hsound.wrote_of_writing hpc) hgrown (by simp) hsettles
      simpa [Segment.after, Segment.poke] using hledger
  | settles hpc hwhy hsettles =>
      obtain ⟨hundecided, hcompleted⟩ := h.of_settling hpc
      have hledger :=
        ledger_of_settles (hsound.wrote_of_settling hpc) hundecided hcompleted hsettles
      exact hledger

end

/-! ### The accounts of a whole run -/

namespace System

/-- All that has happened is accounted for. -/
structure Accounted (s : System) : Prop where
  numbered : ∀ j event, .command j event ∈ s.trace → j < s.commander.commands.length
  heads : ∀ chunk first, (chunk, first) ∈ s.lease.reader.pending →
    .reader (.heard chunk first) ∈ s.trace
  genuine : ∀ sample, .published sample ∈ s.trace → Genuine s.trace sample
  latest : ∀ a, s.commander.shared.latest = some a → .published a ∈ s.trace
  ledger : ∀ j d, s.commander.commands[j]? = some d → Ledger s.trace s.commander.shared j d

theorem accounted_initial : Accounted {} where
  numbered := by simp
  heads := by simp [Reader.pending]
  genuine := by simp
  latest := by simp
  ledger := by simp

variable {cfg : Config} {s s' : System}

/-- The link coroutines and the reader add what they see to the trace. -/
theorem Accounted.grow {events : List Event} (h : s.Accounted)
    (hcommander : s'.commander = s.commander) (htrace : s'.trace = events ++ s.trace)
    (hevents : ∀ e ∈ events, e = .connected ∨ ∃ r, e = .reader r)
    (hheads : ∀ chunk first, (chunk, first) ∈ s'.lease.reader.pending →
      (chunk, first) ∈ s.lease.reader.pending ∨ .reader (.heard chunk first) ∈ events) :
    s'.Accounted := by
  have hquiet (j : ℕ) : writesOf j events = [] := by
    apply writesOf_eq_nil
    intro payload hmem
    rcases hevents _ hmem with heq | ⟨r, heq⟩ <;> simp at heq
  have hsub : s.trace ⊆ s'.trace := by
    rw [htrace]
    exact List.subset_append_right _ _
  constructor
  · intro j event hmem
    rw [htrace] at hmem
    rw [hcommander]
    rcases List.mem_append.mp hmem with hmem | hmem
    · rcases hevents _ hmem with heq | ⟨r, heq⟩ <;> simp at heq
    · exact h.numbered j event hmem
  · intro chunk first hmem
    rcases hheads chunk first hmem with hmem | hmem
    · exact hsub (h.heads chunk first hmem)
    · rw [htrace]
      exact List.mem_append_left _ hmem
  · intro sample hmem
    rw [htrace] at hmem
    rcases List.mem_append.mp hmem with hmem | hmem
    · rcases hevents _ hmem with heq | ⟨r, heq⟩ <;> simp at heq
    · obtain ⟨chunk, data, hdelivered, hmade⟩ := h.genuine sample hmem
      exact ⟨chunk, data, hdelivered.mono hsub, hmade⟩
  · intro a ha
    rw [hcommander] at ha
    exact hsub (h.latest a ha)
  · intro j d hd
    rw [hcommander] at hd ⊢
    rw [htrace]
    exact (h.ledger j d hd).grow (hquiet j) fun a ha => .inl ha

theorem Accounted.onState {sample : Sample} (h : s.Accounted) (hgenuine : Genuine s.trace sample) :
    (s.onState sample).Accounted := by
  have hsub : s.trace ⊆ (s.onState sample).trace := List.subset_cons_self _ _
  constructor
  · intro j event hmem
    have hmem : .command j event ∈ s.trace := by simpa using hmem
    simpa [Commander.onState] using h.numbered j event hmem
  · intro chunk first hmem
    exact hsub (h.heads chunk first hmem)
  · intro sample' hmem
    have hgenuine' : Genuine s.trace sample' := by
      rcases List.mem_cons.mp hmem with heq | hmem
      · obtain rfl : sample' = sample := by simpa using heq
        exact hgenuine
      · exact h.genuine sample' hmem
    obtain ⟨chunk, data, hdelivered, hmade⟩ := hgenuine'
    exact ⟨chunk, data, hdelivered.mono hsub, hmade⟩
  · intro a ha
    obtain rfl : sample = a := by simpa [Commander.onState] using ha
    exact List.mem_cons_self
  · intro j d hd
    obtain ⟨c, hc, rfl⟩ := commands_onState hd
    have hlatest (a : Sample) (ha : (s.onState sample).commander.shared.latest = some a) :
        s.commander.shared.latest = some a ∨
          ∃ earlier, [Event.published sample] = .published a :: earlier := by
      obtain rfl : sample = a := by simpa [Commander.onState] using ha
      exact .inr ⟨[], rfl⟩
    exact ((h.ledger j c hc).mapWait _).grow rfl hlatest

theorem Accounted.takeIn {intake : Intake} (h : s.Accounted)
    (htakes : s.lease.reader.Takes intake) : (s.takeIn intake).Accounted := by
  let s₁ := (s.setLease { s.lease with reader := intake.reader }).emit
    (intake.events.map .reader)
  have hevents : ∀ e ∈ intake.events.map Event.reader, e = .connected ∨ ∃ r, e = .reader r := by
    intro e he
    obtain ⟨r, -, rfl⟩ := List.mem_map.mp he
    exact .inr ⟨r, rfl⟩
  have hheads (chunk : ℕ) (first : Bytes) (hmem : (chunk, first) ∈ intake.reader.pending) :
      (chunk, first) ∈ s.lease.reader.pending ∨
        .reader (.heard chunk first) ∈ intake.events.map Event.reader := by
    cases htakes with
    | settles hfollows => exact .inl (hfollows.pending hmem)
    | hears hseen hpending hmade =>
        rcases List.mem_cons.mp (hpending hmem) with heq | hmem
        · obtain ⟨rfl, rfl⟩ := Prod.mk.inj heq
          exact .inr (by simp)
        · exact .inl hmem
    | readsBack hhead hfollows hmade => exact .inl (hfollows.pending hmem)
  have h₁ : s₁.Accounted := h.grow rfl rfl hevents hheads
  rw [System.takeIn]
  cases hpublished : intake.published with
  | none => exact h₁
  | some sample =>
      apply h₁.onState
      cases htakes with
      | settles => simp at hpublished
      | hears hseen hpending hmade =>
          exact ⟨_, _, .whole (by simp [s₁]), hmade sample hpublished⟩
      | readsBack hhead hfollows hmade =>
          have hheard := h.heads _ _ hhead
          exact ⟨_, _, .completed (List.mem_append_right _ hheard) (by simp [s₁]),
            hmade sample hpublished⟩

theorem Accounted.enroll (h : s.Accounted) (request : Request) (dryRun : Bool)
    (calls : List ApiCall) : (s.enroll request dryRun calls).Accounted where
  numbered j event hmem := by
    have hj := h.numbered j event hmem
    simp only [System.enroll, List.length_append, List.length_singleton]
    omega
  heads := h.heads
  genuine := h.genuine
  latest := h.latest
  ledger j d hd := by
    rcases commands_enroll hd with hd | ⟨rfl, rfl⟩
    · exact h.ledger j d hd
    · -- nothing was recorded for a command that was not on the list
      apply writesOf_eq_nil
      intro payload hmem
      exact absurd (h.numbered _ _ hmem) (lt_irrefl _)

theorem Accounted.run {i : ℕ} {c : Command} {why : Option Wakeup} {segment : Segment}
    (hsound : c.Sound) (h : s.Accounted) (hc : s.commander.commands[i]? = some c)
    (hruns : Runs cfg.settleTimeout s.now c s.commander.shared why segment) :
    (s.runCommand cfg i c segment).Accounted := by
  have hsub : s.trace ⊆ (s.runCommand cfg i c segment).trace := by
    rw [trace_runCommand]
    exact List.subset_append_right _ _
  constructor
  · intro j event hmem
    rw [commander_runCommand]
    simp only [Commander.put, List.length_set]
    rw [trace_runCommand] at hmem
    rcases List.mem_append.mp hmem with hmem | hmem
    · obtain ⟨e, -, heq⟩ := List.mem_map.mp hmem
      obtain ⟨rfl, -⟩ : i = j ∧ e = event := by simpa using heq
      exact (List.getElem?_eq_some_iff.mp hc).1
    · exact h.numbered j event hmem
  · intro chunk first hmem
    exact hsub (h.heads chunk first ((follows_runCommand cfg s i c segment).pending hmem))
  · intro sample hmem
    rw [trace_runCommand] at hmem
    rcases List.mem_append.mp hmem with hmem | hmem
    · simp at hmem
    · obtain ⟨chunk, data, hdelivered, hmade⟩ := h.genuine sample hmem
      exact ⟨chunk, data, hdelivered.mono hsub, hmade⟩
  · intro a ha
    rw [commander_runCommand] at ha
    exact hsub (h.latest a (hruns.latest ha))
  · intro j d hd
    rw [trace_runCommand, commander_runCommand]
    -- the others see events of command `i` only, and at most lose the reading held
    rcases commands_runCommand hd with ⟨hji, hd⟩ | ⟨rfl, rfl⟩
    · refine (h.ledger j d hd).grow ?_ fun a ha => .inl (hruns.latest ha)
      apply writesOf_eq_nil
      intro payload hmem
      obtain ⟨e, -, heq⟩ := List.mem_map.mp hmem
      obtain ⟨rfl, -⟩ : i = j ∧ _ := by simpa using heq
      exact hji rfl
    · exact ledger_of_runs hsound h.latest (h.ledger j c hc) hruns

theorem Accounted.reach {i : ℕ} {c : Command} {order : Order} {base : Sample} (h : s.Accounted)
    (hc : s.commander.commands[i]? = some c) (hpc : c.pc = .writing order base false) :
    (s.reach i c order base).Accounted := by
  have hsub : s.trace ⊆ (s.reach i c order base).trace := List.subset_cons_self _ _
  have hi : i < s.commander.commands.length := (List.getElem?_eq_some_iff.mp hc).1
  constructor
  · intro j event hmem
    simp only [System.reach, commander_emit, List.length_set]
    rcases List.mem_cons.mp hmem with heq | hmem
    · obtain ⟨rfl, -⟩ : j = i ∧ _ := by simpa using heq
      exact hi
    · exact h.numbered j event hmem
  · intro chunk first hmem
    exact hsub (h.heads chunk first hmem)
  · intro sample hmem
    have hmem : .published sample ∈ s.trace := by simpa [System.reach] using hmem
    obtain ⟨chunk, data, hdelivered, hmade⟩ := h.genuine sample hmem
    exact ⟨chunk, data, hdelivered.mono hsub, hmade⟩
  · intro a ha
    exact hsub (h.latest a ha)
  · intro j d hd
    have hgrow {d : Command} (hd : Ledger s.trace s.commander.shared j d) :
        Ledger ([.command i (.delivered order.payload)] ++ s.trace) s.commander.shared j d :=
      hd.grow rfl fun a ha => .inl ha
    rcases commands_reach hd with ⟨-, hd⟩ | ⟨rfl, rfl⟩
    · exact hgrow (h.ledger j d hd)
    · have hundecided := (h.ledger j c hc).of_writing hpc
      exact hgrow (d := { c with pc := .writing order base true }) hundecided

theorem Accounted.effect {a : Action} (hs : s.Sound) (h : s.Accounted)
    (heffect : Effect cfg s a s') : s'.Accounted := by
  have hlinks {s' : System} {events : List Event} (hcommander : s'.commander = s.commander)
      (htrace : s'.trace = events ++ s.trace)
      (hevents : ∀ e ∈ events, e = .connected ∨ ∃ r, e = .reader r)
      (hreader : s'.lease.reader.Follows s.lease.reader) : s'.Accounted :=
    h.grow hcommander htrace hevents fun chunk first hmem => .inl (hreader.pending hmem)
  cases heffect with
  | passes => exact hlinks rfl (List.nil_append _).symm (by simp) (.refl _)
  | links hreader => exact hlinks rfl (List.nil_append _).symm (by simp) hreader
  | connects hreader => exact hlinks rfl rfl (by simp) hreader
  | takesIn htakes => exact h.takeIn htakes
  | rejects => exact hlinks rfl (List.nil_append _).symm (by simp) (.refl _)
  | begins hcalls hruns =>
      exact (h.enroll _ _ _).run trivial (enroll_getElem? s _ _ _) hruns
  | wakes hcommand hruns =>
      exact h.run (hs _ (List.mem_of_getElem? hcommand)) hcommand hruns
  | delivers hcommand hpc => exact h.reach hcommand hpc

theorem Reachable.accounted (h : Reachable cfg s) : s.Accounted :=
  (h.invariant accounted_initial fun _ _ _ hs hI heffect => hI.effect hs heffect).2

/-! ### What a returned result proves -/

/-- A reading the reader published, whose packet was delivered in bytes that are
complete and sum to zero mod 256. -/
structure Attested (trace : List Event) (sample : Sample) : Prop where
  published : .published sample ∈ trace
  trustworthy : sample.packet.isTrustworthy
  bytes : ∃ data declared, Delivered trace sample.chunk data ∧
    sample.packet = decodeStatus data ∧ Verified data declared
  state : ∃ available, sample.state = .fromStatus sample.packet available

theorem Accounted.attested {sample : Sample} (h : s.Accounted)
    (hpublished : .published sample ∈ s.trace) : Attested s.trace sample := by
  obtain ⟨chunk, data, hdelivered, hmade⟩ := h.genuine sample hpublished
  obtain rfl := hmade.chunk
  have htrust : (decodeStatus data).isTrustworthy := hmade.packet ▸ hmade.trustworthy
  obtain ⟨-, declared, hverified⟩ := isTrustworthy_decodeStatus_iff.mp htrust
  exact ⟨hpublished, hmade.trustworthy, ⟨data, declared, hdelivered, hmade.packet, hverified⟩,
    hmade.state⟩

/-- A command that was not a dry run and returned a result made one write, of the
result's payload; the readings it reports were published from delivered bytes
that passed their checksum; the first did not satisfy its predicate, and the
second does and was published after the write. -/
theorem returned_result_is_proven (h : Reachable cfg s) {i : ℕ} {c : Command}
    {result : CommandResult} (hc : s.commander.commands[i]? = some c)
    (hpc : c.pc = .ended (.returned result)) (hdry : c.dryRun = false) :
    writesOf i s.trace = [result.payload] ∧
      Attested s.trace result.before ∧ Attested s.trace result.after ∧
      Before (.command i (.wrote result.payload)) (.published result.after) s.trace ∧
      ∃ goal, c.request.goal? = some goal ∧ goal.satisfied result.before.state = false ∧
        goal.satisfied result.after.state = true := by
  have haccounted := h.accounted
  have hledger := haccounted.ledger i c hc
  have hproven : Proven s.trace i c.request result := by
    simpa [Ledger, hpc, Settled, hdry] using hledger
  exact ⟨hproven.writes, haccounted.attested hproven.before,
    haccounted.attested hproven.after.mem_right, hproven.after, hproven.goal⟩

/-- A unit that cools is switched off, and reports it. -/
def switchOff : List Action :=
  [.start, .link 0 .connected, .link 0 .subscribed, .notify coolPacket, .command .off false,
    .wake 0 .writeReturned, .wake 0 .looked, .notify standbyPacket, .wake 0 .woken]

/-- The result of command `i`, if it was not a dry run and returned one. -/
def resultOf (s : System) (i : ℕ) : Option CommandResult :=
  match s.commander.commands[i]? with
  | some { dryRun := false, pc := .ended (.returned result), .. } => some result
  | _ => none

theorem resultOf_eq_some {i : ℕ} {result : CommandResult} (h : s.resultOf i = some result) :
    ∃ c, s.commander.commands[i]? = some c ∧ c.pc = .ended (.returned result) ∧
      c.dryRun = false := by
  rw [resultOf] at h
  split at h
  · rename_i hc
    obtain rfl := Option.some.inj h
    exact ⟨_, hc, rfl, rfl⟩
  · simp at h

theorem exists_of_resultOf {i : ℕ} (h : (s.resultOf i).isSome) :
    ∃ c result, s.commander.commands[i]? = some c ∧ c.pc = .ended (.returned result) ∧
      c.dryRun = false := by
  obtain ⟨result, hresult⟩ := Option.isSome_iff_exists.mp h
  obtain ⟨c, hc⟩ := resultOf_eq_some hresult
  exact ⟨c, result, hc⟩

theorem returned_result_is_proven_switchOff :
    ∃ s c result, (machine {}).run {} switchOff = some s ∧
      s.commander.commands[0]? = some c ∧ c.pc = .ended (.returned result) ∧
      writesOf 0 s.trace = [result.payload] ∧
      Attested s.trace result.before ∧ Attested s.trace result.after ∧
      Before (.command 0 (.wrote result.payload)) (.published result.after) s.trace ∧
      ∃ goal, c.request.goal? = some goal ∧ goal.satisfied result.before.state = false ∧
        goal.satisfied result.after.state = true := by
  have hany : ((machine {}).run {} switchOff).any fun s => (s.resultOf 0).isSome := by
    decide +kernel
  obtain ⟨s, hrun, hresult⟩ := Machine.exists_of_run_any hany
  obtain ⟨c, result, hc, hpc, hdry⟩ := exists_of_resultOf hresult
  exact ⟨s, c, result, hrun, hc, hpc, returned_result_is_proven ⟨_, hrun⟩ hc hpc hdry⟩

end System

end Bedjet.Api
