import Bedjet.Api.Evidence

/-!
When the bytes of a verdict were heard. A reading is published when its last
byte is there, but a notification that arrives truncated is completed by a read
made later: what the reading says was observed when its head was heard, and that
can be before the write it is taken to confirm.
-/

namespace Bedjet.Api

open Python Protocol Device Service Asyncio History

/-- No remainder completes the fragment into a reading that satisfies the goal. -/
def Harmless (first : Bytes) (goal : Goal) : Prop :=
  ∀ remainder available, (decodeStatus (reassemble first remainder)).isTrustworthy →
    goal.satisfied (.fromStatus (decodeStatus (reassemble first remainder)) available) = false

/-- Whatever was delivered under that number was delivered after command `i`
called `transport.write`. -/
def HeardAfter (trace : List Event) (i : ℕ) (payload : Bytes) (chunk : ℕ) : Prop :=
  ∀ e, .reader e ∈ trace → e.chunk = chunk →
    Before (.command i (.wrote payload)) (.reader e) trace

theorem HeardAfter.grow {trace events : List Event} {i : ℕ} {payload : Bytes} {chunk : ℕ}
    (h : HeardAfter trace i payload chunk) (hwrote : .command i (.wrote payload) ∈ trace) :
    HeardAfter (events ++ trace) i payload chunk := by
  intro e hmem hchunk
  rcases List.mem_append.mp hmem with hmem | hmem
  · exact before_append hwrote hmem
  · exact (h e hmem hchunk).append events

theorem heardAfter_of_new {trace events : List Event} {i : ℕ} {payload : Bytes} {chunk : ℕ}
    (hnew : ∀ e, .reader e ∈ trace → e.chunk ≠ chunk)
    (hwrote : .command i (.wrote payload) ∈ trace) :
    HeardAfter (events ++ trace) i payload chunk := by
  intro e hmem hchunk
  rcases List.mem_append.mp hmem with hmem | hmem
  · exact before_append hwrote hmem
  · exact absurd hchunk (hnew e hmem)

/-- What a command that has written may still be handed: readings that confirm
it were heard after it wrote, and so will be those to come. -/
structure Guarded (trace : List Event) (shared : Shared) (pending : List (ℕ × Bytes)) (i : ℕ)
    (order : Order) : Prop where
  wrote : .command i (.wrote order.payload) ∈ trace
  pending : ∀ chunk first, (chunk, first) ∈ pending →
    HeardAfter trace i order.payload chunk ∨ Harmless first order.goal
  latest : ∀ a, shared.latest = some a → order.goal.satisfied a.state →
    HeardAfter trace i order.payload a.chunk

/-- `Guarded` for a command that has written, and what is left of it when it has
returned. -/
def Guards (trace : List Event) (shared : Shared) (pending : List (ℕ × Bytes)) (i : ℕ)
    (dryRun : Bool) : Pc → Prop
  | .writing order _ _ | .settling order _ _ _ => Guarded trace shared pending i order
  | .ended (.returned result) => dryRun = false →
      .command i (.wrote result.payload) ∈ trace ∧
        HeardAfter trace i result.payload result.after.chunk
  | _ => True

theorem Guards.mapWait {trace : List Event} {shared : Shared} {pending : List (ℕ × Bytes)} {i : ℕ}
    {dryRun : Bool} {pc : Pc} (h : Guards trace shared pending i dryRun pc) (f : Wait → Wait) :
    Guards trace shared pending i dryRun (pc.mapWait f) := by
  cases pc <;> exact h

/-- What can be held or pending after a step: what was, something that was not
heard before, or a fragment that was pending and has been completed. -/
structure Extends (trace : List Event) (shared shared' : Shared)
    (fragments fragments' : List (ℕ × Bytes)) : Prop where
  pending : ∀ chunk first, (chunk, first) ∈ fragments' →
    (chunk, first) ∈ fragments ∨ ∀ e, .reader e ∈ trace → e.chunk ≠ chunk
  latest : ∀ a, shared'.latest = some a → shared.latest = some a ∨
    (∀ e, .reader e ∈ trace → e.chunk ≠ a.chunk) ∨
    ∃ first remainder, (a.chunk, first) ∈ fragments ∧
      a.MadeOf a.chunk (reassemble first remainder)

theorem Extends.of_follows {trace : List Event} {shared shared' : Shared} {r r' : Reader}
    (hfollows : r'.Follows r) (hlatest : ∀ a, shared'.latest = some a → shared.latest = some a) :
    Extends trace shared shared' r.pending r'.pending :=
  ⟨fun _ _ hmem => .inl (hfollows.pending hmem), fun a ha => .inl (hlatest a ha)⟩

section

variable {trace events : List Event} {shared shared' : Shared} {pending pending' : List (ℕ × Bytes)}
  {i : ℕ}

theorem Guarded.grow {order : Order} (h : Guarded trace shared pending i order)
    (hextends : Extends trace shared shared' pending pending') :
    Guarded (events ++ trace) shared' pending' i order where
  wrote := List.mem_append_right _ h.wrote
  pending chunk first hmem := by
    rcases hextends.pending chunk first hmem with hold | hnew
    · exact (h.pending chunk first hold).imp_left fun hafter => hafter.grow h.wrote
    · exact .inl (heardAfter_of_new hnew h.wrote)
  latest a ha hgoal := by
    rcases hextends.latest a ha with hold | hnew | ⟨first, remainder, hmem, hmade⟩
    · exact (h.latest a hold hgoal).grow h.wrote
    · exact heardAfter_of_new hnew h.wrote
    · rcases h.pending _ _ hmem with hafter | hharmless
      · exact hafter.grow h.wrote
      · -- a harmless fragment is not completed into what the command looks for
        obtain ⟨available, hstate⟩ := hmade.state
        rw [hmade.packet] at hstate
        have hunsatisfied :=
          hharmless remainder available (hmade.packet ▸ hmade.trustworthy)
        rw [← hstate, hgoal] at hunsatisfied
        simp at hunsatisfied

theorem Guards.grow {dryRun : Bool} {pc : Pc} (h : Guards trace shared pending i dryRun pc)
    (hextends : Extends trace shared shared' pending pending') :
    Guards (events ++ trace) shared' pending' i dryRun pc := by
  cases pc with
  | writing order base delivered =>
      have hguarded : Guarded trace shared pending i order := h
      exact hguarded.grow hextends
  | settling order base deadline wait =>
      have hguarded : Guarded trace shared pending i order := h
      exact hguarded.grow hextends
  | ended ending =>
      cases ending with
      | returned result =>
          intro hdry
          obtain ⟨hwrote, hafter⟩ := h hdry
          exact ⟨List.mem_append_right _ hwrote, hafter.grow hwrote⟩
      | raised => trivial
  | _ => trivial

theorem guards_of_settles {now : ℚ} {order : Order} {base : Sample} {deadline : ℚ} {why : Wakeup}
    {segment : Segment} {dryRun : Bool} (h : Guarded trace shared pending i order)
    (hsettles : Settles now order base deadline shared why segment) :
    Guards (segment.events.map (.command i) ++ trace) segment.shared pending i dryRun
      segment.pc := by
  have hsame (updated : Bool) : Extends trace shared { shared with updated } pending pending :=
    ⟨fun _ _ hmem => .inl hmem, fun a ha => .inl ha⟩
  cases hsettles with
  | confirms hlatest htrust hgoal =>
      intro _
      exact ⟨List.mem_append_right _ h.wrote, (h.latest _ hlatest hgoal).grow h.wrote⟩
  | @waits updated => exact h.grow (hsame updated)
  | givesUp => trivial
  | trips => trivial

theorem guards_of_runs {settleTimeout now : ℚ} {c : Command} {why : Option Wakeup}
    {segment : Segment} (h : Guards trace shared pending i c.dryRun c.pc)
    (hharmless : ∀ order base, c.pc.early → segment.pc = .writing order base false →
      ∀ chunk first, (chunk, first) ∈ pending → Harmless first order.goal)
    (hruns : Runs settleTimeout now c shared why segment) :
    Guards (segment.events.map (.command i) ++ trace) segment.shared pending i c.dryRun
      segment.pc := by
  cases hruns with
  | decides hpc hdecides =>
      cases hdecides with
      | declines => trivial
      | pretends hdry =>
          intro hwet
          simp [hdry] at hwet
      | @writes order base based =>
          -- what is pending was heard before the write: it has to be harmless
          exact ⟨by simp, fun chunk first hmem =>
            .inr (hharmless order base hpc rfl chunk first hmem), by simp⟩
  | @awaits pc hpc hnone hearly =>
      have hwaits := hearly { due := now + settleTimeout }
      simp only [awaitState]
      cases hcase : pc { due := now + settleTimeout } <;> simp_all [Pc.early, Guards]
  | looks => exact h.mapWait _
  | misses => trivial
  | linkFails => trivial
  | @returns order base delivered segment hpc hsettles =>
      have hguarded : Guarded trace shared pending i order := by simpa [hpc, Guards] using h
      have hgrown : Guarded ([.command i .completed] ++ trace) shared pending i order :=
        hguarded.grow ⟨fun _ _ hmem => .inl hmem, fun a ha => .inl ha⟩
      have hguards : Guards _ segment.shared pending i c.dryRun segment.pc :=
        guards_of_settles hgrown hsettles
      simpa [Segment.after, Segment.poke] using hguards
  | @settles order base deadline wait why segment poked hpc hwhy hsettles =>
      have hguarded : Guarded trace shared pending i order := by simpa [hpc, Guards] using h
      have hguards : Guards _ segment.shared pending i c.dryRun segment.pc :=
        guards_of_settles hguarded hsettles
      exact hguards

end

namespace System

variable {cfg : Config} {s s' : System}

/-- When a command calls `transport.write`, no follow-up read is pending for a
fragment that could confirm it. -/
def WritesUnmixed (cfg : Config) (s : System) (a : Action) : Prop :=
  ∀ s', (machine cfg).step s a = some s' →
    ∀ (i : ℕ) (c : Command) (order : Order) (base : Sample),
      s'.commander.commands[i]? = some c → c.pc = .writing order base false →
      (∀ d : Command, s.commander.commands[i]? = some d → d.pc.early) →
      ∀ chunk first, (chunk, first) ∈ s.lease.reader.pending → Harmless first order.goal

structure ReadsBack (s : System) : Prop where
  numbered : ∀ e, .reader e ∈ s.trace → e.chunk ≤ s.lease.reader.packetsSeen
  heads : ∀ chunk first, (chunk, first) ∈ s.lease.reader.pending →
    chunk ≤ s.lease.reader.packetsSeen
  guards : ∀ (j : ℕ) (c : Command), s.commander.commands[j]? = some c →
    Guards s.trace s.commander.shared s.lease.reader.pending j c.dryRun c.pc

theorem readsBack_initial : ReadsBack {} := ⟨by simp, by simp [Reader.pending], by simp⟩

/-- Steps in which no command runs: what they hear is numbered on. -/
theorem ReadsBack.grow {events : List Event} (h : s.ReadsBack)
    (htrace : s'.trace = events ++ s.trace)
    (hseen : s.lease.reader.packetsSeen ≤ s'.lease.reader.packetsSeen)
    (hevents : ∀ e, .reader e ∈ events → e.chunk ≤ s'.lease.reader.packetsSeen)
    (hheads : ∀ chunk first, (chunk, first) ∈ s'.lease.reader.pending →
      chunk ≤ s'.lease.reader.packetsSeen)
    (hcommands : ∀ (j : ℕ) (d : Command), s'.commander.commands[j]? = some d →
      ∃ c : Command, s.commander.commands[j]? = some c ∧ (d = c ∨ d = c.wake))
    (hextends : Extends s.trace s.commander.shared s'.commander.shared s.lease.reader.pending
      s'.lease.reader.pending) : s'.ReadsBack where
  numbered e hmem := by
    rw [htrace] at hmem
    rcases List.mem_append.mp hmem with hmem | hmem
    · exact hevents e hmem
    · exact (h.numbered e hmem).trans hseen
  heads := hheads
  guards j d hd := by
    obtain ⟨c, hc, hdc⟩ := hcommands j d hd
    have hguards : Guards (events ++ s.trace) s'.commander.shared s'.lease.reader.pending j
        c.dryRun c.pc := (h.guards j c hc).grow hextends
    rw [htrace]
    rcases hdc with rfl | rfl
    · exact hguards
    · exact hguards.mapWait _

theorem ReadsBack.heads_of_follows {r : Reader} (h : s.ReadsBack)
    (hfollows : r.Follows s.lease.reader) (chunk : ℕ) (first : Bytes)
    (hmem : (chunk, first) ∈ r.pending) : chunk ≤ r.packetsSeen := by
  rw [hfollows.packetsSeen]
  exact h.heads chunk first (hfollows.pending hmem)

/-- Steps in which nothing is heard and no command runs. -/
theorem ReadsBack.quiet {events : List Event} (h : s.ReadsBack)
    (hcommander : s'.commander = s.commander) (htrace : s'.trace = events ++ s.trace)
    (hevents : ∀ e, .reader e ∉ events)
    (hreader : s'.lease.reader.Follows s.lease.reader) : s'.ReadsBack := by
  refine h.grow htrace hreader.packetsSeen.ge (fun e hmem => ?_) (h.heads_of_follows hreader)
    (fun j d hd => ?_) ?_
  · exact absurd hmem (hevents e)
  · exact ⟨d, by rwa [hcommander] at hd, .inl rfl⟩
  · rw [hcommander]
    exact .of_follows hreader fun _ ha => ha

theorem ReadsBack.enroll (h : s.ReadsBack) (request : Request) (dryRun : Bool)
    (calls : List ApiCall) : (s.enroll request dryRun calls).ReadsBack where
  numbered := h.numbered
  heads := h.heads
  guards j d hd := by
    rcases commands_enroll hd with hd | ⟨-, rfl⟩
    · exact h.guards j d hd
    · trivial

theorem ReadsBack.run {i : ℕ} {c : Command} {why : Option Wakeup} {segment : Segment}
    (h : s.ReadsBack) (hc : s.commander.commands[i]? = some c)
    (hharmless : ∀ order base, c.pc.early → segment.pc = .writing order base false →
      ∀ chunk first, (chunk, first) ∈ s.lease.reader.pending → Harmless first order.goal)
    (hruns : Runs cfg.settleTimeout s.now c s.commander.shared why segment) :
    (s.runCommand cfg i c segment).ReadsBack := by
  have hreader := follows_runCommand cfg s i c segment
  constructor
  · intro e hmem
    rw [trace_runCommand] at hmem
    rw [hreader.packetsSeen]
    rcases List.mem_append.mp hmem with hmem | hmem
    · simp at hmem
    · exact h.numbered e hmem
  · exact h.heads_of_follows hreader
  · intro j d hd
    rw [trace_runCommand, commander_runCommand]
    rcases commands_runCommand hd with ⟨-, hd⟩ | ⟨rfl, rfl⟩
    · exact (h.guards j d hd).grow (.of_follows hreader fun a ha => hruns.latest ha)
    · have hguards := guards_of_runs (h.guards j c hc) hharmless hruns
      have hgrown : Guards ([] ++ _) segment.shared _ j c.dryRun segment.pc :=
        hguards.grow (.of_follows hreader fun _ ha => ha)
      exact hgrown

/-- What a delivery leaves: whatever it adds is new, or completes a fragment. -/
theorem ReadsBack.extends_of_takes {intake : Intake} {shared : Shared} (h : s.ReadsBack)
    (htakes : s.lease.reader.Takes intake)
    (hlatest : ∀ a, shared.latest = some a →
      s.commander.shared.latest = some a ∨ intake.published = some a) :
    Extends s.trace s.commander.shared shared s.lease.reader.pending intake.reader.pending := by
  cases htakes with
  | settles hfollows =>
      exact .of_follows hfollows fun a ha => (hlatest a ha).resolve_right (by simp)
  | hears hseen hpending hmade =>
      -- what arrives takes the next number, which nothing on the record carries
      have hnew (e : ReaderEvent) (hmem : .reader e ∈ s.trace) :
          e.chunk ≠ s.lease.reader.packetsSeen + 1 := by
        have hle := h.numbered e hmem
        omega
      constructor
      · intro chunk first hmem
        rcases List.mem_cons.mp (hpending hmem) with heq | hmem
        · obtain ⟨rfl, rfl⟩ := Prod.mk.inj heq
          exact .inr hnew
        · exact .inl hmem
      · intro a ha
        refine (hlatest a ha).imp_right fun hpublished => .inl ?_
        rw [(hmade a hpublished).chunk]
        exact hnew
  | @readsBack r' chunk first remainder published hhead hfollows hmade =>
      refine ⟨fun _ _ hmem => .inl (hfollows.pending hmem), fun a ha => ?_⟩
      refine (hlatest a ha).imp_right fun hpublished => .inr ⟨first, remainder, ?_⟩
      obtain rfl := (hmade a hpublished).chunk
      exact ⟨hhead, hmade a hpublished⟩

/-- The numbers stay in use up to the count of what was heard. -/
theorem ReadsBack.numbered_of_takes {intake : Intake} (h : s.ReadsBack)
    (htakes : s.lease.reader.Takes intake) :
    s.lease.reader.packetsSeen ≤ intake.reader.packetsSeen ∧
      (∀ e ∈ intake.events, e.chunk ≤ intake.reader.packetsSeen) ∧
      ∀ chunk first, (chunk, first) ∈ intake.reader.pending →
        chunk ≤ intake.reader.packetsSeen := by
  cases htakes with
  | settles hfollows =>
      exact ⟨hfollows.packetsSeen.ge, by simp, h.heads_of_follows hfollows⟩
  | hears hseen hpending hmade =>
      refine ⟨by simp [hseen], by simp [ReaderEvent.chunk, hseen], fun chunk first hmem => ?_⟩
      dsimp only
      rw [hseen]
      rcases List.mem_cons.mp (hpending hmem) with heq | hmem
      · exact (Prod.mk.inj heq).1.le
      · exact (h.heads chunk first hmem).trans (Nat.le_succ _)
  | readsBack hhead hfollows hmade =>
      refine ⟨hfollows.packetsSeen.ge, ?_, h.heads_of_follows hfollows⟩
      have hle := h.heads _ _ hhead
      simpa [ReaderEvent.chunk, hfollows.packetsSeen] using hle

theorem ReadsBack.takeIn {intake : Intake} (h : s.ReadsBack)
    (htakes : s.lease.reader.Takes intake) : (s.takeIn intake).ReadsBack := by
  obtain ⟨hseen, hevents, hheads⟩ := h.numbered_of_takes htakes
  have hnumbered (e : ReaderEvent) (hmem : .reader e ∈ intake.events.map Event.reader) :
      e.chunk ≤ intake.reader.packetsSeen := hevents e (by simpa using hmem)
  rw [System.takeIn]
  cases hpublished : intake.published with
  | none =>
      exact h.grow rfl hseen hnumbered hheads (fun j d hd => ⟨d, hd, .inl rfl⟩)
        (h.extends_of_takes htakes fun a ha => .inl ha)
  | some sample =>
      have htrace : Event.published sample :: (intake.events.map .reader ++ s.trace) =
          (.published sample :: intake.events.map .reader) ++ s.trace := rfl
      refine h.grow htrace hseen (fun e hmem => ?_) hheads (fun j d hd => ?_)
        (h.extends_of_takes htakes fun a ha => ?_)
      · exact hnumbered e (by simpa using hmem)
      · obtain ⟨c, hc, rfl⟩ := commands_onState hd
        exact ⟨c, hc, .inr rfl⟩
      · rw [hpublished]
        exact .inr ha

theorem ReadsBack.effect {a : Action} (h : s.ReadsBack) (hok : WritesUnmixed cfg s a)
    (hstep : (machine cfg).step s a = some s') (heffect : Effect cfg s a s') : s'.ReadsBack := by
  have hunmixed := hok s' hstep
  cases heffect with
  | passes => exact ⟨h.numbered, h.heads, h.guards⟩
  | links hreader => exact h.quiet rfl (List.nil_append _).symm (by simp) hreader
  | connects hreader => exact h.quiet rfl rfl (by simp) hreader
  | takesIn htakes => exact h.takeIn htakes
  | rejects => exact ⟨h.numbered, h.heads, h.guards⟩
  | @begins a request dryRun calls segment hcalls hruns =>
      refine (h.enroll request dryRun calls).run (enroll_getElem? s _ _ _) ?_ hruns
      intro order base hearly hpc
      refine hunmixed s.commander.commands.length _ order base
        (commands_runCommand_self (enroll_getElem? s _ _ _)) hpc fun d hd => ?_
      simp at hd
  | @wakes i c why segment hcommand hruns =>
      refine h.run hcommand (fun order base hearly hpc => ?_) hruns
      apply hunmixed i _ order base (commands_runCommand_self hcommand) hpc
      intro d hd
      obtain rfl : c = d := by simpa [hcommand] using hd
      exact hearly
  | @delivers i c order base hcommand hpc =>
      constructor
      · intro e hmem
        exact h.numbered e (by simpa [System.reach] using hmem)
      · exact h.heads
      · intro j d hd
        have hgrow {dryRun : Bool} {pc : Pc}
            (hguards : Guards s.trace s.commander.shared s.lease.reader.pending j dryRun pc) :
            Guards ([.command i (.delivered order.payload)] ++ s.trace) s.commander.shared
              s.lease.reader.pending j dryRun pc :=
          hguards.grow (.of_follows (.refl _) fun _ ha => ha)
        rcases commands_reach hd with ⟨-, hd⟩ | ⟨rfl, rfl⟩
        · exact hgrow (h.guards j d hd)
        · have hguards := h.guards j c hcommand
          rw [hpc] at hguards
          have hreached : Guards s.trace s.commander.shared s.lease.reader.pending j c.dryRun
              (.writing order base true) := hguards
          exact hgrow hreached

/-- In a run in which no command writes while a fragment that could confirm it
awaits its follow-up read, whatever makes up the packet that confirms a command
was delivered after its write. -/
theorem readback_is_after_write {actions : List Action}
    (hok : (machine cfg).Meets (WritesUnmixed cfg) {} actions)
    (hrun : (machine cfg).run {} actions = some s) {i : ℕ} {c : Command} {result : CommandResult}
    (hc : s.commander.commands[i]? = some c) (hpc : c.pc = .ended (.returned result))
    (hdry : c.dryRun = false) :
    Delivered s.trace result.after.chunk result.after.packet.raw ∧
      ∀ e, .reader e ∈ s.trace → e.chunk = result.after.chunk →
        Before (.command i (.wrote result.payload)) (.reader e) s.trace := by
  obtain ⟨hsound, hreadsBack⟩ := invariant_of_effects readsBack_initial
    (fun s a s' _ h hunmixed hstep heffect => h.effect hunmixed hstep heffect) hok hrun
  have hreachable : Reachable cfg s := ⟨actions, hrun⟩
  have haccounted := hreachable.accounted
  constructor
  · have hproven : Proven s.trace i c.request result := by
      simpa [Ledger, hpc, Settled, hdry] using haccounted.ledger i c hc
    obtain ⟨data, -, hdelivered, hpacket, -⟩ := (haccounted.attested hproven.after.mem_right).bytes
    rwa [hpacket, raw_decodeStatus]
  · have hguards := hreadsBack.guards i c hc
    rw [hpc] at hguards
    exact (hguards hdry).2

/-! ### A command confirmed by what came after, and one by what came before -/

/-- No follow-up read is pending. -/
def Whole (s : System) (_ : Action) : Bool :=
  s.lease.reader.pending.isEmpty

theorem writesUnmixed_of_whole {a : Action} (h : s.Whole a) : WritesUnmixed cfg s a := by
  intro s' hstep i c order base hc hpc hearly chunk first hmem
  rw [Whole, List.isEmpty_iff] at h
  simp [h] at hmem

theorem readback_is_after_write_switchOff :
    ∃ s c result, (machine {}).run {} switchOff = some s ∧
      s.commander.commands[0]? = some c ∧ c.pc = .ended (.returned result) ∧
      Delivered s.trace result.after.chunk result.after.packet.raw ∧
      ∀ e, .reader e ∈ s.trace → e.chunk = result.after.chunk →
        Before (.command 0 (.wrote result.payload)) (.reader e) s.trace := by
  have hany : ((machine {}).run {} switchOff).any fun s => (s.resultOf 0).isSome := by
    decide +kernel
  obtain ⟨s, hrun, hresult⟩ := Machine.exists_of_run_any hany
  obtain ⟨c, result, hc, hpc, hdry⟩ := exists_of_resultOf hresult
  have hwhole : (machine {}).Meets (fun s a => s.Whole a) {} switchOff := by decide +kernel
  have hunmixed : (machine {}).Meets (WritesUnmixed {}) {} switchOff :=
    hwhole.imp fun _ _ h => writesUnmixed_of_whole h
  exact ⟨s, c, result, hrun, hc, hpc, readback_is_after_write hunmixed hrun hc hpc hdry⟩

/-- The head of a standby packet is heard, the unit is told to switch off, and
the follow-up read returns the rest. -/
def headFirst : List Action :=
  [.start, .link 0 .connected, .link 0 .subscribed, .notify coolPacket,
    .notify (standbyPacket.take 20), .completion 0 .begin, .command .off false,
    .completion 0 (.data (standbyPacket.drop 20)), .wake 0 .writeReturned, .wake 0 .looked,
    .wake 0 .woken]

/-- What was heard under that number. -/
def heardAs (chunk : ℕ) (trace : List Event) : List Bytes :=
  trace.filterMap fun
    | .reader (.heard n data) => if n = chunk then some data else none
    | _ => none

theorem mem_heardAs {chunk : ℕ} {data : Bytes} {trace : List Event} :
    data ∈ heardAs chunk trace ↔ .reader (.heard chunk data) ∈ trace := by
  rw [heardAs, List.mem_filterMap]
  constructor
  · rintro ⟨e, he, hdata⟩
    split at hdata
    · obtain ⟨rfl, rfl⟩ : _ = chunk ∧ _ = data := by simpa using hdata
      exact he
    · simp at hdata
  · intro h
    exact ⟨_, h, by simp⟩

/-- Whether command `i` wrote within the last `recent` events, and returned a
packet that began before them. -/
def confirmedByHead (s : System) (i recent : ℕ) : Bool :=
  (s.resultOf i).any fun result =>
    (writesOf i (s.trace.drop recent)).isEmpty &&
      (heardAs result.after.chunk (s.trace.take recent)).isEmpty &&
      !(heardAs result.after.chunk (s.trace.drop recent)).isEmpty

/-- A command is confirmed by a packet whose head was heard before its write. -/
theorem readback_can_precede_write :
    ¬∀ (cfg : Config) (actions : List Action) (s : System) (i : ℕ) (c : Command)
      (result : CommandResult), cfg.pollInterval = none →
      (machine cfg).run {} actions = some s → s.commander.commands[i]? = some c →
      c.pc = .ended (.returned result) → c.dryRun = false →
      Delivered s.trace result.after.chunk result.after.packet.raw ∧
        ∀ e, .reader e ∈ s.trace → e.chunk = result.after.chunk →
          Before (.command i (.wrote result.payload)) (.reader e) s.trace := by
  intro h
  have hany : ((machine {}).run {} headFirst).any (·.confirmedByHead 0 5) := by decide +kernel
  obtain ⟨s, hrun, hconfirmed⟩ := Machine.exists_of_run_any hany
  obtain ⟨result, hresult, hcheck⟩ := (Option.any_eq_true _ _).mp hconfirmed
  obtain ⟨c, hc, hpc, hdry⟩ := resultOf_eq_some hresult
  obtain ⟨⟨hwrites, hrecent⟩, hearly⟩ : (writesOf 0 (s.trace.drop 5) = [] ∧
      heardAs result.after.chunk (s.trace.take 5) = []) ∧
      heardAs result.after.chunk (s.trace.drop 5) ≠ [] := by simpa using hcheck
  obtain ⟨data, hdata⟩ := List.exists_mem_of_ne_nil _ hearly
  have hheard := mem_heardAs.mp hdata
  have hbefore := (h {} headFirst s 0 c result rfl hrun hc hpc hdry).2 _
    (List.mem_of_mem_drop hheard) rfl
  rw [← List.take_append_drop 5 s.trace] at hbefore
  have hnew := hbefore.mem_recent fun hmem => by
    have hwrote := mem_writesOf.mpr hmem
    simp [hwrites] at hwrote
  have hmem := mem_heardAs.mpr hnew
  simp [hrecent] at hmem

end System

end Bedjet.Api
