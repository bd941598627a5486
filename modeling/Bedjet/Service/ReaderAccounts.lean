import Bedjet.Device.Trust
import Bedjet.Service.ReaderBooks

/-!
The books of a reader over whole runs: in every reachable state the counters
agree with what happened, whatever order the calls, the deliveries and the ends
of the follow-ups came in.
-/

namespace Bedjet.Service

open Python Protocol Device Asyncio

variable {trace : List Mark}

/-! ### What the counters say -/

/-- The counters of a reader in notify mode, against what happened. -/
structure NotifyAccounts (r : Reader) (trace : List Mark) : Prop where
  seen : r.packetsSeen = trace.countP Mark.isChunk
  headings : r.packetsSeen =
    r.rejectedNotAPacket + r.droppedWhileBusy + r.partialsSeen + trace.countP Mark.isWholeChunk
  outcomes : trace.countP Mark.isWholeChunk + r.partialsSeen =
    (publications trace).length + r.rejectedChecksum + trace.countP Mark.isGaveUp + r.inFlight

/-- The counters of a reader in poll mode, against what happened. -/
structure PollAccounts (r : Reader) (trace : List Mark) : Prop where
  seen : r.packetsSeen = trace.countP Mark.isChunk
  polled : r.packetsSeen = r.polls
  headings : r.polls = r.pollsWhole + r.pollsPartial + r.pollsAlien
  outcomes : r.pollsWhole = r.rejectedChecksum + (publications trace).length

/-- The accounts of a mode. -/
def Accounts : PollInterval → Reader → List Mark → Prop
  | none => NotifyAccounts
  | some _ => PollAccounts

/-- The books of a mode. -/
def ModeBooks : PollInterval → Counters → List CompletionPhase → List Mark → Prop
  | none => NotifyBooks
  | some _ => PollBooks

theorem NotifyBooks.accounts {r : Reader} (h : NotifyBooks r.counters r.phases trace) :
    NotifyAccounts r trace := by
  refine ⟨h.seen, h.headings, ?_⟩
  have hhanded : trace.countP Mark.isWholeChunk + trace.countP Mark.isReadBack =
      (publications trace).length + r.rejectedChecksum := h.gate.countP_whole_add_readBack
  have hfragments : r.partialsSeen =
      trace.countP Mark.isReadBack + trace.countP Mark.isGaveUp + r.inFlight := h.fragments
  omega

theorem PollBooks.accounts {r : Reader} (h : PollBooks r.counters r.phases trace) :
    PollAccounts r trace := by
  refine ⟨h.seen, h.polled, h.headings, ?_⟩
  have hhanded : trace.countP Mark.isWholeChunk + trace.countP Mark.isReadBack =
      (publications trace).length + r.rejectedChecksum := h.gate.countP_whole_add_readBack
  have hfragments : r.partialsSeen =
      trace.countP Mark.isReadBack + trace.countP Mark.isGaveUp + r.inFlight := h.fragments
  have hunsplit : r.partialsSeen = 0 := h.unsplit
  have hwhole : r.pollsWhole = trace.countP Mark.isWholeChunk := h.whole
  omega

section

variable {pollInterval : PollInterval} {r : Reader}

theorem ModeBooks.gate (h : ModeBooks pollInterval r.counters r.phases trace) :
    Gate r.rejectedChecksum trace := by
  cases pollInterval with
  | none => exact (NotifyBooks.toBooks h).gate
  | some _ => exact (PollBooks.toBooks h).gate

theorem ModeBooks.accounts (h : ModeBooks pollInterval r.counters r.phases trace) :
    Accounts pollInterval r trace := by
  cases pollInterval with
  | none => exact NotifyBooks.accounts h
  | some _ => exact PollBooks.accounts h

end

/-! ### Runs -/

namespace Reader

variable (r : Reader)

/-- `r'` differs from `r` in nothing that the books are about. -/
structure SameBooks (r' r : Reader) : Prop where
  counters : r'.counters = r.counters
  phases : r'.phases = r.phases
  loopSet : r.loopSet → r'.loopSet

theorem sameBooks_startPolling : r.startPolling.SameBooks r := ⟨rfl, rfl, fun _ => rfl⟩

theorem sameBooks_pokeNow : r.pokeNow.SameBooks r := ⟨rfl, rfl, id⟩

theorem phases_cancelCompletion (i : ℕ) : (r.cancelCompletion i).phases = r.phases := by
  apply List.ext_getElem?
  intro j
  rw [phases, cancelCompletion, phases, List.getElem?_map, List.getElem?_modify, List.getElem?_map]
  cases r.completions[j]? with
  | none => rfl
  | some c =>
      simp only [Option.map_some]
      split <;> rfl

theorem sameBooks_beginStop (pollInterval : PollInterval) :
    (r.beginStop pollInterval).1.SameBooks r := by
  unfold beginStop
  split
  · exact ⟨rfl, rfl, id⟩
  · dsimp only
    split
    · split
      · exact ⟨rfl, rfl, id⟩
      · exact ⟨rfl, rfl, id⟩
    · split
      · split
        · exact ⟨rfl, rfl, id⟩
        · exact ⟨rfl, phases_cancelCompletion _ _, id⟩
      · exact ⟨rfl, rfl, id⟩

theorem sameBooks_childStopped (pollInterval : PollInterval) :
    (r.childStopped pollInterval).1.SameBooks r := by
  cases pollInterval <;> exact ⟨rfl, rfl, id⟩

@[simp] theorem loopSet_publish (packet : StatusPacket) (chunk : ℕ) (available : Bool) :
    (r.publish packet chunk available).reader.loopSet = r.loopSet := by
  rw [publish]
  split <;> rfl

variable {r} {r' : Reader} {available : Bool} {published : Option Sample}

theorem Notified.loopSet {data : Bytes} (h : r.Notified data available r' published) :
    r'.loopSet = r.loopSet := by
  cases h with
  | tail | dropped | begun => rfl
  | whole => rw [loopSet_publish]

theorem Followed.loopSet {i : ℕ} {c : Completion} {marks : List Mark}
    (h : r.Followed i c available r' published marks) : r'.loopSet = r.loopSet := by
  cases h with
  | reading | gaveUp => rfl
  | readBack => rw [loopSet_publish]; rfl

end Reader

namespace ReaderRun

/-- The invariant of a run: the books are kept, and `_on_notify` is called back
in notify mode only. -/
structure Booked (pollInterval : PollInterval) (s : ReaderRun) : Prop where
  books : ModeBooks pollInterval s.reader.counters s.reader.phases s.trace
  live : s.live → pollInterval = none ∧ s.reader.loopSet

theorem booked_init (pollInterval : PollInterval) : Booked pollInterval {} := by
  have hbooks : Books ({} : Reader).counters [] [] := ⟨gate_nil, rfl, rfl⟩
  refine ⟨?_, by simp⟩
  cases pollInterval with
  | none => exact ⟨hbooks, rfl⟩
  | some _ => exact ⟨hbooks, rfl, rfl, rfl, rfl⟩

variable {pollInterval : PollInterval} {s s' : ReaderRun}

/-- What neither delivers data nor ends a follow-up keeps the books. -/
theorem Booked.of_same (h : Booked pollInterval s) (hsame : s'.reader.SameBooks s.reader)
    (hlive : s'.live → s.live) {marks : List Mark} (hmarks : ∀ m ∈ marks, m.Unbooked)
    (htrace : s'.trace = marks ++ s.trace) : Booked pollInterval s' := by
  refine ⟨?_, ?_⟩
  · rw [hsame.counters, hsame.phases, htrace]
    clear htrace
    induction marks with
    | nil => exact h.books
    | cons m marks ih =>
        have hm : m.Unbooked := hmarks m List.mem_cons_self
        have hrest := ih fun m' hm' => hmarks m' (List.mem_cons_of_mem m hm')
        cases pollInterval with
        | none => exact NotifyBooks.cons hrest hm
        | some _ => exact PollBooks.cons hrest hm
  · intro h'
    obtain ⟨hmode, hloop⟩ := h.live (hlive h')
    exact ⟨hmode, hsame.loopSet hloop⟩

theorem unbooked_stopAt {pc : ReaderPc} {m : Mark}
    (hm : m ∈ if pc = .returned then [Mark.stopped] else []) : m.Unbooked := by
  split at hm
  · obtain rfl := List.mem_singleton.mp hm
    exact Mark.unbooked_stopped
  · simp at hm

theorem Booked.start (h : Booked pollInterval s) : Booked pollInterval (s.start pollInterval) := by
  have hmarks : ∀ m ∈ [Mark.starting], m.Unbooked := by
    intro m hm
    obtain rfl := List.mem_singleton.mp hm
    exact Mark.unbooked_starting
  cases pollInterval with
  | none =>
      -- from here on the transport calls back
      have hbooks : NotifyBooks s.reader.counters s.reader.phases s.trace := h.books
      exact ⟨hbooks.cons Mark.unbooked_starting, fun _ => ⟨rfl, rfl⟩⟩
  | some _ => exact h.of_same s.reader.sameBooks_startPolling id hmarks rfl

theorem Booked.called {j : ℕ} {step : CallStep} (h : Booked pollInterval s)
    (hcalled : Called pollInterval s j step s') : Booked pollInterval s' := by
  have hnone : ∀ m ∈ ([] : List Mark), m.Unbooked := by simp
  cases hcalled with
  | subscribed => exact h.of_same ⟨rfl, rfl, id⟩ id hnone rfl
  | subscribeFailed => exact h.of_same ⟨rfl, rfl, id⟩ (by simp [setCall]; tauto) hnone rfl
  | childStopped =>
      exact h.of_same (s.reader.sameBooks_childStopped pollInterval) id
        (fun m hm => unbooked_stopAt hm) rfl
  | unsubscribed =>
      exact h.of_same ⟨rfl, rfl, id⟩ (by simp [stopAt, setCall, emit, setReader]; tauto)
        (fun m hm => unbooked_stopAt hm) rfl
  | unsubscribeCancelled => exact h.of_same ⟨rfl, rfl, id⟩ id hnone rfl

theorem booked_step {a : ReaderAction} (h : Booked pollInterval s)
    (hstep : (machine pollInterval).step s a = some s') : Booked pollInterval s' := by
  have hnone : ∀ m ∈ ([] : List Mark), m.Unbooked := by simp
  cases stepped_of_step hstep with
  | pass => exact h.of_same ⟨rfl, rfl, id⟩ id hnone rfl
  | start => exact h.start
  | stop =>
      exact h.of_same (s.reader.sameBooks_beginStop pollInterval) id
        (fun m hm => unbooked_stopAt hm) rfl
  | call hcalled => exact h.called hcalled
  | @notify _ _ data available raises hlive =>
      obtain ⟨rfl, hloop⟩ := h.live hlive
      have hnotified := Reader.notified_onNotify hloop data available
      refine ⟨?_, fun _ => ⟨rfl, hnotified.loopSet.trans hloop⟩⟩
      have hbooks := NotifyBooks.notified h.books hnotified raises
      show NotifyBooks _ _ (_ ++ [_] ++ s.trace)
      rw [List.append_assoc]
      exact hbooks
  | @completion _ _ _ _ _ raises _ _ hc hintake =>
      have hfollowed := Reader.followed_completionStep hc hintake
      cases pollInterval with
      | none =>
          refine ⟨NotifyBooks.followed h.books hc hfollowed raises, ?_⟩
          intro hlive
          exact ⟨rfl, hfollowed.loopSet.trans (h.live hlive).2⟩
      | some _ =>
          exact (PollBooks.not_followed h.books hc hfollowed).elim
  | @poll _ _ _ _ _ raises _ hintake =>
      refine ⟨PollBooks.stepped h.books hintake raises, ?_⟩
      intro hlive
      have hmode := (h.live hlive).1
      simp at hmode
  | poke => exact h.of_same s.reader.sameBooks_pokeNow id hnone rfl

/-- Every chunk is accounted for exactly once, and only what may be believed is
published. -/
theorem every_chunk_is_accounted_for (pollInterval : PollInterval) {actions : List ReaderAction}
    {s : ReaderRun} (hrun : (machine pollInterval).run {} actions = some s) :
    Accounts pollInterval s.reader s.trace ∧
      (∀ sample raised, .published sample raised ∈ s.trace → sample.packet.isTrustworthy) ∧
      s.reader.rejectedChecksum = (handed s.trace).countP (!·.isTrustworthy) := by
  have hbooked : Booked pollInterval s :=
    Machine.run_invariant' (fun _ _ _ h hstep => booked_step h hstep) (booked_init pollInterval)
      hrun
  have hgate := hbooked.books.gate
  refine ⟨hbooked.books.accounts, ?_, hgate.rejected⟩
  intro sample raised hmem
  exact hgate.trustworthy hmem

/-- A stray tail, a whole packet, a fragment that is completed, and one whose
completion is cancelled. -/
def splitRun : List ReaderAction :=
  [.start, .call 0 .subscribed, .notify (standbyPacket.drop 20) true false,
    .notify coolPacket true true, .notify (standbyPacket.take 20) true false,
    .notify (standbyPacket.take 20) true false, .completion 0 .begin true false,
    .completion 0 (.data (standbyPacket.drop 20)) true false,
    .notify (standbyPacket.take 20) true false, .completion 1 .begin true false, .stop,
    .completion 1 .cancelled true false, .call 1 .childStopped, .call 1 (.unsubscribed false)]

theorem every_chunk_is_accounted_for_splitRun :
    ∃ s, (machine none).run {} splitRun = some s ∧ s.reader.packetsSeen = 5 ∧
      NotifyAccounts s.reader s.trace ∧
      (∀ sample raised, .published sample raised ∈ s.trace → sample.packet.isTrustworthy) ∧
      s.reader.rejectedChecksum = (handed s.trace).countP (!·.isTrustworthy) := by
  have hany : ((machine none).run {} splitRun).any (·.reader.packetsSeen = 5) := by
    decide +kernel
  obtain ⟨s, hrun, hseen⟩ := Machine.exists_of_run_any hany
  exact ⟨s, hrun, of_decide_eq_true hseen, every_chunk_is_accounted_for none hrun⟩

end ReaderRun

end Bedjet.Service
