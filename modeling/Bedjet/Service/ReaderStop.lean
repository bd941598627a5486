import Bedjet.Asyncio.History
import Bedjet.Service.ReaderAccounts

/-!
What is left of a reader that was stopped, in notify mode. `stop` waits for the
follow-up read it cancels and then for the transport to unsubscribe, and all the
while notifications are still delivered. A fragment among them starts a
follow-up that nothing releases.
-/

namespace Bedjet.Service

open Python Protocol Device Asyncio History

/-- Whether `stop` has returned and `start` was not called since. -/
def isStopped : List Mark → Bool
  | .stopped :: _ => true
  | .starting :: _ => false
  | _ :: trace => isStopped trace
  | [] => false

/-- The notification of that number came after the last time `stop` returned. -/
def HeardSince (chunk : ℕ) (trace : List Mark) : Prop :=
  ∃ data later earlier, trace = later ++ .heard chunk data :: earlier ∧ .stopped ∉ later

theorem HeardSince.cons {chunk : ℕ} {trace : List Mark} (h : HeardSince chunk trace) {m : Mark}
    (hm : m ≠ .stopped) : HeardSince chunk (m :: trace) := by
  obtain ⟨data, later, earlier, rfl, hlater⟩ := h
  refine ⟨data, m :: later, earlier, rfl, ?_⟩
  rw [List.mem_cons, not_or]
  exact ⟨hm.symm, hlater⟩

theorem heardSince_head (chunk : ℕ) (data : Bytes) (trace : List Mark) :
    HeardSince chunk (.heard chunk data :: trace) :=
  ⟨data, [], trace, rfl, by simp⟩

theorem getElem?_concat_cases {α : Type*} {l : List α} {x y : α} {i : ℕ}
    (h : (l ++ [x])[i]? = some y) : l[i]? = some y ∨ (i = l.length ∧ y = x) := by
  by_cases hlt : i < l.length
  · rw [List.getElem?_append_left hlt] at h
    exact .inl h
  · rw [List.getElem?_append_right (by omega), List.getElem?_singleton] at h
    split at h
    · obtain rfl := Option.some.inj h
      exact .inr ⟨by omega, rfl⟩
    · simp at h

theorem getElem?_set_cases {α : Type*} {l : List α} {x y : α} {i j : ℕ}
    (h : (l.set i x)[j]? = some y) : (i = j ∧ y = x) ∨ (i ≠ j ∧ l[j]? = some y) := by
  by_cases hij : i = j
  · subst hij
    have hlt : i < l.length := by simpa using (List.getElem?_eq_some_iff.mp h).1
    rw [List.getElem?_set_self hlt] at h
    exact .inl ⟨rfl, (Option.some.inj h).symm⟩
  · rw [List.getElem?_set_ne hij] at h
    exact .inr ⟨hij, h⟩

namespace Reader

/-- A follow-up task that has not ended, and the notification it is for. -/
def Unfinished (r : Reader) (i chunk : ℕ) : Prop :=
  ∃ c, r.completions[i]? = some c ∧ c.phase ≠ .done ∧ c.chunk = chunk

/-- No follow-up read is in flight. -/
def Settled (r : Reader) : Prop :=
  ∀ c ∈ r.completions, c.phase = .done

instance (r : Reader) : Decidable r.Settled :=
  inferInstanceAs (Decidable (∀ c ∈ r.completions, c.phase = .done))

theorem settled_iff {r : Reader} : r.Settled ↔ ∀ i chunk, ¬r.Unfinished i chunk := by
  constructor
  · rintro h i chunk ⟨c, hc, hphase, -⟩
    exact hphase (h c (List.mem_of_getElem? hc))
  · intro h c hmem
    obtain ⟨i, hi⟩ := List.mem_iff_getElem?.mp hmem
    by_contra hphase
    exact h i c.chunk ⟨c, hi, hphase, rfl⟩

/-- A notification of `data` starts a follow-up. -/
def followsUp (r : Reader) (data : Bytes) : Bool :=
  isFragment data && !r.busy

section

variable {r r' : Reader} {i chunk : ℕ}

theorem Unfinished.of_completions (h : r'.Unfinished i chunk)
    (hcompletions : r'.completions = r.completions) : r.Unfinished i chunk := by
  rw [Unfinished, hcompletions] at h
  exact h

theorem completions_publish (r : Reader) (packet : StatusPacket) (chunk : ℕ) (available : Bool) :
    (r.publish packet chunk available).reader.completions = r.completions := by
  rw [publish]
  split <;> rfl

theorem completion_publish (r : Reader) (packet : StatusPacket) (chunk : ℕ) (available : Bool) :
    (r.publish packet chunk available).reader.completion = r.completion := by
  rw [publish]
  split <;> rfl

theorem isSome_published_publish {packet : StatusPacket} {available : Bool}
    (h : (r.publish packet chunk available).published.isSome) : packet.isTrustworthy := by
  rw [publish] at h
  split at h
  · assumption
  · simp at h

theorem Unfinished.of_cancelCompletion {j : ℕ} (h : (r.cancelCompletion j).Unfinished i chunk) :
    r.Unfinished i chunk := by
  obtain ⟨c, hc, hphase, hchunk⟩ := h
  rw [cancelCompletion, List.getElem?_modify] at hc
  obtain ⟨d, hd, rfl⟩ := Option.map_eq_some_iff.mp hc
  refine ⟨d, hd, ?_, ?_⟩
  · split at hphase <;> exact hphase
  · split at hchunk <;> exact hchunk

/-- A follow-up task takes a step. -/
theorem Unfinished.of_putCompletion {j : ℕ} {c : Completion} {phase : CompletionPhase}
    (hc : r.completions[j]? = some c) (hj : c.phase ≠ .done)
    (h : (r.putCompletion j { c with phase }).Unfinished i chunk) : r.Unfinished i chunk := by
  obtain ⟨d, hd, hphase, hchunk⟩ := h
  rcases getElem?_set_cases hd with ⟨rfl, rfl⟩ | ⟨-, hd⟩
  · exact ⟨c, hc, hj, hchunk⟩
  · exact ⟨d, hd, hphase, hchunk⟩

theorem Unfinished.of_beginStop (h : (r.beginStop none).1.Unfinished i chunk) :
    r.Unfinished i chunk := by
  unfold beginStop at h
  split at h
  · exact h
  · dsimp only at h
    split at h
    · split at h
      · exact h
      · exact h.of_cancelCompletion
    · exact h

/-- A follow-up is begun. -/
theorem Unfinished.of_newCompletion {first : Bytes}
    (h : (r.newCompletion first).Unfinished i chunk) :
    r.Unfinished i chunk ∨ (i = r.completions.length ∧ chunk = r.packetsSeen) := by
  obtain ⟨c, hc, hphase, hchunk⟩ := h
  rw [newCompletion] at hc
  rcases getElem?_concat_cases hc with hold | ⟨rfl, rfl⟩
  · exact .inl ⟨c, hold, hphase, hchunk⟩
  · exact .inr ⟨rfl, hchunk.symm⟩

/-- The follow-up in flight, if any, is the reader's `_completion`. -/
def Tracked (r : Reader) : Prop :=
  ∀ i chunk, r.Unfinished i chunk → r.completion = some i

/-- A reader that is not busy has no follow-up in flight. -/
theorem Tracked.settled_of_idle (h : r.Tracked) (hidle : r.busy = false) : r.Settled := by
  rw [settled_iff]
  rintro i chunk hi
  have htracked := h i chunk hi
  obtain ⟨c, hc, hphase, -⟩ := hi
  have hbusy : r.busy := by
    rw [busy, htracked, Option.bind_some, hc]
    simpa using hphase
  rw [hidle] at hbusy
  exact Bool.false_ne_true hbusy

end

end Reader

namespace ReaderRun

/-- A stopped reader is quiet: no follow-up is in flight, none is completed for a
fragment that came before, and nothing is published. -/
structure Quiet (s : ReaderRun) : Prop where
  settled : isStopped s.trace → s.reader.Settled
  silent : Each (fun m earlier =>
    ∀ sample raised, m = .published sample raised → isStopped earlier = false) s.trace
  completed : Each (fun m earlier =>
    ∀ chunk first remainder, m = .readBack chunk first remainder → HeardSince chunk earlier)
    s.trace

/-- Whether a call of `stop` is in progress. -/
def stopping (s : ReaderRun) : Bool :=
  s.calls.any (·.stopping)

/-- The steps that leave nothing behind. -/
def Orderly (s : ReaderRun) : ReaderAction → Prop
  -- no fragment is followed up while `stop` is in progress or has returned, and
  -- once it has returned nothing that may be believed is delivered
  | .notify data _ _ =>
      (s.reader.followsUp data → s.stopping = false ∧ isStopped s.trace = false) ∧
        (isWhole data ∧ (decodeStatus data).isTrustworthy → isStopped s.trace = false)
  -- a reader that is not running has nothing to release
  | .stop => s.reader.running = false → s.reader.Settled
  | _ => True

instance (s : ReaderRun) (a : ReaderAction) : Decidable (s.Orderly a) := by
  cases a <;> unfold Orderly <;> infer_instance

/-! ### The trace and the follow-ups in flight -/

/-- `Quiet`, with the fragments in flight heard since the last stop. -/
structure QuietAt (r : Reader) (trace : List Mark) : Prop where
  heard : ∀ i chunk, r.Unfinished i chunk → HeardSince chunk trace
  settled : isStopped trace → r.Settled
  silent : Each (fun m earlier =>
    ∀ sample raised, m = .published sample raised → isStopped earlier = false) trace
  completed : Each (fun m earlier =>
    ∀ chunk first remainder, m = .readBack chunk first remainder → HeardSince chunk earlier) trace

section

variable {r r' : Reader} {trace : List Mark}

theorem quietAt_init : QuietAt {} [] := by
  refine ⟨?_, by simp [isStopped], each_nil _, each_nil _⟩
  rintro i chunk ⟨c, hc, -⟩
  simp at hc

theorem QuietAt.fewer (h : QuietAt r trace)
    (hfewer : ∀ i chunk, r'.Unfinished i chunk → r.Unfinished i chunk) : QuietAt r' trace := by
  refine ⟨fun i chunk hi => h.heard i chunk (hfewer i chunk hi), ?_, h.silent, h.completed⟩
  intro hstopped
  rw [Reader.settled_iff]
  intro i chunk hi
  exact Reader.settled_iff.mp (h.settled hstopped) i chunk (hfewer i chunk hi)

theorem QuietAt.starting (h : QuietAt r trace) : QuietAt r (.starting :: trace) := by
  refine ⟨?_, by simp [isStopped], h.silent.cons (by simp), h.completed.cons (by simp)⟩
  intro i chunk hi
  exact (h.heard i chunk hi).cons (by simp)

theorem QuietAt.stopped (h : QuietAt r trace) (hsettled : r.Settled) :
    QuietAt r (.stopped :: trace) := by
  refine ⟨?_, fun _ => hsettled, h.silent.cons (by simp), h.completed.cons (by simp)⟩
  intro i chunk hi
  exact (Reader.settled_iff.mp hsettled i chunk hi).elim

theorem QuietAt.heardChunk (h : QuietAt r trace) (chunk : ℕ) (data : Bytes) :
    QuietAt r (.heard chunk data :: trace) := by
  refine ⟨?_, h.settled, h.silent.cons (by simp), h.completed.cons (by simp)⟩
  intro i chunk' hi
  exact (h.heard i chunk' hi).cons (by simp)

theorem QuietAt.gaveUp (h : QuietAt r trace) (chunk : ℕ) : QuietAt r (.gaveUp chunk :: trace) := by
  refine ⟨?_, h.settled, h.silent.cons (by simp), h.completed.cons (by simp)⟩
  intro i chunk' hi
  exact (h.heard i chunk' hi).cons (by simp)

theorem QuietAt.readBack (h : QuietAt r trace) {chunk : ℕ} (hchunk : HeardSince chunk trace)
    (first remainder : Bytes) : QuietAt r (.readBack chunk first remainder :: trace) := by
  refine ⟨?_, h.settled, h.silent.cons (by simp), h.completed.cons ?_⟩
  · intro i chunk' hi
    exact (h.heard i chunk' hi).cons (by simp)
  · rintro chunk' first' remainder' heq
    obtain ⟨rfl, rfl, rfl⟩ := Mark.readBack.inj heq
    exact hchunk

/-- `on_state` is invoked, or not. -/
theorem QuietAt.published (h : QuietAt r trace) {published : Option Sample}
    (hrunning : published.isSome → isStopped trace = false) (raises : Bool) :
    QuietAt r (published.toList.map (.published · raises) ++ trace) := by
  cases published with
  | none => exact h
  | some sample =>
      refine ⟨?_, h.settled, h.silent.cons ?_, h.completed.cons (by simp)⟩
      · intro i chunk hi
        exact (h.heard i chunk hi).cons (by simp)
      · intro _ _ _
        exact hrunning rfl

end

/-! ### The calls and the follow-up they wait for -/

/-- The one follow-up in flight is the reader's, and `stop` is past it or waits
for it. -/
structure Awaited (r : Reader) (calls : List ReaderPc) : Prop where
  tracked : ∀ i chunk, r.Unfinished i chunk → r.completion = some i
  awaiting : ∀ child, .awaiting child ∈ calls → ∀ i chunk, r.Unfinished i chunk → i = child
  unsubscribing : .unsubscribing ∈ calls → r.Settled

section

variable {r r' : Reader} {calls calls' : List ReaderPc}

theorem awaited_of_settled (h : r.Settled) : Awaited r calls := by
  rw [Reader.settled_iff] at h
  refine ⟨fun i chunk hi => (h i chunk hi).elim, fun _ _ i chunk hi => (h i chunk hi).elim, ?_⟩
  intro _
  rw [Reader.settled_iff]
  exact h

theorem Awaited.fewer (h : Awaited r calls)
    (hfewer : ∀ i chunk, r'.Unfinished i chunk → r.Unfinished i chunk)
    (hcompletion : r'.completion = r.completion)
    (hcalls : ∀ pc ∈ calls', pc.stopping → pc ∈ calls) : Awaited r' calls' := by
  refine ⟨?_, ?_, ?_⟩
  · intro i chunk hi
    rw [hcompletion]
    exact h.tracked i chunk (hfewer i chunk hi)
  · intro child hchild i chunk hi
    exact h.awaiting child (hcalls _ hchild rfl) i chunk (hfewer i chunk hi)
  · intro hcall
    rw [Reader.settled_iff]
    intro i chunk hi
    exact Reader.settled_iff.mp (h.unsubscribing (hcalls _ hcall rfl)) i chunk (hfewer i chunk hi)

/-- The follow-up that is in flight, if any, is the one that has ended. -/
theorem settled_of_done {child : ℕ} (hchild : r.completionDone child)
    (hall : ∀ i chunk, r.Unfinished i chunk → i = child) : r.Settled := by
  rw [Reader.settled_iff]
  rintro i chunk hi
  obtain rfl := hall i chunk hi
  obtain ⟨c, hc, hphase, -⟩ := hi
  rw [Reader.completionDone, hc] at hchild
  exact hphase (by simpa using hchild)

/-- `stop` is called. -/
theorem Awaited.beginStop (h : Awaited r calls) (hrunning : r.running = false → r.Settled) :
    Awaited (r.beginStop none).1 (calls ++ [(r.beginStop none).2]) ∧
      ((r.beginStop none).2 = .returned → r.Settled) := by
  unfold Reader.beginStop
  split
  · rename_i hstopped
    have hsettled : r.Settled := hrunning (by simpa using hstopped)
    exact ⟨awaited_of_settled hsettled, fun _ => hsettled⟩
  · dsimp only
    split
    · rename_i i hi
      have hall (j chunk : ℕ) (hj : r.Unfinished j chunk) : j = i := by
        have htracked := h.tracked j chunk hj
        rw [hi] at htracked
        exact (Option.some.inj htracked).symm
      split
      · -- it has ended already
        rename_i hdone
        have hsettled : r.Settled := settled_of_done hdone hall
        exact ⟨awaited_of_settled hsettled, fun _ => hsettled⟩
      · refine ⟨⟨?_, ?_, ?_⟩, by simp⟩
        · intro j chunk hj
          rw [hall j chunk hj.of_cancelCompletion]
          exact hi
        · intro child hchild j chunk hj
          rcases List.mem_append.mp hchild with hchild | hchild
          · exact h.awaiting child hchild j chunk hj.of_cancelCompletion
          · obtain ⟨rfl⟩ : child = i := by simpa using hchild
            exact hall j chunk hj.of_cancelCompletion
        · intro hcall
          have hold : .unsubscribing ∈ calls := by simpa using hcall
          rw [Reader.settled_iff]
          intro j chunk hj
          exact Reader.settled_iff.mp (h.unsubscribing hold) j chunk hj.of_cancelCompletion
    · rename_i hnone
      have hsettled : r.Settled := by
        rw [Reader.settled_iff]
        intro i chunk hi
        have htracked := h.tracked i chunk hi
        rw [hnone] at htracked
        simp at htracked
      exact ⟨awaited_of_settled hsettled, fun _ => hsettled⟩

end

/-! ### Runs -/

/-- The invariant of an orderly run. -/
structure Released (s : ReaderRun) : Prop where
  booked : Booked none s
  awaited : Awaited s.reader s.calls
  quietAt : QuietAt s.reader s.trace

theorem released_init : Released {} := by
  refine ⟨booked_init none, awaited_of_settled ?_, quietAt_init⟩
  intro c hc
  simp at hc

theorem Released.quiet {s : ReaderRun} (h : Released s) : Quiet s :=
  ⟨h.quietAt.settled, h.quietAt.silent, h.quietAt.completed⟩

section

variable {s s' : ReaderRun}

theorem calls_stop (s : ReaderRun) :
    (s.stop none).calls = s.calls ++ [(s.reader.beginStop none).2] := by
  cases hstop : s.reader.beginStop none with
  | mk reader pc => simp [stop, hstop, stopAt, emit, setReader, setCall]

theorem Released.stopAt_trace (h : Released s) {r : Reader} {pc : ReaderPc}
    (hfewer : ∀ i chunk, r.Unfinished i chunk → s.reader.Unfinished i chunk)
    (hsettled : pc = .returned → s.reader.Settled) :
    QuietAt r ((if pc = .returned then [.stopped] else []) ++ s.trace) := by
  split
  · rename_i hreturned
    exact (h.quietAt.stopped (hsettled hreturned)).fewer hfewer
  · exact h.quietAt.fewer hfewer

theorem Released.called (h : Released s) {j : ℕ} {step : CallStep} (hbooked : Booked none s')
    (hcalled : Called none s j step s') : Released s' := by
  -- a call that ends leaves the others where they are
  have hcalls (pc' : ReaderPc) (hended : pc'.stopping = false) :
      ∀ pc'' ∈ s.calls.set j pc', pc''.stopping → pc'' ∈ s.calls := by
    intro pc'' hmem' hstopping
    rcases List.mem_or_eq_of_mem_set hmem' with hmem' | rfl
    · exact hmem'
    · rw [hended] at hstopping
      simp at hstopping
  cases hcalled with
  | subscribed =>
      exact ⟨hbooked, h.awaited.fewer (fun _ _ hi => hi) rfl (hcalls .returned rfl),
        h.quietAt.fewer fun _ _ hi => hi⟩
  | subscribeFailed =>
      exact ⟨hbooked, h.awaited.fewer (fun _ _ hi => hi) rfl (hcalls .raised rfl), h.quietAt⟩
  | @childStopped child hpc hdone =>
      have hsettled : s.reader.Settled :=
        settled_of_done hdone (h.awaited.awaiting child (List.mem_of_getElem? hpc))
      exact ⟨hbooked, awaited_of_settled hsettled,
        h.stopAt_trace (fun _ _ hi => hi) fun _ => hsettled⟩
  | unsubscribed hpc =>
      have hsettled : s.reader.Settled := h.awaited.unsubscribing (List.mem_of_getElem? hpc)
      exact ⟨hbooked, awaited_of_settled hsettled,
        h.stopAt_trace (fun _ _ hi => hi) fun _ => hsettled⟩
  | unsubscribeCancelled =>
      exact ⟨hbooked, h.awaited.fewer (fun _ _ hi => hi) rfl (hcalls .raised rfl), h.quietAt⟩

theorem Released.notify (h : Released s) {data : Bytes} {available raises : Bool} {r' : Reader}
    {published : Option Sample} (hok : s.Orderly (.notify data available raises))
    (hnotified : s.reader.Notified data available r' published) :
    Awaited r' s.calls ∧ QuietAt r' (published.toList.map (.published · raises) ++
      .heard (s.reader.packetsSeen + 1) data :: s.trace) := by
  have hheard := h.quietAt.heardChunk (s.reader.packetsSeen + 1) data
  cases hnotified with
  | tail | dropped =>
      exact ⟨h.awaited.fewer (fun _ _ hi => hi) rfl fun _ hpc _ => hpc,
        hheard.fewer fun _ _ hi => hi⟩
  | begun _ hfragment hidle =>
      -- the follow-up that is begun is the only one
      obtain ⟨hstopping, hstopped⟩ := hok.1 (by simp [Reader.followsUp, hfragment, hidle])
      have htracked : s.reader.Tracked := h.awaited.tracked
      have hsettled := Reader.settled_iff.mp (htracked.settled_of_idle hidle)
      have hnew {i chunk : ℕ} (hi : ({ s.reader with
          packetsSeen := s.reader.packetsSeen + 1
          partialsSeen := s.reader.partialsSeen + 1 }.newCompletion data).Unfinished i chunk) :
          i = s.reader.completions.length ∧ chunk = s.reader.packetsSeen + 1 := by
        rcases hi.of_newCompletion with hold | hnew
        · exact (hsettled i chunk hold).elim
        · exact hnew
      have hnone (pc : ReaderPc) (hpc : pc ∈ s.calls) : pc.stopping = false := by
        simpa using List.any_eq_false.mp hstopping pc hpc
      refine ⟨⟨?_, ?_, ?_⟩, ⟨?_, ?_, hheard.silent, hheard.completed⟩⟩
      · intro i chunk hi
        rw [(hnew hi).1]
        rfl
      · intro child hchild
        have hno := hnone _ hchild
        simp [ReaderPc.stopping] at hno
      · intro hcall
        have hno := hnone _ hcall
        simp [ReaderPc.stopping] at hno
      · intro i chunk hi
        rw [(hnew hi).2]
        exact heardSince_head _ data s.trace
      · intro hno
        have hyes : isStopped s.trace = true := hno
        rw [hstopped] at hyes
        simp at hyes
  | whole hwhole =>
      let heard : Reader := { s.reader with packetsSeen := s.reader.packetsSeen + 1 }
      have hcompletions := heard.completions_publish (decodeStatus data)
        (s.reader.packetsSeen + 1) available
      have hcompletion := heard.completion_publish (decodeStatus data)
        (s.reader.packetsSeen + 1) available
      refine ⟨h.awaited.fewer (fun _ _ hi => hi.of_completions hcompletions) hcompletion
        fun _ hpc _ => hpc, ?_⟩
      apply QuietAt.published (hheard.fewer fun _ _ hi => hi.of_completions hcompletions)
      intro hpublished
      exact hok.2 ⟨hwhole, Reader.isSome_published_publish hpublished⟩

theorem Released.followed (h : Released s) {i : ℕ} {c : Completion} {available : Bool}
    {r' : Reader} {published : Option Sample} {marks : List Mark}
    (hc : s.reader.completions[i]? = some c)
    (hfollowed : s.reader.Followed i c available r' published marks) (raises : Bool) :
    Awaited r' s.calls ∧
      QuietAt r' (published.toList.map (.published · raises) ++ marks ++ s.trace) := by
  have hput (phase : CompletionPhase) (hphase : c.phase ≠ .done) (j chunk : ℕ)
      (hj : (s.reader.putCompletion i { c with phase }).Unfinished j chunk) :
      s.reader.Unfinished j chunk := hj.of_putCompletion hc hphase
  cases hfollowed with
  | reading hphase _ =>
      have hfewer := hput .reading (by simp [hphase])
      exact ⟨h.awaited.fewer hfewer rfl fun _ hpc _ => hpc, h.quietAt.fewer hfewer⟩
  | gaveUp hphase =>
      have hfewer := hput .done hphase
      exact ⟨h.awaited.fewer hfewer rfl fun _ hpc _ => hpc,
        (h.quietAt.fewer hfewer).gaveUp c.chunk⟩
  | readBack hphase _ remainder =>
      let ended := s.reader.putCompletion i { c with phase := .done }
      have hcompletions := ended.completions_publish (decodeStatus (reassemble c.first remainder))
        c.chunk available
      have hcompletion := ended.completion_publish (decodeStatus (reassemble c.first remainder))
        c.chunk available
      have hfewer (j chunk : ℕ) (hj : (ended.publish (decodeStatus (reassemble c.first remainder))
          c.chunk available).reader.Unfinished j chunk) : s.reader.Unfinished j chunk :=
        hput .done hphase j chunk (hj.of_completions hcompletions)
      have hunfinished : s.reader.Unfinished i c.chunk := ⟨c, hc, hphase, rfl⟩
      refine ⟨h.awaited.fewer hfewer hcompletion fun _ hpc _ => hpc, ?_⟩
      rw [List.append_assoc]
      apply QuietAt.published
      · exact (h.quietAt.readBack (h.quietAt.heard i c.chunk hunfinished) c.first
          remainder).fewer hfewer
      · intro _
        -- a stopped reader has no follow-up that could publish
        by_contra hstopped
        have hsettled := h.quietAt.settled ((Bool.not_eq_false _).mp hstopped)
        exact Reader.settled_iff.mp hsettled i c.chunk hunfinished

theorem released_step {a : ReaderAction} (h : Released s) (hok : s.Orderly a)
    (hstep : (machine none).step s a = some s') : Released s' := by
  have hbooked : Booked none s' := booked_step h.booked hstep
  cases stepped_of_step hstep with
  | pass => exact ⟨hbooked, h.awaited, h.quietAt⟩
  | start =>
      refine ⟨hbooked, h.awaited.fewer (fun _ _ hi => hi) rfl ?_,
        h.quietAt.starting.fewer fun _ _ hi => hi⟩
      intro pc hpc hstopping
      rcases List.mem_append.mp hpc with hpc | hpc
      · exact hpc
      · obtain rfl := List.mem_singleton.mp hpc
        simp [ReaderPc.stopping] at hstopping
  | stop =>
      obtain ⟨hawaited, hreturned⟩ := h.awaited.beginStop hok
      refine ⟨hbooked, ?_, ?_⟩
      · rw [calls_stop]
        exact hawaited
      · exact h.stopAt_trace (fun _ _ hi => hi.of_beginStop) hreturned
  | call hcalled => exact h.called hbooked hcalled
  | @notify _ _ data available raises hlive =>
      have hnotified := Reader.notified_onNotify (h.booked.live hlive).2 data available
      obtain ⟨hawaited, hquiet⟩ := h.notify hok hnotified
      refine ⟨hbooked, hawaited, ?_⟩
      show QuietAt _ (_ ++ [_] ++ s.trace)
      rw [List.append_assoc]
      exact hquiet
  | @completion _ _ _ _ _ raises _ _ hc hintake =>
      obtain ⟨hawaited, hquiet⟩ :=
        h.followed hc (Reader.followed_completionStep hc hintake) raises
      exact ⟨hbooked, hawaited, hquiet⟩
  | poke =>
      exact ⟨hbooked, h.awaited.fewer (fun _ _ hi => hi) rfl fun _ hpc _ => hpc,
        h.quietAt.fewer fun _ _ hi => hi⟩

end

/-- In every orderly run a stopped reader is quiet. -/
theorem stopped_reader_is_quiet {actions : List ReaderAction} {s : ReaderRun}
    (hrun : (machine none).run {} actions = some s)
    (horderly : (machine none).Meets Orderly {} actions) : s.Quiet := by
  have hreleased : Released s :=
    Machine.run_invariant (fun _ _ _ h hok hstep => released_step h hok hstep) released_init
      horderly hrun
  exact hreleased.quiet

theorem stopped_reader_is_quiet_splitRun :
    ∃ s, (machine none).run {} splitRun = some s ∧ isStopped s.trace ∧ s.Quiet := by
  have hany : ((machine none).run {} splitRun).any (isStopped ·.trace) := by
    decide +kernel
  have horderly : (machine none).Meets Orderly {} splitRun := by
    decide +kernel
  obtain ⟨s, hrun, hstopped⟩ := Machine.exists_of_run_any hany
  exact ⟨s, hrun, hstopped, stopped_reader_is_quiet hrun horderly⟩

/-- A fragment is delivered while `stop` unsubscribes. -/
def leakRun : List ReaderAction :=
  [.start, .call 0 .subscribed, .stop, .notify (standbyPacket.take 20) true false,
    .call 1 (.unsubscribed false)]

theorem stopped_reader_can_read_on :
    ¬∀ actions s, (machine none).run {} actions = some s → s.Quiet := by
  intro hall
  have hany : ((machine none).run {} leakRun).any fun s =>
      isStopped s.trace && !decide s.reader.Settled := by
    decide +kernel
  obtain ⟨s, hrun, hcheck⟩ := Machine.exists_of_run_any hany
  obtain ⟨hstopped, hunsettled⟩ := Bool.and_eq_true_iff.mp hcheck
  have hsettled := (hall leakRun s hrun).settled hstopped
  simp [hsettled] at hunsettled

end ReaderRun

end Bedjet.Service
