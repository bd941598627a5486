import Bedjet.Service.Reader

/-!
What the reader can do with one delivery. A reading it publishes was made of the
bytes just delivered, alone or behind the fragment they complete, and passed its
checksum; the fragments still waiting for a follow-up read were heard before.
-/

namespace Bedjet.Service

open Python Protocol Device Asyncio

/-- The number of the notification that a delivery is, or completes. -/
def ReaderEvent.chunk : ReaderEvent → ℕ
  | .heard chunk _ | .readBack chunk _ => chunk

/-- A reading that was decoded from `data`, which the chunk of that number
began. -/
structure Sample.MadeOf (sample : Sample) (chunk : ℕ) (data : Bytes) : Prop where
  chunk : sample.chunk = chunk
  packet : sample.packet = decodeStatus data
  trustworthy : sample.packet.isTrustworthy
  state : ∃ available, sample.state = .fromStatus sample.packet available

/-- Whether a follow-up task can still deliver: it has neither ended nor been
cancelled. -/
def Completion.live (c : Completion) : Bool :=
  c.phase ≠ .done && !c.cancelled

namespace Reader

/-- The fragments with a follow-up read to come, each with the number of its
notification. -/
def pending (r : Reader) : List (ℕ × Bytes) :=
  (r.completions.filter (·.live)).map fun c => (c.chunk, c.first)

theorem mem_pending {r : Reader} {chunk : ℕ} {first : Bytes} :
    (chunk, first) ∈ r.pending ↔
      ∃ c ∈ r.completions, c.live ∧ c.chunk = chunk ∧ c.first = first := by
  simp [pending, and_assoc]

/-- `r'` is `r` with nothing more heard and no fragment more to complete. -/
structure Follows (r' r : Reader) : Prop where
  packetsSeen : r'.packetsSeen = r.packetsSeen
  pending : r'.pending ⊆ r.pending

@[refl, simp] theorem Follows.refl (r : Reader) : r.Follows r := ⟨rfl, List.Subset.refl _⟩

theorem Follows.trans {r'' r' r : Reader} (h : r''.Follows r') (h' : r'.Follows r) :
    r''.Follows r :=
  ⟨h.packetsSeen.trans h'.packetsSeen, List.Subset.trans h.pending h'.pending⟩

theorem Follows.of_eq {r' r : Reader} (hseen : r'.packetsSeen = r.packetsSeen)
    (hcompletions : r'.completions = r.completions) : r'.Follows r :=
  ⟨hseen, by simp [Reader.pending, hcompletions]⟩

theorem follows_putCompletion {r : Reader} {i : ℕ} {c : Completion}
    (hc : c.live → (c.chunk, c.first) ∈ r.pending) : (r.putCompletion i c).Follows r := by
  refine ⟨rfl, ?_⟩
  rintro ⟨chunk, first⟩ h
  obtain ⟨d, hd, hlive, rfl, rfl⟩ := mem_pending.mp h
  rcases List.mem_or_eq_of_mem_set hd with hd | rfl
  · exact mem_pending.mpr ⟨d, hd, hlive, rfl, rfl⟩
  · exact hc hlive

theorem follows_cancelCompletion (r : Reader) (i : ℕ) : (r.cancelCompletion i).Follows r := by
  refine ⟨rfl, ?_⟩
  rintro ⟨chunk, first⟩ h
  obtain ⟨d, hd, hlive, rfl, rfl⟩ := mem_pending.mp h
  obtain ⟨j, hj⟩ := List.mem_iff_getElem?.mp hd
  rw [cancelCompletion, List.getElem?_modify] at hj
  obtain ⟨c, hc, rfl⟩ := Option.map_eq_some_iff.mp hj
  have hmem := List.mem_of_getElem? hc
  split at hlive
  · simp [Completion.live] at hlive
  · rename_i hij
    exact mem_pending.mpr ⟨c, hmem, hlive, by simp [hij], by simp [hij]⟩

/-- What the reader does with one delivery. -/
inductive Takes (r : Reader) : Intake → Prop
  | settles {r' : Reader} (hfollows : r'.Follows r) : Takes r { reader := r' }
  | hears {r' : Reader} {data : Bytes} {published : Option Sample}
      (hseen : r'.packetsSeen = r.packetsSeen + 1)
      (hpending : r'.pending ⊆ (r.packetsSeen + 1, data) :: r.pending)
      (hmade : ∀ sample, published = some sample → sample.MadeOf (r.packetsSeen + 1) data) :
      Takes r { reader := r', events := [.heard (r.packetsSeen + 1) data], published }
  | readsBack {r' : Reader} {chunk : ℕ} {first remainder : Bytes} {published : Option Sample}
      (hhead : (chunk, first) ∈ r.pending) (hfollows : r'.Follows r)
      (hmade : ∀ sample, published = some sample →
        sample.MadeOf chunk (reassemble first remainder)) :
      Takes r { reader := r', events := [.readBack chunk remainder], published }

/-! ### What the steps of the two tasks do -/

/-- What a step of a follow-up task does. -/
inductive Completes (r : Reader) (i : ℕ) (available : Bool) : CompletionStep → Intake → Prop
  | begins {c : Completion} (hc : r.completions[i]? = some c) (hphase : c.phase = .scheduled)
      (hcancelled : c.cancelled = false) :
      Completes r i available .begin { reader := r.putCompletion i { c with phase := .reading } }
  /-- it is over, and there is no remainder -/
  | ends {c : Completion} {step : CompletionStep} (hc : r.completions[i]? = some c)
      (hphase : c.phase ≠ .done)
      (hstep : step = .begin ∧ c.cancelled ∨ step = .failed ∨ step = .cancelled) :
      Completes r i available step { reader := r.putCompletion i { c with phase := .done } }
  | readsBack {c : Completion} (hc : r.completions[i]? = some c) (hphase : c.phase = .reading)
      (hcancelled : c.cancelled = false) (remainder : Bytes) :
      Completes r i available (.data remainder)
        { (r.putCompletion i { c with phase := .done }).publish
            (decodeStatus (reassemble c.first remainder)) c.chunk available with
          events := [.readBack c.chunk remainder] }

theorem completes_of_step {r : Reader} {i : ℕ} {step : CompletionStep} {available : Bool}
    {intake : Intake} (h : r.completionStep i step available = some intake) :
    r.Completes i available step intake := by
  obtain ⟨c, hc, hstep⟩ := Option.bind_eq_some_iff.mp h
  split at hstep
  case h_1 hphase hcancelled =>
    obtain rfl := Option.some.inj hstep
    exact .begins hc hphase hcancelled
  case h_2 hphase hcancelled =>
    obtain rfl := Option.some.inj hstep
    exact .ends hc (by simp [hphase]) (.inl ⟨rfl, hcancelled⟩)
  case h_3 remainder hphase hcancelled =>
    obtain rfl := Option.some.inj hstep
    exact .readsBack hc hphase hcancelled remainder
  case h_4 hphase hcancelled =>
    obtain rfl := Option.some.inj hstep
    exact .ends hc (by simp [hphase]) (.inr (.inl rfl))
  case h_5 hphase hcancelled =>
    obtain rfl := Option.some.inj hstep
    exact .ends hc (by simp [hphase]) (.inr (.inr rfl))
  case h_6 => simp at hstep

/-- What a step of the poll loop does. -/
inductive Polls (r : Reader) (i : ℕ) (now interval : ℚ) (available : Bool) :
    PollStep → Intake → Prop
  | begins {t : PollTask} (ht : r.pollTasks[i]? = some t) (hphase : t.phase = .scheduled)
      (hcancelled : t.cancelled = false) :
      Polls r i now interval available .begin
        { reader := r.putPollTask i { t with phase := .reading } }
  | ends {t : PollTask} {step : PollStep} (ht : r.pollTasks[i]? = some t)
      (hcancelled : t.cancelled) (hstep : step = .begin ∨ step = .cancelled) :
      Polls r i now interval available step { reader := r.putPollTask i { t with phase := .done } }
  | reads {t : PollTask} (ht : r.pollTasks[i]? = some t) (hphase : t.phase = .reading)
      (hcancelled : t.cancelled = false) (data : Bytes) :
      Polls r i now interval available (.data data)
        { { r with polls := r.polls + 1, packetsSeen := r.packetsSeen + 1 }.classifyPoll data
            available with
          reader := ({ r with
            polls := r.polls + 1
            packetsSeen := r.packetsSeen + 1 }.classifyPoll data available).reader.afterPoll i t now
              interval
          events := [.heard (r.packetsSeen + 1) data] }
  | fails {t : PollTask} (ht : r.pollTasks[i]? = some t) (hphase : t.phase = .reading)
      (hcancelled : t.cancelled = false) :
      Polls r i now interval available .failed
        { reader := { r with pollFailures := r.pollFailures + 1 }.afterPoll i t now interval }
  /-- its pause is over, by a poke or by the interval -/
  | wakes {t : PollTask} {step : PollStep} {wait : Wait} (ht : r.pollTasks[i]? = some t)
      (hphase : t.phase = .pausing wait) (hcancelled : t.cancelled = false)
      (hstep : step = .poked ∧ wait.woken ∨ step = .elapsed ∧ wait.due ≤ now) :
      Polls r i now interval available step
        { reader := { r with poke := false }.putPollTask i { t with phase := .reading } }

theorem polls_of_step {r : Reader} {i : ℕ} {step : PollStep} {now interval : ℚ}
    {available : Bool} {intake : Intake}
    (h : r.pollStep i step now interval available = some intake) :
    r.Polls i now interval available step intake := by
  obtain ⟨t, ht, hstep⟩ := Option.bind_eq_some_iff.mp h
  split at hstep
  case h_1 hphase hcancelled =>
    obtain rfl := Option.some.inj hstep
    exact .begins ht hphase hcancelled
  case h_2 hphase hcancelled =>
    obtain rfl := Option.some.inj hstep
    exact .ends ht hcancelled (.inl rfl)
  case h_3 data hphase hcancelled =>
    obtain rfl := Option.some.inj hstep
    exact .reads ht hphase hcancelled data
  case h_4 hphase hcancelled =>
    obtain rfl := Option.some.inj hstep
    exact .fails ht hphase hcancelled
  case h_5 wait hphase hcancelled =>
    obtain ⟨hwoken, hstep⟩ := Option.ite_none_right_eq_some.mp hstep
    obtain rfl := Option.some.inj hstep
    exact .wakes ht hphase hcancelled (.inl ⟨rfl, hwoken⟩)
  case h_6 wait hphase hcancelled =>
    obtain ⟨hdue, hstep⟩ := Option.ite_none_right_eq_some.mp hstep
    obtain rfl := Option.some.inj hstep
    exact .wakes ht hphase hcancelled (.inr ⟨rfl, hdue⟩)
  case h_7 hphase hcancelled =>
    obtain rfl := Option.some.inj hstep
    exact .ends ht hcancelled (.inr rfl)
  case h_8 hphase hcancelled =>
    obtain rfl := Option.some.inj hstep
    exact .ends ht hcancelled (.inr rfl)
  case h_9 => simp at hstep

/-! ### Every delivery is one of these -/

theorem follows_publish (r : Reader) (packet : StatusPacket) (chunk : ℕ) (available : Bool) :
    (r.publish packet chunk available).reader.Follows r := by
  rw [publish]
  split
  · rfl
  · exact .of_eq rfl rfl

theorem madeOf_publish {r : Reader} {data : Bytes} {chunk : ℕ} {available : Bool} {sample : Sample}
    (h : (r.publish (decodeStatus data) chunk available).published = some sample) :
    sample.MadeOf chunk data := by
  rw [publish] at h
  split at h
  · rename_i htrust
    obtain rfl : _ = sample := by simpa using h
    exact ⟨rfl, rfl, htrust, available, rfl⟩
  · simp at h

theorem takes_onNotify (r : Reader) (data : Bytes) (available : Bool) :
    r.Takes (r.onNotify data available) := by
  rw [onNotify]
  dsimp only
  have hnew (r' : Reader) (hcompletions : r'.completions = r.completions) :
      r'.pending ⊆ (r.packetsSeen + 1, data) :: r.pending := by
    rw [pending, hcompletions]
    exact List.subset_cons_self _ _
  split
  · -- a stray tail
    exact .hears rfl (hnew _ rfl) (by simp)
  · split
    · split
      · -- a fragment, while another is being completed
        exact .hears rfl (hnew _ rfl) (by simp)
      · split
        · -- a fragment to complete
          refine .hears rfl ?_ (by simp)
          rintro ⟨chunk, first⟩ h
          obtain ⟨c, hc, hlive, rfl, rfl⟩ := mem_pending.mp h
          rcases List.mem_append.mp hc with hc | hc
          · exact List.mem_cons_of_mem _ (mem_pending.mpr ⟨c, hc, hlive, rfl, rfl⟩)
          · obtain rfl := List.mem_singleton.mp hc
            exact List.mem_cons_self
        · exact .hears rfl (hnew _ rfl) (by simp)
    · -- a whole packet
      have hfollows := follows_publish { r with packetsSeen := r.packetsSeen + 1 }
        (decodeStatus data) (r.packetsSeen + 1) available
      exact .hears hfollows.packetsSeen
        (List.Subset.trans hfollows.pending (hnew { r with packetsSeen := r.packetsSeen + 1 } rfl))
        fun sample h => madeOf_publish h

theorem takes_completionStep {r : Reader} {i : ℕ} {step : CompletionStep} {available : Bool}
    {intake : Intake} (h : r.completionStep i step available = some intake) : r.Takes intake := by
  have hended (c : Completion) : (r.putCompletion i { c with phase := .done }).Follows r :=
    follows_putCompletion (by simp [Completion.live])
  cases completes_of_step h with
  | begins hc hphase hcancelled =>
      exact .settles (follows_putCompletion fun _ => mem_pending.mpr
        ⟨_, List.mem_of_getElem? hc, by simp [Completion.live, hphase, hcancelled], rfl, rfl⟩)
  | @ends c => exact .settles (hended c)
  | @readsBack c hc hphase hcancelled remainder =>
      -- the fragment leaves the pending ones with the remainder
      have hpublish := follows_publish (r.putCompletion i { c with phase := .done })
        (decodeStatus (reassemble c.first remainder)) c.chunk available
      have hhead : (c.chunk, c.first) ∈ r.pending := mem_pending.mpr
        ⟨c, List.mem_of_getElem? hc, by simp [Completion.live, hphase, hcancelled], rfl, rfl⟩
      exact .readsBack hhead (hpublish.trans (hended c)) fun sample h => madeOf_publish h

theorem follows_afterPoll (r : Reader) (i : ℕ) (t : PollTask) (now interval : ℚ) :
    (r.afterPoll i t now interval).Follows r := by
  rw [afterPoll]
  split <;> exact .of_eq rfl rfl

theorem follows_classifyPoll (r : Reader) (data : Bytes) (available : Bool) :
    (r.classifyPoll data available).reader.Follows r := by
  rw [classifyPoll]
  split
  · dsimp only
    split
    · have h := follows_publish { r with pollsWhole := r.pollsWhole + 1 } (decodeStatus data)
        r.packetsSeen available
      exact ⟨h.packetsSeen, h.pending⟩
    · exact .of_eq rfl rfl
  · exact .of_eq rfl rfl

theorem madeOf_classifyPoll {r : Reader} {data : Bytes} {available : Bool} {sample : Sample}
    (h : (r.classifyPoll data available).published = some sample) :
    sample.MadeOf r.packetsSeen data := by
  rw [classifyPoll] at h
  split at h
  · dsimp only at h
    split at h
    · exact madeOf_publish h
    · simp at h
  · simp at h

theorem takes_pollStep {r : Reader} {i : ℕ} {step : PollStep} {now interval : ℚ}
    {available : Bool} {intake : Intake}
    (h : r.pollStep i step now interval available = some intake) : r.Takes intake := by
  cases polls_of_step h with
  | begins | ends | wakes => exact .settles (.of_eq rfl rfl)
  | @reads t ht hphase hcancelled data =>
      let r₁ : Reader := { r with polls := r.polls + 1, packetsSeen := r.packetsSeen + 1 }
      have hclassify := follows_classifyPoll r₁ data available
      have hafter := follows_afterPoll (r₁.classifyPoll data available).reader i t now interval
      have hboth := hafter.trans hclassify
      exact .hears hboth.packetsSeen (List.Subset.trans hboth.pending (List.subset_cons_self _ _))
        fun sample h => madeOf_classifyPoll h
  | @fails t =>
      have hafter := follows_afterPoll { r with pollFailures := r.pollFailures + 1 } i t now
        interval
      exact .settles ⟨hafter.packetsSeen, hafter.pending⟩

/-! ### A delivery neither starts nor stops the reader -/

theorem running_publish (r : Reader) (packet : StatusPacket) (chunk : ℕ) (available : Bool) :
    (r.publish packet chunk available).reader.running = r.running := by
  rw [publish]
  split <;> rfl

theorem running_onNotify (r : Reader) (data : Bytes) (available : Bool) :
    (r.onNotify data available).reader.running = r.running := by
  rw [onNotify]
  dsimp only
  split
  · rfl
  · split
    · split
      · rfl
      · dsimp only
        split <;> rfl
    · rw [running_publish]

theorem running_completionStep {r : Reader} {i : ℕ} {step : CompletionStep} {available : Bool}
    {intake : Intake} (h : r.completionStep i step available = some intake) :
    intake.reader.running = r.running := by
  cases completes_of_step h with
  | begins | ends => rfl
  | readsBack => exact running_publish _ _ _ _

theorem running_classifyPoll (r : Reader) (data : Bytes) (available : Bool) :
    (r.classifyPoll data available).reader.running = r.running := by
  rw [classifyPoll]
  split
  · dsimp only
    split
    · rw [running_publish]
    · rfl
  · rfl

theorem running_afterPoll (r : Reader) (i : ℕ) (t : PollTask) (now interval : ℚ) :
    (r.afterPoll i t now interval).running = r.running := by
  rw [afterPoll]
  split <;> rfl

theorem running_pollStep {r : Reader} {i : ℕ} {step : PollStep} {now interval : ℚ}
    {available : Bool} {intake : Intake}
    (h : r.pollStep i step now interval available = some intake) :
    intake.reader.running = r.running := by
  cases polls_of_step h with
  | begins | ends | wakes => rfl
  | reads => simp [running_afterPoll, running_classifyPoll]
  | fails => simp [running_afterPoll]

end Reader

end Bedjet.Service
