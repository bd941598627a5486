import Bedjet.Service.ReaderStop

/-!
How many follow-up reads are in flight. `_on_notify` starts a follow-up only
when the task in `_completion` has ended, and `stop` resets `_completion` when
the task it cancelled has ended. In between `stop` is suspended: a fragment that
is delivered there starts a follow-up that the reset loses sight of, and the next
fragment starts another.
-/

namespace Bedjet.Service

open Python Protocol Device Asyncio

/-- Whether a call of `start` or `stop` is over. -/
def ReaderPc.ended : ReaderPc → Bool
  | .returned | .raised => true
  | _ => false

namespace Reader

/-- The follow-up task of that number has a read in flight. -/
def Reading (r : Reader) (i : ℕ) : Prop :=
  ∃ c, r.completions[i]? = some c ∧ c.phase = .reading

/-- The fragments that were followed up, with the numbers of their notifications. -/
def fragments (r : Reader) : List (ℕ × Bytes) :=
  r.completions.map fun c => (c.chunk, c.first)

end Reader

namespace ReaderRun

/-- At most one follow-up read is in flight, and each is for a fragment that was
notified. -/
structure Serialised (s : ReaderRun) : Prop where
  single : ∀ i j, s.reader.Reading i → s.reader.Reading j → i = j
  fragment : ∀ chunk first, (chunk, first) ∈ s.reader.fragments →
    isFragment first ∧ .heard chunk first ∈ s.trace

/-- `start` and `stop` are called one after the other. -/
def Sequential (s : ReaderRun) : ReaderAction → Prop
  | .start | .stop => ∀ pc ∈ s.calls, pc.ended
  | _ => True

/-- `stop` resets `_completion` only once the follow-up it names has ended: no
fragment was followed up after the end of the one that `stop` cancelled, or its
follow-up has ended, too. -/
def ResetsEnded (s : ReaderRun) : ReaderAction → Prop
  | .call _ .childStopped => s.reader.busy = false
  | _ => True

instance (s : ReaderRun) (a : ReaderAction) : Decidable (s.Sequential a) := by
  unfold Sequential
  split <;> infer_instance

instance (s : ReaderRun) (a : ReaderAction) : Decidable (s.ResetsEnded a) := by
  unfold ResetsEnded
  split <;> infer_instance

end ReaderRun

/-! ### What a reader follows up -/

namespace Reader

variable {r r' : Reader} {i : ℕ} {available : Bool} {published : Option Sample}

theorem Reading.unfinished (h : r.Reading i) : ∃ chunk, r.Unfinished i chunk := by
  obtain ⟨c, hc, hphase⟩ := h
  exact ⟨c.chunk, c, hc, by simp [hphase], rfl⟩

theorem Tracked.single {j : ℕ} (h : r.Tracked) (hi : r.Reading i) (hj : r.Reading j) : i = j := by
  obtain ⟨chunk, hi⟩ := hi.unfinished
  obtain ⟨chunk', hj⟩ := hj.unfinished
  have hcompletion := h i chunk hi
  rw [h j chunk' hj] at hcompletion
  exact (Option.some.inj hcompletion).symm

theorem Tracked.fewer (h : r.Tracked)
    (hfewer : ∀ i chunk, r'.Unfinished i chunk → r.Unfinished i chunk)
    (hcompletion : r'.completion = r.completion) : r'.Tracked := by
  intro i chunk hi
  rw [hcompletion]
  exact h i chunk (hfewer i chunk hi)

theorem tracked_of_settled (h : r.Settled) : r.Tracked := by
  intro i chunk hi
  exact (settled_iff.mp h i chunk hi).elim

theorem Tracked.beginStop (h : r.Tracked) : (r.beginStop none).1.Tracked := by
  unfold Reader.beginStop
  split
  · exact h
  · dsimp only
    split
    · rename_i k hk
      split
      · -- the follow-up that is forgotten has ended
        rename_i hdone
        apply tracked_of_settled
        apply ReaderRun.settled_of_done hdone
        intro i chunk hi
        have hcompletion := h i chunk hi
        rw [hk] at hcompletion
        exact (Option.some.inj hcompletion).symm
      · exact h.fewer (fun _ _ hi => hi.of_cancelCompletion) rfl
    · exact h

theorem fragments_putCompletion {c : Completion} {phase : CompletionPhase}
    (hc : r.completions[i]? = some c) :
    (r.putCompletion i { c with phase }).fragments = r.fragments := by
  obtain ⟨hlt, rfl⟩ := List.getElem?_eq_some_iff.mp hc
  have hlt' : i < r.fragments.length := by simpa [fragments] using hlt
  have hself : r.fragments[i] = (r.completions[i].chunk, r.completions[i].first) := by
    simp [fragments]
  rw [fragments, putCompletion, List.map_set]
  show r.fragments.set i (r.completions[i].chunk, r.completions[i].first) = r.fragments
  rw [← hself]
  exact List.set_getElem_self hlt'

theorem fragments_cancelCompletion (r : Reader) (i : ℕ) :
    (r.cancelCompletion i).fragments = r.fragments := by
  apply List.ext_getElem?
  intro j
  rw [fragments, cancelCompletion, fragments, List.getElem?_map, List.getElem?_modify,
    List.getElem?_map]
  cases r.completions[j]? with
  | none => rfl
  | some c =>
      simp only [Option.map_some]
      split <;> rfl

theorem fragments_publish (r : Reader) (packet : StatusPacket) (chunk : ℕ) (available : Bool) :
    (r.publish packet chunk available).reader.fragments = r.fragments := by
  rw [fragments, completions_publish, fragments]

theorem fragments_beginStop (r : Reader) : (r.beginStop none).1.fragments = r.fragments := by
  unfold beginStop
  split
  · rfl
  · dsimp only
    split
    · split
      · rfl
      · exact fragments_cancelCompletion _ _
    · rfl

end Reader

namespace ReaderRun

/-! ### Runs that reset what has ended -/

/-- The reader's one follow-up in flight, and the fragments it was notified of. -/
structure OneFollowUp (s : ReaderRun) : Prop where
  booked : Booked none s
  tracked : s.reader.Tracked
  fragment : ∀ chunk first, (chunk, first) ∈ s.reader.fragments →
    isFragment first ∧ .heard chunk first ∈ s.trace

theorem oneFollowUp_init : OneFollowUp {} := by
  refine ⟨booked_init none, Reader.tracked_of_settled ?_, ?_⟩
  · intro c hc
    simp at hc
  · intro chunk first hmem
    simp [Reader.fragments] at hmem

theorem OneFollowUp.serialised {s : ReaderRun} (h : OneFollowUp s) : Serialised s :=
  ⟨fun _ _ hi hj => h.tracked.single hi hj, h.fragment⟩

section

variable {s s' : ReaderRun}

/-- A step that follows nothing up. -/
theorem OneFollowUp.fewer (h : OneFollowUp s) (hbooked : Booked none s')
    (htracked : s'.reader.Tracked) (hfragments : s'.reader.fragments = s.reader.fragments)
    {marks : List Mark} (htrace : s'.trace = marks ++ s.trace) : OneFollowUp s' := by
  refine ⟨hbooked, htracked, ?_⟩
  intro chunk first hmem
  rw [hfragments] at hmem
  obtain ⟨hfragment, hheard⟩ := h.fragment chunk first hmem
  rw [htrace]
  exact ⟨hfragment, List.mem_append_right marks hheard⟩

theorem OneFollowUp.called (h : OneFollowUp s) {j : ℕ} {step : CallStep}
    (hbooked : Booked none s') (hok : s.ResetsEnded (.call j step))
    (hcalled : Called none s j step s') : OneFollowUp s' := by
  cases hcalled with
  | subscribed =>
      exact h.fewer hbooked (h.tracked.fewer (fun _ _ hi => hi) rfl) rfl (List.nil_append _).symm
  | subscribeFailed => exact h.fewer hbooked h.tracked rfl (List.nil_append _).symm
  | childStopped =>
      -- what the reset forgets has ended
      have hsettled : s.reader.Settled := h.tracked.settled_of_idle hok
      exact h.fewer hbooked (Reader.tracked_of_settled hsettled) rfl rfl
  | unsubscribed => exact h.fewer hbooked h.tracked rfl rfl
  | unsubscribeCancelled => exact h.fewer hbooked h.tracked rfl (List.nil_append _).symm

theorem OneFollowUp.notify (h : OneFollowUp s) {data : Bytes} {available : Bool} {r' : Reader}
    {published : Option Sample} (hnotified : s.reader.Notified data available r' published) :
    r'.Tracked ∧ ∀ chunk first, (chunk, first) ∈ r'.fragments →
      (chunk, first) ∈ s.reader.fragments ∨
        (isFragment first ∧ chunk = s.reader.packetsSeen + 1 ∧ first = data) := by
  cases hnotified with
  | tail | dropped =>
      exact ⟨h.tracked.fewer (fun _ _ hi => hi) rfl, fun _ _ hmem => .inl hmem⟩
  | begun _ hfragment hidle =>
      have hsettled := Reader.settled_iff.mp (h.tracked.settled_of_idle hidle)
      refine ⟨?_, ?_⟩
      · intro i chunk hi
        -- the follow-up that is begun is the only one
        rcases hi.of_newCompletion with hold | ⟨rfl, -⟩
        · exact (hsettled i chunk hold).elim
        · rfl
      · intro chunk first hmem
        rw [Reader.fragments, Reader.newCompletion, List.map_append] at hmem
        rcases List.mem_append.mp hmem with hold | hnew
        · exact .inl hold
        · obtain ⟨rfl, rfl⟩ : chunk = s.reader.packetsSeen + 1 ∧ first = data := by
            simpa using hnew
          exact .inr ⟨hfragment, rfl, rfl⟩
  | whole =>
      refine ⟨h.tracked.fewer (fun _ _ hi => hi.of_completions ?_) ?_, ?_⟩
      · exact Reader.completions_publish _ _ _ _
      · exact Reader.completion_publish _ _ _ _
      · intro chunk first hmem
        rw [Reader.fragments_publish] at hmem
        exact .inl hmem

theorem OneFollowUp.followed (h : OneFollowUp s) {i : ℕ} {c : Completion} {available : Bool}
    {r' : Reader} {published : Option Sample} {marks : List Mark}
    (hc : s.reader.completions[i]? = some c)
    (hfollowed : s.reader.Followed i c available r' published marks) :
    r'.Tracked ∧ r'.fragments = s.reader.fragments := by
  have hput (phase : CompletionPhase) (hphase : c.phase ≠ .done) :
      (s.reader.putCompletion i { c with phase }).Tracked :=
    h.tracked.fewer (fun _ _ hj => hj.of_putCompletion hc hphase) rfl
  cases hfollowed with
  | reading hphase _ =>
      exact ⟨hput .reading (by simp [hphase]), Reader.fragments_putCompletion hc⟩
  | gaveUp hphase => exact ⟨hput .done hphase, Reader.fragments_putCompletion hc⟩
  | readBack hphase _ remainder =>
      refine ⟨(hput .done hphase).fewer (fun _ _ hj => hj.of_completions ?_) ?_, ?_⟩
      · exact Reader.completions_publish _ _ _ _
      · exact Reader.completion_publish _ _ _ _
      · rw [Reader.fragments_publish]
        exact Reader.fragments_putCompletion hc

theorem oneFollowUp_step {a : ReaderAction} (h : OneFollowUp s) (hok : s.ResetsEnded a)
    (hstep : (machine none).step s a = some s') : OneFollowUp s' := by
  have hbooked : Booked none s' := booked_step h.booked hstep
  cases stepped_of_step hstep with
  | pass => exact h.fewer hbooked h.tracked rfl (List.nil_append _).symm
  | start =>
      exact h.fewer hbooked (h.tracked.fewer (fun _ _ hi => hi) rfl) rfl
        List.singleton_append.symm
  | stop => exact h.fewer hbooked h.tracked.beginStop s.reader.fragments_beginStop rfl
  | call hcalled => exact h.called hbooked hok hcalled
  | @notify _ _ data available _ hlive =>
      obtain ⟨htracked, hfragments⟩ :=
        h.notify (Reader.notified_onNotify (h.booked.live hlive).2 data available)
      refine ⟨hbooked, htracked, ?_⟩
      intro chunk first hmem
      rcases hfragments chunk first hmem with hold | ⟨hfragment, rfl, rfl⟩
      · obtain ⟨hfragment, hheard⟩ := h.fragment chunk first hold
        exact ⟨hfragment, List.mem_append_right _ hheard⟩
      · exact ⟨hfragment, List.mem_append_left _ (by simp)⟩
  | completion hc hintake =>
      obtain ⟨htracked, hfragments⟩ := h.followed hc (Reader.followed_completionStep hc hintake)
      exact h.fewer hbooked htracked hfragments rfl
  | poke =>
      exact h.fewer hbooked (h.tracked.fewer (fun _ _ hi => hi) rfl) rfl (List.nil_append _).symm

end

end ReaderRun

/-! ### One call at a time -/

namespace Reader

/-- The follow-up task of that number was cancelled and has not ended. -/
def Cancelled (r : Reader) (i : ℕ) : Prop :=
  ∃ c, r.completions[i]? = some c ∧ c.cancelled ∧ c.phase ≠ .done

variable {r : Reader} {i j : ℕ}

theorem Cancelled.of_putCompletion {c : Completion} {phase : CompletionPhase}
    (hc : r.completions[j]? = some c) (hphase : c.phase ≠ .done)
    (h : (r.putCompletion j { c with phase }).Cancelled i) : r.Cancelled i := by
  obtain ⟨d, hd, hcancelled, hd'⟩ := h
  rcases getElem?_set_cases hd with ⟨rfl, rfl⟩ | ⟨-, hd⟩
  · exact ⟨c, hc, hcancelled, hphase⟩
  · exact ⟨d, hd, hcancelled, hd'⟩

theorem Cancelled.of_newCompletion {first : Bytes} (h : (r.newCompletion first).Cancelled i) :
    r.Cancelled i := by
  obtain ⟨c, hc, hcancelled, hphase⟩ := h
  rw [newCompletion] at hc
  rcases getElem?_concat_cases hc with hold | ⟨-, rfl⟩
  · exact ⟨c, hold, hcancelled, hphase⟩
  · simp at hcancelled

theorem Cancelled.of_completions {r' : Reader} (h : r'.Cancelled i)
    (hcompletions : r'.completions = r.completions) : r.Cancelled i := by
  rw [Cancelled, hcompletions] at h
  exact h

theorem Cancelled.of_cancelCompletion (h : (r.cancelCompletion j).Cancelled i) :
    r.Cancelled i ∨ i = j := by
  obtain ⟨c, hc, hcancelled, hphase⟩ := h
  by_cases hij : j = i
  · exact .inr hij.symm
  · rw [cancelCompletion, List.getElem?_modify_ne _ _ hij] at hc
    exact .inl ⟨c, hc, hcancelled, hphase⟩

section

variable {r' : Reader} {available : Bool} {published : Option Sample}

theorem Notified.cancelled {data : Bytes} (hnotified : r.Notified data available r' published)
    (h : r'.Cancelled i) : r.Cancelled i := by
  cases hnotified with
  | tail | dropped => exact h
  | begun => exact h.of_newCompletion
  | whole => exact h.of_completions (completions_publish _ _ _ _)

theorem not_isWhole_of_isFragment {data : Bytes} (h : isFragment data) : isWhole data = false := by
  rw [isFragment, Bool.and_eq_true, Bool.not_eq_true'] at h
  rw [isWhole, h.2, Bool.and_false]

/-- A fragment with no follow-up in sight is followed up. -/
theorem Notified.followedUp {data : Bytes} (hnotified : r.Notified data available r' published)
    (hfragment : isFragment data) (hidle : r.busy = false) :
    r' = { r with
      packetsSeen := r.packetsSeen + 1
      partialsSeen := r.partialsSeen + 1 }.newCompletion data := by
  cases hnotified with
  | tail _ hno =>
      rw [hfragment] at hno
      simp at hno
  | dropped _ hbusy =>
      rw [hidle] at hbusy
      simp at hbusy
  | begun => rfl
  | whole hwhole =>
      rw [not_isWhole_of_isFragment hfragment] at hwhole
      simp at hwhole

variable {c : Completion} {marks : List Mark}

theorem Followed.cancelled (hc : r.completions[j]? = some c)
    (hfollowed : r.Followed j c available r' published marks) (h : r'.Cancelled i) :
    r.Cancelled i := by
  cases hfollowed with
  | reading hphase _ => exact h.of_putCompletion hc (by simp [hphase])
  | gaveUp hphase => exact h.of_putCompletion hc hphase
  | readBack hphase _ _ =>
      have hput := h.of_completions (completions_publish _ _ _ _)
      exact hput.of_putCompletion hc hphase

theorem Followed.completion (hfollowed : r.Followed j c available r' published marks) :
    r'.completion = r.completion := by
  cases hfollowed with
  | reading | gaveUp => rfl
  | readBack =>
      rw [completion_publish]
      rfl

end

theorem reading_putCompletion {c : Completion} (hc : r.completions[i]? = some c) :
    (r.putCompletion i { c with phase := .reading }).Reading i := by
  have hlt := (List.getElem?_eq_some_iff.mp hc).1
  exact ⟨_, List.getElem?_set_self hlt, rfl⟩

theorem busy_iff : r.busy ↔
    ∃ k c, r.completion = some k ∧ r.completions[k]? = some c ∧ c.phase ≠ .done := by
  simp only [busy, Option.any_eq_true, Option.bind_eq_some_iff, decide_eq_true_eq]
  constructor
  · rintro ⟨c, ⟨k, hk, hc⟩, hphase⟩
    exact ⟨k, c, hk, hc, hphase⟩
  · rintro ⟨k, c, hk, hc, hphase⟩
    exact ⟨c, ⟨k, hk, hc⟩, hphase⟩

/-- `stop` cancels a follow-up, or leaves them as they are. -/
theorem beginStop_cases (r : Reader) :
    (∃ i, (r.beginStop none).2 = .awaiting i ∧ r.completion = some i ∧
      (r.beginStop none).1 = { r with running := false }.cancelCompletion i) ∨
    ((∀ i, (r.beginStop none).2 ≠ .awaiting i) ∧
      (r.beginStop none).1.completions = r.completions) := by
  unfold beginStop
  split
  · exact .inr ⟨by simp, rfl⟩
  · dsimp only
    split
    · rename_i i hi
      split
      · exact .inr ⟨by simp, rfl⟩
      · exact .inl ⟨i, rfl, hi, rfl⟩
    · exact .inr ⟨by simp, rfl⟩

end Reader

namespace ReaderRun

/-- One call is in progress at most, and it is the one that awaits what was
cancelled. While it does, the transport calls back, unless `_completion` is
what it was. -/
structure Lone (s : ReaderRun) : Prop where
  one : ∀ (i j : ℕ) (pc pc' : ReaderPc), s.calls[i]? = some pc → s.calls[j]? = some pc' →
    pc.ended = false → pc'.ended = false → i = j
  live : ∀ child, .awaiting child ∈ s.calls → s.reader.completion = some child ∨ s.live
  cancelled : ∀ i, s.reader.Cancelled i → .awaiting i ∈ s.calls

theorem lone_init : Lone {} := by
  refine ⟨by simp, by simp, ?_⟩
  rintro i ⟨c, hc, -⟩
  simp at hc

section

variable {s s' : ReaderRun}

theorem Lone.unique (h : Lone s) {pc pc' : ReaderPc} {j : ℕ} (hpc : s.calls[j]? = some pc)
    (hsuspended : pc.ended = false) (hpc' : pc' ∈ s.calls) (hsuspended' : pc'.ended = false) :
    pc' = pc := by
  obtain ⟨i, hi⟩ := List.mem_iff_getElem?.mp hpc'
  obtain rfl := h.one i j pc' pc hi hpc hsuspended' hsuspended
  exact Option.some.inj (hi.symm.trans hpc)

/-- The calls are where they were. -/
theorem Lone.still (h : Lone s) (hcalls : s'.calls = s.calls)
    (hlive : s'.live ∨ (s'.live = s.live ∧ s'.reader.completion = s.reader.completion))
    (hcancelled : ∀ i, s'.reader.Cancelled i → s.reader.Cancelled i) : Lone s' := by
  refine ⟨?_, ?_, ?_⟩
  · rw [hcalls]
    exact h.one
  · intro child hchild
    rcases hlive with hlive | ⟨hlive, hcompletion⟩
    · exact .inr hlive
    · rw [hcalls] at hchild
      rw [hlive, hcompletion]
      exact h.live child hchild
  · intro i hi
    rw [hcalls]
    exact h.cancelled i (hcancelled i hi)

/-- `start` or `stop` is called. -/
theorem Lone.called (h : Lone s) (hended : ∀ pc ∈ s.calls, pc.ended) {pc : ReaderPc}
    (hcalls : s'.calls = s.calls ++ [pc])
    (hchild : ∀ child, pc = .awaiting child → s'.reader.completion = some child)
    (hcancelled : ∀ i, s'.reader.Cancelled i → s.reader.Cancelled i ∨ pc = .awaiting i) :
    Lone s' := by
  -- the others are over
  have hlast (i : ℕ) (pc' : ReaderPc) (hpc' : s'.calls[i]? = some pc')
      (hsuspended : pc'.ended = false) : i = s.calls.length := by
    rw [hcalls] at hpc'
    rcases getElem?_concat_cases hpc' with hold | ⟨rfl, -⟩
    · have hover := hended pc' (List.mem_of_getElem? hold)
      rw [hsuspended] at hover
      simp at hover
    · rfl
  have hnone (child : ℕ) : .awaiting child ∉ s.calls := by
    intro hmem
    have hover := hended _ hmem
    simp [ReaderPc.ended] at hover
  refine ⟨?_, ?_, ?_⟩
  · intro i j pc' pc'' hi hj hsuspended hsuspended'
    rw [hlast i pc' hi hsuspended, hlast j pc'' hj hsuspended']
  · intro child hmem
    rw [hcalls] at hmem
    rcases List.mem_append.mp hmem with hmem | hmem
    · exact (hnone child hmem).elim
    · exact .inl (hchild child (List.mem_singleton.mp hmem).symm)
  · intro i hi
    rw [hcalls]
    rcases hcancelled i hi with hold | rfl
    · exact (hnone i (h.cancelled i hold)).elim
    · simp

/-- The call in progress goes on. -/
theorem Lone.advanced (h : Lone s) {j : ℕ} {pc pc' : ReaderPc} (hpc : s.calls[j]? = some pc)
    (hsuspended : pc.ended = false) (hcalls : s'.calls = s.calls.set j pc')
    (hpast : ∀ child, pc' ≠ .awaiting child)
    (hcompletions : s'.reader.completions = s.reader.completions)
    (hdone : ∀ child, pc = .awaiting child → s.reader.completionDone child) : Lone s' := by
  have hat (i : ℕ) (pc'' : ReaderPc) (hi : s'.calls[i]? = some pc'')
      (hsuspended' : pc''.ended = false) : i = j := by
    by_contra hij
    rw [hcalls, List.getElem?_set_ne (Ne.symm hij)] at hi
    exact hij (h.one i j pc'' pc hi hpc hsuspended' hsuspended)
  refine ⟨?_, ?_, ?_⟩
  · intro i i' pc₁ pc₂ hi hi' h₁ h₂
    rw [hat i pc₁ hi h₁, hat i' pc₂ hi' h₂]
  · intro child hmem
    obtain ⟨i, hi⟩ := List.mem_iff_getElem?.mp hmem
    obtain rfl := hat i _ hi rfl
    have hlt := (List.getElem?_eq_some_iff.mp hpc).1
    rw [hcalls, List.getElem?_set_self hlt] at hi
    exact (hpast child (Option.some.inj hi)).elim
  · intro i hi
    -- what it awaited has ended, and nothing else was cancelled
    obtain ⟨c, hc, hcancelled, hphase⟩ := hi.of_completions hcompletions
    have hawaited := h.unique hpc hsuspended (h.cancelled i ⟨c, hc, hcancelled, hphase⟩) rfl
    have hended := hdone i hawaited.symm
    rw [Reader.completionDone, hc] at hended
    exact (hphase (by simpa using hended)).elim

theorem Lone.stopped (h : Lone s) (hended : ∀ pc ∈ s.calls, pc.ended) :
    Lone (s.stop none) := by
  rcases s.reader.beginStop_cases with ⟨i, hpc, hcompletion, hreader⟩ | ⟨hpc, hcompletions⟩
  · refine h.called hended (calls_stop s) ?_ ?_
    · intro child hchild
      rw [hpc] at hchild
      obtain rfl := ReaderPc.awaiting.inj hchild
      show (s.reader.beginStop none).1.completion = some i
      rw [hreader]
      exact hcompletion
    · intro k hk
      have hcancelled : (s.reader.beginStop none).1.Cancelled k := hk
      rw [hreader] at hcancelled
      rcases hcancelled.of_cancelCompletion with hold | rfl
      · exact .inl hold
      · exact .inr hpc
  · refine h.called hended (calls_stop s) (fun child hchild => (hpc child hchild).elim) ?_
    intro k hk
    exact .inl (hk.of_completions hcompletions)

theorem Lone.goesOn (h : Lone s) {j : ℕ} {step : CallStep} (hcalled : Called none s j step s') :
    Lone s' := by
  cases hcalled with
  | subscribed hpc => exact h.advanced hpc rfl rfl (by simp) rfl (by simp)
  | subscribeFailed hpc => exact h.advanced hpc rfl rfl (by simp) rfl (by simp)
  | @childStopped child hpc hdone =>
      refine h.advanced hpc rfl rfl (by simp [Reader.childStopped]) rfl ?_
      intro child' hchild
      obtain rfl := ReaderPc.awaiting.inj hchild
      exact hdone
  | unsubscribed hpc => exact h.advanced hpc rfl rfl (by simp) rfl (by simp)
  | unsubscribeCancelled hpc => exact h.advanced hpc rfl rfl (by simp) rfl (by simp)

theorem lone_step {a : ReaderAction} (h : Lone s) (hbooked : Booked none s)
    (hok : s.Sequential a) (hstep : (machine none).step s a = some s') : Lone s' := by
  cases stepped_of_step hstep with
  | pass => exact h.still rfl (.inr ⟨rfl, rfl⟩) fun _ hi => hi
  | start => exact h.called hok rfl (by simp) fun _ hi => .inl hi
  | stop => exact h.stopped hok
  | call hcalled => exact h.goesOn hcalled
  | @notify _ _ data available _ hlive =>
      have hnotified := Reader.notified_onNotify (hbooked.live hlive).2 data available
      exact h.still rfl (.inl hlive) fun _ hi => hnotified.cancelled hi
  | completion hc hintake =>
      have hfollowed := Reader.followed_completionStep hc hintake
      exact h.still rfl (.inr ⟨rfl, hfollowed.completion⟩) fun _ hk => hfollowed.cancelled hc hk
  | poke => exact h.still rfl (.inr ⟨rfl, rfl⟩) fun _ hi => hi

/-! ### A reset too early -/

/-- A follow-up begins its read. -/
theorem exists_begin {i : ℕ} {c : Completion} (hc : s.reader.completions[i]? = some c)
    (hphase : c.phase = .scheduled) (hcancelled : c.cancelled = false) :
    ∃ t, (machine none).step s (.completion i .begin true false) = some t ∧
      t.reader = s.reader.putCompletion i { c with phase := .reading } ∧ t.live = s.live := by
  obtain ⟨first, chunk, phase, cancelled⟩ := c
  obtain rfl : phase = .scheduled := hphase
  obtain rfl : cancelled = false := hcancelled
  let begun := s.reader.putCompletion i { first, chunk, phase := .reading }
  refine ⟨s.takeIn { reader := begun } [] false, ?_, rfl, rfl⟩
  simp only [machine, step, Reader.completionStep, hc, Option.bind_eq_bind, Option.bind_some]
  rfl

/-- A fragment, while a follow-up that `_completion` does not name reads. -/
theorem exists_two_reads {k : ℕ} (hlive : s.live) (hloop : s.reader.loopSet)
    (hcompletion : s.reader.completion = none) (hk : s.reader.Reading k) :
    ∃ t, (machine none).run s [.notify (standbyPacket.take 20) true false,
        .completion s.reader.completions.length .begin true false] = some t ∧ ¬t.Serialised := by
  have hfragment : isFragment (standbyPacket.take 20) := by decide +kernel
  have hidle : s.reader.busy = false := by simp [Reader.busy, hcompletion]
  generalize standbyPacket.take 20 = data at hfragment ⊢
  have hreader := (Reader.notified_onNotify hloop data true).followedUp hfragment hidle
  let s₁ := s.takeIn (s.reader.onNotify data true) [.heard (s.reader.packetsSeen + 1) data] false
  have hnotify : (machine none).step s (.notify data true false) = some s₁ := by
    simp [machine, step, hlive, s₁]
  have hcompletions : s₁.reader.completions =
      s.reader.completions ++ [{ first := data, chunk := s.reader.packetsSeen + 1 }] := by
    show (s.reader.onNotify data true).reader.completions = _
    rw [hreader]
    rfl
  generalize s₁ = s₁ at hnotify hcompletions
  have hnew : s₁.reader.completions[s.reader.completions.length]? =
      some { first := data, chunk := s.reader.packetsSeen + 1 } := by
    rw [hcompletions, List.getElem?_concat_length]
  obtain ⟨t, ht, hreads, -⟩ := exists_begin hnew rfl rfl
  refine ⟨t, Machine.run_cons_eq_some.mpr ⟨s₁, hnotify, ?_⟩, ?_⟩
  · exact Machine.run_cons_eq_some.mpr ⟨t, ht, rfl⟩
  · intro hserialised
    obtain ⟨c, hc, hphase⟩ := hk
    have hlt : k < s.reader.completions.length := (List.getElem?_eq_some_iff.mp hc).1
    have hold : t.reader.Reading k := by
      refine ⟨c, ?_, hphase⟩
      rw [hreads, Reader.putCompletion, List.getElem?_set_ne (by omega), hcompletions,
        List.getElem?_append_left hlt]
      exact hc
    have hnew' : t.reader.Reading s.reader.completions.length := by
      rw [hreads]
      exact Reader.reading_putCompletion hnew
    have hsame := hserialised.single k _ hold hnew'
    omega

/-- `stop` resets `_completion` while the follow-up it names goes on. -/
theorem Lone.exists_two_reads (h : Lone s) (hbooked : Booked none s) {j : ℕ}
    (hstep : s.callStep none j .childStopped = some s') (hbusy : s.reader.busy) :
    ∃ more t, (machine none).run s' more = some t ∧
      (∀ a ∈ more, ∀ u, Sequential u a ∧ ResetsEnded u a) ∧ ¬t.Serialised := by
  cases called_callStep hstep with
  | @childStopped child hpc hdone =>
      obtain ⟨k, c, hk, hc, hphase⟩ := Reader.busy_iff.mp hbusy
      have hne : child ≠ k := by
        rintro rfl
        have hended : c.phase = .done := by
          simpa [Reader.childDone, Reader.completionDone, hc] using hdone
        exact hphase hended
      have hmem : .awaiting child ∈ s.calls := List.mem_of_getElem? hpc
      have hlive : s.live := by
        rcases h.live child hmem with hchild | hlive
        · rw [hk] at hchild
          exact (hne (Option.some.inj hchild).symm).elim
        · exact hlive
      have hnot : c.cancelled = false := by
        rw [Bool.eq_false_iff]
        intro hcancelled
        have hawaited := h.unique hpc rfl (h.cancelled k ⟨c, hc, hcancelled, hphase⟩) rfl
        exact hne (ReaderPc.awaiting.inj hawaited).symm
      have hloop := (hbooked.live hlive).2
      generalize hs' : s.stopAt j _ _ = s'
      have hreader : s'.reader = { s.reader with completion := none } := by
        rw [← hs']
        rfl
      have hlive' : s'.live := by
        rw [← hs']
        exact hlive
      have hc' : s'.reader.completions[k]? = some c := by
        rw [hreader]
        exact hc
      cases hp : c.phase with
      | scheduled =>
          obtain ⟨t, ht, hreads, hlive''⟩ := exists_begin hc' hp hnot
          have hreading : t.reader.Reading k := by
            rw [hreads]
            exact Reader.reading_putCompletion hc'
          obtain ⟨u, hu, htwo⟩ := exists_two_reads (hlive''.symm ▸ hlive')
            (by rw [hreads, hreader]; exact hloop) (by rw [hreads, hreader]; rfl) hreading
          refine ⟨_, u, Machine.run_cons_eq_some.mpr ⟨t, ht, hu⟩, ?_, htwo⟩
          simp [Sequential, ResetsEnded]
      | reading =>
          obtain ⟨u, hu, htwo⟩ := exists_two_reads hlive' (by rw [hreader]; exact hloop)
            (by rw [hreader]) ⟨c, hc', hp⟩
          refine ⟨_, u, hu, ?_, htwo⟩
          simp [Sequential, ResetsEnded]
      | done => exact (hphase hp).elim

end

/-- In a run in which `start` and `stop` are called one after the other and
`_completion` is reset only when its follow-up has ended, the follow-up reads are
serialised. Any other reset can be continued to two reads at once. -/
theorem follow_up_reads_are_serialised {actions : List ReaderAction} {s : ReaderRun}
    (hrun : (machine none).run {} actions = some s)
    (hsequential : (machine none).Meets Sequential {} actions)
    (hresets : (machine none).Meets ResetsEnded {} actions) :
    (machine none).Always Serialised {} actions ∧
      ∀ a s', (machine none).step s a = some s' → ¬s.ResetsEnded a →
        ∃ more t, (machine none).run s' more = some t ∧
          (machine none).Meets Sequential s' more ∧ (machine none).Meets ResetsEnded s' more ∧
            ¬t.Serialised := by
  refine ⟨Machine.always_of_meets (fun _ _ _ h hok hstep => oneFollowUp_step h hok hstep)
    (fun _ h => h.serialised) oneFollowUp_init hresets, ?_⟩
  have hlone : Lone s ∧ Booked none s :=
    Machine.run_invariant (I := fun s => Lone s ∧ Booked none s)
      (fun _ _ _ h hok hstep => ⟨lone_step h.1 h.2 hok hstep, booked_step h.2 hstep⟩)
      ⟨lone_init, booked_init none⟩ hsequential hrun
  intro a s' hstep hno
  unfold ResetsEnded at hno
  split at hno
  · obtain ⟨more, t, hmore, hfree, htwo⟩ :=
      hlone.1.exists_two_reads hlone.2 hstep (by simpa using hno)
    exact ⟨more, t, hmore, Machine.meets_of_forall fun a ha u => (hfree a ha u).1,
      Machine.meets_of_forall fun a ha u => (hfree a ha u).2, htwo⟩
  · exact (hno trivial).elim

/-- A reader that is stopped and started again, with a follow-up each time. -/
def restartRun : List ReaderAction :=
  splitRun ++ [.start, .call 2 .subscribed, .notify (standbyPacket.take 20) true false,
    .completion 2 .begin true false]

theorem follow_up_reads_are_serialised_restartRun :
    ∃ s, (machine none).run {} restartRun = some s ∧ s.reader.fragments.length = 3 ∧
      (machine none).Always Serialised {} restartRun := by
  have hany : ((machine none).run {} restartRun).any (·.reader.fragments.length = 3) := by
    decide +kernel
  have hsequential : (machine none).Meets Sequential {} restartRun := by
    decide +kernel
  have hresets : (machine none).Meets ResetsEnded {} restartRun := by
    decide +kernel
  obtain ⟨s, hrun, hlength⟩ := Machine.exists_of_run_any hany
  exact ⟨s, hrun, of_decide_eq_true hlength,
    (follow_up_reads_are_serialised hrun hsequential hresets).1⟩

/-- A fragment is delivered after the end of the follow-up that `stop` cancelled
and before `stop` goes on, and another while `stop` unsubscribes. -/
def crossedRun : List ReaderAction :=
  [.start, .call 0 .subscribed, .notify (standbyPacket.take 20) true false,
    .completion 0 .begin true false, .stop, .completion 0 .cancelled true false,
    .notify (standbyPacket.take 20) true false, .call 1 .childStopped,
    .completion 1 .begin true false, .notify (standbyPacket.take 20) true false,
    .completion 2 .begin true false]

theorem two_follow_ups_can_read :
    ¬∀ actions s, (machine none).run {} actions = some s →
      (machine none).Meets Sequential {} actions → s.Serialised := by
  intro hall
  have hany : ((machine none).run {} crossedRun).any fun s =>
      s.reader.phases = [.done, .reading, .reading] := by
    decide +kernel
  have hsequential : (machine none).Meets Sequential {} crossedRun := by
    decide +kernel
  obtain ⟨s, hrun, hphases⟩ := Machine.exists_of_run_any hany
  have hphases' := of_decide_eq_true hphases
  have hreading (i : ℕ) (hi : s.reader.phases[i]? = some .reading) : s.reader.Reading i := by
    rw [Reader.phases, List.getElem?_map] at hi
    obtain ⟨c, hc, hphase⟩ := Option.map_eq_some_iff.mp hi
    exact ⟨c, hc, hphase⟩
  have hsame := (hall crossedRun s hrun hsequential).single 1 2
    (hreading 1 (by simp [hphases'])) (hreading 2 (by simp [hphases']))
  simp at hsame

end ReaderRun

end Bedjet.Service
