import Bedjet.Service.LinkReader

/-!
The task that the reader's `stop` awaits. `stop` has asked for its cancellation,
and nothing takes that back: it has ended, or ends when it runs next.
-/

namespace Bedjet.Service

open Python Protocol Device Asyncio

/-- Those that have the property are there with it, whatever became of the list. -/
def Persists {α : Type*} (P : α → Bool) (l' l : List α) : Prop :=
  ∀ (i : ℕ) (x : α), l[i]? = some x → P x → ∃ y, l'[i]? = some y ∧ P y

section

variable {α : Type*} {P : α → Bool} {l l' l'' : List α}

theorem Persists.refl (P : α → Bool) (l : List α) : Persists P l l :=
  fun _ x hx hP => ⟨x, hx, hP⟩

theorem Persists.trans (h : Persists P l'' l') (h' : Persists P l' l) : Persists P l'' l := by
  intro i x hx hP
  obtain ⟨y, hy, hPy⟩ := h' i x hx hP
  exact h i y hy hPy

theorem persists_append (P : α → Bool) (l rest : List α) : Persists P (l ++ rest) l := by
  intro i x hx hP
  have hlt := (List.getElem?_eq_some_iff.mp hx).1
  exact ⟨x, (List.getElem?_append_left hlt).trans hx, hP⟩

theorem persists_map {f : α → α} (hf : ∀ x, P x → P (f x)) : Persists P (l.map f) l := by
  intro i x hx hP
  exact ⟨f x, by rw [List.getElem?_map, hx]; rfl, hf x hP⟩

theorem persists_modify {f : α → α} (hf : ∀ x, P x → P (f x)) (i : ℕ) :
    Persists P (l.modify i f) l := by
  intro j x hx hP
  by_cases hij : i = j
  · subst hij
    exact ⟨f x, by rw [List.getElem?_modify_eq, hx]; rfl, hf x hP⟩
  · exact ⟨x, (List.getElem?_modify_ne f l hij).trans hx, hP⟩

theorem persists_set {i : ℕ} {x y : α} (hx : l[i]? = some x) (hy : P x → P y) :
    Persists P (l.set i y) l := by
  intro j z hz hP
  by_cases hij : i = j
  · subst hij
    obtain rfl : x = z := Option.some.inj (hx.symm.trans hz)
    have hlt := (List.getElem?_eq_some_iff.mp hx).1
    exact ⟨y, List.getElem?_set_self hlt, hy hP⟩
  · exact ⟨z, (List.getElem?_set_ne hij).trans hz, hP⟩

end

/-- Whether a follow-up task has ended, or does so when it runs next. -/
def Completion.ending (c : Completion) : Bool :=
  c.cancelled || c.phase = .done

/-- Whether a poll task has ended, or does so when it runs next. -/
def PollTask.ending (t : PollTask) : Bool :=
  t.cancelled || t.phase = .done

namespace Reader

/-- The reader's `_poll_task` is one of its poll tasks. -/
def Owns (r : Reader) : Prop :=
  ∀ i, r.pollTask = some i → i < r.pollTasks.length

/-- The task of that number, which the reader's `stop` awaits, is ending. -/
def Ends (cfg : Config) (r : Reader) (child : ℕ) : Prop :=
  match cfg.pollInterval with
  | some _ => ∃ t, r.pollTasks[child]? = some t ∧ t.ending
  | none => ∃ c, r.completions[child]? = some c ∧ c.ending

/-- Its tasks that were ending are. -/
structure Keeps (r' r : Reader) : Prop where
  owns : r.Owns → r'.Owns
  completions : Persists Completion.ending r'.completions r.completions
  pollTasks : Persists PollTask.ending r'.pollTasks r.pollTasks

variable {r r' r'' : Reader} {cfg : Config}

theorem Keeps.refl (r : Reader) : r.Keeps r :=
  ⟨id, .refl _ _, .refl _ _⟩

theorem Keeps.trans (h : r''.Keeps r') (h' : r'.Keeps r) : r''.Keeps r :=
  ⟨h.owns ∘ h'.owns, h.completions.trans h'.completions, h.pollTasks.trans h'.pollTasks⟩

/-- The tasks are as they were. -/
theorem Keeps.of_eq (howned : r'.pollTask = r.pollTask)
    (hcompletions : r'.completions = r.completions) (htasks : r'.pollTasks = r.pollTasks) :
    r'.Keeps r := by
  refine ⟨?_, ?_, ?_⟩
  · unfold Owns
    rw [howned, htasks]
    exact id
  · rw [hcompletions]
    exact .refl _ _
  · rw [htasks]
    exact .refl _ _

theorem Ends.keeps {child : ℕ} (h : r.Ends cfg child) (hkeeps : r'.Keeps r) :
    r'.Ends cfg child := by
  unfold Ends at h ⊢
  split at h
  · obtain ⟨t, ht, hending⟩ := h
    exact hkeeps.pollTasks child t ht hending
  · obtain ⟨c, hc, hending⟩ := h
    exact hkeeps.completions child c hc hending

/-! ### Deliveries -/

theorem keeps_publish (r : Reader) (packet : StatusPacket) (chunk : ℕ) (available : Bool) :
    (r.publish packet chunk available).reader.Keeps r := by
  rw [publish]
  split
  · exact .refl r
  · exact .of_eq rfl rfl rfl

theorem keeps_onNotify (r : Reader) (data : Bytes) (available : Bool) :
    (r.onNotify data available).reader.Keeps r := by
  rw [onNotify]
  dsimp only
  split
  · exact .of_eq rfl rfl rfl
  · split
    · split
      · exact .of_eq rfl rfl rfl
      · split
        · -- a follow-up task is created
          exact ⟨id, persists_append _ _ _, .refl _ _⟩
        · exact .of_eq rfl rfl rfl
    · exact (keeps_publish _ _ _ _).trans (.of_eq rfl rfl rfl)

theorem keeps_putCompletion {i : ℕ} {c : Completion} (hc : r.completions[i]? = some c)
    {c' : Completion} (hending : c.ending → c'.ending) : (r.putCompletion i c').Keeps r :=
  ⟨id, persists_set hc hending, .refl _ _⟩

theorem keeps_completionStep {i : ℕ} {step : CompletionStep} {available : Bool} {intake : Intake}
    (h : r.completionStep i step available = some intake) : intake.reader.Keeps r := by
  have hdone {c : Completion} (hc : r.completions[i]? = some c) :
      (r.putCompletion i { c with phase := .done }).Keeps r :=
    keeps_putCompletion hc fun _ => by simp [Completion.ending]
  cases completes_of_step h with
  | begins hc hphase hcancelled =>
      -- it was not ending
      apply keeps_putCompletion hc
      simp [Completion.ending, hphase, hcancelled]
  | ends hc => exact hdone hc
  | readsBack hc => exact (keeps_publish _ _ _ _).trans (hdone hc)

/-! ### The poll loop -/

/-- What a step of the poll loop comes to. -/
inductive Polled (r : Reader) (i : ℕ) (t : PollTask) (r' : Reader) : Prop
  /-- it begins a read -/
  | reads (hending : t.ending = false)
      (htasks : r'.pollTasks = r.pollTasks.set i { t with phase := .reading })
  /-- its read is over and it begins to wait -/
  | waits (due : ℚ) (hcancelled : t.cancelled = false) (hphase : t.phase = .reading)
      (hpoke : r.poke = false) (hpoke' : r'.poke = false)
      (htasks : r'.pollTasks = r.pollTasks.set i { t with phase := .pausing { due } })
  | ends (hpoke : r'.poke = r.poke)
      (htasks : r'.pollTasks = r.pollTasks.set i { t with phase := .done })

/-- The tasks that a step of the poll loop leaves alone, and the flag. -/
structure Apart (r' r : Reader) : Prop where
  pollTask : r'.pollTask = r.pollTask
  completions : r'.completions = r.completions
  pollTasks : r'.pollTasks = r.pollTasks
  poke : r'.poke = r.poke

theorem apart_classifyPoll (r : Reader) (data : Bytes) (available : Bool) :
    (r.classifyPoll data available).reader.Apart r := by
  rw [classifyPoll]
  split
  · dsimp only
    split
    · rw [publish]
      split <;> exact ⟨rfl, rfl, rfl, rfl⟩
    · exact ⟨rfl, rfl, rfl, rfl⟩
  · exact ⟨rfl, rfl, rfl, rfl⟩

theorem Apart.polled_afterPoll (h : r'.Apart r) {i : ℕ} {t : PollTask} (now interval : ℚ)
    (hphase : t.phase = .reading) (hcancelled : t.cancelled = false) :
    r.Polled i t (r'.afterPoll i t now interval) ∧
      (r'.afterPoll i t now interval).pollTask = r.pollTask ∧
      (r'.afterPoll i t now interval).completions = r.completions := by
  rw [afterPoll]
  split
  · refine ⟨.reads ?_ ?_, h.pollTask, h.completions⟩
    · simp [PollTask.ending, hphase, hcancelled]
    · show r'.pollTasks.set i _ = _
      rw [h.pollTasks]
  · rename_i hpoke
    have hclear : r'.poke = false := by simpa using hpoke
    refine ⟨.waits (now + interval) hcancelled hphase (h.poke ▸ hclear) hclear ?_, h.pollTask,
      h.completions⟩
    show r'.pollTasks.set i _ = _
    rw [h.pollTasks]

theorem polled_pollStep {i : ℕ} {step : PollStep} {now interval : ℚ} {available : Bool}
    {intake : Intake} (h : r.pollStep i step now interval available = some intake) :
    ∃ t, r.pollTasks[i]? = some t ∧ r.Polled i t intake.reader ∧
      intake.reader.pollTask = r.pollTask ∧ intake.reader.completions = r.completions := by
  cases polls_of_step h with
  | @begins t ht hphase hcancelled =>
      exact ⟨t, ht, .reads (by simp [PollTask.ending, hphase, hcancelled]) rfl, rfl, rfl⟩
  | @ends t _ ht => exact ⟨t, ht, .ends rfl rfl, rfl, rfl⟩
  | @reads t ht hphase hcancelled data =>
      let heard : Reader := { r with polls := r.polls + 1, packetsSeen := r.packetsSeen + 1 }
      have hsorted := apart_classifyPoll heard data available
      have hsame : (heard.classifyPoll data available).reader.Apart r :=
        ⟨hsorted.pollTask, hsorted.completions, hsorted.pollTasks, hsorted.poke⟩
      exact ⟨t, ht, hsame.polled_afterPoll now interval hphase hcancelled⟩
  | @fails t ht hphase hcancelled =>
      have hsame : Apart { r with pollFailures := r.pollFailures + 1 } r := ⟨rfl, rfl, rfl, rfl⟩
      exact ⟨t, ht, hsame.polled_afterPoll now interval hphase hcancelled⟩
  | @wakes t _ wait ht hphase hcancelled =>
      exact ⟨t, ht, .reads (by simp [PollTask.ending, hphase, hcancelled]) rfl, rfl, rfl⟩

theorem keeps_pollStep {i : ℕ} {step : PollStep} {now interval : ℚ} {available : Bool}
    {intake : Intake} (h : r.pollStep i step now interval available = some intake) :
    intake.reader.Keeps r := by
  obtain ⟨t, ht, hpolled, howned, hcompletions⟩ := polled_pollStep h
  have hput {t' : PollTask} (hending : t.ending → t'.ending)
      (htasks : intake.reader.pollTasks = r.pollTasks.set i t') : intake.reader.Keeps r := by
    refine ⟨?_, ?_, ?_⟩
    · intro howns j hj
      rw [htasks, List.length_set]
      exact howns j (howned ▸ hj)
    · rw [hcompletions]
      exact .refl _ _
    · rw [htasks]
      exact persists_set ht hending
  cases hpolled with
  | reads hending htasks => exact hput (by simp [hending]) htasks
  | waits due hcancelled hphase _ _ htasks =>
      exact hput (by simp [PollTask.ending, hcancelled, hphase]) htasks
  | ends _ htasks => exact hput (fun _ => by simp [PollTask.ending]) htasks

theorem keeps_pokeNow (r : Reader) : r.pokeNow.Keeps r := by
  refine ⟨fun howns i hi => ?_, .refl _ _, persists_map fun t ht => ?_⟩
  · have hlt := howns i hi
    simpa [pokeNow] using hlt
  · cases hphase : t.phase <;> simp_all [PollTask.ending]

/-! ### Starting and stopping -/

theorem keeps_startPolling (r : Reader) : r.startPolling.Keeps r := by
  refine ⟨fun _ i hi => ?_, .refl _ _, persists_append _ _ _⟩
  obtain rfl : r.pollTasks.length = i := by simpa [startPolling] using hi
  simp [startPolling]

theorem keeps_cancelPollTask (r : Reader) (i : ℕ) : (r.cancelPollTask i).Keeps r := by
  refine ⟨fun howns j hj => ?_, .refl _ _, persists_modify (fun t _ => by simp [PollTask.ending]) i⟩
  have hlt := howns j hj
  simpa [cancelPollTask] using hlt

theorem keeps_cancelCompletion (r : Reader) (i : ℕ) : (r.cancelCompletion i).Keeps r :=
  ⟨id, persists_modify (fun c _ => by simp [Completion.ending]) i, .refl _ _⟩

end Reader

end Bedjet.Service
