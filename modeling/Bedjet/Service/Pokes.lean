import Bedjet.Asyncio.History
import Bedjet.Asyncio.Recording
import Bedjet.Service.ReaderEnding
import Bedjet.Service.ReaderStop

/-!
Pokes in poll mode. `poke` sets a flag and wakes a loop that waits; the loop
looks at the flag when a read is over, and clears it where it goes on to read.
So a poke is never lost to the read that was under way when it came: the loop
does not wait again before it has begun another.
-/

namespace Bedjet.Service

open Python Protocol Device Asyncio History

/-- What happens to the poll loops. -/
inductive Beat
  | poked
  /-- a loop is created -/
  | started (i : ℕ)
  /-- a loop begins a read -/
  | reads (i : ℕ)
  /-- a loop begins to wait out the interval -/
  | waits (i : ℕ)
  deriving DecidableEq

namespace Beat

/-- The loop of that number begins a read. -/
def isReadOf (i : ℕ) (b : Beat) : Bool :=
  b = .reads i

/-- A loop begins a read, or is created and has yet to read. -/
def isFresh : Beat → Bool
  | .reads _ | .started _ => true
  | .poked | .waits _ => false

/-- What a step of the loop that leaves it there has begun. -/
def ofPhase (i : ℕ) : Option PollPhase → List Beat
  | some .reading => [.reads i]
  | some (.pausing _) => [.waits i]
  | _ => []

end Beat

/-- Whether a poke came that no later beat serves. -/
def unserved (serves : Beat → Bool) : List Beat → Bool
  | [] => false
  | .poked :: _ => true
  | b :: earlier => !serves b && unserved serves earlier

namespace Reader

/-- A poll loop that has not ended and was not cancelled. -/
def Polling (r : Reader) (i : ℕ) : Prop :=
  ∃ t, r.pollTasks[i]? = some t ∧ t.ending = false

end Reader

namespace ReaderRun

/-- What a step comes to for the poll loops. -/
def beats (s : ReaderRun) (a : ReaderAction) (s' : ReaderRun) : List Beat :=
  match a with
  | .poke => [.poked]
  | .start => [.started s.reader.pollTasks.length]
  | .poll i _ _ _ => Beat.ofPhase i ((s'.reader.pollTasks[i]?).map (·.phase))
  | _ => []

/-- `start` is called only when the poll loops there are have ended or were
cancelled, so one loop runs at a time. -/
def OneLoop (s : ReaderRun) : ReaderAction → Prop
  | .start => ∀ t ∈ s.reader.pollTasks, t.ending
  | _ => True

instance (s : ReaderRun) (a : ReaderAction) : Decidable (s.OneLoop a) := by
  unfold OneLoop
  split <;> infer_instance

/-- No loop begins to wait while a poke is unserved, and none that waits sleeps
through one. -/
structure Attentive (serves : ℕ → Beat → Bool) (s : ReaderRun) (history : List Beat) : Prop where
  waits : Each (fun b earlier => ∀ i, b = .waits i → unserved (serves i) earlier = false) history
  woken : ∀ i t wait, s.reader.pollTasks[i]? = some t → t.phase = .pausing wait →
    unserved (serves i) history → wait.woken

end ReaderRun

/-! ### What a step comes to -/

section

variable {serves : Beat → Bool} {b : Beat} {history : List Beat}

theorem unserved_served (hserves : serves b) (hb : b ≠ .poked) :
    unserved serves (b :: history) = false := by
  cases b with
  | poked => exact (hb rfl).elim
  | started | reads | waits => simp [unserved, hserves]

theorem unserved_of_cons (hb : b ≠ .poked) (h : unserved serves (b :: history)) :
    unserved serves history := by
  cases b with
  | poked => exact (hb rfl).elim
  | started | reads | waits =>
      rw [unserved, Bool.and_eq_true] at h
      · exact h.2
      · simp

end

namespace Reader

/-- What a step does to the poll loops. -/
inductive Beaten (r r' : Reader) : List Beat → Prop
  | same (htasks : r'.pollTasks = r.pollTasks) (hpoke : r'.poke = r.poke) : Beaten r r' []
  | poked (hr : r' = r.pokeNow) : Beaten r r' [.poked]
  | started (hr : r' = r.startPolling) : Beaten r r' [.started r.pollTasks.length]
  | cancelled (i : ℕ) (htasks : r'.pollTasks = (r.cancelPollTask i).pollTasks)
      (hpoke : r'.poke = r.poke) : Beaten r r' []
  | reads {i : ℕ} {t : PollTask} (ht : r.pollTasks[i]? = some t) (hending : t.ending = false)
      (htasks : r'.pollTasks = r.pollTasks.set i { t with phase := .reading }) :
      Beaten r r' [.reads i]
  | waits {i : ℕ} {t : PollTask} (ht : r.pollTasks[i]? = some t) (due : ℚ)
      (hcancelled : t.cancelled = false) (hphase : t.phase = .reading) (hpoke : r.poke = false)
      (hpoke' : r'.poke = false)
      (htasks : r'.pollTasks = r.pollTasks.set i { t with phase := .pausing { due } }) :
      Beaten r r' [.waits i]
  | ends {i : ℕ} {t : PollTask} (ht : r.pollTasks[i]? = some t) (hpoke : r'.poke = r.poke)
      (htasks : r'.pollTasks = r.pollTasks.set i { t with phase := .done }) : Beaten r r' []

section

variable (r : Reader)

theorem polls_publish (packet : StatusPacket) (chunk : ℕ) (available : Bool) :
    (r.publish packet chunk available).reader.pollTasks = r.pollTasks ∧
      (r.publish packet chunk available).reader.poke = r.poke := by
  rw [publish]
  split <;> exact ⟨rfl, rfl⟩

theorem polls_onNotify (data : Bytes) (available : Bool) :
    (r.onNotify data available).reader.pollTasks = r.pollTasks ∧
      (r.onNotify data available).reader.poke = r.poke := by
  rw [onNotify]
  dsimp only
  split
  · exact ⟨rfl, rfl⟩
  · split
    · split
      · exact ⟨rfl, rfl⟩
      · split <;> exact ⟨rfl, rfl⟩
    · exact polls_publish _ _ _ _

variable {r}

theorem Followed.polls {i : ℕ} {c : Completion} {available : Bool} {r' : Reader}
    {published : Option Sample} {marks : List Mark}
    (h : r.Followed i c available r' published marks) :
    r'.pollTasks = r.pollTasks ∧ r'.poke = r.poke := by
  cases h with
  | reading | gaveUp => exact ⟨rfl, rfl⟩
  | readBack => exact polls_publish _ _ _ _

theorem beaten_beginStop (pollInterval : PollInterval) :
    Beaten r (r.beginStop pollInterval).1 [] := by
  unfold beginStop
  split
  · exact .same rfl rfl
  · dsimp only
    split
    · split
      · exact .cancelled _ rfl rfl
      · exact .same rfl rfl
    · split
      · split <;> exact .same rfl rfl
      · exact .same rfl rfl

end

end Reader

namespace ReaderRun

variable {pollInterval : PollInterval} {s s' : ReaderRun}

theorem beaten_of_called {j : ℕ} {step : CallStep} (hcalled : Called pollInterval s j step s') :
    Reader.Beaten s.reader s'.reader [] := by
  cases hcalled with
  | subscribed | subscribeFailed | unsubscribed | unsubscribeCancelled => exact .same rfl rfl
  | childStopped => cases pollInterval <;> exact .same rfl rfl

theorem beaten_of_step {interval : { q : ℚ // 0 < q }} {a : ReaderAction}
    (hstep : (machine (some interval)).step s a = some s') :
    Reader.Beaten s.reader s'.reader (s.beats a s') := by
  cases stepped_of_step hstep with
  | pass => exact .same rfl rfl
  | start => exact .started rfl
  | stop => exact Reader.beaten_beginStop (some interval)
  | call hcalled => exact beaten_of_called hcalled
  | @notify _ _ data available =>
      obtain ⟨htasks, hpoke⟩ := s.reader.polls_onNotify data available
      exact .same htasks hpoke
  | completion hc hintake =>
      obtain ⟨htasks, hpoke⟩ := (Reader.followed_completionStep hc hintake).polls
      exact .same htasks hpoke
  | @poll _ _ i _ _ _ intake hintake =>
      obtain ⟨t, ht, hpolled, -, -⟩ := Reader.polled_pollStep hintake
      have hlt := (List.getElem?_eq_some_iff.mp ht).1
      have hphase {t' : PollTask} (htasks : intake.reader.pollTasks = s.reader.pollTasks.set i t') :
          (intake.reader.pollTasks[i]?).map (·.phase) = some t'.phase := by
        rw [htasks, List.getElem?_set_self hlt]
        rfl
      show Reader.Beaten s.reader intake.reader
        (Beat.ofPhase i ((intake.reader.pollTasks[i]?).map (·.phase)))
      cases hpolled with
      | reads hending htasks =>
          rw [hphase htasks]
          exact .reads ht hending htasks
      | waits due hcancelled hreading hpoke hpoke' htasks =>
          rw [hphase htasks]
          exact .waits ht due hcancelled hreading hpoke hpoke' htasks
      | ends hpoke htasks =>
          rw [hphase htasks]
          exact .ends ht hpoke htasks
  | poke => exact .poked rfl

/-! ### What is kept -/

/-- A loop is served by the reads of every loop that runs, and by the start of
another while it runs. -/
structure Serving (serves : ℕ → Beat → Bool) (r : Reader) (bs : List Beat) : Prop where
  reads : ∀ i j, r.Polling i → r.Polling j → .reads j ∈ bs → serves i (.reads j)
  started : ∀ i j, r.Polling i → .started j ∈ bs → serves i (.started j)

/-- While a loop reads, a poke that is unserved is in the flag. -/
structure Flagged (serves : ℕ → Beat → Bool) (s : ReaderRun) (history : List Beat) : Prop where
  attentive : Attentive serves s history
  flagged : ∀ i t, s.reader.pollTasks[i]? = some t → t.cancelled = false → t.phase = .reading →
    unserved (serves i) history → s.reader.poke

theorem flagged_init (serves : ℕ → Beat → Bool) : Flagged serves {} [] :=
  ⟨⟨each_nil _, by simp⟩, by simp⟩

section

variable {serves : ℕ → Beat → Bool} {history : List Beat}

theorem Attentive.cons (h : Attentive serves s history) {b : Beat} (hb : b ≠ .poked)
    (hwaits : ∀ i, b = .waits i → unserved (serves i) history = false)
    (hwoken : ∀ i t wait, s'.reader.pollTasks[i]? = some t → t.phase = .pausing wait →
      unserved (serves i) history → wait.woken) : Attentive serves s' (b :: history) :=
  ⟨h.waits.cons hwaits, fun i t wait ht hphase hunserved =>
    hwoken i t wait ht hphase (unserved_of_cons hb hunserved)⟩

/-- A loop took a step: what it owes, and what the others do. -/
theorem Flagged.put (h : Flagged serves s history) {i : ℕ} {t : PollTask}
    (htasks : s'.reader.pollTasks = s.reader.pollTasks.set i t) {history' : List Beat}
    (hattentive : Attentive serves s' history')
    (hself : t.phase = .reading → unserved (serves i) history' = false)
    (hother : ∀ j, s.reader.Polling j → unserved (serves j) history' →
      unserved (serves j) history ∧ (s.reader.poke → s'.reader.poke)) :
    Flagged serves s' history' := by
  refine ⟨hattentive, ?_⟩
  intro j t' ht' hcancelled hphase hunserved
  rw [htasks] at ht'
  rcases getElem?_set_cases ht' with ⟨rfl, rfl⟩ | ⟨-, ht'⟩
  · rw [hself hphase] at hunserved
    exact (Bool.false_ne_true hunserved).elim
  · have hpolling : s.reader.Polling j := ⟨t', ht', by simp [PollTask.ending, hcancelled, hphase]⟩
    obtain ⟨hunserved', hpoke⟩ := hother j hpolling hunserved
    exact hpoke (h.flagged j t' ht' hcancelled hphase hunserved')

/-- What waits after a loop took a step waited before. -/
theorem Attentive.woken_set (h : Attentive serves s history) {i : ℕ} {t : PollTask}
    (htasks : s'.reader.pollTasks = s.reader.pollTasks.set i t)
    (hself : ∀ wait, t.phase = .pausing wait → unserved (serves i) history = false) (j : ℕ)
    (t' : PollTask) (wait : Wait) (ht' : s'.reader.pollTasks[j]? = some t')
    (hphase : t'.phase = .pausing wait) (hunserved : unserved (serves j) history) :
    wait.woken := by
  rw [htasks] at ht'
  rcases getElem?_set_cases ht' with ⟨rfl, rfl⟩ | ⟨-, ht'⟩
  · rw [hself wait hphase] at hunserved
    exact (Bool.false_ne_true hunserved).elim
  · exact h.woken j t' wait ht' hphase hunserved

theorem Flagged.beaten (h : Flagged serves s history) {bs : List Beat}
    (hserving : Serving serves s.reader bs) (hbeaten : Reader.Beaten s.reader s'.reader bs) :
    Flagged serves s' (bs ++ history) := by
  cases hbeaten with
  | same htasks hpoke =>
      refine ⟨⟨h.attentive.waits, ?_⟩, ?_⟩
      · rw [htasks]
        exact h.attentive.woken
      · rw [htasks, hpoke]
        exact h.flagged
  | poked hr =>
      refine ⟨⟨h.attentive.waits.cons (by simp), ?_⟩, ?_⟩
      · intro i t wait ht hphase _
        rw [hr, Reader.pokeNow, List.getElem?_map] at ht
        obtain ⟨t₀, -, rfl⟩ := Option.map_eq_some_iff.mp ht
        -- it is awake whether it was or not
        split at hphase
        · obtain rfl := PollPhase.pausing.inj hphase
          rfl
        · rename_i hnot
          exact (hnot wait hphase).elim
      · rw [hr]
        exact fun _ _ _ _ _ _ => rfl
  | started hr =>
      have hold (i : ℕ) (t : PollTask) (hphase : t.phase ≠ .scheduled)
          (ht : s'.reader.pollTasks[i]? = some t) : s.reader.pollTasks[i]? = some t := by
        rw [hr] at ht
        rcases getElem?_concat_cases ht with ht | ⟨-, rfl⟩
        · exact ht
        · exact (hphase rfl).elim
      refine ⟨h.attentive.cons (by simp) (by simp) ?_, ?_⟩
      · intro i t wait ht hphase
        exact h.attentive.woken i t wait (hold i t (by simp [hphase]) ht) hphase
      · intro i t ht hcancelled hphase hunserved
        have ht' := hold i t (by simp [hphase]) ht
        have hpolling : s.reader.Polling i :=
          ⟨t, ht', by simp [PollTask.ending, hcancelled, hphase]⟩
        have hserved := hserving.started i s.reader.pollTasks.length hpolling (by simp)
        rw [List.singleton_append, unserved_served hserved (by simp)] at hunserved
        exact (Bool.false_ne_true hunserved).elim
  | cancelled i htasks hpoke =>
      have hold (j : ℕ) (t : PollTask) (ht : s'.reader.pollTasks[j]? = some t) :
          ∃ t₀, s.reader.pollTasks[j]? = some t₀ ∧ t.phase = t₀.phase ∧
            (t.cancelled = false → t₀.cancelled = false) := by
        rw [htasks, Reader.cancelPollTask, List.getElem?_modify] at ht
        obtain ⟨t₀, ht₀, rfl⟩ := Option.map_eq_some_iff.mp ht
        refine ⟨t₀, ht₀, ?_⟩
        split <;> simp
      refine ⟨⟨h.attentive.waits, ?_⟩, ?_⟩
      · intro j t wait ht hphase
        obtain ⟨t₀, ht₀, hphase₀, -⟩ := hold j t ht
        exact h.attentive.woken j t₀ wait ht₀ (hphase₀ ▸ hphase)
      · intro j t ht hcancelled hphase
        obtain ⟨t₀, ht₀, hphase₀, hcancelled₀⟩ := hold j t ht
        rw [hpoke]
        exact h.flagged j t₀ ht₀ (hcancelled₀ hcancelled) (hphase₀ ▸ hphase)
  | @reads i t ht hending htasks =>
      have hpolling : s.reader.Polling i := ⟨t, ht, hending⟩
      -- the read that is begun serves every loop that runs
      have hserved (j : ℕ) (hj : s.reader.Polling j) :
          unserved (serves j) ([.reads i] ++ history) = false :=
        unserved_served (hserving.reads j i hj hpolling (by simp)) (by simp)
      have hattentive : Attentive serves s' ([.reads i] ++ history) :=
        h.attentive.cons (by simp) (by simp) (h.attentive.woken_set htasks (by simp))
      refine h.put htasks hattentive (fun _ => hserved i hpolling) ?_
      intro j hj hunserved
      rw [hserved j hj] at hunserved
      exact (Bool.false_ne_true hunserved).elim
  | @waits i t ht due hcancelled hphase hpoke hpoke' htasks =>
      have hserved : unserved (serves i) history = false := by
        by_contra hunserved
        have hflag := h.flagged i t ht hcancelled hphase (by simpa using hunserved)
        rw [hpoke] at hflag
        exact Bool.false_ne_true hflag
      have hattentive : Attentive serves s' ([.waits i] ++ history) := by
        refine h.attentive.cons (by simp) ?_ (h.attentive.woken_set htasks fun _ _ => hserved)
        intro j hj
        obtain rfl := Beat.waits.inj hj
        exact hserved
      refine h.put htasks hattentive (by simp) ?_
      intro j _ hunserved
      exact ⟨unserved_of_cons (by simp) hunserved, fun hflag => by simp [hpoke] at hflag⟩
  | ends ht hpoke htasks =>
      have hattentive : Attentive serves s' ([] ++ history) :=
        ⟨h.attentive.waits, h.attentive.woken_set htasks (by simp)⟩
      refine h.put htasks hattentive (by simp) ?_
      intro j _ hunserved
      exact ⟨hunserved, fun hflag => hpoke.trans hflag⟩

end

/-! ### Runs -/

section

variable {interval : { q : ℚ // 0 < q }} {a : ReaderAction}

theorem start_of_started {i : ℕ} (h : .started i ∈ s.beats a s') : a = .start := by
  cases a with
  | start => rfl
  | poll j step available raises =>
      have hphase : Beat.started i ∈ Beat.ofPhase j ((s'.reader.pollTasks[j]?).map (·.phase)) := h
      unfold Beat.ofPhase at hphase
      split at hphase <;> simp at hphase
  | poke => simp [beats] at h
  | pass | stop | call | notify | completion => simp [beats] at h

/-- A loop that runs after a step ran before it, or is the one created. -/
theorem polling_of_beaten {r r' : Reader} {bs : List Beat} {i : ℕ} (h : Reader.Beaten r r' bs)
    (hi : r'.Polling i) : r.Polling i ∨ .started i ∈ bs := by
  obtain ⟨t, ht, hending⟩ := hi
  have hput {j : ℕ} {t₀ t₁ : PollTask} (htasks : r'.pollTasks = r.pollTasks.set j t₁)
      (ht₀ : r.pollTasks[j]? = some t₀) (hkept : t₀.ending → t₁.ending) : r.Polling i := by
    rw [htasks] at ht
    rcases getElem?_set_cases ht with ⟨rfl, rfl⟩ | ⟨-, ht⟩
    · refine ⟨t₀, ht₀, ?_⟩
      by_contra hno
      rw [hkept ((Bool.not_eq_false _).mp hno)] at hending
      simp at hending
    · exact ⟨t, ht, hending⟩
  cases h with
  | same htasks =>
      rw [htasks] at ht
      exact .inl ⟨t, ht, hending⟩
  | poked hr =>
      rw [hr, Reader.pokeNow, List.getElem?_map] at ht
      obtain ⟨t₀, ht₀, rfl⟩ := Option.map_eq_some_iff.mp ht
      refine .inl ⟨t₀, ht₀, ?_⟩
      cases hphase : t₀.phase <;> simp_all [PollTask.ending]
  | started hr =>
      rw [hr] at ht
      rcases getElem?_concat_cases ht with ht | ⟨rfl, -⟩
      · exact .inl ⟨t, ht, hending⟩
      · exact .inr (by simp)
  | cancelled j htasks _ =>
      rw [htasks, Reader.cancelPollTask, List.getElem?_modify] at ht
      obtain ⟨t₀, ht₀, rfl⟩ := Option.map_eq_some_iff.mp ht
      refine .inl ⟨t₀, ht₀, ?_⟩
      split at hending
      · simp [PollTask.ending] at hending
      · exact hending
  | reads ht₀ hending₀ htasks => exact .inl (hput htasks ht₀ (by simp [hending₀]))
  | waits ht₀ due hcancelled hphase _ _ htasks =>
      exact .inl (hput htasks ht₀ (by simp [PollTask.ending, hcancelled, hphase]))
  | ends ht₀ _ htasks => exact .inl (hput htasks ht₀ fun _ => by simp [PollTask.ending])

/-- One loop runs at most, and it is attentive. -/
structure Single (s : ReaderRun) (history : List Beat) : Prop where
  one : ∀ i j, s.reader.Polling i → s.reader.Polling j → i = j
  flagged : Flagged Beat.isReadOf s history

theorem single_init : Single {} [] := by
  refine ⟨?_, flagged_init _⟩
  rintro i j ⟨t, ht, -⟩
  simp at ht

theorem single_step {history : List Beat} (h : Single s history) (hok : s.OneLoop a)
    (hstep : (machine (some interval)).step s a = some s') :
    Single s' (s.beats a s' ++ history) := by
  have hbeaten := beaten_of_step hstep
  -- where a loop is created none runs
  have hnone (i j : ℕ) (hi : s.reader.Polling i) (hj : .started j ∈ s.beats a s') : False := by
    obtain rfl := start_of_started hj
    obtain ⟨t, ht, hending⟩ := hi
    rw [hok t (List.mem_of_getElem? ht)] at hending
    simp at hending
  have hcreated (i : ℕ) (hi : .started i ∈ s.beats a s') : i = s.reader.pollTasks.length := by
    obtain rfl := start_of_started hi
    simpa [beats] using hi
  refine ⟨?_, h.flagged.beaten ⟨?_, ?_⟩ hbeaten⟩
  · intro i j hi hj
    rcases polling_of_beaten hbeaten hi with hi | hi
    · rcases polling_of_beaten hbeaten hj with hj | hj
      · exact h.one i j hi hj
      · exact (hnone i j hi hj).elim
    · rcases polling_of_beaten hbeaten hj with hj | hj
      · exact (hnone j i hj hi).elim
      · rw [hcreated i hi, hcreated j hj]
  · intro i j hi hj _
    obtain rfl := h.one i j hi hj
    simp [Beat.isReadOf]
  · intro i j hi hj
    exact (hnone i j hi hj).elim

/-- No poke is swallowed: a loop begins to wait only when every poke was followed
by the beginning of a read or by the start of a loop, and where one loop runs at a
time, by the beginning of a read of its own. -/
theorem no_poke_is_swallowed {actions : List ReaderAction} {history : List Beat}
    (hrun : ((machine (some interval)).recording beats).run ({}, []) actions =
      some (s, history)) :
    Attentive (fun _ => Beat.isFresh) s history ∧
      ((machine (some interval)).Meets OneLoop {} actions →
        Attentive Beat.isReadOf s history) := by
  constructor
  · have hflagged : Flagged (fun _ => Beat.isFresh) s history :=
      Machine.recording_invariant
        (fun _ _ _ _ h _ hstep => h.beaten ⟨by simp [Beat.isFresh], by simp [Beat.isFresh]⟩
          (beaten_of_step hstep))
        (flagged_init _) Machine.meets_true hrun
    exact hflagged.attentive
  · intro hone
    have hkeep (s : ReaderRun) (a : ReaderAction) (s' : ReaderRun) (history : List Beat)
        (h : Single s history) (hok : s.OneLoop a)
        (hstep : (machine (some interval)).step s a = some s') :
        Single s' (s.beats a s' ++ history) := single_step h hok hstep
    have hsingle : Single s history := Machine.recording_invariant hkeep single_init hone hrun
    exact hsingle.flagged.attentive

/-- A poke while the loop reads, one while it waits, and one before it starts. -/
def pokeRun : List ReaderAction :=
  [.poke, .start, .poll 0 .begin true false, .poke, .poll 0 (.data coolPacket) true true,
    .poll 0 .failed true false, .poke, .poll 0 .poked true false, .poll 0 .failed true false]

theorem no_poke_is_swallowed_pokeRun :
    ∃ s history, ((machine (some ⟨1, one_pos⟩)).recording beats).run ({}, []) pokeRun =
        some (s, history) ∧
      history = [.waits 0, .reads 0, .poked, .waits 0, .reads 0, .poked, .reads 0, .started 0,
        .poked] ∧
      Attentive (fun _ => Beat.isFresh) s history ∧ Attentive Beat.isReadOf s history := by
  have hany : (((machine (some ⟨1, one_pos⟩)).recording beats).run ({}, []) pokeRun).any
      (·.2 = [.waits 0, .reads 0, .poked, .waits 0, .reads 0, .poked, .reads 0, .started 0,
        .poked]) := by
    decide +kernel
  have hone : (machine (some ⟨1, one_pos⟩)).Meets OneLoop {} pokeRun := by
    decide +kernel
  obtain ⟨⟨s, history⟩, hrun, hhistory⟩ := Machine.exists_of_run_any hany
  obtain ⟨hfresh, hown⟩ := no_poke_is_swallowed hrun
  exact ⟨s, history, hrun, of_decide_eq_true hhistory, hfresh, hown hone⟩

end

end ReaderRun

end Bedjet.Service
