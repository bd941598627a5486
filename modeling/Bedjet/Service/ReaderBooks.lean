import Bedjet.Service.ReaderRuns

/-!
The books of a reader. Its counters are judged against the trace of a run: every
chunk of data is counted under exactly one heading, every fragment is completed,
given up or still waiting, and what reaches `_publish` is either published or
counted as rejected.
-/

namespace Bedjet.Service

open Python Protocol Device Asyncio

/-! ### What the trace says -/

namespace Mark

/-- The packet that reaches `_publish`. -/
def handed : Mark → Option StatusPacket
  | .heard _ data => if isWhole data then some (decodeStatus data) else none
  | .readBack _ first remainder => some (decodeStatus (reassemble first remainder))
  | _ => none

def publication : Mark → Option Sample
  | .published sample _ => some sample
  | _ => none

def isChunk : Mark → Bool
  | .heard _ _ => true
  | _ => false

def isWholeChunk : Mark → Bool
  | .heard _ data => isWhole data
  | _ => false

def isReadBack : Mark → Bool
  | .readBack _ _ _ => true
  | _ => false

def isGaveUp : Mark → Bool
  | .gaveUp _ => true
  | _ => false

end Mark

/-- The packets that reached `_publish`. -/
def handed (trace : List Mark) : List StatusPacket :=
  trace.filterMap Mark.handed

/-- The invocations of `on_state`. -/
def publications (trace : List Mark) : List Sample :=
  trace.filterMap Mark.publication

theorem handed_cons (m : Mark) (trace : List Mark) :
    handed (m :: trace) = m.handed.toList ++ handed trace := by
  rw [handed, List.filterMap_cons]
  cases m.handed <;> rfl

theorem publications_cons (m : Mark) (trace : List Mark) :
    publications (m :: trace) = m.publication.toList ++ publications trace := by
  rw [publications, List.filterMap_cons]
  cases m.publication <;> rfl

/-- A packet reaches `_publish` whole, or by a follow-up read. -/
theorem length_handed (trace : List Mark) :
    (handed trace).length =
      trace.countP Mark.isWholeChunk + trace.countP Mark.isReadBack := by
  induction trace with
  | nil => rfl
  | cons m trace ih =>
      rw [handed_cons, List.length_append, ih, List.countP_cons, List.countP_cons]
      cases m with
      | heard chunk data =>
          cases hwhole : isWhole data with
          | true =>
              simp [Mark.handed, Mark.isWholeChunk, Mark.isReadBack, hwhole]
              omega
          | false => simp [Mark.handed, Mark.isWholeChunk, Mark.isReadBack, hwhole]
      | readBack =>
          simp [Mark.handed, Mark.isWholeChunk, Mark.isReadBack]
          omega
      | _ => simp [Mark.handed, Mark.isWholeChunk, Mark.isReadBack]

/-! ### The gate of `_publish` -/

/-- What was published and what was rejected make up what was handed over. -/
structure Gate (rejectedChecksum : ℕ) (trace : List Mark) : Prop where
  published : (publications trace).map (·.packet) = (handed trace).filter (·.isTrustworthy)
  rejected : rejectedChecksum = (handed trace).countP (!·.isTrustworthy)

theorem gate_nil : Gate 0 [] := ⟨rfl, rfl⟩

variable {n : ℕ} {trace : List Mark}

theorem Gate.length_handed (h : Gate n trace) :
    (handed trace).length = (publications trace).length + n := by
  have hlength := congrArg List.length h.published
  rw [List.length_map] at hlength
  rw [hlength, h.rejected, List.length_eq_countP_add_countP (·.isTrustworthy),
    List.countP_eq_length_filter]
  simp

/-- What was handed over is what was whole or completed. -/
theorem Gate.countP_whole_add_readBack (h : Gate n trace) :
    trace.countP Mark.isWholeChunk + trace.countP Mark.isReadBack =
      (publications trace).length + n := by
  rw [← Service.length_handed]
  exact h.length_handed

theorem Gate.trustworthy (h : Gate n trace) {sample : Sample} {raised : Bool}
    (hmem : .published sample raised ∈ trace) : sample.packet.isTrustworthy := by
  have hpublished : sample ∈ publications trace :=
    List.mem_filterMap.mpr ⟨_, hmem, rfl⟩
  have hpacket : sample.packet ∈ (publications trace).map (·.packet) :=
    List.mem_map_of_mem hpublished
  rw [h.published] at hpacket
  exact (List.mem_filter.mp hpacket).2

/-- A mark of anything else. -/
theorem Gate.cons (h : Gate n trace) {m : Mark} (hhanded : m.handed = none)
    (hpublication : m.publication = none) : Gate n (m :: trace) := by
  refine ⟨?_, ?_⟩
  · rw [publications_cons, handed_cons, hhanded, hpublication]
    exact h.published
  · rw [handed_cons, hhanded]
    exact h.rejected

/-- A packet is handed over. -/
theorem Gate.publish {r : Reader} (h : Gate r.rejectedChecksum trace) {m : Mark}
    {packet : StatusPacket} (hhanded : m.handed = some packet) (hpublication : m.publication = none)
    (chunk : ℕ) (available raises : Bool) :
    Gate (r.publish packet chunk available).reader.rejectedChecksum
      ((r.publish packet chunk available).published.toList.map (.published · raises) ++
        m :: trace) := by
  have hmade : handed (m :: trace) = packet :: handed trace := by
    rw [handed_cons, hhanded]
    rfl
  have hsame : publications (m :: trace) = publications trace := by
    rw [publications_cons, hpublication]
    rfl
  rw [Reader.publish]
  split
  · rename_i htrust
    refine ⟨?_, ?_⟩
    · show (publications (_ :: m :: trace)).map _ = (handed (_ :: m :: trace)).filter _
      rw [publications_cons, hsame, handed_cons, hmade]
      simp [Mark.publication, Mark.handed, htrust, h.published]
    · show r.rejectedChecksum = (handed (_ :: m :: trace)).countP _
      rw [handed_cons, hmade, h.rejected]
      simp [Mark.handed, htrust]
  · rename_i htrust
    refine ⟨?_, ?_⟩
    · show (publications (m :: trace)).map _ = (handed (m :: trace)).filter _
      rw [hsame, hmade, h.published]
      simp [htrust]
    · show r.rejectedChecksum + 1 = (handed (m :: trace)).countP _
      rw [hmade, h.rejected]
      simp [htrust]

/-! ### The books -/

/-- The counters of a reader. -/
structure Counters where
  packetsSeen : ℕ
  partialsSeen : ℕ
  rejectedChecksum : ℕ
  rejectedNotAPacket : ℕ
  droppedWhileBusy : ℕ
  polls : ℕ
  pollsWhole : ℕ
  pollsPartial : ℕ
  pollsAlien : ℕ

namespace Reader

def counters (r : Reader) : Counters where
  packetsSeen := r.packetsSeen
  partialsSeen := r.partialsSeen
  rejectedChecksum := r.rejectedChecksum
  rejectedNotAPacket := r.rejectedNotAPacket
  droppedWhileBusy := r.droppedWhileBusy
  polls := r.polls
  pollsWhole := r.pollsWhole
  pollsPartial := r.pollsPartial
  pollsAlien := r.pollsAlien

def phases (r : Reader) : List CompletionPhase :=
  r.completions.map (·.phase)

/-- The follow-up tasks that have not ended. -/
def inFlight (r : Reader) : ℕ :=
  r.phases.countP (· ≠ .done)

end Reader

/-- The books both modes keep. -/
structure Books (c : Counters) (phases : List CompletionPhase) (trace : List Mark) : Prop where
  gate : Gate c.rejectedChecksum trace
  seen : c.packetsSeen = trace.countP Mark.isChunk
  fragments : c.partialsSeen = trace.countP Mark.isReadBack + trace.countP Mark.isGaveUp +
    phases.countP (· ≠ .done)

/-- Every notification comes under one heading. -/
structure NotifyBooks (c : Counters) (phases : List CompletionPhase) (trace : List Mark) : Prop
    extends Books c phases trace where
  headings : c.packetsSeen =
    c.rejectedNotAPacket + c.droppedWhileBusy + c.partialsSeen + trace.countP Mark.isWholeChunk

/-- Every poll read comes under one heading, and none is a fragment. -/
structure PollBooks (c : Counters) (phases : List CompletionPhase) (trace : List Mark) : Prop
    extends Books c phases trace where
  polled : c.packetsSeen = c.polls
  headings : c.polls = c.pollsWhole + c.pollsPartial + c.pollsAlien
  whole : c.pollsWhole = trace.countP Mark.isWholeChunk
  unsplit : c.partialsSeen = 0

section

variable {c : Counters} {phases : List CompletionPhase} {m : Mark}

/-- A mark that no account looks at. -/
structure Mark.Unbooked (m : Mark) : Prop where
  handed : m.handed = none
  publication : m.publication = none
  chunk : m.isChunk = false
  wholeChunk : m.isWholeChunk = false
  readBack : m.isReadBack = false
  gaveUp : m.isGaveUp = false

theorem Mark.unbooked_starting : Mark.starting.Unbooked := ⟨rfl, rfl, rfl, rfl, rfl, rfl⟩

theorem Mark.unbooked_stopped : Mark.stopped.Unbooked := ⟨rfl, rfl, rfl, rfl, rfl, rfl⟩

theorem Books.cons (h : Books c phases trace) (hm : m.Unbooked) : Books c phases (m :: trace) := by
  refine ⟨h.gate.cons hm.handed hm.publication, ?_, ?_⟩
  · simpa [List.countP_cons, hm.chunk] using h.seen
  · simpa [List.countP_cons, hm.readBack, hm.gaveUp] using h.fragments

theorem NotifyBooks.cons (h : NotifyBooks c phases trace) (hm : m.Unbooked) :
    NotifyBooks c phases (m :: trace) := by
  refine ⟨h.toBooks.cons hm, ?_⟩
  simpa [List.countP_cons, hm.wholeChunk] using h.headings

theorem PollBooks.cons (h : PollBooks c phases trace) (hm : m.Unbooked) :
    PollBooks c phases (m :: trace) := by
  refine ⟨h.toBooks.cons hm, h.polled, h.headings, ?_, h.unsplit⟩
  simpa [List.countP_cons, hm.wholeChunk] using h.whole

end

/-! ### The follow-up tasks -/

section

variable {phases : List CompletionPhase} {i : ℕ} {phase : CompletionPhase}

/-- A follow-up task that was in flight takes a step. -/
theorem countP_set_phase (hi : phases[i]? = some phase) (hphase : phase ≠ .done)
    (phase' : CompletionPhase) :
    (phases.set i phase').countP (· ≠ .done) + (if phase' = .done then 1 else 0) =
      phases.countP (· ≠ .done) := by
  obtain ⟨hlt, rfl⟩ := List.getElem?_eq_some_iff.mp hi
  have hpos : 0 < phases.countP (· ≠ .done) :=
    List.countP_pos_iff.mpr ⟨_, List.getElem_mem hlt, by simpa using hphase⟩
  rw [List.countP_set hlt, if_pos (by simpa using hphase)]
  by_cases hdone : phase' = .done
  · rw [if_neg (by simpa using hdone), if_pos hdone]
    omega
  · rw [if_pos (by simpa using hdone), if_neg hdone]
    omega

end

/-! ### Deliveries -/

namespace Reader

variable (r : Reader)

@[simp] theorem phases_publish (packet : StatusPacket) (chunk : ℕ) (available : Bool) :
    (r.publish packet chunk available).reader.phases = r.phases := by
  rw [publish]
  split <;> rfl

theorem counters_publish (packet : StatusPacket) (chunk : ℕ) (available : Bool) :
    (r.publish packet chunk available).reader.counters =
      { r.counters with
        rejectedChecksum := (r.publish packet chunk available).reader.rejectedChecksum } := by
  rw [publish]
  split <;> rfl

theorem counters_afterPoll (i : ℕ) (t : PollTask) (now interval : ℚ) :
    (r.afterPoll i t now interval).counters = r.counters := by
  rw [afterPoll]
  split <;> rfl

theorem phases_afterPoll (i : ℕ) (t : PollTask) (now interval : ℚ) :
    (r.afterPoll i t now interval).phases = r.phases := by
  rw [afterPoll]
  split <;> rfl

theorem phases_putCompletion (i : ℕ) (c : Completion) :
    (r.putCompletion i c).phases = r.phases.set i c.phase := by
  simp [phases, putCompletion]

theorem phases_newCompletion (first : Bytes) :
    (r.newCompletion first).phases = r.phases ++ [.scheduled] := by
  simp [phases, newCompletion]

theorem getElem?_phases {r : Reader} {i : ℕ} {c : Completion} (hc : r.completions[i]? = some c) :
    r.phases[i]? = some c.phase := by
  rw [phases, List.getElem?_map, hc]
  rfl

end Reader

/-- Only the gate looks at the invocations of `on_state`. -/
theorem countP_published {p : Mark → Bool}
    (hp : ∀ sample raised, p (.published sample raised) = false) (published : Option Sample)
    (raises : Bool) (m : Mark) (trace : List Mark) :
    (published.toList.map (Mark.published · raises) ++ m :: trace).countP p =
      trace.countP p + (p m).toNat := by
  have hcons : (m :: trace).countP p = trace.countP p + (p m).toNat := by
    rw [List.countP_cons]
    cases p m <;> rfl
  cases published with
  | none => exact hcons
  | some sample =>
      show (Mark.published sample raises :: m :: trace).countP p = _
      rw [List.countP_cons, hp]
      exact hcons

section

variable {c c' : Counters} {phases phases' : List CompletionPhase} {m : Mark}
  {published : Option Sample} {raises : Bool}

/-- One entry in the books: a chunk or the end of a follow-up. -/
theorem Books.post (h : Books c phases trace)
    (hgate : Gate c'.rejectedChecksum
      (published.toList.map (.published · raises) ++ m :: trace))
    (hseen : c'.packetsSeen = c.packetsSeen + m.isChunk.toNat)
    (hfragments : c'.partialsSeen + phases.countP (· ≠ .done) =
      c.partialsSeen + m.isReadBack.toNat + m.isGaveUp.toNat + phases'.countP (· ≠ .done)) :
    Books c' phases' (published.toList.map (.published · raises) ++ m :: trace) := by
  have hbefore := h.fragments
  refine ⟨hgate, ?_, ?_⟩
  · rw [countP_published (fun _ _ => rfl), hseen, h.seen]
  · rw [countP_published (fun _ _ => rfl), countP_published (fun _ _ => rfl)]
    omega

theorem NotifyBooks.post (h : NotifyBooks c phases trace)
    (hbooks : Books c' phases' (published.toList.map (.published · raises) ++ m :: trace))
    (hheadings : c'.packetsSeen + c.rejectedNotAPacket + c.droppedWhileBusy + c.partialsSeen =
      c.packetsSeen + c'.rejectedNotAPacket + c'.droppedWhileBusy + c'.partialsSeen +
        m.isWholeChunk.toNat) :
    NotifyBooks c' phases' (published.toList.map (.published · raises) ++ m :: trace) := by
  have hbefore := h.headings
  refine ⟨hbooks, ?_⟩
  rw [countP_published (fun _ _ => rfl)]
  omega

theorem PollBooks.post (h : PollBooks c phases trace)
    (hbooks : Books c' phases' (published.toList.map (.published · raises) ++ m :: trace))
    (hpolled : c'.packetsSeen = c'.polls)
    (hheadings : c'.polls = c'.pollsWhole + c'.pollsPartial + c'.pollsAlien)
    (hwhole : c'.pollsWhole = c.pollsWhole + m.isWholeChunk.toNat)
    (hunsplit : c'.partialsSeen = c.partialsSeen) :
    PollBooks c' phases' (published.toList.map (.published · raises) ++ m :: trace) := by
  refine ⟨hbooks, hpolled, hheadings, ?_, hunsplit.trans h.unsplit⟩
  rw [countP_published (fun _ _ => rfl), hwhole, h.whole]

end

section

variable {r r' : Reader} {data : Bytes} {available raises : Bool} {published : Option Sample}

/-- A notification is entered. -/
theorem NotifyBooks.notified (h : NotifyBooks r.counters r.phases trace)
    (hnotified : r.Notified data available r' published) (raises : Bool) :
    NotifyBooks r'.counters r'.phases (published.toList.map (.published · raises) ++
      .heard (r.packetsSeen + 1) data :: trace) := by
  have hunhanded (hwhole : isWhole data = false) :
      (Mark.heard (r.packetsSeen + 1) data).handed = none := by
    simp [Mark.handed, hwhole]
  have hunwhole (hwhole : isWhole data = false) :
      (Mark.heard (r.packetsSeen + 1) data).isWholeChunk.toNat = 0 := by
    simp [Mark.isWholeChunk, hwhole]
  cases hnotified with
  | tail hwhole _ =>
      apply h.post (h.toBooks.post ?_ ?_ ?_)
      · rw [hunwhole hwhole]
        dsimp only [Reader.counters]
        omega
      · exact h.gate.cons (hunhanded hwhole) rfl
      · rfl
      · rfl
  | dropped hwhole _ =>
      apply h.post (h.toBooks.post ?_ ?_ ?_)
      · rw [hunwhole hwhole]
        dsimp only [Reader.counters]
        omega
      · exact h.gate.cons (hunhanded hwhole) rfl
      · rfl
      · rfl
  | begun hwhole _ _ =>
      apply h.post (h.toBooks.post ?_ ?_ ?_)
      · rw [hunwhole hwhole]
        dsimp only [Reader.counters, Reader.newCompletion]
        omega
      · exact h.gate.cons (hunhanded hwhole) rfl
      · rfl
      · -- one more fragment, and one more follow-up in flight
        rw [Reader.phases_newCompletion, List.countP_append]
        show r.partialsSeen + 1 + r.phases.countP _ = r.partialsSeen + 0 + 0 +
          (r.phases.countP _ + 1)
        omega
  | whole hwhole =>
      let heard : Reader := { r with packetsSeen := r.packetsSeen + 1 }
      have hhanded : (Mark.heard (r.packetsSeen + 1) data).handed = some (decodeStatus data) := by
        simp [Mark.handed, hwhole]
      have hgate : Gate heard.rejectedChecksum trace := h.gate
      have hcounters := heard.counters_publish (decodeStatus data) (r.packetsSeen + 1) available
      have hphases := heard.phases_publish (decodeStatus data) (r.packetsSeen + 1) available
      apply h.post (h.toBooks.post ?_ ?_ ?_)
      · rw [hcounters]
        show r.packetsSeen + 1 + _ + _ + _ = _ + _ + _ + _ + (isWhole data).toNat
        rw [hwhole]
        dsimp only [Reader.counters, heard, Bool.toNat_true]
        omega
      · exact hgate.publish hhanded rfl _ available raises
      · rw [hcounters]
        rfl
      · rw [hcounters, hphases]
        rfl

/-- A step of a follow-up task is entered. -/
theorem NotifyBooks.followed (h : NotifyBooks r.counters r.phases trace) {i : ℕ} {c : Completion}
    {marks : List Mark} (hc : r.completions[i]? = some c)
    (hfollowed : r.Followed i c available r' published marks) (raises : Bool) :
    NotifyBooks r'.counters r'.phases
      (published.toList.map (.published · raises) ++ marks ++ trace) := by
  have hi := Reader.getElem?_phases hc
  cases hfollowed with
  | reading hphase _ =>
      have hcount := countP_set_phase hi (by simp [hphase]) .reading
      refine ⟨⟨h.gate, h.seen, ?_⟩, h.headings⟩
      rw [Reader.phases_putCompletion]
      show r.partialsSeen = trace.countP _ + trace.countP _ + (r.phases.set i .reading).countP _
      rw [show r.partialsSeen = _ from h.fragments]
      simp only [reduceCtorEq, if_false] at hcount
      omega
  | gaveUp hphase =>
      have hcount := countP_set_phase hi hphase .done
      rw [List.append_assoc]
      apply h.post (h.toBooks.post ?_ ?_ ?_)
      · rfl
      · exact h.gate.cons rfl rfl
      · rfl
      · rw [Reader.phases_putCompletion]
        show r.partialsSeen + _ = r.partialsSeen + 0 + 1 + (r.phases.set i .done).countP _
        rw [if_pos rfl] at hcount
        omega
  | readBack hphase _ remainder =>
      let ended := r.putCompletion i { c with phase := .done }
      have hcount := countP_set_phase hi hphase .done
      have hgate : Gate ended.rejectedChecksum trace := h.gate
      have hcounters := ended.counters_publish (decodeStatus (reassemble c.first remainder))
        c.chunk available
      have hphases := ended.phases_publish (decodeStatus (reassemble c.first remainder))
        c.chunk available
      rw [List.append_assoc]
      apply h.post (h.toBooks.post ?_ ?_ ?_)
      · rw [hcounters]
        rfl
      · exact hgate.publish rfl rfl _ available raises
      · rw [hcounters]
        rfl
      · rw [hcounters, hphases, Reader.phases_putCompletion]
        show r.partialsSeen + _ = r.partialsSeen + 1 + 0 + (r.phases.set i .done).countP _
        rw [if_pos rfl] at hcount
        omega

end

/-! ### Poll mode -/

section

variable {r : Reader} {data : Bytes} {available : Bool}

/-- A poll read that is sorted is entered. -/
theorem PollBooks.classified
    (h : PollBooks r.counters r.phases trace) (data : Bytes) (available raises : Bool) :
    let heard : Reader := { r with polls := r.polls + 1, packetsSeen := r.packetsSeen + 1 }
    let intake := heard.classifyPoll data available
    PollBooks intake.reader.counters intake.reader.phases
      (intake.published.toList.map (.published · raises) ++
        .heard (r.packetsSeen + 1) data :: trace) := by
  intro heard intake
  have hpolled : r.packetsSeen = r.polls := h.polled
  have hheadings : r.polls = r.pollsWhole + r.pollsPartial + r.pollsAlien := h.headings
  have hunwhole (hwhole : isWhole data = false) :
      (Mark.heard (r.packetsSeen + 1) data).handed = none ∧
        (Mark.heard (r.packetsSeen + 1) data).isWholeChunk.toNat = 0 := by
    simp [Mark.handed, Mark.isWholeChunk, hwhole]
  unfold intake Reader.classifyPoll
  split
  · rename_i hstart
    dsimp only
    split
    · rename_i hcomplete
      have hwhole : isWhole data := by simp [isWhole, hstart, hcomplete]
      let sorted : Reader := { heard with pollsWhole := r.pollsWhole + 1 }
      have hhanded : (Mark.heard (r.packetsSeen + 1) data).handed = some (decodeStatus data) := by
        simp [Mark.handed, hwhole]
      have hgate : Gate sorted.rejectedChecksum trace := h.gate
      have hcounters := sorted.counters_publish (decodeStatus data) heard.packetsSeen available
      have hphases := sorted.phases_publish (decodeStatus data) heard.packetsSeen available
      apply h.post (h.toBooks.post ?_ ?_ ?_)
      · rw [hcounters]
        show r.packetsSeen + 1 = r.polls + 1
        omega
      · rw [hcounters]
        show r.polls + 1 = r.pollsWhole + 1 + r.pollsPartial + r.pollsAlien
        omega
      · rw [hcounters]
        show r.pollsWhole + 1 = r.pollsWhole + (isWhole data).toNat
        rw [hwhole]
        rfl
      · rw [hcounters]
        rfl
      · exact hgate.publish hhanded rfl _ available raises
      · rw [hcounters]
        rfl
      · rw [hcounters, hphases]
        rfl
    · rename_i hpart
      obtain ⟨hunhanded, hzero⟩ := hunwhole (by simp [isWhole, hpart])
      apply h.post (h.toBooks.post (h.gate.cons hunhanded rfl) rfl rfl)
      · show r.packetsSeen + 1 = r.polls + 1
        omega
      · show r.polls + 1 = r.pollsWhole + (r.pollsPartial + 1) + r.pollsAlien
        omega
      · rw [hzero]
        rfl
      · rfl
  · rename_i hstart
    obtain ⟨hunhanded, hzero⟩ := hunwhole (by simp [isWhole, hstart])
    apply h.post (h.toBooks.post (h.gate.cons hunhanded rfl) rfl rfl)
    · show r.packetsSeen + 1 = r.polls + 1
      omega
    · show r.polls + 1 = r.pollsWhole + r.pollsPartial + (r.pollsAlien + 1)
      omega
    · rw [hzero]
      rfl
    · rfl

/-- A reader that polls has no follow-up in flight. -/
theorem PollBooks.not_followed {r' : Reader} {published : Option Sample} {marks : List Mark}
    (h : PollBooks r.counters r.phases trace) {i : ℕ} {c : Completion}
    (hc : r.completions[i]? = some c) (hfollowed : r.Followed i c available r' published marks) :
    False := by
  have hphase : c.phase ≠ .done := by
    cases hfollowed with
    | reading hphase _ => simp [hphase]
    | gaveUp hphase | readBack hphase _ _ => exact hphase
  have hpos : 0 < r.phases.countP (· ≠ .done) :=
    List.countP_pos_iff.mpr
      ⟨c.phase, List.mem_of_getElem? (Reader.getElem?_phases hc), by simpa using hphase⟩
  have hfragments := h.fragments
  rw [h.unsplit] at hfragments
  omega

/-- A step of the poll loop is entered. -/
theorem PollBooks.stepped (h : PollBooks r.counters r.phases trace) {i : ℕ}
    {step : Reader.PollStep} {now interval : ℚ} {intake : Intake}
    (hstep : r.pollStep i step now interval available = some intake) (raises : Bool) :
    PollBooks intake.reader.counters intake.reader.phases
      (intake.published.toList.map (.published · raises) ++
        step.marks intake.reader.packetsSeen ++ trace) := by
  cases Reader.polls_of_step hstep with
  | begins => exact h
  | ends _ _ hends => rcases hends with rfl | rfl <;> exact h
  | wakes _ _ _ hwakes => rcases hwakes with ⟨rfl, -⟩ | ⟨rfl, -⟩ <;> exact h
  | reads _ _ _ data =>
      have hclassified := h.classified data available raises
      let heard : Reader := { r with polls := r.polls + 1, packetsSeen := r.packetsSeen + 1 }
      have hseen : (heard.classifyPoll data available).reader.packetsSeen = r.packetsSeen + 1 :=
        (Reader.follows_classifyPoll heard data available).packetsSeen
      dsimp only
      rw [Reader.counters_afterPoll, Reader.phases_afterPoll,
        (Reader.follows_afterPoll _ _ _ _ _).packetsSeen, hseen, List.append_assoc]
      exact hclassified
  | fails =>
      dsimp only
      rw [Reader.counters_afterPoll, Reader.phases_afterPoll]
      exact h

end

end Bedjet.Service
