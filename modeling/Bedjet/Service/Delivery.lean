import Bedjet.Device.Integrity
import Bedjet.Service.ReaderBooks

/-!
The ways a packet can arrive. It comes whole in one notification, or split into
a fragment and the rest that a follow-up read returns, or whole in answer to a
poll; where it was split makes no difference to what is published.
-/

namespace Bedjet.Service

open Python Protocol Device Asyncio

/-- A packet of a known format, as long as it declares, with a checksum that is
right. -/
structure Intact (d : Bytes) : Prop where
  format : u8 d Offset.packetFormat = some packetFormatV3Home ∨
    u8 d Offset.packetFormat = some packetFormatDebug
  framed : ∃ declared, Framed d declared
  long : minStatusLength ≤ d.length
  sum : byteSum d % 256 = 0

/-! ### A packet and its heads -/

theorem looksLikePacketStart_iff {d : Bytes} :
    looksLikePacketStart d ↔ u8 d Offset.packetFormat = some packetFormatV3Home ∨
      u8 d Offset.packetFormat = some packetFormatDebug := by
  rw [looksLikePacketStart]
  cases u8 d Offset.packetFormat <;> simp

@[simp] theorem declaredLength_decodeStatus (d : Bytes) :
    (decodeStatus d).declaredLength = u8 d Offset.payloadLength := by
  rw [decodeStatus]
  split
  · rename_i h
    simp [List.isEmpty_iff.mp h, u8]
  · split <;> rfl

theorem isComplete_decodeStatus_iff {d : Bytes} :
    (decodeStatus d).isComplete ↔
      ∃ declared, u8 d Offset.payloadLength = some declared ∧
        declared + headerLength ≤ d.length := by
  rw [StatusPacket.isComplete, StatusPacket.expectedTotal, declaredLength_decodeStatus,
    raw_decodeStatus]
  cases u8 d Offset.payloadLength <;> simp

theorem reassemble_take_drop (d : Bytes) (k : ℕ) : reassemble (d.take k) (d.drop k) = d :=
  List.take_append_drop k d

section

variable {d : Bytes} {k : ℕ}

theorem Intact.isTrustworthy (h : Intact d) : (decodeStatus d).isTrustworthy := by
  obtain ⟨declared, hframed⟩ := h.framed
  exact hframed.isTrustworthy_iff.mpr ⟨h.long, balanced_iff.mpr h.sum⟩

theorem Intact.isWhole (h : Intact d) : isWhole d := by
  obtain ⟨declared, hframed⟩ := h.framed
  have hcomplete : (decodeStatus d).isComplete :=
    isComplete_decodeStatus_iff.mpr ⟨declared, hframed.byte, hframed.length.ge⟩
  rw [Service.isWhole, looksLikePacketStart_iff.mpr h.format, hcomplete]
  rfl

/-- A head that reaches the format byte begins a packet. -/
theorem Intact.looksLikePacketStart_take (h : Intact d) (hk : Offset.packetFormat < k) :
    looksLikePacketStart (d.take k) := by
  have hformat : u8 (d.take k) Offset.packetFormat = u8 d Offset.packetFormat :=
    u8_congr_of_take (k := k) (by simp) hk
  rw [looksLikePacketStart_iff, hformat]
  exact h.format

/-- A proper head is incomplete: if it holds the length byte at all, that byte
declares more. -/
theorem Intact.not_isComplete_take (h : Intact d) (hk : k < d.length) :
    (decodeStatus (d.take k)).isComplete = false := by
  obtain ⟨declared, hframed⟩ := h.framed
  apply Bool.eq_false_of_not_eq_true
  rw [isComplete_decodeStatus_iff]
  rintro ⟨declared', hbyte, hlength⟩
  exact (hframed.length_take_lt hk hbyte).not_ge hlength

theorem Intact.isFragment_take (h : Intact d) (hk : Offset.packetFormat < k) (hkd : k < d.length) :
    isFragment (d.take k) := by
  rw [isFragment, h.looksLikePacketStart_take hk, h.not_isComplete_take hkd]
  rfl

/-- A head without the format byte begins nothing. -/
theorem not_looksLikePacketStart_take (d : Bytes) (hk : k ≤ Offset.packetFormat) :
    looksLikePacketStart (d.take k) = false := by
  have hnone : u8 (d.take k) Offset.packetFormat = none := by
    rw [u8, List.getElem?_eq_none]
    · rfl
    · rw [List.length_take]
      omega
  rw [looksLikePacketStart, hnone]

end

namespace Reader

variable {r : Reader} {d : Bytes} {available : Bool}

/-- The reading that a packet is published as. -/
def reading (d : Bytes) (chunk : ℕ) (available : Bool) : Sample where
  state := .fromStatus (decodeStatus d) available
  packet := decodeStatus d
  chunk := chunk

theorem publish_of_intact (h : Intact d) (chunk : ℕ) :
    r.publish (decodeStatus d) chunk available =
      { reader := r, published := some (reading d chunk available) } := by
  rw [publish, if_pos h.isTrustworthy]
  rfl

/-- A whole packet is published at once. -/
theorem onNotify_of_intact (r : Reader) (available : Bool) (h : Intact d) :
    (r.onNotify d available).reader = { r with packetsSeen := r.packetsSeen + 1 } ∧
      (r.onNotify d available).published = some (reading d (r.packetsSeen + 1) available) := by
  have hwhole := h.isWhole
  rw [isWhole, Bool.and_eq_true] at hwhole
  simp [onNotify, hwhole.1, hwhole.2, publish_of_intact h]

/-- A fragment that finds the reader idle begins a follow-up. -/
theorem onNotify_of_fragment (r : Reader) (available : Bool) (h : isFragment d)
    (hloop : r.loopSet) (hidle : r.busy = false) :
    (r.onNotify d available).reader =
        { r with
          packetsSeen := r.packetsSeen + 1
          partialsSeen := r.partialsSeen + 1 }.newCompletion d ∧
      (r.onNotify d available).published = none := by
  have hnotified := notified_onNotify hloop d available
  generalize (r.onNotify d available).reader = r' at hnotified ⊢
  generalize (r.onNotify d available).published = published at hnotified ⊢
  cases hnotified with
  | tail hwhole hfragment => simp [h] at hfragment
  | dropped hwhole hbusy => simp [hidle] at hbusy
  | begun => exact ⟨rfl, rfl⟩
  | whole hwhole =>
      rw [isFragment, Bool.and_eq_true, Bool.not_eq_true'] at h
      simp [isWhole, h.2] at hwhole

theorem onNotify_of_tail (r : Reader) (available : Bool) (h : looksLikePacketStart d = false) :
    (r.onNotify d available).reader =
        { r with
          packetsSeen := r.packetsSeen + 1
          rejectedNotAPacket := r.rejectedNotAPacket + 1 } ∧
      (r.onNotify d available).published = none := by
  simp [onNotify, h]

end Reader

namespace ReaderRun

/-- Started in notify mode, with no follow-up in flight. -/
structure Idle (s : ReaderRun) : Prop where
  live : s.live
  loopSet : s.reader.loopSet
  idle : s.reader.busy = false

/-- `on_state` was invoked once since, with the packet that `d` is and the state
made of it. -/
def PublishedOnce (s s' : ReaderRun) (d : Bytes) (available : Bool) : Prop :=
  ∃ chunk, publications s'.trace = Reader.reading d chunk available :: publications s.trace

/-- A notification of the first `k` bytes of `d`, and the follow-up read that
returns the others, if there are any; `connected` is `is_connected` when the
fragment arrives. -/
def delivery (s : ReaderRun) (d : Bytes) (k : ℕ) (connected available raises : Bool) :
    List ReaderAction :=
  if k < d.length then
    [.notify (d.take k) connected raises,
      .completion s.reader.completions.length .begin connected raises,
      .completion s.reader.completions.length (.data (d.drop k)) available raises]
  else [.notify (d.take k) available raises]

section

variable {s : ReaderRun} {d : Bytes} {available raises : Bool}

theorem trace_takeIn (intake : Intake) (marks : List Mark) :
    (s.takeIn intake marks raises).trace =
      intake.published.toList.map (.published · raises) ++ (marks ++ s.trace) := by
  simp [takeIn, emit, setReader]

/-- A packet that arrives in one piece. -/
theorem publishedOnce_notify (available raises : Bool) (h : Intact d) (hlive : s.live) :
    ∃ s', (machine none).step s (.notify d available raises) = some s' ∧
      PublishedOnce s s' d available ∧ s'.reader.completions = s.reader.completions := by
  obtain ⟨hreader, hpublished⟩ := Reader.onNotify_of_intact s.reader available h
  refine ⟨_, if_pos hlive, ⟨s.reader.packetsSeen + 1, ?_⟩, ?_⟩
  · rw [trace_takeIn, hpublished]
    simp [publications_cons, Mark.publication]
  · simp [takeIn, emit, setReader, hreader]

/-- A packet of which a part arrives, and the rest is read. -/
theorem publishedOnce_delivery (h : Intact d) (hidle : s.Idle) {k : ℕ} (hk : 2 ≤ k)
    (hkd : k < d.length) (connected : Bool) :
    ∃ s', (machine none).run s (s.delivery d k connected available raises) = some s' ∧
      PublishedOnce s s' d available ∧
      s'.reader.completions.length = s.reader.completions.length + 1 := by
  let r : Reader := { s.reader with
    packetsSeen := s.reader.packetsSeen + 1
    partialsSeen := s.reader.partialsSeen + 1 }
  let c : Completion := { first := d.take k, chunk := r.packetsSeen }
  let n := s.reader.completions.length
  obtain ⟨hreader, hpublished⟩ := Reader.onNotify_of_fragment s.reader connected
    (h.isFragment_take (by simp; omega) hkd) hidle.loopSet hidle.idle
  -- the fragment is taken in, its follow-up task starts to read, and the read returns
  let s₁ := s.takeIn (s.reader.onNotify (d.take k) connected)
    [.heard (s.reader.packetsSeen + 1) (d.take k)] raises
  have hs₁ : (machine none).step s (.notify (d.take k) connected raises) = some s₁ :=
    if_pos hidle.live
  have hr₁ : s₁.reader = r.newCompletion (d.take k) := by
    simp only [s₁, takeIn, emit, setReader, hreader]
    rfl
  have hc : s₁.reader.completions[n]? = some c := by
    rw [hr₁, Reader.newCompletion]
    exact List.getElem?_concat_length ..
  let s₂ := s₁.takeIn { reader := s₁.reader.putCompletion n { c with phase := .reading } } [] raises
  have hs₂ : (machine none).step s₁ (.completion n .begin connected raises) = some s₂ := by
    simp [machine, step, Reader.completionStep, hc, c, s₂, Completion.marks]
  have hc₂ : s₂.reader.completions[n]? = some { c with phase := .reading } := by
    simp only [s₂, takeIn, emit, setReader, Reader.putCompletion]
    exact List.getElem?_set_self (List.getElem?_eq_some_iff.mp hc).1
  let s₃ := s₂.takeIn
    { reader := s₂.reader.putCompletion n { c with phase := .done }
      events := [.readBack c.chunk (d.drop k)]
      published := some (Reader.reading d c.chunk available) }
    [.readBack c.chunk (d.take k) (d.drop k)] raises
  have hs₃ : (machine none).step s₂ (.completion n (.data (d.drop k)) available raises) =
      some s₃ := by
    have hpublish : (s₂.reader.putCompletion n { c with phase := .done }).publish
        (decodeStatus (reassemble c.first (d.drop k))) c.chunk available =
        { reader := s₂.reader.putCompletion n { c with phase := .done }
          published := some (Reader.reading d c.chunk available) } := by
      rw [reassemble_take_drop]
      exact Reader.publish_of_intact h c.chunk
    simp only [machine, step, Reader.completionStep, hc₂, Option.bind_eq_bind, Option.bind_some, c]
    simp only [c] at hpublish
    rw [hpublish]
    rfl
  refine ⟨s₃, ?_, ⟨c.chunk, ?_⟩, ?_⟩
  · rw [delivery, if_pos hkd]
    exact Machine.run_cons_eq_some.mpr ⟨s₁, hs₁, Machine.run_cons_eq_some.mpr ⟨s₂, hs₂,
      Machine.run_cons_eq_some.mpr ⟨s₃, hs₃, rfl⟩⟩⟩
  · simp only [s₃, s₂, s₁, trace_takeIn, hpublished]
    simp [publications_cons, Mark.publication]
  · simp only [s₃, s₂, takeIn, emit, setReader, Reader.putCompletion, List.length_set, hr₁,
      Reader.newCompletion, List.length_append, List.length_singleton]
    rfl

/-- A packet that a poll returns. -/
theorem publishedOnce_poll (h : Intact d) {interval : { q : ℚ // 0 < q }} {i : ℕ} {t : PollTask}
    (ht : s.reader.pollTasks[i]? = some t) (hphase : t.phase = .reading)
    (hcancelled : t.cancelled = false) :
    ∃ s', (machine (some interval)).step s (.poll i (.data d) available raises) = some s' ∧
      PublishedOnce s s' d available := by
  obtain ⟨phase, cancelled⟩ := t
  obtain rfl : phase = .reading := hphase
  obtain rfl : cancelled = false := hcancelled
  have hwhole := h.isWhole
  rw [isWhole, Bool.and_eq_true] at hwhole
  simp only [machine, step, Reader.pollStep, ht, Option.bind_eq_bind, Option.bind_some,
    Reader.classifyPoll, hwhole.1, hwhole.2, if_true, Reader.publish_of_intact h]
  refine ⟨_, rfl, s.reader.packetsSeen + 1, ?_⟩
  simp [trace_takeIn, publications_cons, Mark.publication, Reader.PollStep.marks]

/-- How a packet is delivered does not change what is published: whole in a
notification or a poll, or split behind any byte from the format byte on, it is
published once and as the same reading. -/
theorem delivery_does_not_matter (h : Intact d) :
    (∀ (s : ReaderRun) (k : ℕ) (connected available raises : Bool), s.Idle → 2 ≤ k →
      k ≤ d.length →
      ∃ s', (machine none).run s (s.delivery d k connected available raises) = some s' ∧
        PublishedOnce s s' d available ∧
        s'.reader.completions.length =
          s.reader.completions.length + if k < d.length then 1 else 0) ∧
    (∀ (s : ReaderRun) (available raises : Bool), s.Idle →
      ∃ s', (machine none).step s (.notify d available raises) = some s' ∧
        PublishedOnce s s' d available) ∧
    (∀ (s : ReaderRun) (interval : { q : ℚ // 0 < q }) (i : ℕ) (t : PollTask)
      (available raises : Bool), s.reader.pollTasks[i]? = some t → t.phase = .reading →
      t.cancelled = false →
      ∃ s', (machine (some interval)).step s (.poll i (.data d) available raises) = some s' ∧
        PublishedOnce s s' d available) ∧
    ∀ (s : ReaderRun) (k : ℕ) (available raises : Bool), s.Idle → k < 2 →
      ∃ s', (machine none).step s (.notify (d.take k) available raises) = some s' ∧
        publications s'.trace = publications s.trace ∧
        s'.reader = { s.reader with
          packetsSeen := s.reader.packetsSeen + 1
          rejectedNotAPacket := s.reader.rejectedNotAPacket + 1 } := by
  refine ⟨?_, ?_, ?_, ?_⟩
  · intro s k connected available raises hidle hk hkd
    by_cases hlt : k < d.length
    · simpa [hlt] using publishedOnce_delivery h hidle hk hlt connected
    · have htake : d.take k = d := List.take_of_length_le (by omega)
      obtain ⟨s', hs', honce, hsame⟩ := publishedOnce_notify available raises h hidle.live
      refine ⟨s', ?_, honce, by simp [hlt, hsame]⟩
      rw [delivery, if_neg hlt, htake]
      exact Machine.run_cons_eq_some.mpr ⟨s', hs', rfl⟩
  · intro s available raises hidle
    obtain ⟨s', hs', honce, -⟩ := publishedOnce_notify available raises h hidle.live
    exact ⟨s', hs', honce⟩
  · intro s interval i t available raises ht hphase hcancelled
    exact publishedOnce_poll h ht hphase hcancelled
  · intro s k available raises hidle hk
    have htail : looksLikePacketStart (d.take k) = false :=
      not_looksLikePacketStart_take d (by simp; omega)
    obtain ⟨hreader, hpublished⟩ := Reader.onNotify_of_tail s.reader available htail
    refine ⟨_, if_pos hidle.live, ?_, ?_⟩
    · rw [trace_takeIn, hpublished]
      simp [publications_cons, Mark.publication]
    · simp [takeIn, emit, setReader, hreader]

theorem intact_coolPacket : Intact coolPacket where
  format := .inl rfl
  framed := ⟨27, rfl, rfl⟩
  long := by decide
  sum := by decide +kernel

theorem delivery_does_not_matter_coolPacket :
    ∃ s s', (machine none).run {} [.start, .call 0 .subscribed] = some s ∧
      (machine none).run s (s.delivery coolPacket 20 true true false) = some s' ∧
      PublishedOnce s s' coolPacket true := by
  have hany : ((machine none).run {} [.start, .call 0 .subscribed]).any fun s =>
      s.live && s.reader.loopSet && !s.reader.busy := by
    decide +kernel
  obtain ⟨s, hrun, hcheck⟩ := Machine.exists_of_run_any hany
  simp only [Bool.and_eq_true, Bool.not_eq_true'] at hcheck
  obtain ⟨⟨hlive, hloop⟩, hidle⟩ := hcheck
  obtain ⟨s', hs', honce, -⟩ := (delivery_does_not_matter intact_coolPacket).1 s 20 true true false
    ⟨hlive, hloop, hidle⟩ (by decide) (by decide)
  exact ⟨s, s', hrun, hs', honce⟩

end

end ReaderRun

end Bedjet.Service
