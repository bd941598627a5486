import Bedjet.Cli.Borrowing
import Bedjet.Codes.Runs
import Mathlib.Data.Finset.Card

/-!
What `watch` prints while it watches. The device sends the same status several times a
second, so only changes are printed, and the packets that repeat the last are counted:
the count is printed before the next change, and never where none follows.
-/

namespace Bedjet.Cli

open Codes Python Device Protocol

/-- One call of `on_state`. -/
structure Arrival where
  /-- `datetime.now(UTC).strftime("%H:%M:%S")` -/
  stamp : String
  state : BedJetState
  packet : StatusPacket

/-- The lines of a packet that is not a repetition. -/
def Arrival.texts (args : WatchArgs) (a : Arrival) : List String :=
  s!"[{a.stamp}] {a.state.describe}" ::
    ((if args.raw then [
        s!"          raw: {hex a.packet.raw}",
        s!"          hdr: {hex a.packet.header}",
        s!"          unknown[19:26]: {hex a.packet.unknownRegion}"]
      else []) ++
    a.packet.anomalies.map fun anomaly => s!"          ⚠️  {anomaly}")

/-- What `flush_repeats` prints. -/
def repeatTexts (repeats : ℕ) : List String :=
  if repeats = 0 then [] else [s!"           … {repeats} identical packet(s)"]

/-- What `on_state` writes to, `_Dedup` included. -/
structure Watching where
  captures : List Bytes := []
  /-- `seen.last` -/
  last : Option Bytes := none
  /-- `seen.repeats` -/
  repeats : ℕ := 0
  /-- the flag of `done`, which is set and never looked at -/
  done : Bool := false
  printed : List String := []

namespace Watching

def flushRepeats (w : Watching) : Watching :=
  { w with repeats := 0, printed := w.printed ++ repeatTexts w.repeats }

/-- `args.packets and len({bytes(c) for c in captures}) >= args.packets` -/
def isEnough (packets : ℤ) (captures : List Bytes) : Bool :=
  packets ≠ 0 && packets ≤ captures.dedup.length

def onState (args : WatchArgs) (w : Watching) (a : Arrival) : Watching :=
  let w := { w with captures := w.captures ++ [a.packet.raw] }
  if some a.packet.raw = w.last then { w with repeats := w.repeats + 1 }
  else
    let w := { w.flushRepeats with last := some a.packet.raw }
    { w with
      printed := w.printed ++ a.texts args
      done := w.done || isEnough args.packets w.captures }

end Watching

/-- What `on_state` leaves behind, called once for each arrival. -/
def watched (args : WatchArgs) (arrivals : List Arrival) : Watching :=
  arrivals.foldl (Watching.onState args) {}

/-! ### The account of the runs -/

def sameRaw (a b : Arrival) : Bool :=
  a.packet.raw = b.packet.raw

/-- A run of identical packets: the first of them, and how often it was repeated. -/
def runTexts (args : WatchArgs) : List Arrival → List String
  | [] => []
  | first :: rest => first.texts args ++ repeatTexts rest.length

/-- What is printed of the runs: how often the last was repeated is only counted. -/
def toldTexts (args : WatchArgs) : List (List Arrival) → List String
  | [] => []
  | [run] => (run.head?.map (·.texts args)).getD []
  | run :: next :: runs => runTexts args run ++ toldTexts args (next :: runs)

/-- How often the last packet was repeated. -/
def lastRepeats (runs : List (List Arrival)) : ℕ :=
  (runs.getLast?.map fun run => run.length - 1).getD 0

theorem toldTexts_append_lastRepeats (args : WatchArgs) (runs : List (List Arrival)) :
    toldTexts args runs ++ repeatTexts (lastRepeats runs) = runs.flatMap (runTexts args) := by
  fun_induction toldTexts args runs with
  | case1 => rfl
  | case2 run => cases run <;> simp [lastRepeats, runTexts, repeatTexts]
  | case3 run next runs ih =>
      have hlast : lastRepeats (run :: next :: runs) = lastRepeats (next :: runs) := by
        simp [lastRepeats]
      rw [List.append_assoc, hlast, ih]
      exact List.flatMap_cons.symm

/-- What `on_state` maintains. -/
structure Watching.Tells (args : WatchArgs) (arrivals : List Arrival) (w : Watching) : Prop where
  captures : w.captures = arrivals.map (·.packet.raw)
  last : w.last = (arrivals.map (·.packet.raw)).getLast?
  account : w.printed ++ repeatTexts w.repeats =
    (arrivals.splitBy sameRaw).flatMap (runTexts args)
  repeats : w.repeats = lastRepeats (arrivals.splitBy sameRaw)
  done : w.done ↔ arrivals ≠ [] ∧ isEnough args.packets w.captures

namespace Watching

variable {args : WatchArgs} {arrivals : List Arrival} {w : Watching} {a : Arrival}

theorem isEnough_concat {packets : ℤ} {captures : List Bytes} (raw : Bytes)
    (h : isEnough packets captures) : isEnough packets (captures ++ [raw]) := by
  obtain ⟨hne, hle⟩ : packets ≠ 0 ∧ packets ≤ captures.dedup.length := by
    simpa [isEnough] using h
  have hmore : captures.dedup.length ≤ (captures ++ [raw]).dedup.length := by
    rw [← List.card_toFinset, ← List.card_toFinset]
    exact Finset.card_le_card (by simp)
  simp only [isEnough, Bool.and_eq_true, decide_eq_true_eq]
  exact ⟨hne, by omega⟩

/-- A repetition is nothing new. -/
theorem isEnough_concat_of_mem {packets : ℤ} {captures : List Bytes} {raw : Bytes}
    (h : raw ∈ captures) : isEnough packets (captures ++ [raw]) = isEnough packets captures := by
  have hsame : (captures ++ [raw]).dedup.length = captures.dedup.length := by
    rw [← List.card_toFinset, ← List.card_toFinset]
    congr 1
    ext
    simp
    grind
  rw [isEnough, isEnough, hsame]

/-- The packet is that of the last arrival. -/
theorem Tells.onState_same (hw : w.Tells args arrivals) (h : some a.packet.raw = w.last) :
    (w.onState args a).Tells args (arrivals ++ [a]) := by
  obtain ⟨b, hb, hraw⟩ : ∃ b, arrivals.getLast? = some b ∧ b.packet.raw = a.packet.raw := by
    rw [hw.last, List.getLast?_map] at h
    exact Option.map_eq_some_iff.mp h.symm
  have hne : arrivals ≠ [] := by
    rintro rfl
    simp at hb
  obtain ⟨runs, first, rest, hruns, hjoined⟩ : ∃ runs first rest,
      arrivals.splitBy sameRaw = runs ++ [first :: rest] ∧
        (arrivals ++ [a]).splitBy sameRaw = runs ++ [first :: (rest ++ [a])] :=
    runs_concat_of hne (by simp [hb, sameRaw, hraw])
  have hrepeats : w.repeats = rest.length := by simp [hw.repeats, hruns, lastRepeats]
  have hprinted : w.printed = runs.flatMap (runTexts args) ++ first.texts args := by
    have haccount := hw.account
    rw [hruns, hrepeats, List.flatMap_append, List.flatMap_singleton, runTexts,
      ← List.append_assoc] at haccount
    exact List.append_cancel_right haccount
  have hknown : a.packet.raw ∈ w.captures := by
    rw [hw.captures, ← hraw]
    exact List.mem_map_of_mem (List.mem_of_getLast? hb)
  have hafter : w.onState args a =
      { w with captures := w.captures ++ [a.packet.raw], repeats := w.repeats + 1 } := by
    simp [onState, h]
  rw [hafter]
  constructor
  · simp [hw.captures]
  · simp [← h]
  · simp [hjoined, hprinted, hrepeats, runTexts]
  · simp [hjoined, hrepeats, lastRepeats]
  · rw [isEnough_concat_of_mem hknown]
    simpa [hne] using hw.done

/-- The packet is another than the last, or the first. -/
theorem Tells.onState_other (hw : w.Tells args arrivals) (h : some a.packet.raw ≠ w.last) :
    (w.onState args a).Tells args (arrivals ++ [a]) := by
  have hother : ∀ b ∈ arrivals.getLast?, sameRaw b a = false := by
    intro b hb
    rw [hw.last, List.getLast?_map, hb] at h
    simpa [sameRaw, eq_comm] using h
  have hruns := runs_concat_of_not hother
  have hafter : w.onState args a =
      { captures := w.captures ++ [a.packet.raw]
        last := some a.packet.raw
        repeats := 0
        done := w.done || isEnough args.packets (w.captures ++ [a.packet.raw])
        printed := w.printed ++ repeatTexts w.repeats ++ a.texts args } := by
    simp [onState, flushRepeats, h]
  rw [hafter]
  constructor
  · simp [hw.captures]
  · simp
  · simp [hw.account, hruns, runTexts]
  · simp [hruns, lastRepeats]
  · have hsince : w.done → isEnough args.packets (w.captures ++ [a.packet.raw]) :=
      fun hdone => isEnough_concat _ (hw.done.mp hdone).2
    simpa using hsince

theorem tells_watched (args : WatchArgs) (arrivals : List Arrival) :
    (watched args arrivals).Tells args arrivals := by
  induction arrivals using List.reverseRecOn with
  | nil => exact ⟨rfl, rfl, rfl, rfl, by simp [watched]⟩
  | append_singleton arrivals a ih =>
      have hfold : watched args (arrivals ++ [a]) = (watched args arrivals).onState args a := by
        simp [watched]
      rw [hfold]
      by_cases h : some a.packet.raw = (watched args arrivals).last
      · exact ih.onState_same h
      · exact ih.onState_other h

end Watching

/-- Whatever arrives, and in whatever order: every run of identical packets is printed
once, with the number of its repetitions, save that those of the last run are never
printed; every packet is captured; and `done` is set exactly when there are as many
distinct packets as `--packets` asks for, but `cmd_watch` does the same whatever number
that is. -/
theorem watch_tells_every_change (args : WatchArgs) (arrivals : List Arrival) :
    (watched args arrivals).printed = toldTexts args (arrivals.splitBy sameRaw) ∧
    (watched args arrivals).captures = arrivals.map (·.packet.raw) ∧
    ((watched args arrivals).done ↔ arrivals ≠ [] ∧ args.packets ≠ 0 ∧
      args.packets ≤ (arrivals.map (·.packet.raw)).dedup.length) ∧
    ∀ packets, cmdWatch { args with packets } = cmdWatch args := by
  have htells := Watching.tells_watched args arrivals
  refine ⟨?_, htells.captures, ?_, fun packets => rfl⟩
  · have haccount := htells.account
    rw [htells.repeats, ← toldTexts_append_lastRepeats] at haccount
    exact List.append_cancel_right haccount
  · simpa [Watching.isEnough, htells.captures] using htells.done

end Bedjet.Cli
