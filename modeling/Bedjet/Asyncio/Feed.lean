import Bedjet.Asyncio.Queue
import Bedjet.Asyncio.Recording

/-!
A bounded queue between a producer that never waits and a consumer. The producer
tries to put its entry, and as long as the queue is full drops the oldest one and
tries again. Every entry that was produced has a fate, in the order they came:
those consumed or dropped are gone, and the others are queued.
-/

namespace Bedjet.Asyncio

namespace Queue

variable {α : Type*} {capacity : ℕ}

/-! ### The loop of the producer -/

/-- `put_nowait`, or none where it raises `QueueFull` -/
def put? (q : Queue α capacity) (x : α) : Option (Queue α capacity) :=
  if h : q.entries.length < capacity then
    some { entries := q.entries ++ [x], bounded := by simpa using Nat.succ_le_of_lt h }
  else none

/-- The loop, for so many rounds at most: what it drops, the oldest first, and
the queue that it leaves. -/
def offer (x : α) : ℕ → Queue α capacity → Option (List α × Queue α capacity)
  | 0, _ => none
  | rounds + 1, q =>
      match q.put? x with
      | some q' => some ([], q')
      | none =>
          match q.get? with
          | some (oldest, q') =>
              (offer x rounds q').map fun (dropped, q'') => (oldest :: dropped, q'')
          -- `QueueEmpty` is suppressed
          | none => offer x rounds q

/-- What has to go before the next entry is put. -/
def overflow (q : Queue α capacity) : List α :=
  if q.entries.length < capacity then [] else q.entries.take 1

theorem putLoop_of_lt {xs : List α} (h : xs.length < capacity) (x : α) :
    putLoop capacity x xs = xs ++ [x] := by
  cases xs with
  | nil => rfl
  | cons y ys => rw [putLoop, if_pos h]

/-- The oldest entries go, and the new one is put behind the others. -/
theorem entries_putNewest (hpositive : 0 < capacity) (q : Queue α capacity) (x : α) :
    ∃ kept, q.entries = q.overflow ++ kept ∧
      (q.putNewest hpositive x).entries = kept ++ [x] := by
  show ∃ kept, _ ∧ putLoop capacity x q.entries = kept ++ [x]
  by_cases hroom : q.entries.length < capacity
  · exact ⟨q.entries, by simp [overflow, hroom], putLoop_of_lt hroom x⟩
  · cases hentries : q.entries with
    | nil => simp [hentries, hpositive] at hroom
    | cons oldest rest =>
        have hbounded := q.bounded
        simp only [hentries, List.length_cons] at hroom hbounded
        refine ⟨rest, ?_, ?_⟩
        · simp [overflow, hentries, hroom]
        · rw [putLoop, if_neg (by simpa using hroom)]
          exact putLoop_of_lt (by omega) x

theorem put?_of_lt {q : Queue α capacity} (h : q.entries.length < capacity)
    (hpositive : 0 < capacity) (x : α) : q.put? x = some (q.putNewest hpositive x) := by
  rw [put?, dif_pos h]
  congr 1
  ext1
  exact (putLoop_of_lt h x).symm

/-- Two rounds are enough: the loop ends, having dropped what had to go. -/
theorem offer_eq (hpositive : 0 < capacity) (q : Queue α capacity) (x : α) (rounds : ℕ) :
    q.offer x (rounds + 2) = some (q.overflow, q.putNewest hpositive x) := by
  rw [offer]
  by_cases hroom : q.entries.length < capacity
  · rw [put?_of_lt hroom hpositive]
    simp [overflow, hroom]
  · rw [put?, dif_neg hroom]
    cases hentries : q.entries with
    | nil => simp [hentries, hpositive] at hroom
    | cons oldest rest =>
        have hbounded := q.bounded
        simp only [hentries, List.length_cons] at hroom hbounded
        have hget : q.get? = some (oldest, q.rest) := by simp [get?, hentries]
        have hrest : q.rest.entries = rest := by simp [Queue.rest, hentries]
        have hlt : q.rest.entries.length < capacity := by
          rw [hrest]
          omega
        have hsame : q.rest.putNewest hpositive x = q.putNewest hpositive x := by
          ext1
          show putLoop capacity x q.rest.entries = putLoop capacity x q.entries
          rw [hrest, hentries, putLoop, if_neg (by simpa using hroom)]
        simp only [hget]
        rw [offer, put?_of_lt hlt hpositive, hsame]
        simp [overflow, hentries, hroom]

end Queue

/-! ### What becomes of the entries -/

/-- What happens to one entry. -/
inductive Dealing (α : Type*)
  | produced (entry : α)
  | discarded (entry : α)
  | consumed (entry : α)

namespace Dealing

def produced? {α : Type*} : Dealing α → Option α
  | .produced x => some x
  | .discarded _ | .consumed _ => none

def consumed? {α : Type*} : Dealing α → Option α
  | .consumed x => some x
  | .produced _ | .discarded _ => none

/-- The entry that has left the queue. -/
def gone? {α : Type*} : Dealing α → Option α
  | .discarded x | .consumed x => some x
  | .produced _ => none

end Dealing

section

variable {α : Type*} {capacity : ℕ}

/-- The entries that were produced, the first one first; a history has its newest
dealing first. -/
def production (history : List (Dealing α)) : List α :=
  (history.filterMap Dealing.produced?).reverse

def consumption (history : List (Dealing α)) : List α :=
  (history.filterMap Dealing.consumed?).reverse

/-- The entries that have left the queue, in that order. -/
def departures (history : List (Dealing α)) : List α :=
  (history.filterMap Dealing.gone?).reverse

/-- The dealings of a put. -/
def Queue.putting (q : Queue α capacity) (x : α) : List (Dealing α) :=
  .produced x :: q.overflow.reverse.map .discarded

/-- The dealings of a get, where there is an entry. -/
def Queue.taking (q : Queue α capacity) : List (Dealing α) :=
  (q.entries.head?.map .consumed).toList

theorem Queue.taking_eq_nil {q : Queue α capacity} (h : q.get? = none) : q.taking = [] := by
  simp [taking, get?_eq_none h]

/-- What a step may do to the queue. -/
inductive Deals (hpositive : 0 < capacity) :
    Queue α capacity → List (Dealing α) → Queue α capacity → Prop
  | rests (q : Queue α capacity) : Deals hpositive q [] q
  | puts (q : Queue α capacity) (x : α) :
      Deals hpositive q (q.putting x) (q.putNewest hpositive x)
  | takes {q q' : Queue α capacity} {x : α} (hget : q.get? = some (x, q')) :
      Deals hpositive q q.taking q'

/-- What the queue holds is what was produced last, in that order; what was
consumed is in the order in which it was produced, every entry at most once; and
the entry produced last was consumed or is still there, behind all others. -/
structure Feeds (history : List (Dealing α)) (q : Queue α capacity) : Prop where
  bounded : q.entries.length ≤ capacity
  order : production history = departures history ++ q.entries
  subsequence : (consumption history).Sublist (production history)
  newest : ∀ x, (production history).getLast? = some x →
    q.entries.getLast? = some x ∨ q.entries = [] ∧ (consumption history).getLast? = some x

theorem consumption_sublist (history : List (Dealing α)) :
    (consumption history).Sublist (departures history) := by
  rw [consumption, departures, List.reverse_sublist]
  induction history with
  | nil => exact List.Sublist.refl _
  | cons dealing history ih =>
      cases dealing with
      | produced x => exact ih
      | discarded x => exact ih.cons x
      | consumed x => exact ih.cons_cons x

/-- The invariant of the queue and its history. -/
structure Fed (history : List (Dealing α)) (q : Queue α capacity) : Prop where
  order : production history = departures history ++ q.entries
  /-- a queue runs empty only by being consumed from -/
  drained : q.entries = [] → (departures history).getLast? = (consumption history).getLast?

theorem Fed.feeds {history : List (Dealing α)} {q : Queue α capacity} (h : Fed history q) :
    Feeds history q where
  bounded := q.bounded
  order := h.order
  subsequence := by
    rw [h.order]
    exact (consumption_sublist history).trans (List.sublist_append_left _ _)
  newest x hx := by
    rw [h.order] at hx
    cases hentries : q.entries with
    | nil =>
        rw [hentries, List.append_nil, h.drained hentries] at hx
        exact .inr ⟨rfl, hx⟩
    | cons y ys =>
        rw [hentries, List.getLast?_append_of_ne_nil _ (by simp)] at hx
        exact .inl hx

theorem Fed.deals {hpositive : 0 < capacity} {history dealings : List (Dealing α)}
    {q q' : Queue α capacity} (h : Fed history q) (hdeals : Deals hpositive q dealings q') :
    Fed (dealings ++ history) q' := by
  cases hdeals with
  | rests => exact h
  | puts x =>
      obtain ⟨kept, hq, hq'⟩ := q.entries_putNewest hpositive x
      have hproduced : production (q.putting x ++ history) = production history ++ [x] := by
        simp [production, Queue.putting, Dealing.produced?, List.filterMap_map, Function.comp_def]
      have hgone : departures (q.putting x ++ history) = departures history ++ q.overflow := by
        simp [departures, Queue.putting, Dealing.gone?, List.filterMap_cons, List.filterMap_map,
          Function.comp_def]
      constructor
      · rw [hproduced, hgone, h.order, hq', hq]
        simp
      · simp [hq']
  | @takes _ x hget =>
      have hentries := Queue.get?_eq_some hget
      have htaking : q.taking = [.consumed x] := by simp [Queue.taking, hentries]
      rw [htaking]
      constructor
      · show production history = (x :: history.filterMap Dealing.gone?).reverse ++ q'.entries
        rw [h.order, hentries, List.reverse_cons]
        simp [departures]
      · intro _
        show (x :: history.filterMap Dealing.gone?).reverse.getLast? =
          (x :: history.filterMap Dealing.consumed?).reverse.getLast?
        simp

/-- A machine each of whose steps puts or takes at most one entry feeds whoever
takes. -/
theorem feeds_of_recording {σ δ : Type*} {M : Machine σ δ} {note : σ → δ → σ → List (Dealing α)}
    (hpositive : 0 < capacity) (queue : σ → Queue α capacity)
    (hdeals : ∀ s a s', M.step s a = some s' →
      Deals hpositive (queue s) (note s a s') (queue s'))
    {s s' : σ} {history : List (Dealing α)} {actions : List δ} (hempty : (queue s).entries = [])
    (hrun : (M.recording note).run (s, []) actions = some (s', history)) :
    Feeds history (queue s') := by
  have hfed : Fed history (queue s') := by
    refine Machine.recording_invariant (I := fun s history => Fed history (queue s))
      (fun s a s' history h _ hstep => h.deals (hdeals s a s' hstep)) ?_ Machine.meets_true hrun
    exact ⟨by simp [production, departures, hempty], fun _ => rfl⟩
  exact hfed.feeds

end

end Bedjet.Asyncio
