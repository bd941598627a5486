import Bedjet.Asyncio.History
import Mathlib.Algebra.Order.Ring.Basic
import Mathlib.Tactic.Linarith
import Mathlib.Tactic.Ring

/-!
Loops that retry. Before each attempt the loop clears a signal; after one that
failed it waits, until its interval has elapsed or the signal is set. The
interval doubles with every failure in a row, up to a bound.

The signal is sticky and may be set at any time: between two attempts, during
one, or during a wait. The record of a loop, the newest first, says how often an
attempt came early and what allowed it to.
-/

namespace Bedjet.Asyncio.Backoff

open History

variable {τ : Type*}

/-- Where a loop is. -/
inductive Phase (τ : Type*)
  /-- it makes no attempt and waits for none: before the first, or between two -/
  | resting
  | attempting
  /-- an attempt failed -/
  | waiting (due : τ) (woken : Bool)
  | ended

/-- Setting the signal wakes a loop that waits. -/
def Phase.wake : Phase τ → Phase τ
  | .waiting due _ => .waiting due true
  | phase => phase

structure Loop (τ : Type*) where
  now : τ
  signal : Bool
  phase : Phase τ
  /-- how long it waits if the next attempt fails -/
  interval : τ

/-- What happens to a loop. -/
inductive Deed (τ : Type*)
  /-- the signal is set -/
  | signalled
  /-- the loop clears the signal and begins an attempt -/
  | armed (time : τ)
  /-- the attempt failed; from then on the interval counts -/
  | failed (time interval : τ)
  | succeeded
  /-- the loop finds that there is nothing to attempt -/
  | idle
  /-- the wait after a failure is over -/
  | resumed (time : τ)
  deriving DecidableEq

section

variable [Add τ]

/-- When the interval of the last attempt has elapsed, if that failed. -/
def pendingDue : List (Deed τ) → Option τ
  | [] | .armed _ :: _ | .succeeded :: _ => none
  | .failed time interval :: _ => some (time + interval)
  | _ :: earlier => pendingDue earlier

/-- Whether the signal was set since the last attempt was armed. -/
def fresh : List (Deed τ) → Bool
  | [] | .armed _ :: _ => false
  | .signalled :: _ => true
  | _ :: earlier => fresh earlier

/-- The failures since an attempt succeeded or there was nothing to attempt. -/
def failures : List (Deed τ) → ℕ
  | [] | .succeeded :: _ | .idle :: _ => 0
  | .failed _ _ :: earlier => failures earlier + 1
  | _ :: earlier => failures earlier

/-- How often the signal was set. -/
def signalCount : List (Deed τ) → ℕ
  | [] => 0
  | .signalled :: earlier => signalCount earlier + 1
  | _ :: earlier => signalCount earlier

variable [LT τ] [DecidableLT τ]

/-- The attempts that began before the interval of the one before, which had
failed, had elapsed. -/
def earlyAttempts : List (Deed τ) → ℕ
  | [] => 0
  | .armed time :: earlier =>
      earlyAttempts earlier + ((pendingDue earlier).any (time < ·)).toNat
  | _ :: earlier => earlyAttempts earlier

end

section

variable [CommRing τ] [LinearOrder τ]

/-- The interval after that many failures in a row and one more. -/
def intervalAfter (initial bound : τ) (n : ℕ) : τ :=
  min (initial * 2 ^ n) bound

/-- What a loop can do, and what is done to it. -/
inductive Moves (initial bound : τ) (l : Loop τ) : List (Deed τ) → Loop τ → Prop
  | passes (dt : τ) (hdt : 0 ≤ dt) : Moves initial bound l [] { l with now := l.now + dt }
  | signals :
      Moves initial bound l [.signalled] { l with signal := true, phase := l.phase.wake }
  /-- another loop clears the signal -/
  | clears : Moves initial bound l [] { l with signal := false }
  | arms (hphase : l.phase = .resting) :
      Moves initial bound l [.armed l.now] { l with signal := false, phase := .attempting }
  | succeeds (hphase : l.phase = .attempting) :
      Moves initial bound l [.succeeded] { l with phase := .resting, interval := initial }
  | fails (hphase : l.phase = .attempting) :
      Moves initial bound l [.failed l.now l.interval]
        { l with phase := .waiting (l.now + l.interval) l.signal }
  | resumes {due : τ} {woken : Bool} (hphase : l.phase = .waiting due woken)
      (hwhy : due ≤ l.now ∨ woken) :
      Moves initial bound l [.resumed l.now]
        { l with phase := .resting, interval := min (l.interval * 2) bound }
  | idles (hphase : l.phase = .resting) :
      Moves initial bound l [.idle] { l with interval := initial }
  | ends : Moves initial bound l [] { l with phase := .ended }

/-- Some moves, and what they leave on the record. -/
inductive Runs (initial bound : τ) (l : Loop τ) : List (Deed τ) → Loop τ → Prop
  | refl : Runs initial bound l [] l
  | tail {deeds deeds' : List (Deed τ)} {l' l'' : Loop τ} (h : Runs initial bound l deeds l')
      (hmove : Moves initial bound l' deeds' l'') : Runs initial bound l (deeds' ++ deeds) l''

theorem Moves.runs {initial bound : τ} {l l' : Loop τ} {deeds : List (Deed τ)}
    (h : Moves initial bound l deeds l') : Runs initial bound l deeds l' := by
  have htail := Runs.refl.tail h
  rwa [List.append_nil] at htail

theorem Runs.trans {initial bound : τ} {l l' l'' : Loop τ} {deeds deeds' : List (Deed τ)}
    (h : Runs initial bound l deeds l') (h' : Runs initial bound l' deeds' l'') :
    Runs initial bound l (deeds' ++ deeds) l'' := by
  induction h' with
  | refl => exact h
  | tail _ hmove ih =>
      rw [List.append_assoc]
      exact ih.tail hmove

/-- A record on which early attempts are paid for. -/
structure Kept (initial bound : τ) (history : List (Deed τ)) : Prop where
  /-- each setting of the signal buys one early attempt at most -/
  paid : earlyAttempts history ≤ signalCount history
  /-- a wait is cut short only if the signal was set since the attempt was armed -/
  waits : Each (fun d earlier => ∀ time, d = .resumed time →
    ∃ due, pendingDue earlier = some due ∧ (due ≤ time ∨ fresh earlier)) history
  /-- the interval doubles from failure to failure -/
  intervals : Each (fun d earlier => ∀ time interval, d = .failed time interval →
    interval = intervalAfter initial bound (failures earlier)) history

/-- What a loop and its record are to each other. -/
def Standing (initial bound : τ) (l : Loop τ) (history : List (Deed τ)) : Prop :=
  match l.phase with
  | .resting =>
      (∀ due, pendingDue history = some due → due ≤ l.now ∨ fresh history) ∧
        l.interval = intervalAfter initial bound (failures history)
  | .attempting =>
      (l.signal → fresh history) ∧ l.interval = intervalAfter initial bound (failures history)
  | .waiting due woken =>
      pendingDue history = some due ∧ (woken → fresh history) ∧
        ∃ n, failures history = n + 1 ∧ l.interval = intervalAfter initial bound n
  | .ended => True

/-- The invariant of a loop: a signal that was set since the last attempt was
armed has not been spent. -/
structure Paying (initial bound : τ) (l : Loop τ) (history : List (Deed τ)) : Prop where
  paid : earlyAttempts history + (fresh history).toNat ≤ signalCount history
  waits : Each (fun d earlier => ∀ time, d = .resumed time →
    ∃ due, pendingDue earlier = some due ∧ (due ≤ time ∨ fresh earlier)) history
  intervals : Each (fun d earlier => ∀ time interval, d = .failed time interval →
    interval = intervalAfter initial bound (failures earlier)) history
  standing : Standing initial bound l history

theorem Paying.kept {initial bound : τ} {l : Loop τ} {history : List (Deed τ)}
    (h : Paying initial bound l history) : Kept initial bound history :=
  ⟨le_of_add_le_left h.paid, h.waits, h.intervals⟩

theorem intervalAfter_zero {initial bound : τ} (h : initial ≤ bound) :
    intervalAfter initial bound 0 = initial := by
  rw [intervalAfter, pow_zero, mul_one, min_eq_left h]

theorem paying_init {initial bound : τ} (h : initial ≤ bound) {l : Loop τ}
    (hphase : l.phase = .resting) (hinterval : l.interval = initial) :
    Paying initial bound l [] := by
  refine ⟨le_rfl, each_nil _, each_nil _, ?_⟩
  rw [Standing, hphase]
  refine ⟨by simp [pendingDue], ?_⟩
  rw [hinterval, failures, intervalAfter_zero h]

/-- A signal is fresh, wherever the loop is. -/
theorem Standing.signal {initial bound : τ} {l : Loop τ} {history : List (Deed τ)}
    (h : Standing initial bound l history) :
    Standing initial bound { l with signal := true, phase := l.phase.wake }
      (.signalled :: history) := by
  cases hphase : l.phase with
  | resting =>
      simp only [Standing, hphase] at h
      exact ⟨fun _ _ => .inr rfl, h.2⟩
  | attempting =>
      simp only [Standing, hphase] at h
      exact ⟨fun _ => rfl, h.2⟩
  | waiting due woken =>
      simp only [Standing, hphase] at h
      exact ⟨h.1, fun _ => rfl, h.2.2⟩
  | ended => trivial

/-- Nothing is owed for a signal that is taken back. -/
theorem Standing.clear {initial bound : τ} {l : Loop τ} {history : List (Deed τ)}
    (h : Standing initial bound l history) :
    Standing initial bound { l with signal := false } history := by
  cases hphase : l.phase with
  | attempting =>
      simp only [Standing, hphase] at h ⊢
      exact ⟨by simp, h.2⟩
  | resting | waiting =>
      simp only [Standing, hphase] at h ⊢
      exact h
  | ended => trivial

end

section

variable [CommRing τ] [LinearOrder τ] [IsStrictOrderedRing τ] {initial bound : τ}

/-- Doubling the bounded interval is bounding the doubled one. -/
theorem min_intervalAfter (h : initial ≤ bound) (n : ℕ) :
    min (intervalAfter initial bound n * 2) bound = intervalAfter initial bound (n + 1) := by
  have hdouble : initial * 2 ^ (n + 1) = initial * 2 ^ n * 2 := by ring
  rw [intervalAfter, intervalAfter, hdouble]
  rcases le_total (initial * 2 ^ n) bound with hle | hge
  · rw [min_eq_left hle]
  · rw [min_eq_right hge]
    have hpow : (1 : τ) ≤ 2 ^ n := one_le_pow₀ one_le_two
    by_cases hbound : 0 ≤ bound
    · rw [min_eq_right (by linarith), min_eq_right (by linarith)]
    · -- a bound below zero is met at once
      have hinitial : initial * 2 ^ n ≤ initial := by nlinarith
      have heq : initial * 2 ^ n = bound := by linarith
      rw [heq]

/-- Time only brings the end of a wait nearer. -/
theorem Standing.pass {l : Loop τ} {history : List (Deed τ)} {dt : τ}
    (h : Standing initial bound l history) (hdt : 0 ≤ dt) :
    Standing initial bound { l with now := l.now + dt } history := by
  cases hphase : l.phase with
  | resting =>
      simp only [Standing, hphase] at h ⊢
      refine ⟨fun due hdue => ?_, h.2⟩
      rcases h.1 due hdue with hpast | hfresh
      · exact .inl (by linarith)
      · exact .inr hfresh
  | attempting | waiting =>
      simp only [Standing, hphase] at h ⊢
      exact h
  | ended => trivial

/-- Every move keeps the record paid for. -/
theorem Moves.paying {l l' : Loop τ} {history deeds : List (Deed τ)} (hle : initial ≤ bound)
    (hmove : Moves initial bound l deeds l') (h : Paying initial bound l history) :
    Paying initial bound l' (deeds ++ history) := by
  obtain ⟨hpaid, hwaits, hintervals, hstanding⟩ := h
  cases hmove with
  | passes dt hdt => exact ⟨hpaid, hwaits, hintervals, hstanding.pass hdt⟩
  | signals =>
      refine ⟨?_, hwaits.cons (by simp), hintervals.cons (by simp), hstanding.signal⟩
      show earlyAttempts history + 1 ≤ signalCount history + 1
      omega
  | clears => exact ⟨hpaid, hwaits, hintervals, hstanding.clear⟩
  | arms hphase =>
      simp only [Standing, hphase] at hstanding
      obtain ⟨hdue, hinterval⟩ := hstanding
      refine ⟨?_, hwaits.cons (by simp), hintervals.cons (by simp), ⟨by simp, hinterval⟩⟩
      show earlyAttempts history + ((pendingDue history).any (l.now < ·)).toNat + 0 ≤
        signalCount history
      -- an attempt that comes early spends the signal that cut the wait short
      have hspent : ((pendingDue history).any (l.now < ·)).toNat ≤ (fresh history).toNat := by
        cases hpending : pendingDue history with
        | none => simp
        | some due =>
            rcases hdue due hpending with hpast | hfresh
            · simp [not_lt.mpr hpast]
            · rw [hfresh]
              exact Bool.toNat_le _
      omega
  | succeeds hphase =>
      refine ⟨hpaid, hwaits.cons (by simp), hintervals.cons (by simp), ?_⟩
      exact ⟨by simp [pendingDue], (intervalAfter_zero hle).symm⟩
  | fails hphase =>
      simp only [Standing, hphase] at hstanding
      obtain ⟨hsignal, hinterval⟩ := hstanding
      refine ⟨hpaid, hwaits.cons (by simp), hintervals.cons ?_, ?_⟩
      · rintro time interval heq
        obtain ⟨-, rfl⟩ := Deed.failed.inj heq
        exact hinterval
      · exact ⟨rfl, hsignal, failures history, rfl, hinterval⟩
  | resumes hphase hwhy =>
      simp only [Standing, hphase] at hstanding
      obtain ⟨hdue, hwoken, n, hfailures, hinterval⟩ := hstanding
      have hdue' : _ ≤ l.now ∨ fresh history := hwhy.imp id hwoken
      refine ⟨hpaid, hwaits.cons ?_, hintervals.cons (by simp), ?_⟩
      · rintro time heq
        obtain rfl := Deed.resumed.inj heq
        exact ⟨_, hdue, hdue'⟩
      · refine ⟨?_, ?_⟩
        · rintro due' hpending
          obtain rfl : _ = due' := Option.some.inj (hdue.symm.trans hpending)
          exact hdue'
        · show min (l.interval * 2) bound = intervalAfter initial bound (failures history)
          rw [hfailures, hinterval, min_intervalAfter hle]
  | idles hphase =>
      simp only [Standing, hphase] at hstanding
      refine ⟨hpaid, hwaits.cons (by simp), hintervals.cons (by simp), ?_⟩
      show Standing initial bound { l with interval := initial } (.idle :: history)
      simp only [Standing, hphase]
      exact ⟨hstanding.1, (intervalAfter_zero hle).symm⟩
  | ends => exact ⟨hpaid, hwaits, hintervals, trivial⟩

theorem Runs.paying {l l' : Loop τ} {history deeds : List (Deed τ)} (hle : initial ≤ bound)
    (hruns : Runs initial bound l deeds l') (h : Paying initial bound l history) :
    Paying initial bound l' (deeds ++ history) := by
  induction hruns with
  | refl => exact h
  | tail _ hmove ih =>
      rw [List.append_assoc]
      exact hmove.paying hle ih

end

end Bedjet.Asyncio.Backoff
