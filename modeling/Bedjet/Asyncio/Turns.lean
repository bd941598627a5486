import Bedjet.Asyncio.Lock
import Mathlib.Data.List.Nodup
import Mathlib.Logic.Function.Basic

/-!
Tasks that take turns at a fair lock. The tasks are numbered in the order in which
they come to the lock, and stand before it, in its queue or inside; whatever they
do, one at a time is inside, and they get in in the order in which they came.
-/

namespace Bedjet.Asyncio

/-- Where a task stands towards a lock. -/
inductive Stand | away | waiting | inside
  deriving DecidableEq

/-- The lock agrees with where the tasks stand. `entered` are those that got in,
the last one first, and those from `next` on have not come yet. -/
structure Turns (lock : Lock) (stand : ℕ → Stand) (entered : List ℕ) (next : ℕ) : Prop where
  holder_iff : ∀ t, lock.holder = some t ↔ stand t = .inside
  waiters_iff : ∀ t, t ∈ lock.waiters ↔ stand t = .waiting
  queued : lock.waiters.Pairwise (· < ·)
  inOrder : entered.Pairwise (· > ·)
  before : ∀ e ∈ entered, ∀ w ∈ lock.waiters, e < w
  came : ∀ t, t ∈ entered ∨ t ∈ lock.waiters → t < next

namespace Turns

variable {lock : Lock} {stand : ℕ → Stand} {entered : List ℕ} {next t t' : ℕ}

theorem initial (next : ℕ) : Turns {} (fun _ => .away) [] next where
  holder_iff t := by simp
  waiters_iff t := by simp
  queued := .nil
  inOrder := .nil
  before e he := by simp at he
  came t ht := by simp at ht

/-- One at a time. -/
theorem eq_of_inside (h : Turns lock stand entered next) (ht : stand t = .inside)
    (ht' : stand t' = .inside) : t = t' := by
  rw [← h.holder_iff] at ht ht'
  exact Option.some.inj (ht.symm.trans ht')

theorem not_inside (h : Turns lock stand entered next) (hnone : lock.holder = none) (t : ℕ) :
    stand t ≠ .inside := by
  intro ht
  rw [← h.holder_iff, hnone] at ht
  simp at ht

/-- While a task waits, the one inside or the head of the queue can go on. -/
theorem exists_next (h : Turns lock stand entered next) (ht : stand t = .waiting) :
    (∃ t', stand t' = .inside) ∨ ∃ t', stand t' = .waiting ∧ lock.grants t' := by
  cases hholder : lock.holder with
  | some t' => exact .inl ⟨t', (h.holder_iff t').mp hholder⟩
  | none =>
      have hmem := (h.waiters_iff t).mpr ht
      cases hwaiters : lock.waiters with
      | nil => simp [hwaiters] at hmem
      | cons w rest =>
          have hw : w ∈ lock.waiters := by simp [hwaiters]
          exact .inr ⟨w, (h.waiters_iff w).mp hw, by simp [Lock.grants, hholder, hwaiters]⟩

/-- A task comes that does not want the lock. -/
theorem later (h : Turns lock stand entered next) : Turns lock stand entered (next + 1) where
  holder_iff := h.holder_iff
  waiters_iff := h.waiters_iff
  queued := h.queued
  inOrder := h.inOrder
  before := h.before
  came t ht := Nat.lt_succ_of_lt (h.came t ht)

/-- To have got in need not be remembered. -/
theorem forget (h : Turns lock stand entered next) {entered' : List ℕ}
    (hsub : entered'.Sublist entered) : Turns lock stand entered' next where
  holder_iff := h.holder_iff
  waiters_iff := h.waiters_iff
  queued := h.queued
  inOrder := h.inOrder.sublist hsub
  before e he := h.before e (hsub.subset he)
  came t ht := h.came t (ht.imp_left fun he => hsub.subset he)

/-- A task that comes to a free lock gets in. -/
theorem take (h : Turns lock stand entered next) (hfree : lock.isFree) :
    Turns (lock.take next) (Function.update stand next .inside) (next :: entered) (next + 1) := by
  have hnone := Lock.holder_of_isFree hfree
  have hempty : lock.waiters = [] := by
    simp only [Lock.isFree, decide_eq_true_eq] at hfree
    exact hfree.2
  have hwaiters : (lock.take next).waiters = [] := hempty
  refine ⟨fun t => ?_, fun t => ?_, ?_, ?_, ?_, ?_⟩
  · by_cases ht : t = next
    · simp [ht]
    · have hout := h.not_inside hnone t
      simp [ht, hout, Ne.symm ht]
  · by_cases ht : t = next
    · simp [ht, hwaiters]
    · rw [Function.update_of_ne ht]
      exact h.waiters_iff t
  · simp [hwaiters]
  · exact List.pairwise_cons.mpr ⟨fun e he => h.came e (.inl he), h.inOrder⟩
  · intro e _ w hw
    simp [hwaiters] at hw
  · rintro t (ht | ht)
    · rcases List.mem_cons.mp ht with rfl | ht
      · omega
      · have hlt := h.came t (.inl ht)
        omega
    · simp [hwaiters] at ht

/-- A task that comes to a lock that is not free queues. -/
theorem enqueue (h : Turns lock stand entered next) (haway : stand next = .away) :
    Turns (lock.enqueue next) (Function.update stand next .waiting) entered (next + 1) := by
  have hmem (t : ℕ) : t ∈ (lock.enqueue next).waiters ↔ t ∈ lock.waiters ∨ t = next := by
    simp [Lock.enqueue]
  refine ⟨fun t => ?_, fun t => ?_, ?_, h.inOrder, ?_, ?_⟩
  · by_cases ht : t = next
    · have hout := h.holder_iff next
      rw [haway] at hout
      simpa [ht] using hout
    · rw [Function.update_of_ne ht]
      exact h.holder_iff t
  · by_cases ht : t = next
    · simp [ht, hmem]
    · rw [Function.update_of_ne ht, hmem, ← h.waiters_iff]
      simp [ht]
  · refine List.pairwise_append.mpr ⟨h.queued, List.pairwise_singleton _ _, ?_⟩
    intro w hw n hn
    obtain rfl := List.mem_singleton.mp hn
    exact h.came w (.inr hw)
  · intro e he w hw
    rcases (hmem w).mp hw with hw | rfl
    · exact h.before e he w hw
    · exact h.came e (.inl he)
  · rintro t (ht | ht)
    · exact Nat.lt_succ_of_lt (h.came t (.inl ht))
    · rcases (hmem t).mp ht with ht | rfl
      · exact Nat.lt_succ_of_lt (h.came t (.inr ht))
      · omega

/-- The head of the queue gets in. -/
theorem grant (h : Turns lock stand entered next) (hgrants : lock.grants t) :
    Turns (lock.grant t) (Function.update stand t .inside) (t :: entered) next := by
  have hnone := Lock.holder_of_grants hgrants
  obtain ⟨rest, hrest⟩ : ∃ rest, lock.waiters = t :: rest := by
    simp only [Lock.grants, decide_eq_true_eq] at hgrants
    exact List.head?_eq_some_iff.mp hgrants.2
  have hwaiters : (lock.grant t).waiters = rest := by simp [Lock.grant, hrest]
  have hqueued := h.queued
  rw [hrest, List.pairwise_cons] at hqueued
  have hsub (w : ℕ) (hw : w ∈ rest) : w ∈ lock.waiters := by simp [hrest, hw]
  have hhead : t ∈ lock.waiters := by simp [hrest]
  refine ⟨fun t' => ?_, fun t' => ?_, ?_, ?_, ?_, ?_⟩
  · by_cases ht : t' = t
    · simp [ht]
    · have hout := h.not_inside hnone t'
      simp [ht, hout, Ne.symm ht]
  · rw [hwaiters]
    by_cases ht : t' = t
    · have hout : t ∉ rest := fun hin => Nat.lt_irrefl t (hqueued.1 t hin)
      simp [ht, hout]
    · rw [Function.update_of_ne ht, ← h.waiters_iff, hrest]
      simp [ht]
  · rw [hwaiters]
    exact hqueued.2
  · exact List.pairwise_cons.mpr ⟨fun e he => h.before e he t hhead, h.inOrder⟩
  · intro e he w hw
    rw [hwaiters] at hw
    rcases List.mem_cons.mp he with rfl | he
    · exact hqueued.1 w hw
    · exact h.before e he w (hsub w hw)
  · rintro t' (ht | ht)
    · rcases List.mem_cons.mp ht with rfl | ht
      · exact h.came t' (.inr hhead)
      · exact h.came t' (.inl ht)
    · rw [hwaiters] at ht
      exact h.came t' (.inr (hsub t' ht))

/-- The task inside leaves. -/
theorem release (h : Turns lock stand entered next) (ht : stand t = .inside) :
    Turns lock.release (Function.update stand t .away) entered next := by
  refine ⟨fun t' => ?_, fun t' => ?_, h.queued, h.inOrder, h.before, h.came⟩
  · by_cases ht' : t' = t
    · simp [ht']
    · have hout : stand t' ≠ .inside := fun hin => ht' (h.eq_of_inside hin ht)
      simp [ht', hout]
  · by_cases ht' : t' = t
    · have hout := h.waiters_iff t
      rw [ht] at hout
      simpa [ht', Lock.release] using hout
    · rw [Function.update_of_ne ht']
      exact h.waiters_iff t'

/-- A task in the queue gives up. -/
theorem leave (h : Turns lock stand entered next) (ht : stand t = .waiting) :
    Turns (lock.leave t) (Function.update stand t .away) entered next := by
  have hnodup : lock.waiters.Nodup := h.queued.imp fun hlt => Nat.ne_of_lt hlt
  have hmem (t' : ℕ) : t' ∈ (lock.leave t).waiters ↔ t' ≠ t ∧ t' ∈ lock.waiters :=
    hnodup.mem_erase_iff
  refine ⟨fun t' => ?_, fun t' => ?_, ?_, h.inOrder, ?_, ?_⟩
  · by_cases ht' : t' = t
    · have hout := h.holder_iff t
      rw [ht] at hout
      simpa [ht'] using hout
    · rw [Function.update_of_ne ht']
      exact h.holder_iff t'
  · by_cases ht' : t' = t
    · simp [ht', hmem]
    · rw [Function.update_of_ne ht', hmem, ← h.waiters_iff]
      simp [ht']
  · exact h.queued.sublist (List.erase_sublist)
  · exact fun e he w hw => h.before e he w ((hmem w).mp hw).2
  · exact fun t' ht' => h.came t' (ht'.imp_right fun hw => ((hmem t').mp hw).2)

end Turns

end Bedjet.Asyncio
