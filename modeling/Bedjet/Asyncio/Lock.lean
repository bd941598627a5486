import Mathlib.Data.List.Basic

/-!
`asyncio.Lock` over tasks named by numbers. The lock is fair: a task that finds
it taken, or finds others waiting, joins the end of the queue, and a released
lock goes to the head of the queue when that task runs.
-/

namespace Bedjet.Asyncio

structure Lock where
  holder : Option ℕ := none
  waiters : List ℕ := []
  deriving DecidableEq

namespace Lock

/-- Whether `acquire` takes the lock without suspending. -/
def isFree (l : Lock) : Bool :=
  l.holder = none ∧ l.waiters = []

def take (l : Lock) (t : ℕ) : Lock :=
  { l with holder := some t }

def enqueue (l : Lock) (t : ℕ) : Lock :=
  { l with waiters := l.waiters ++ [t] }

/-- Whether a queued task can take the lock when it runs. -/
def grants (l : Lock) (t : ℕ) : Bool :=
  l.holder = none ∧ l.waiters.head? = some t

def grant (l : Lock) (t : ℕ) : Lock where
  holder := some t
  waiters := l.waiters.tail

def release (l : Lock) : Lock :=
  { l with holder := none }

/-- A queued task gives up. -/
def leave (l : Lock) (t : ℕ) : Lock :=
  { l with waiters := l.waiters.erase t }

/-- How many turns a task is from the lock; none if it is not in the queue. -/
def place (l : Lock) (t : ℕ) : ℕ :=
  if t ∈ l.waiters then l.waiters.idxOf t + 1 else 0

@[simp] theorem holder_take (l : Lock) (t : ℕ) : (l.take t).holder = some t := rfl

@[simp] theorem holder_enqueue (l : Lock) (t : ℕ) : (l.enqueue t).holder = l.holder := rfl

@[simp] theorem holder_grant (l : Lock) (t : ℕ) : (l.grant t).holder = some t := rfl

@[simp] theorem holder_release (l : Lock) : l.release.holder = none := rfl

@[simp] theorem holder_leave (l : Lock) (t : ℕ) : (l.leave t).holder = l.holder := rfl

theorem holder_of_isFree {l : Lock} (h : l.isFree) : l.holder = none := by
  simp only [isFree, decide_eq_true_eq] at h
  exact h.1

theorem holder_of_grants {l : Lock} {t : ℕ} (h : l.grants t) : l.holder = none := by
  simp only [grants, decide_eq_true_eq] at h
  exact h.1

/-- Those that join the queue join it behind. -/
theorem place_of_append {l l' : Lock} {t : ℕ} {rest : List ℕ}
    (h : l'.waiters = l.waiters ++ rest) (ht : t ∉ rest) : l'.place t = l.place t := by
  by_cases hmem : t ∈ l.waiters
  · have hidx : (l.waiters ++ rest).idxOf t = l.waiters.idxOf t := List.idxOf_append_of_mem hmem
    simp [place, h, hmem, hidx]
  · simp [place, h, hmem, ht]

/-- When the head of the queue is gone, whoever is in the queue is nearer. -/
theorem place_of_tail {l l' : Lock} {t : ℕ} (h : l'.waiters = l.waiters.tail)
    (hnodup : l.waiters.Nodup) (ht : t ∈ l.waiters) : l'.place t < l.place t := by
  cases hwaiters : l.waiters with
  | nil => simp [hwaiters] at ht
  | cons w rest =>
      rw [hwaiters] at h hnodup ht
      have hplace : l.place t = (w :: rest).idxOf t + 1 := by simp only [place, hwaiters, if_pos ht]
      rw [hplace]
      rcases List.mem_cons.mp ht with rfl | hrest
      · have hgone : l'.place t = 0 := by
          rw [place, h]
          exact if_neg (List.nodup_cons.mp hnodup).1
        omega
      · have hne : w ≠ t := by
          rintro rfl
          exact (List.nodup_cons.mp hnodup).1 hrest
        have hplace' : l'.place t = rest.idxOf t + 1 := by
          rw [place, h]
          exact if_pos hrest
        rw [hplace', List.idxOf_cons_ne rest hne]
        omega

end Lock

end Bedjet.Asyncio
