import Mathlib.Data.Nat.Notation
import Mathlib.Logic.Function.Basic

/-!
Parties at work on something they share. A move of the pool is a move of one
party, a party that comes, or something that happens to what is shared; what is
to hold of every party is shown of the one that moved, of the one that came, and
of the bystanders.
-/

namespace Bedjet.Asyncio

/-- What is shared, and the parties by their numbers. -/
@[ext] structure Pool (σ π : Type*) where
  core : σ
  parties : ℕ → Option π

namespace Pool

variable {σ π : Type*} {a b : Pool σ π} {t t' : ℕ} {c : σ} {p q : π}

/-- The party with the number `t` is now `p`, and what is shared is now `c`. -/
def put (a : Pool σ π) (t : ℕ) (c : σ) (p : π) : Pool σ π where
  core := c
  parties := Function.update a.parties t (some p)

def modify (a : Pool σ π) (t : ℕ) (f : π → π) : Pool σ π :=
  { a with parties := Function.update a.parties t ((a.parties t).map f) }

@[simp] theorem core_put : (a.put t c p).core = c := rfl

theorem parties_put (a : Pool σ π) (t t' : ℕ) (c : σ) (p : π) :
    (a.put t c p).parties t' = if t' = t then some p else a.parties t' :=
  Function.update_apply _ _ _ _

@[simp] theorem parties_put_self : (a.put t c p).parties t = some p :=
  Function.update_self _ _ _

theorem parties_put_of_ne (h : t' ≠ t) : (a.put t c p).parties t' = a.parties t' :=
  Function.update_of_ne h _ _

theorem parties_put_eq_some :
    (a.put t c p).parties t' = some q ↔ t' = t ∧ p = q ∨ t' ≠ t ∧ a.parties t' = some q := by
  by_cases h : t' = t
  · subst h
    simp
  · simp [parties_put_of_ne h, h]

theorem isSome_put (h : (a.parties t').isSome) : ((a.put t c p).parties t').isSome := by
  by_cases hne : t' = t
  · rw [hne, parties_put_self]
    rfl
  · rwa [parties_put_of_ne hne]

@[simp] theorem core_modify (f : π → π) : (a.modify t f).core = a.core := rfl

theorem parties_modify (a : Pool σ π) (t t' : ℕ) (f : π → π) :
    (a.modify t f).parties t' = if t' = t then (a.parties t).map f else a.parties t' :=
  Function.update_apply _ _ _ _

@[simp] theorem parties_modify_self (f : π → π) :
    (a.modify t f).parties t = (a.parties t).map f :=
  Function.update_self _ _ _

theorem parties_modify_eq_none {f : π → π} :
    (a.modify t f).parties t' = none ↔ a.parties t' = none := by
  by_cases h : t' = t <;> simp [parties_modify, h]

/-- To put a party where it was is to change it. -/
theorem put_eq_modify (hp : a.parties t = some p) (c : σ) (f : π → π) :
    a.put t c (f p) = { a with core := c }.modify t f := by
  apply Pool.ext
  · rfl
  · rw [put, modify, hp]
    rfl

theorem modify_modify (a : Pool σ π) (t : ℕ) (f g : π → π) :
    (a.modify t f).modify t g = a.modify t (g ∘ f) := by
  apply Pool.ext
  · rfl
  · rw [modify, parties_modify_self, Option.map_map, modify, modify, Function.update_idem]

theorem modify_self {f : π → π} (hp : a.parties t = some p) (hf : f p = p) : a.modify t f = a := by
  apply Pool.ext
  · rfl
  · rw [modify, hp, Option.map_some, hf, ← hp]
    exact Function.update_eq_self t a.parties

theorem modify_put {f : π → π} (hne : t' ≠ t) (c : σ) (p : π) :
    (a.put t c p).modify t' f = ({ a with core := c }.modify t' f).put t c p := by
  apply Pool.ext
  · rfl
  · rw [modify, parties_put_of_ne hne]
    exact (Function.update_comm hne _ _ _).symm

theorem modify_id (a : Pool σ π) (t : ℕ) : a.modify t id = a := by
  apply Pool.ext
  · rfl
  · rw [modify, Option.map_id, id]
    exact Function.update_eq_self t a.parties

/-- What can happen in a pool: to what is shared, by a party, and by one that
comes. -/
structure Behaviour (σ π : Type*) where
  outside : σ → σ → Prop
  /-- `does a t p c q`: in `a`, the party `t`, which is `p`, makes itself `q` and
  what is shared `c` -/
  does : Pool σ π → ℕ → π → σ → π → Prop
  comes : Pool σ π → ℕ → σ → π → Prop

variable {B : Behaviour σ π}

inductive Moves (B : Behaviour σ π) : Pool σ π → Pool σ π → Prop
  | outside {a : Pool σ π} {c : σ} (h : B.outside a.core c) : Moves B a { a with core := c }
  | does {a : Pool σ π} {t : ℕ} {p q : π} {c : σ} (hp : a.parties t = some p)
      (h : B.does a t p c q) : Moves B a (a.put t c q)
  | comes {a : Pool σ π} {n : ℕ} {q : π} {c : σ} (hnew : a.parties n = none)
      (h : B.comes a n c q) : Moves B a (a.put n c q)

theorem Moves.modify {f : π → π} (hp : a.parties t = some p) (h : B.does a t p c (f p)) :
    Moves B a ({ a with core := c }.modify t f) := by
  rw [← put_eq_modify hp]
  exact .does hp h

/-- A party that only changes what is shared. -/
theorem Moves.stays (hp : a.parties t = some p) (h : B.does a t p c p) :
    Moves B a { a with core := c } := by
  have hmodify : Moves B a ({ a with core := c }.modify t id) := .modify hp h
  rwa [modify_id] at hmodify

/-- What is shared becomes `c`, and it is not the party `t` that does it. -/
inductive Beside (B : Behaviour σ π) (a : Pool σ π) (t : ℕ) (c : σ) : Prop
  | outside (h : B.outside a.core c)
  | does {t' : ℕ} {p q : π} (hne : t ≠ t') (hp : a.parties t' = some p) (h : B.does a t' p c q)
  | comes {n : ℕ} {q : π} (hne : t ≠ n) (hnew : a.parties n = none) (h : B.comes a n c q)

/-- Who a party is after a move: a bystander, the one that moved, or the one that
came. -/
theorem Moves.party (hmove : Moves B a b) (hq : b.parties t = some q) :
    (a.parties t = some q ∧ Beside B a t b.core) ∨
      (∃ p, a.parties t = some p ∧ B.does a t p b.core q) ∨
      (a.parties t = none ∧ B.comes a t b.core q) := by
  cases hmove with
  | outside h => exact .inl ⟨hq, .outside h⟩
  | does hp h =>
      rcases parties_put_eq_some.mp hq with ⟨rfl, rfl⟩ | ⟨hne, hq⟩
      · exact .inr (.inl ⟨_, hp, h⟩)
      · exact .inl ⟨hq, .does hne hp h⟩
  | comes hnew h =>
      rcases parties_put_eq_some.mp hq with ⟨rfl, rfl⟩ | ⟨hne, hq⟩
      · exact .inr (.inr ⟨hnew, h⟩)
      · exact .inl ⟨hq, .comes hne hnew h⟩

/-- Nobody leaves. -/
theorem Moves.isSome (hmove : Moves B a b) (hsome : (a.parties t).isSome) :
    (b.parties t).isSome := by
  cases hmove with
  | outside h => exact hsome
  | does hp h => exact isSome_put hsome
  | comes hnew h => exact isSome_put hsome

/-- `I` holds of every party. -/
def Each (I : σ → ℕ → π → Prop) (a : Pool σ π) : Prop :=
  ∀ t p, a.parties t = some p → I a.core t p

/-- What holds of every party does so after a move, if it holds of the one that
moved, of the one that came, and still of the bystanders. -/
theorem Each.moves {I : σ → ℕ → π → Prop} (h : a.Each I) (hmove : Moves B a b)
    (hown : ∀ {t p c q}, a.parties t = some p → I a.core t p → B.does a t p c q → I c t q)
    (hnew : ∀ {t c q}, a.parties t = none → B.comes a t c q → I c t q)
    (hbeside : ∀ {t p c}, a.parties t = some p → I a.core t p → Beside B a t c → I c t p) :
    b.Each I := by
  intro t q hq
  rcases hmove.party hq with ⟨hp, hmoved⟩ | ⟨p, hp, hdoes⟩ | ⟨hnone, hcomes⟩
  · exact hbeside hp (h t q hp) hmoved
  · exact hown hp (h t p hp) hdoes
  · exact hnew hnone hcomes

end Pool

end Bedjet.Asyncio
