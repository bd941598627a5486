import Mathlib.Data.List.Basic

/-!
Coroutines as trees: a coroutine returns, raises, or awaits an operation of its
environment and goes on with what that comes to, which may be an exception. The
`try` statements are functions on them. What a coroutine does is the set of its runs:
the operations it awaited, with what they came to, and how it ended, if it has.
-/

namespace Bedjet.Asyncio

/-- `κ` tells what an operation `ι` returns; `ε` are the exceptions. -/
inductive Coroutine (ι : Type*) (κ : ι → Type*) (ε α : Type*)
  | ret (a : α)
  | raise (e : ε)
  /-- here the part of it that is looked at ends -/
  | pending
  | await (i : ι) (k : Except ε (κ i) → Coroutine ι κ ε α)

/-- An operation, with what it came to. -/
structure Awaited (ι : Type*) (κ : ι → Type*) (ε : Type*) where
  operation : ι
  outcome : Except ε (κ operation)

/-- How far a run has come. -/
inductive Progress (ε α : Type*)
  | running
  | returned (a : α)
  | raised (e : ε)
  deriving DecidableEq

namespace Progress

variable {ε α : Type*}

def finished : Progress ε α → Bool
  | .running => false
  | .returned _ | .raised _ => true

/-- How a `try` statement ends whose block has ended with `o`, by how its `finally` clause
ends. -/
def closedBy (o : Progress ε α) : Progress ε Unit → Progress ε α
  | .running => .running
  | .returned () => o
  | .raised e => .raised e

theorem finished_of_closedBy {o : Progress ε α} {o' : Progress ε Unit}
    (h : (o.closedBy o').finished) : o'.finished := by
  cases o' with
  | running => exact h
  | _ => rfl

end Progress

namespace Coroutine

variable {ι : Type*} {κ : ι → Type*} {ε α β : Type*}

def bind : Coroutine ι κ ε α → (α → Coroutine ι κ ε β) → Coroutine ι κ ε β
  | .ret a, f => f a
  | .raise e, _ => .raise e
  | .pending, _ => .pending
  | .await i k, f => .await i fun r => (k r).bind f

instance : Monad (Coroutine ι κ ε) where
  pure := ret
  bind := bind

/-- Awaits one operation. -/
def ask (i : ι) : Coroutine ι κ ε (κ i) :=
  .await i fun
    | .ok a => .ret a
    | .error e => .raise e

/-- `try`, with the `except` clauses that the handler has. -/
def tryExcept : Coroutine ι κ ε α → (ε → Option (Coroutine ι κ ε α)) → Coroutine ι κ ε α
  | .ret a, _ => .ret a
  | .raise e, handler => (handler e).getD (.raise e)
  | .pending, _ => .pending
  | .await i k, handler => .await i fun r => (k r).tryExcept handler

/-- `try`, with a `finally` clause. -/
def tryFinally : Coroutine ι κ ε α → Coroutine ι κ ε Unit → Coroutine ι κ ε α
  | .ret a, final => final.bind fun _ => .ret a
  | .raise e, final => final.bind fun _ => .raise e
  | .pending, _ => .pending
  | .await i k, final => .await i fun r => (k r).tryFinally final

/-- The runs of a coroutine, finished or not. -/
inductive Runs : Coroutine ι κ ε α → List (Awaited ι κ ε) → Progress ε α → Prop
  | running (c : Coroutine ι κ ε α) : Runs c [] .running
  | ret (a : α) : Runs (.ret a) [] (.returned a)
  | raise (e : ε) : Runs (.raise e) [] (.raised e)
  | await {i : ι} {k : Except ε (κ i) → Coroutine ι κ ε α} {h : List (Awaited ι κ ε)}
      {o : Progress ε α} (r : Except ε (κ i)) (hrest : Runs (k r) h o) :
      Runs (.await i k) (⟨i, r⟩ :: h) o

variable {c : Coroutine ι κ ε α} {f : α → Coroutine ι κ ε β} {final : Coroutine ι κ ε Unit}
  {h : List (Awaited ι κ ε)} {o : Progress ε α} {o' : Progress ε β} {i : ι} {a : α}

/-- What has ended was running before. -/
theorem Runs.unfinished (hruns : c.Runs h o) : c.Runs h .running := by
  induction hruns with
  | await r _ ih => exact .await r ih
  | _ => exact .running _

theorem Runs.of_ret (hruns : (Coroutine.ret a : Coroutine ι κ ε α).Runs h o) :
    h = [] ∧ (o = .running ∨ o = .returned a) := by
  cases hruns with
  | running => exact ⟨rfl, .inl rfl⟩
  | ret => exact ⟨rfl, .inr rfl⟩

theorem Runs.of_ask {o : Progress ε (κ i)} (hruns : (ask i).Runs h o) :
    (h = [] ∧ o = .running) ∨
      (∃ a, h = [⟨i, .ok a⟩] ∧ (o = .running ∨ o = .returned a)) ∨
      ∃ e, h = [⟨i, .error e⟩] ∧ (o = .running ∨ o = .raised e) := by
  cases hruns with
  | running => exact .inl ⟨rfl, rfl⟩
  | await r hrest =>
      cases r with
      | ok a =>
          obtain ⟨rfl, ho⟩ := hrest.of_ret
          exact .inr (.inl ⟨a, rfl, ho⟩)
      | error e =>
          cases hrest with
          | running => exact .inr (.inr ⟨e, rfl, .inl rfl⟩)
          | raise => exact .inr (.inr ⟨e, rfl, .inr rfl⟩)

/-- The run in an environment that answers each operation in one way. -/
def play (answer : ∀ i, Except ε (κ i)) : Coroutine ι κ ε α → List (Awaited ι κ ε) × Progress ε α
  | .ret a => ([], .returned a)
  | .raise e => ([], .raised e)
  | .pending => ([], .running)
  | .await i k =>
      let rest := (k (answer i)).play answer
      (⟨i, answer i⟩ :: rest.1, rest.2)

theorem runs_play (c : Coroutine ι κ ε α) (answer : ∀ i, Except ε (κ i)) :
    c.Runs (c.play answer).1 (c.play answer).2 := by
  induction c with
  | ret a => exact .ret a
  | raise e => exact .raise e
  | pending => exact .running _
  | await i k ih => exact .await (answer i) (ih _)

/-! ### The runs of a bind -/

theorem runs_ask (a : κ i) : (ask i : Coroutine ι κ ε (κ i)).Runs [⟨i, .ok a⟩] (.returned a) := by
  unfold ask
  exact .await (.ok a) (.ret a)

theorem runs_bind {h' : List (Awaited ι κ ε)} (hc : c.Runs h (.returned a))
    (hf : (f a).Runs h' o') : (c.bind f).Runs (h ++ h') o' := by
  generalize ho : Progress.returned a = o at hc
  induction hc with
  | running => simp at ho
  | ret b =>
      obtain rfl := Progress.returned.inj ho
      exact hf
  | raise => simp at ho
  | await r _ ih => exact .await r (ih ho)

/-- A run of a bind is a run of its first part, or goes on with its second part. -/
theorem Runs.of_bind (hruns : (c.bind f).Runs h o') :
    (c.Runs h .running ∧ o' = .running) ∨ (∃ e, c.Runs h (.raised e) ∧ o' = .raised e) ∨
      ∃ a h₁ h₂, c.Runs h₁ (.returned a) ∧ (f a).Runs h₂ o' ∧ h = h₁ ++ h₂ := by
  induction c generalizing h with
  | ret a => exact .inr (.inr ⟨a, [], h, .ret a, hruns, rfl⟩)
  | raise e =>
      cases hruns with
      | running => exact .inl ⟨.running _, rfl⟩
      | raise => exact .inr (.inl ⟨e, .raise e, rfl⟩)
  | pending =>
      cases hruns with
      | running => exact .inl ⟨.running _, rfl⟩
  | await i k ih =>
      cases hruns with
      | running => exact .inl ⟨.running _, rfl⟩
      | await r hrest =>
          rcases ih r hrest with ⟨hk, rfl⟩ | ⟨e, hk, rfl⟩ | ⟨a, h₁, h₂, hk, hf, rfl⟩
          · exact .inl ⟨.await r hk, rfl⟩
          · exact .inr (.inl ⟨e, .await r hk, rfl⟩)
          · exact .inr (.inr ⟨a, ⟨i, r⟩ :: h₁, h₂, .await r hk, hf, rfl⟩)

/-- What is over has been left by an exception in its first part, or is over in its second. -/
theorem Runs.of_bind_finished (hruns : (c.bind f).Runs h o') (hover : o'.finished) :
    (∃ e, c.Runs h (.raised e) ∧ o' = .raised e) ∨
      ∃ a h₁ h₂, c.Runs h₁ (.returned a) ∧ (f a).Runs h₂ o' ∧ h = h₁ ++ h₂ := by
  rcases hruns.of_bind with ⟨-, rfl⟩ | hended
  · simp [Progress.finished] at hover
  · exact hended

theorem Runs.of_ask_finished {o : Progress ε (κ i)} (hruns : (ask i).Runs h o)
    (hover : o.finished) : ∃ r, h = [⟨i, r⟩] := by
  rcases hruns.of_ask with ⟨-, rfl⟩ | ⟨a, rfl, -⟩ | ⟨e, rfl, -⟩
  · simp [Progress.finished] at hover
  · exact ⟨_, rfl⟩
  · exact ⟨_, rfl⟩

/-- What returns has returned from both parts of a bind. -/
theorem Runs.of_bind_returned {b : β} (hruns : (c.bind f).Runs h (.returned b)) :
    ∃ a h₁ h₂, c.Runs h₁ (.returned a) ∧ (f a).Runs h₂ (.returned b) ∧ h = h₁ ++ h₂ := by
  rcases hruns.of_bind with ⟨-, ho⟩ | ⟨e, -, ho⟩ | hreturned
  · simp at ho
  · simp at ho
  · exact hreturned

theorem Runs.of_ret_returned {b : α} (hruns : (Coroutine.ret a : Coroutine ι κ ε α).Runs h
    (.returned b)) : h = [] ∧ a = b := by
  obtain ⟨rfl, ho | ho⟩ := hruns.of_ret
  · simp at ho
  · exact ⟨rfl, by simpa using ho.symm⟩

theorem Runs.of_ask_returned {a : κ i} (hruns : (ask i).Runs h (.returned a)) :
    h = [⟨i, .ok a⟩] := by
  rcases hruns.of_ask with ⟨-, ho⟩ | ⟨a', rfl, ho | ho⟩ | ⟨e, -, ho | ho⟩
  · simp at ho
  · simp at ho
  · obtain rfl : a = a' := by simpa using ho
    rfl
  · simp at ho
  · simp at ho

/-! ### The runs of a `try` statement -/

theorem runs_tryExcept {handler : ε → Option (Coroutine ι κ ε α)} (hc : c.Runs h (.returned a)) :
    (c.tryExcept handler).Runs h (.returned a) := by
  generalize ho : Progress.returned a = o at hc
  induction hc with
  | running => simp at ho
  | ret b => exact .ret b
  | raise => simp at ho
  | await r _ ih => exact .await r (ih ho)

/-- A run of a `try` block is a run of the block, or goes on with an `except` clause. -/
theorem Runs.of_tryExcept {handler : ε → Option (Coroutine ι κ ε α)}
    (hruns : (c.tryExcept handler).Runs h o) :
    (c.Runs h o ∧ ∀ e, o = .raised e → handler e = none) ∨
      ∃ e clause h₁ h₂, c.Runs h₁ (.raised e) ∧ handler e = some clause ∧ clause.Runs h₂ o ∧
        h = h₁ ++ h₂ := by
  induction c generalizing h with
  | ret a =>
      cases hruns with
      | running => exact .inl ⟨.running _, by simp⟩
      | ret => exact .inl ⟨.ret a, by simp⟩
  | raise e =>
      cases hhandler : handler e with
      | none =>
          simp only [tryExcept, hhandler, Option.getD_none] at hruns
          cases hruns with
          | running => exact .inl ⟨.running _, by simp⟩
          | raise => exact .inl ⟨.raise e, by simpa using hhandler⟩
      | some clause =>
          simp only [tryExcept, hhandler, Option.getD_some] at hruns
          exact .inr ⟨e, clause, [], h, .raise e, hhandler, hruns, rfl⟩
  | pending =>
      cases hruns with
      | running => exact .inl ⟨.running _, by simp⟩
  | await i k ih =>
      cases hruns with
      | running => exact .inl ⟨.running _, by simp⟩
      | await r hrest =>
          rcases ih r hrest with ⟨hk, hunhandled⟩ | ⟨e, clause, h₁, h₂, hk, hclause, hruns, rfl⟩
          · exact .inl ⟨.await r hk, hunhandled⟩
          · exact .inr ⟨e, clause, ⟨i, r⟩ :: h₁, h₂, .await r hk, hclause, hruns, rfl⟩

/-- A run of a `try` block is still in the block, or the block has ended and the
`finally` clause runs. -/
theorem Runs.of_tryFinally (hruns : (c.tryFinally final).Runs h o) :
    (c.Runs h .running ∧ o = .running) ∨
      ∃ o₁ o₂ h₁ h₂, c.Runs h₁ o₁ ∧ o₁.finished ∧ final.Runs h₂ o₂ ∧ o = o₁.closedBy o₂ ∧
        h = h₁ ++ h₂ := by
  induction c generalizing h with
  | ret a =>
      rcases Runs.of_bind hruns with ⟨hf, rfl⟩ | ⟨e, hf, rfl⟩ | ⟨u, h₁, h₂, hf, hend, rfl⟩
      · exact .inr ⟨.returned a, .running, [], h, .ret a, rfl, hf, rfl, rfl⟩
      · exact .inr ⟨.returned a, .raised e, [], h, .ret a, rfl, hf, rfl, rfl⟩
      · cases hend with
        | running =>
            refine .inr ⟨.returned a, .running, [], h₁, .ret a, rfl, ?_, rfl, by simp⟩
            exact hf.unfinished
        | ret =>
            exact .inr ⟨.returned a, .returned u, [], h₁, .ret a, rfl, hf, rfl, by simp⟩
  | raise e =>
      rcases Runs.of_bind hruns with ⟨hf, rfl⟩ | ⟨e', hf, rfl⟩ | ⟨u, h₁, h₂, hf, hend, rfl⟩
      · exact .inr ⟨.raised e, .running, [], h, .raise e, rfl, hf, rfl, rfl⟩
      · exact .inr ⟨.raised e, .raised e', [], h, .raise e, rfl, hf, rfl, rfl⟩
      · cases hend with
        | running =>
            refine .inr ⟨.raised e, .running, [], h₁, .raise e, rfl, ?_, rfl, by simp⟩
            exact hf.unfinished
        | raise =>
            exact .inr ⟨.raised e, .returned u, [], h₁, .raise e, rfl, hf, rfl, by simp⟩
  | pending =>
      cases hruns with
      | running => exact .inl ⟨.running _, rfl⟩
  | await i k ih =>
      cases hruns with
      | running => exact .inl ⟨.running _, rfl⟩
      | await r hrest =>
          rcases ih r hrest with ⟨hk, rfl⟩ | ⟨o₁, o₂, h₁, h₂, hk, hfinished, hfinal, rfl, rfl⟩
          · exact .inl ⟨.await r hk, rfl⟩
          · exact .inr ⟨o₁, o₂, ⟨i, r⟩ :: h₁, h₂, .await r hk, hfinished, hfinal, rfl, rfl⟩

/-- Once the statement is over, so are the block and the `finally` clause. -/
theorem Runs.of_tryFinally_finished (hruns : (c.tryFinally final).Runs h o) (hover : o.finished) :
    ∃ o₁ o₂ h₁ h₂, c.Runs h₁ o₁ ∧ o₁.finished ∧ final.Runs h₂ o₂ ∧ o₂.finished ∧ h = h₁ ++ h₂ := by
  rcases hruns.of_tryFinally with ⟨-, rfl⟩ | ⟨o₁, o₂, h₁, h₂, hblock, hended, hfinal, rfl, rfl⟩
  · simp [Progress.finished] at hover
  · exact ⟨o₁, o₂, h₁, h₂, hblock, hended, hfinal, Progress.finished_of_closedBy hover, rfl⟩

/-! ### Which operations a coroutine awaits -/

/-- Every operation it ever awaits is of this kind. -/
def Asks (S : ι → Prop) (c : Coroutine ι κ ε α) : Prop :=
  ∀ h o, c.Runs h o → ∀ e ∈ h, S e.operation

variable {S S' : ι → Prop}

theorem Asks.imp (hc : c.Asks S) (himp : ∀ i, S i → S' i) : c.Asks S' :=
  fun h o hruns e he => himp _ (hc h o hruns e he)

theorem asks_ret (a : α) : (ret a : Coroutine ι κ ε α).Asks S := by
  intro h o hruns e he
  obtain ⟨rfl, -⟩ := hruns.of_ret
  simp at he

theorem asks_raise (e : ε) : (raise e : Coroutine ι κ ε α).Asks S := by
  intro h o hruns e' he'
  cases hruns <;> simp at he'

theorem asks_ask (hi : S i) : (ask i : Coroutine ι κ ε (κ i)).Asks S := by
  intro h o hruns e he
  rcases hruns.of_ask with ⟨rfl, -⟩ | ⟨a, rfl, -⟩ | ⟨e', rfl, -⟩
  · simp at he
  · obtain rfl : e = ⟨i, .ok a⟩ := by simpa using he
    exact hi
  · obtain rfl : e = ⟨i, .error e'⟩ := by simpa using he
    exact hi

theorem Asks.bind (hc : c.Asks S) (hf : ∀ a, (f a).Asks S) : (c.bind f).Asks S := by
  intro h o hruns e he
  rcases hruns.of_bind with ⟨hfirst, -⟩ | ⟨e', hfirst, -⟩ | ⟨a, h₁, h₂, hfirst, hrest, rfl⟩
  · exact hc h _ hfirst e he
  · exact hc h _ hfirst e he
  · rcases List.mem_append.mp he with he | he
    · exact hc h₁ _ hfirst e he
    · exact hf a h₂ o hrest e he

theorem Asks.tryExcept {handler : ε → Option (Coroutine ι κ ε α)} (hc : c.Asks S)
    (hhandler : ∀ e clause, handler e = some clause → clause.Asks S) :
    (c.tryExcept handler).Asks S := by
  intro h o hruns e he
  rcases hruns.of_tryExcept with ⟨hblock, -⟩ | ⟨e', clause, h₁, h₂, hblock, hclause, hrest, rfl⟩
  · exact hc h o hblock e he
  · rcases List.mem_append.mp he with he | he
    · exact hc h₁ _ hblock e he
    · exact hhandler e' clause hclause h₂ o hrest e he

theorem Asks.tryFinally (hc : c.Asks S) (hfinal : final.Asks S) : (c.tryFinally final).Asks S := by
  intro h o hruns e he
  rcases hruns.of_tryFinally with ⟨hblock, -⟩ | ⟨o₁, o₂, h₁, h₂, hblock, -, hrest, -, rfl⟩
  · exact hc h _ hblock e he
  · rcases List.mem_append.mp he with he | he
    · exact hc h₁ _ hblock e he
    · exact hfinal h₂ _ hrest e he

theorem asks_pending : (pending : Coroutine ι κ ε α).Asks S := by
  intro h o hruns e he
  cases hruns
  simp at he

/-! ### How often a coroutine awaits -/

/-- It awaits so many operations of this kind at most. -/
def AwaitsAtMost (p : ι → Bool) (n : ℕ) (c : Coroutine ι κ ε α) : Prop :=
  ∀ h o, c.Runs h o → h.countP (fun e => p e.operation) ≤ n

variable {p : ι → Bool} {n m : ℕ}

theorem awaitsAtMost_of_asks (hc : c.Asks (p · = false)) : c.AwaitsAtMost p 0 := by
  intro h o hruns
  rw [Nat.le_zero, List.countP_eq_zero]
  exact fun e he => by simp [hc h o hruns e he]

theorem awaitsAtMost_ask (i : ι) : (ask i : Coroutine ι κ ε (κ i)).AwaitsAtMost p 1 := by
  intro h o hruns
  have hlength : h.length ≤ 1 := by
    rcases hruns.of_ask with ⟨rfl, -⟩ | ⟨a, rfl, -⟩ | ⟨e, rfl, -⟩ <;> simp
  exact Nat.le_trans List.countP_le_length hlength

theorem AwaitsAtMost.mono (hc : c.AwaitsAtMost p n) (hle : n ≤ m) : c.AwaitsAtMost p m :=
  fun h o hruns => Nat.le_trans (hc h o hruns) hle

theorem AwaitsAtMost.bind (hc : c.AwaitsAtMost p n) (hf : ∀ a, (f a).AwaitsAtMost p m) :
    (c.bind f).AwaitsAtMost p (n + m) := by
  intro h o hruns
  rcases hruns.of_bind with ⟨hfirst, -⟩ | ⟨e, hfirst, -⟩ | ⟨a, h₁, h₂, hfirst, hrest, rfl⟩
  · exact Nat.le_trans (hc h _ hfirst) (Nat.le_add_right n m)
  · exact Nat.le_trans (hc h _ hfirst) (Nat.le_add_right n m)
  · rw [List.countP_append]
    exact Nat.add_le_add (hc h₁ _ hfirst) (hf a h₂ o hrest)

theorem AwaitsAtMost.tryExcept {handler : ε → Option (Coroutine ι κ ε α)}
    (hc : c.AwaitsAtMost p n)
    (hhandler : ∀ e clause, handler e = some clause → clause.AwaitsAtMost p m) :
    (c.tryExcept handler).AwaitsAtMost p (n + m) := by
  intro h o hruns
  rcases hruns.of_tryExcept with ⟨hblock, -⟩ | ⟨e, clause, h₁, h₂, hblock, hclause, hrest, rfl⟩
  · exact Nat.le_trans (hc h o hblock) (Nat.le_add_right n m)
  · rw [List.countP_append]
    exact Nat.add_le_add (hc h₁ _ hblock) (hhandler e clause hclause h₂ o hrest)

theorem AwaitsAtMost.tryFinally (hc : c.AwaitsAtMost p n) (hfinal : final.AwaitsAtMost p m) :
    (c.tryFinally final).AwaitsAtMost p (n + m) := by
  intro h o hruns
  rcases hruns.of_tryFinally with ⟨hblock, -⟩ | ⟨o₁, o₂, h₁, h₂, hblock, -, hrest, -, rfl⟩
  · exact Nat.le_trans (hc h _ hblock) (Nat.le_add_right n m)
  · rw [List.countP_append]
    exact Nat.add_le_add (hc h₁ _ hblock) (hfinal h₂ _ hrest)

/-! ### Which exceptions a coroutine raises of its own -/

/-- What it raises was raised by an operation, or is of this kind. -/
def Throws (E : ε → Prop) (c : Coroutine ι κ ε α) : Prop :=
  ∀ h e, c.Runs h (.raised e) → (∃ i, ⟨i, .error e⟩ ∈ h) ∨ E e

variable {E : ε → Prop}

theorem throws_ret (a : α) : (ret a : Coroutine ι κ ε α).Throws E := by
  intro h e hruns
  obtain ⟨-, ho | ho⟩ := hruns.of_ret <;> simp at ho

theorem throws_raise {e : ε} (he : E e) : (raise e : Coroutine ι κ ε α).Throws E := by
  intro h e' hruns
  cases hruns with
  | raise => exact .inr he

theorem throws_ask (i : ι) : (ask i : Coroutine ι κ ε (κ i)).Throws E := by
  intro h e hruns
  rcases hruns.of_ask with ⟨-, ho⟩ | ⟨a, -, ho | ho⟩ | ⟨e', rfl, ho | ho⟩
  · simp at ho
  · simp at ho
  · simp at ho
  · simp at ho
  · obtain rfl : e = e' := by simpa using ho
    exact .inl ⟨i, List.mem_singleton_self _⟩

theorem Throws.bind (hc : c.Throws E) (hf : ∀ a, (f a).Throws E) : (c.bind f).Throws E := by
  intro h e hruns
  rcases hruns.of_bind with ⟨-, ho⟩ | ⟨e', hfirst, ho⟩ | ⟨a, h₁, h₂, -, hrest, rfl⟩
  · simp at ho
  · obtain rfl : e = e' := by simpa using ho
    exact hc h e hfirst
  · rcases hf a h₂ e hrest with ⟨i, hi⟩ | he
    · exact .inl ⟨i, List.mem_append_right _ hi⟩
    · exact .inr he

/-! ### Coroutines that fail just if what they await fails -/

/-- Nothing that was awaited has failed. -/
def Unfailing (h : List (Awaited ι κ ε)) : Prop :=
  ∀ e ∈ h, ∃ a, e.outcome = .ok a

theorem unfailing_append {h₁ h₂ : List (Awaited ι κ ε)} :
    Unfailing (h₁ ++ h₂) ↔ Unfailing h₁ ∧ Unfailing h₂ :=
  List.forall_mem_append

/-- What a run of such a coroutine has awaited, by how it ended. -/
def Strict (c : Coroutine ι κ ε α) : Prop :=
  ∀ h o, c.Runs h o → (∀ a, o = .returned a → Unfailing h) ∧ ∀ e, o = .raised e → ¬Unfailing h

theorem strict_ret (a : α) : (ret a : Coroutine ι κ ε α).Strict := by
  intro h o hruns
  obtain ⟨rfl, rfl | rfl⟩ := hruns.of_ret <;> simp [Unfailing]

theorem strict_ask (i : ι) : (ask i : Coroutine ι κ ε (κ i)).Strict := by
  intro h o hruns
  rcases hruns.of_ask with ⟨rfl, rfl⟩ | ⟨a, rfl, rfl | rfl⟩ | ⟨e, rfl, rfl | rfl⟩ <;>
    simp [Unfailing]

theorem Strict.bind (hc : c.Strict) (hf : ∀ a, (f a).Strict) : (c.bind f).Strict := by
  intro h o hruns
  rcases hruns.of_bind with ⟨-, rfl⟩ | ⟨e, hfirst, rfl⟩ | ⟨a, h₁, h₂, hfirst, hrest, rfl⟩
  · simp
  · exact ⟨by simp, fun _ _ => (hc h _ hfirst).2 e rfl⟩
  · have hbefore := (hc h₁ _ hfirst).1 a rfl
    obtain ⟨hreturned, hraised⟩ := hf a h₂ o hrest
    simp only [unfailing_append, hbefore, true_and]
    exact ⟨hreturned, hraised⟩

end Coroutine

end Bedjet.Asyncio
