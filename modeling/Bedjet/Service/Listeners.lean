import Bedjet.Asyncio.Machine
import Mathlib.Data.Multiset.ZeroCons

/-!
The listeners of a session. Each call of `subscribe` gives out a function that is
to remove what was registered by that call; what it does is to remove the first
listener that equals its own, every time it is called.
-/

namespace Bedjet.Service

open Asyncio

/-- What a listener does when it is called. -/
inductive Reaction
  | returns
  /-- raises an `Exception` -/
  | raises
  /-- raises what is none, a `KeyboardInterrupt` say -/
  | exits
  deriving DecidableEq

/-- `_listeners`, and the closures that `subscribe` gave out. Equality of Lean is
identity of objects; `==` is theirs. -/
structure Registry (α : Type*) where
  /-- `_listeners` -/
  listeners : List α := []
  /-- the listeners that the closures remember -/
  registered : List α := []
  /-- which closures were called; the code keeps no such list -/
  unsubscribed : List ℕ := []

inductive RegistryAction (α : Type*)
  | subscribe (listener : α)
  /-- the closure that the call of `subscribe` of this number gave out is called -/
  | unsubscribe (registration : ℕ)

namespace Registry

variable {α : Type*}

/-- `subscribe` -/
def subscribe (s : Registry α) (listener : α) : Registry α :=
  { s with
    listeners := s.listeners ++ [listener]
    registered := s.registered ++ [listener] }

/-- `_notify`: whom it invokes, going through a copy of the list. -/
def notify (reactions : ℕ → Reaction) : List α → List α
  | [] => []
  | listener :: rest =>
      listener ::
        if reactions 0 = .exits then [] else notify (fun i => reactions (i + 1)) rest

/-- The listeners whose own closure has not been called. -/
def live (s : Registry α) : List α :=
  ((List.range s.registered.length).filter (· ∉ s.unsubscribed)).filterMap (s.registered[·]?)

section

variable [BEq α]

/-- `unsubscribe`: `list.remove` takes away the first that equals the listener,
and its `ValueError` is suppressed. -/
def unsubscribe (s : Registry α) (registration : ℕ) : Option (Registry α) :=
  s.registered[registration]?.map fun listener =>
    { s with
      listeners := s.listeners.eraseP (· == listener)
      unsubscribed := registration :: s.unsubscribed }

def step (s : Registry α) : RegistryAction α → Option (Registry α)
  | .subscribe listener => some (s.subscribe listener)
  | .unsubscribe registration => s.unsubscribe registration

def machine (α : Type*) [BEq α] : Machine (Registry α) (RegistryAction α) where
  step s a := s.step a

end

/-! ### Whom a notification invokes -/

theorem notify_eq_self_iff {reactions : ℕ → Reaction} {listeners : List α} :
    notify reactions listeners = listeners ↔
      ∀ i, i + 1 < listeners.length → reactions i ≠ .exits := by
  induction listeners generalizing reactions with
  | nil => simp [notify]
  | cons listener rest ih =>
      rw [notify]
      split
      · rename_i hexits
        cases rest with
        | nil => simp
        | cons other rest =>
            refine iff_of_false (by simp) fun h => h 0 ?_ hexits
            simp
      · rename_i hgoes
        rw [List.cons_inj_right, ih]
        constructor
        · intro h i hi
          cases i with
          | zero => exact hgoes
          | succ i => exact h i (by simpa using hi)
        · intro h i hi
          exact h (i + 1) (by simpa using hi)

/-- Listeners that return or raise an `Exception` are all invoked. -/
theorem notify_of_not_exits {reactions : ℕ → Reaction} (h : ∀ i, reactions i ≠ .exits)
    (listeners : List α) : notify reactions listeners = listeners :=
  notify_eq_self_iff.mpr fun i _ => h i

/-! ### What the closures remove -/

/-- Only closures that were given out are called. -/
def Given (s : Registry α) : Prop :=
  ∀ r ∈ s.unsubscribed, r < s.registered.length

theorem live_subscribe {s : Registry α} (h : s.Given) (listener : α) :
    (s.subscribe listener).live = s.live ++ [listener] := by
  have hnew : s.registered.length ∉ s.unsubscribed := fun hr => (h _ hr).ne rfl
  have hold : ∀ i ∈ (List.range s.registered.length).filter (· ∉ s.unsubscribed),
      (s.registered ++ [listener])[i]? = s.registered[i]? := by
    intro i hi
    apply List.getElem?_append_left
    exact List.mem_range.mp (List.mem_of_mem_filter hi)
  show ((List.range (s.registered ++ [listener]).length).filter (· ∉ s.unsubscribed)).filterMap
    ((s.registered ++ [listener])[·]?) = _
  rw [List.length_append, List.length_singleton, List.range_succ, List.filter_append,
    List.filterMap_append, List.filterMap_congr hold]
  simp [live, hnew]

/-- The closure of a registration that is live, called for the first time. -/
theorem live_perm_of_first {s : Registry α} {r : ℕ} {listener : α}
    (hr : s.registered[r]? = some listener) (hfirst : r ∉ s.unsubscribed) (listeners : List α) :
    s.live.Perm (listener ::
      ({ s with listeners, unsubscribed := r :: s.unsubscribed } : Registry α).live) := by
  have hlt := (List.getElem?_eq_some_iff.mp hr).1
  have hmem : r ∈ (List.range s.registered.length).filter (· ∉ s.unsubscribed) := by
    simp [hlt, hfirst]
  have hrest : (List.range s.registered.length).filter (· ∉ r :: s.unsubscribed) =
      ((List.range s.registered.length).filter (· ∉ s.unsubscribed)).erase r := by
    rw [List.Nodup.erase_eq_filter (List.nodup_range.filter _), List.filter_filter]
    apply List.filter_congr
    intro i _
    by_cases hi : i = r <;> simp [hi]
  have hperm := (List.perm_cons_erase hmem).filterMap (s.registered[·]?)
  rw [← hrest, List.filterMap_cons_some hr] at hperm
  exact hperm

theorem live_again {s : Registry α} {r : ℕ} (hagain : r ∈ s.unsubscribed) (listeners : List α) :
    ({ s with listeners, unsubscribed := r :: s.unsubscribed } : Registry α).live = s.live := by
  have hsame : (List.range s.registered.length).filter (· ∉ r :: s.unsubscribed) =
      (List.range s.registered.length).filter (· ∉ s.unsubscribed) := by
    apply List.filter_congr
    intro i _
    have : i ∉ r :: s.unsubscribed ↔ i ∉ s.unsubscribed := by
      rw [List.mem_cons, not_or, and_iff_right_iff_imp]
      rintro hi rfl
      exact hi hagain
    simpa using this
  show List.filterMap _ _ = _
  rw [hsame]
  rfl

theorem perm_cons_eraseP {p : α → Bool} {x : α} {xs : List α} (h : xs.find? p = some x) :
    xs.Perm (x :: xs.eraseP p) := by
  obtain ⟨hx, before, after, rfl, hbefore⟩ := List.find?_eq_some_iff_append.mp h
  have hnone : ∀ y ∈ before, ¬p y := by simpa using hbefore
  rw [List.eraseP_append_right _ hnone, List.eraseP_cons_of_pos hx]
  exact List.perm_middle

/-! ### Every closure its own -/

/-- Whoever is registered, and no other, is invoked by the next notification, as
often as it is registered, and whether or not somebody raises an `Exception`. -/
def Faithful (s : Registry α) : Prop :=
  ∀ reactions : ℕ → Reaction, (∀ i, reactions i ≠ .exits) →
    (notify reactions s.listeners).Perm s.live

theorem faithful_iff {s : Registry α} : s.Faithful ↔ s.listeners.Perm s.live := by
  constructor
  · intro h
    have hall := h (fun _ => .returns) (by simp)
    rwa [notify_of_not_exits (by simp)] at hall
  · intro h reactions hreactions
    rwa [notify_of_not_exits hreactions]

theorem faithful_initial : ({} : Registry α).Faithful :=
  faithful_iff.mpr (List.Perm.refl _)

theorem faithful_subscribe {s : Registry α} (h : s.Faithful) (hgiven : s.Given) (listener : α) :
    (s.subscribe listener).Faithful := by
  rw [faithful_iff] at h ⊢
  rw [live_subscribe hgiven]
  exact h.append_right _

section

variable [BEq α] {s s' : Registry α}

/-- A closure that is called for the first time finds its own listener before any
other that equals it, and one that is called again finds none. -/
def TakesOwn (s : Registry α) : RegistryAction α → Prop
  | .subscribe _ => True
  | .unsubscribe r => ∀ listener, s.registered[r]? = some listener →
      s.listeners.find? (· == listener) = if r ∈ s.unsubscribed then none else some listener

theorem given_step (h : s.Given) {a : RegistryAction α} (hstep : s.step a = some s') :
    s'.Given := by
  cases a with
  | subscribe listener =>
      obtain rfl := Option.some.inj hstep
      intro r hr
      have hlt := h r hr
      simp only [subscribe, List.length_append]
      omega
  | unsubscribe r =>
      obtain ⟨listener, hr, rfl⟩ := Option.map_eq_some_iff.mp hstep
      intro i hi
      rcases List.mem_cons.mp hi with rfl | hi
      · exact (List.getElem?_eq_some_iff.mp hr).1
      · exact h i hi

/-- What a closure removes is its own if and only if the right ones are left. -/
theorem faithful_unsubscribe_iff (h : s.Faithful) {r : ℕ} (hstep : s.unsubscribe r = some s') :
    s'.Faithful ↔ s.TakesOwn (.unsubscribe r) := by
  obtain ⟨listener, hr, rfl⟩ := Option.map_eq_some_iff.mp hstep
  rw [faithful_iff] at h ⊢
  have hown : s.TakesOwn (.unsubscribe r) ↔ s.listeners.find? (· == listener) =
      if r ∈ s.unsubscribed then none else some listener := by
    simp [TakesOwn, hr]
  rw [hown]
  cases hfind : s.listeners.find? (· == listener) with
  | none =>
      have hleft : s.listeners.eraseP (· == listener) = s.listeners :=
        List.eraseP_of_forall_not (by simpa using hfind)
      split
      · rename_i hagain
        rw [live_again hagain]
        simpa [hleft] using h
      · rename_i hfirst
        -- a live listener is always found
        refine iff_of_false (fun hperm => ?_) (by simp)
        have hlonger := (hperm.cons listener).trans (live_perm_of_first hr hfirst _).symm
        have hlength := (hlonger.trans h.symm).length_eq
        simp [hleft] at hlength
  | some found =>
      have htaken := perm_cons_eraseP hfind
      split
      · rename_i hagain
        refine iff_of_false (fun hperm => ?_) (by simp)
        rw [live_again hagain] at hperm
        simpa using (htaken.symm.trans (h.trans hperm.symm)).length_eq
      · rename_i hfirst
        have hlive := live_perm_of_first hr hfirst (s.listeners.eraseP (· == listener))
        have hboth := htaken.symm.trans (h.trans hlive)
        constructor
        · intro hperm
          have hsame : found ::ₘ (s.listeners.eraseP (· == listener) : Multiset α) =
              listener ::ₘ (s.listeners.eraseP (· == listener) : Multiset α) :=
            Multiset.coe_eq_coe.mpr (hboth.trans (hperm.cons listener).symm)
          rw [(Multiset.cons_inj_left _).mp hsame]
        · intro hfound
          obtain rfl : found = listener := by simpa using hfound
          exact hboth.cons_inv

theorem faithful_step (h : s.Faithful) (hgiven : s.Given) {a : RegistryAction α}
    (hown : s.TakesOwn a) (hstep : s.step a = some s') : s'.Faithful := by
  cases a with
  | subscribe listener =>
      obtain rfl := Option.some.inj hstep
      exact faithful_subscribe h hgiven listener
  | unsubscribe r => exact (faithful_unsubscribe_iff h hstep).mpr hown

/-- In every state of a run the next notification invokes exactly those whose own
closure has not been called, as often as they are registered, if and only if
every closure that is called takes its own; and who is invoked does not depend on
what the listeners raise, as long as none but the last raises anything other than
an `Exception`. -/
theorem closures_take_their_own_iff {actions : List (RegistryAction α)}
    (hrun : (machine α).run {} actions = some s) :
    ((machine α).Always Faithful {} actions ↔ (machine α).Meets TakesOwn {} actions) ∧
      ∀ (listeners : List α) (reactions : ℕ → Reaction),
        notify reactions listeners = listeners ↔
          ∀ i, i + 1 < listeners.length → reactions i ≠ .exits := by
  refine ⟨⟨?_, ?_⟩, fun _ _ => notify_eq_self_iff⟩
  · refine Machine.meets_of_always (I := Given) ?_ ?_ (by simp [Given]) hrun
    · exact fun s a s' hgiven hstep => given_step hgiven hstep
    · intro s a s' hgiven hfaithful hnot hstep
      cases a with
      | subscribe listener => exact absurd trivial hnot
      | unsubscribe r => rwa [faithful_unsubscribe_iff hfaithful hstep]
  · refine Machine.always_of_meets (I := fun s : Registry α => s.Given ∧ s.Faithful) ?_
      (fun s hI => hI.2) ⟨by simp [Given], faithful_initial⟩
    intro s a s' hI hown hstep
    exact ⟨given_step hI.1 hstep, faithful_step hI.2 hI.1 hown hstep⟩

end

/-- One listener registered twice, and each closure called once. -/
def bothClosures : List (RegistryAction ℕ) :=
  [.subscribe 7, .subscribe 7, .unsubscribe 1, .unsubscribe 0]

theorem closures_take_their_own_iff_bothClosures :
    (machine ℕ).Always Faithful {} bothClosures := by
  have hany : ((machine ℕ).run {} bothClosures).any fun _ => true := by decide
  obtain ⟨s, hrun, -⟩ := Machine.exists_of_run_any hany
  refine (closures_take_their_own_iff hrun).1.mpr ⟨trivial, fun s₁ h₁ => ⟨trivial, fun s₂ h₂ => ?_⟩⟩
  obtain rfl := Option.some.inj h₁
  obtain rfl := Option.some.inj h₂
  refine ⟨by simp [TakesOwn, subscribe], fun s₃ h₃ => ?_⟩
  obtain rfl := Option.some.inj h₃
  exact ⟨by simp [TakesOwn, subscribe], fun _ _ => trivial⟩

/-- One closure called twice removes the listener that another registered. -/
theorem closure_can_take_another :
    ¬∀ (actions : List (RegistryAction ℕ)) (s : Registry ℕ),
      (machine ℕ).run {} actions = some s → s.Faithful := by
  intro hall
  have hfaithful := hall [.subscribe 7, .subscribe 7, .unsubscribe 0, .unsubscribe 0]
    { listeners := [], registered := [7, 7], unsubscribed := [0, 0] } rfl
  have hlength := (faithful_iff.mp hfaithful).length_eq
  simp [live, List.range_succ] at hlength

/-! ### What the API registers -/

theorem mem_live_iff {s : Registry α} (hnodup : s.registered.Nodup) {r : ℕ} {listener : α}
    (hr : s.registered[r]? = some listener) : listener ∈ s.live ↔ r ∉ s.unsubscribed := by
  have hlt := (List.getElem?_eq_some_iff.mp hr).1
  constructor
  · intro hlive
    obtain ⟨i, hi, hlistener⟩ := List.mem_filterMap.mp hlive
    obtain rfl : r = i := (List.getElem?_inj hlt hnodup).mp (hr.trans hlistener.symm)
    simpa [hlt] using hi
  · intro hfirst
    exact List.mem_filterMap.mpr ⟨r, by simp [hlt, hfirst], hr⟩

section

variable [BEq α] {s s' : Registry α}

/-- What is registered was not registered before: `BedJetAPI.subscribe` makes a
function of its own for every call. -/
def Fresh (s : Registry α) : RegistryAction α → Prop
  | .subscribe listener => listener ∉ s.registered
  | .unsubscribe _ => True

theorem takesOwn_of_nodup [LawfulBEq α] (hnodup : s.registered.Nodup) (h : s.Faithful)
    (a : RegistryAction α) : s.TakesOwn a := by
  cases a with
  | subscribe listener => trivial
  | unsubscribe r =>
      intro listener hr
      have hmem := (faithful_iff.mp h).mem_iff.trans (mem_live_iff hnodup hr)
      split
      · rename_i hagain
        rw [List.find?_eq_none]
        intro other hother heq
        obtain rfl : other = listener := by simpa using heq
        exact hmem.mp hother hagain
      · rename_i hfirst
        have hsome : (s.listeners.find? (· == listener)).isSome :=
          List.find?_isSome.mpr ⟨listener, hmem.mpr hfirst, by simp⟩
        obtain ⟨found, hfound⟩ := Option.isSome_iff_exists.mp hsome
        obtain rfl : found = listener := by simpa using List.find?_some hfound
        exact hfound

theorem nodup_step (hnodup : s.registered.Nodup) {a : RegistryAction α} (hfresh : s.Fresh a)
    (hstep : s.step a = some s') : s'.registered.Nodup := by
  cases a with
  | subscribe listener =>
      obtain rfl := Option.some.inj hstep
      refine List.nodup_append.mpr ⟨hnodup, by simp, ?_⟩
      rintro other hother _ hlistener rfl
      exact hfresh (List.mem_singleton.mp hlistener ▸ hother)
  | unsubscribe r =>
      obtain ⟨listener, -, rfl⟩ := Option.map_eq_some_iff.mp hstep
      exact hnodup

/-- So a client of the API may call its closure as often as it likes: exactly the
clients that have not called theirs are told. -/
theorem clients_are_told [LawfulBEq α] {actions : List (RegistryAction α)}
    (hfresh : (machine α).Meets Fresh {} actions) : (machine α).Always Faithful {} actions := by
  refine Machine.always_of_meets
    (I := fun s : Registry α => s.registered.Nodup ∧ s.Given ∧ s.Faithful) ?_ (fun s hI => hI.2.2)
    ⟨List.nodup_nil, by simp [Given], faithful_initial⟩ hfresh
  rintro s a s' ⟨hnodup, hgiven, hfaithful⟩ hfresh hstep
  have hown := takesOwn_of_nodup hnodup hfaithful a
  exact ⟨nodup_step hnodup hfresh hstep, given_step hgiven hstep,
    faithful_step hfaithful hgiven hown hstep⟩

end

end Registry

end Bedjet.Service
