import Mathlib.Logic.Relation
import Mathlib.Algebra.BigOperators.Group.List.Basic

/-!
# Procedures made of atomic steps

A procedure over a shared store is a tree of atomic steps. A step has a label, changes the store,
and passes the store it found to the rest of the procedure; if the call behind the step throws
instead, the store stays as it was and the step's handler runs. `Prog.run` executes a procedure
alone and without faults, `Prog.stopped` cuts that run short. How several procedures interleave is
the subject of `Pool`.
-/

namespace Interleaving

/-- A procedure with result `α` and error `ε` whose atomic steps act on a store `σ`. -/
inductive Prog (ℓ σ ε α : Type) : Type where
  | ret (a : α)
  | fail (e : ε)
  | act (l : ℓ) (upd : σ → σ) (k : σ → Prog ℓ σ ε α) (h : ε → Prog ℓ σ ε α)

namespace Prog

variable {ℓ σ ε α β : Type}

/-- Run `p`, then `f` on its result. -/
def bind : Prog ℓ σ ε α → (α → Prog ℓ σ ε β) → Prog ℓ σ ε β
  | ret a, f => f a
  | fail e, _ => fail e
  | act l u k h, f => act l u (fun s => (k s).bind f) (fun e => (h e).bind f)

/-- Run `p`, and `H` on the error it ends with. -/
def attempt : Prog ℓ σ ε α → (ε → Prog ℓ σ ε α) → Prog ℓ σ ε α
  | ret a, _ => ret a
  | fail e, H => H e
  | act l u k h, H => act l u (fun s => (k s).attempt H) (fun e => (h e).attempt H)

instance : Monad (Prog ℓ σ ε) where
  pure := ret
  bind := bind

instance : MonadExceptOf ε (Prog ℓ σ ε) where
  throw := fail
  tryCatch := attempt

theorem bind_ret (p : Prog ℓ σ ε α) : p.bind ret = p := by
  induction p with
  | ret a => rfl
  | fail e => rfl
  | act l u k h ihk ihh => simp only [bind, ihk, ihh]

theorem bind_bind {γ : Type} (p : Prog ℓ σ ε α) (f : α → Prog ℓ σ ε β) (g : β → Prog ℓ σ ε γ) :
    (p.bind f).bind g = p.bind fun a => (f a).bind g := by
  induction p with
  | ret a => rfl
  | fail e => rfl
  | act l u k h ihk ihh => simp only [bind, ihk, ihh]

instance : LawfulMonad (Prog ℓ σ ε) := .mk' _ bind_ret (fun _ _ => rfl) bind_bind

/-- The procedure that ends with a given outcome. -/
def ofExcept : Except ε α → Prog ℓ σ ε α
  | .ok a => ret a
  | .error e => fail e

/-- One atomic step: `F` gives its outcome and the store it leaves. -/
def step (l : ℓ) (F : σ → Except ε α × σ) : Prog ℓ σ ε α :=
  act l (fun s => (F s).2) (fun s => ofExcept (F s).1) fail

/-- An atomic step that only reads. -/
def query (l : ℓ) (f : σ → α) : Prog ℓ σ ε α :=
  step l fun s => (.ok (f s), s)

/-- An atomic step that changes the store and cannot be refused. -/
def modify (l : ℓ) (f : σ → σ) : Prog ℓ σ ε Unit :=
  step l fun s => (.ok (), f s)

/-- Run a procedure alone, to its end. -/
def run : Prog ℓ σ ε α → σ → Except ε α × σ
  | ret a, s => (.ok a, s)
  | fail e, s => (.error e, s)
  | act _ u k _, s => (k s).run (u s)

/-- A whole procedure as one atomic step. -/
def atomically (l : ℓ) (p : Prog ℓ σ ε α) : Prog ℓ σ ε α :=
  step l p.run

/-- The procedure has returned or thrown. -/
def ended : Prog ℓ σ ε α → Bool
  | ret _ => true
  | fail _ => true
  | act _ _ _ _ => false

/-- How the procedure has ended, if it has. -/
def outcome : Prog ℓ σ ε α → Option (Except ε α)
  | ret a => some (.ok a)
  | fail e => some (.error e)
  | act _ _ _ _ => none

/-- Forget the result and the error. -/
def void (p : Prog ℓ σ ε α) : Prog ℓ σ ε Unit :=
  (p.bind fun _ => ret ()).attempt fun _ => ret ()

/-! ## Running alone -/

@[simp] theorem run_ret (a : α) (s : σ) : (ret a : Prog ℓ σ ε α).run s = (.ok a, s) := rfl

@[simp] theorem run_pure (a : α) (s : σ) : (pure a : Prog ℓ σ ε α).run s = (.ok a, s) := rfl

@[simp] theorem run_fail (e : ε) (s : σ) : (fail e : Prog ℓ σ ε α).run s = (.error e, s) := rfl

@[simp] theorem run_throw (e : ε) (s : σ) : (throw e : Prog ℓ σ ε α).run s = (.error e, s) := rfl

@[simp] theorem run_step (l : ℓ) (F : σ → Except ε α × σ) (s : σ) : (step l F).run s = F s := by
  rcases h : F s with ⟨r, s'⟩
  cases r <;> simp [step, run, ofExcept, h]

@[simp] theorem run_query (l : ℓ) (f : σ → α) (s : σ) :
    (query l f : Prog ℓ σ ε α).run s = (.ok (f s), s) := run_step _ _ _

@[simp] theorem run_modify (l : ℓ) (f : σ → σ) (s : σ) :
    (modify l f : Prog ℓ σ ε Unit).run s = (.ok (), f s) := run_step _ _ _

@[simp] theorem run_atomically (l : ℓ) (p : Prog ℓ σ ε α) (s : σ) :
    (atomically l p).run s = p.run s := run_step _ _ _

theorem run_bind' (p : Prog ℓ σ ε α) (f : α → Prog ℓ σ ε β) (s : σ) :
    (p.bind f).run s = match p.run s with
      | (.ok a, s') => (f a).run s'
      | (.error e, s') => (.error e, s') := by
  induction p generalizing s with
  | ret a => rfl
  | fail e => rfl
  | act l u k h ih _ => exact ih s (u s)

/-- Sequencing runs the second procedure on the outcome of the first. -/
theorem run_bind (p : Prog ℓ σ ε α) (f : α → Prog ℓ σ ε β) (s : σ) :
    (p >>= f).run s = match p.run s with
      | (.ok a, s') => (f a).run s'
      | (.error e, s') => (.error e, s') := run_bind' p f s

/-- A handler runs on the store the failed procedure left. -/
theorem run_attempt (p : Prog ℓ σ ε α) (H : ε → Prog ℓ σ ε α) (s : σ) :
    (p.attempt H).run s = match p.run s with
      | (.ok a, s') => (.ok a, s')
      | (.error e, s') => (H e).run s' := by
  induction p generalizing s with
  | ret a => rfl
  | fail e => rfl
  | act l u k h ih _ => exact ih s (u s)

/-- Forgetting the result keeps the store. -/
theorem run_void (p : Prog ℓ σ ε α) (s : σ) : (p.void.run s).2 = (p.run s).2 := by
  simp only [void, run_attempt, run_bind']
  rcases p.run s with ⟨_ | _, _⟩ <;> rfl

/-! ## Stopping half way -/

/-- How a run is cut short after some of its steps: the process dies, or the next step throws. -/
inductive Stop (ε : Type) where
  | dies
  | throws (e : ε)

/-- The store a lone run leaves when it stops after `n` steps. -/
def stopped : Prog ℓ σ ε α → ℕ → Stop ε → σ → σ
  | ret _, _, _, s => s
  | fail _, _, _, s => s
  | act _ _ _ _, 0, .dies, s => s
  | act _ _ _ h, 0, .throws e, s => ((h e).run s).2
  | act _ u k _, n + 1, st, s => (k s).stopped n st (u s)

/-- The number of steps of a lone run. -/
def length : Prog ℓ σ ε α → σ → ℕ
  | ret _, _ => 0
  | fail _, _ => 0
  | act _ u k _, s => (k s).length (u s) + 1

@[simp] theorem stopped_throw (e : ε) (n : ℕ) (st : Stop ε) (s : σ) :
    (throw e : Prog ℓ σ ε α).stopped n st s = s := by
  cases n <;> rfl

/-- A stop before a step that has no handler leaves the store as it is. -/
@[simp] theorem stopped_step_bind_zero (l : ℓ) (F : σ → Except ε β × σ) (f : β → Prog ℓ σ ε α)
    (st : Stop ε) (s : σ) : (step l F >>= f).stopped 0 st s = s := by
  cases st <;> rfl

theorem stopped_step_bind_succ (l : ℓ) (F : σ → Except ε β × σ) (f : β → Prog ℓ σ ε α)
    (n : ℕ) (st : Stop ε) (s : σ) :
    (step l F >>= f).stopped (n + 1) st s = match F s with
      | (.ok a, s') => (f a).stopped n st s'
      | (.error _, s') => s' := by
  show ((ofExcept (F s).1).bind f).stopped n st (F s).2 = _
  rcases F s with ⟨_ | _, _⟩
  · cases n <;> rfl
  · rfl

@[simp] theorem stopped_query_bind_zero (l : ℓ) (g : σ → β) (f : β → Prog ℓ σ ε α)
    (st : Stop ε) (s : σ) : (query l g >>= f).stopped 0 st s = s := stopped_step_bind_zero _ _ _ _ _

@[simp] theorem stopped_query_bind_succ (l : ℓ) (g : σ → β) (f : β → Prog ℓ σ ε α) (n : ℕ)
    (st : Stop ε) (s : σ) :
    (query l g >>= f).stopped (n + 1) st s = (f (g s)).stopped n st s := rfl

/-- A stop after the last step changes nothing. -/
theorem stopped_of_length_le (p : Prog ℓ σ ε α) (s : σ) (n : ℕ) (st : Stop ε)
    (hn : p.length s ≤ n) : p.stopped n st s = (p.run s).2 := by
  induction p generalizing s n with
  | ret a => cases n <;> rfl
  | fail e => cases n <;> rfl
  | act l u k h ih _ =>
      obtain ⟨n, rfl⟩ : ∃ m, n = m + 1 := ⟨n - 1, by simp only [length] at hn; omega⟩
      exact ih s (u s) n (by simpa [length] using hn)

/-! ## Results -/

/-- Every result that the procedure can return satisfies `Q`, whatever stores its steps find. -/
inductive Yields (Q : α → Prop) : Prog ℓ σ ε α → Prop
  | ret {a : α} : Q a → Yields Q (ret a)
  | fail (e : ε) : Yields Q (fail e)
  | act {l : ℓ} {u : σ → σ} {k : σ → Prog ℓ σ ε α} {h : ε → Prog ℓ σ ε α} :
      (∀ s, Yields Q (k s)) → (∀ e, Yields Q (h e)) → Yields Q (act l u k h)

theorem yields_true (p : Prog ℓ σ ε α) : p.Yields fun _ => True := by
  induction p with
  | ret a => exact .ret trivial
  | fail e => exact .fail e
  | act l u k h ihk ihh => exact .act ihk ihh

theorem yields_step {Q : α → Prop} {l : ℓ} {F : σ → Except ε α × σ}
    (h : ∀ s a, (F s).1 = .ok a → Q a) : (step l F).Yields Q := by
  refine .act (fun s => ?_) .fail
  rcases hF : (F s).1 with e | a
  · exact .fail e
  · exact .ret (h s a hF)

theorem yields_pure {Q : α → Prop} {a : α} (h : Q a) : (pure a : Prog ℓ σ ε α).Yields Q := .ret h

theorem yields_throw {Q : α → Prop} (e : ε) : (throw e : Prog ℓ σ ε α).Yields Q := .fail e

theorem yields_bind {R : β → Prop} {Q : α → Prop} {p : Prog ℓ σ ε β} {f : β → Prog ℓ σ ε α}
    (hp : p.Yields R) (hf : ∀ b, R b → (f b).Yields Q) : (p >>= f).Yields Q := by
  show (p.bind f).Yields Q
  induction hp with
  | ret hb => exact hf _ hb
  | fail e => exact .fail e
  | act _ _ ihk ihh => exact .act ihk ihh

/-! ## Frames -/

/-- Every atomic step of the procedure stays within the relation `R`, whatever store it finds. -/
inductive Keeps (R : σ → σ → Prop) : Prog ℓ σ ε α → Prop
  | ret (a : α) : Keeps R (ret a)
  | fail (e : ε) : Keeps R (fail e)
  | act {l : ℓ} {u : σ → σ} {k : σ → Prog ℓ σ ε α} {h : ε → Prog ℓ σ ε α} :
      (∀ s, R s (u s)) → (∀ s, Keeps R (k s)) → (∀ e, Keeps R (h e)) → Keeps R (act l u k h)

section Keeps

variable {R : σ → σ → Prop}

theorem keeps_pure (a : α) : (pure a : Prog ℓ σ ε α).Keeps R := .ret a

theorem keeps_throw (e : ε) : (throw e : Prog ℓ σ ε α).Keeps R := .fail e

theorem keeps_step {l : ℓ} {F : σ → Except ε α × σ} (h : ∀ s, R s (F s).2) :
    (step l F).Keeps R := by
  refine .act h (fun s => ?_) .fail
  cases (F s).1 with
  | ok a => exact .ret a
  | error e => exact .fail e

theorem keeps_query (hR : ∀ s, R s s) (l : ℓ) (f : σ → α) :
    (query l f : Prog ℓ σ ε α).Keeps R := keeps_step hR

theorem keeps_modify {l : ℓ} {f : σ → σ} (h : ∀ s, R s (f s)) :
    (modify l f : Prog ℓ σ ε Unit).Keeps R := keeps_step h

theorem keeps_bind {p : Prog ℓ σ ε β} {f : β → Prog ℓ σ ε α} (hp : p.Keeps R)
    (hf : ∀ b, (f b).Keeps R) : (p >>= f).Keeps R := by
  show (p.bind f).Keeps R
  induction hp with
  | ret b => exact hf b
  | fail e => exact .fail e
  | act hu _ _ ihk ihh => exact .act hu ihk ihh

/-- What follows may count on the results that the first part can return. -/
theorem keeps_seq {Q : β → Prop} {p : Prog ℓ σ ε β} {f : β → Prog ℓ σ ε α} (hp : p.Keeps R)
    (hQ : p.Yields Q) (hf : ∀ b, Q b → (f b).Keeps R) : (p >>= f).Keeps R := by
  show (p.bind f).Keeps R
  induction hp with
  | ret b =>
      cases hQ with
      | ret hb => exact hf b hb
  | fail e => exact .fail e
  | act hu _ _ ihk ihh =>
      cases hQ with
      | act hk hh => exact .act hu (fun s => ihk s (hk s)) fun e => ihh e (hh e)

theorem keeps_attempt {p : Prog ℓ σ ε α} {H : ε → Prog ℓ σ ε α} (hp : p.Keeps R)
    (hH : ∀ e, (H e).Keeps R) : (p.attempt H).Keeps R := by
  induction hp with
  | ret a => exact .ret a
  | fail e => exact hH e
  | act hu _ _ ihk ihh => exact .act hu ihk ihh

theorem keeps_ite {c : Prop} [Decidable c] {p q : Prog ℓ σ ε α} (hp : p.Keeps R) (hq : q.Keeps R) :
    (if c then p else q).Keeps R := by
  split
  · exact hp
  · exact hq

/-- A wider frame is easier to stay in. -/
theorem Keeps.mono {R' : σ → σ → Prop} {p : Prog ℓ σ ε α} (hp : p.Keeps R)
    (h : ∀ s s', R s s' → R' s s') : p.Keeps R' := by
  induction hp with
  | ret a => exact .ret a
  | fail e => exact .fail e
  | act hu _ _ ihk ihh => exact .act (fun s => h _ _ (hu s)) ihk ihh

/-- A procedure within two frames is within both. -/
theorem Keeps.and {R' : σ → σ → Prop} {p : Prog ℓ σ ε α} (hp : p.Keeps R) (hp' : p.Keeps R') :
    p.Keeps fun s s' => R s s' ∧ R' s s' := by
  induction hp with
  | ret a => exact .ret a
  | fail e => exact .fail e
  | act hu _ _ ihk ihh =>
    cases hp' with
    | act hu' hk' hh' => exact .act (fun s => ⟨hu s, hu' s⟩) (fun s => ihk s (hk' s)) fun e => ihh e (hh' e)

/-- A whole run stays within a reflexive and transitive frame. -/
theorem Keeps.run {p : Prog ℓ σ ε α} (hp : p.Keeps R) (hrefl : ∀ s, R s s)
    (htrans : ∀ s₁ s₂ s₃, R s₁ s₂ → R s₂ s₃ → R s₁ s₃) (s : σ) : R s (p.run s).2 := by
  induction hp generalizing s with
  | ret a => exact hrefl s
  | fail e => exact hrefl s
  | act hu _ _ ihk _ => exact htrans _ _ _ (hu s) (ihk s _)

/-- So does a run that stops half way. -/
theorem Keeps.stopped {p : Prog ℓ σ ε α} (hp : p.Keeps R) (hrefl : ∀ s, R s s)
    (htrans : ∀ s₁ s₂ s₃, R s₁ s₂ → R s₂ s₃ → R s₁ s₃) (n : ℕ) (st : Stop ε) (s : σ) :
    R s (p.stopped n st s) := by
  induction hp generalizing s n with
  | ret a => cases n <;> exact hrefl s
  | fail e => cases n <;> exact hrefl s
  | act hu _ hh ihk _ =>
      cases n with
      | zero =>
          cases st with
          | dies => exact hrefl s
          | throws e => exact (hh e).run hrefl htrans s
      | succ n => exact htrans _ _ _ (hu s) (ihk s n _)

end Keeps

/-! ## The step that makes the effect -/

/-- The procedure, run from `s`, changes nothing before its `k`-th step and has established `D` from
that step on, wherever it stops. -/
structure Pivot (D : σ → Prop) (p : Prog ℓ σ ε α) (s : σ) (k : ℕ) : Prop where
  before : ∀ n st, n < k → p.stopped n st s = s
  after : ∀ n st, k ≤ n → D (p.stopped n st s)

section Pivot

variable {D : σ → Prop} {s : σ} {k : ℕ}

/-- A read before the pivot. -/
theorem Pivot.query_bind {l : ℓ} {g : σ → β} {f : β → Prog ℓ σ ε α} (h : Pivot D (f (g s)) s k) :
    Pivot D (query l g >>= f) s (k + 1) where
  before n st hn := by
    cases n with
    | zero => rw [stopped_query_bind_zero]
    | succ n => rw [stopped_query_bind_succ, h.before n st (by omega)]
  after n st hn := by
    obtain ⟨n, rfl⟩ : ∃ m, n = m + 1 := ⟨n - 1, by omega⟩
    rw [stopped_query_bind_succ]
    exact h.after n st (by omega)

/-- The step that establishes `D`, before a rest that keeps it. -/
theorem Pivot.step_bind {l : ℓ} {F : σ → Except ε β × σ} {f : β → Prog ℓ σ ε α} {b : β} {s' : σ}
    (hF : F s = (.ok b, s')) (hD : D s') (hf : (f b).Keeps fun s s' => D s → D s') :
    Pivot D (step l F >>= f) s 1 where
  before n st hn := by
    obtain rfl : n = 0 := by omega
    exact stopped_step_bind_zero l F f st s
  after n st hn := by
    obtain ⟨n, rfl⟩ : ∃ m, n = m + 1 := ⟨n - 1, by omega⟩
    rw [stopped_step_bind_succ, hF]
    exact hf.stopped (fun _ h => h) (fun _ _ _ h h' hs => h' (h hs)) n st s' hD

/-- A whole run passes the pivot. -/
theorem Pivot.run {p : Prog ℓ σ ε α} (h : Pivot D p s k) : D (p.run s).2 := by
  rw [← stopped_of_length_le p s (max k (p.length s)) .dies (Nat.le_max_right _ _)]
  exact h.after _ _ (Nat.le_max_left _ _)

end Pivot

/-! ## Weakest preconditions -/

/-- After a lone run of `p` from `s`, `Q` holds of a result and `E` of an error, with the store. -/
def wp (p : Prog ℓ σ ε α) (Q : α → σ → Prop) (E : ε → σ → Prop) (s : σ) : Prop :=
  match p.run s with
  | (.ok a, s') => Q a s'
  | (.error e, s') => E e s'

variable {Q : α → σ → Prop} {E : ε → σ → Prop} {s : σ}

@[simp] theorem wp_pure (a : α) : wp (pure a : Prog ℓ σ ε α) Q E s ↔ Q a s := Iff.rfl

@[simp] theorem wp_throw (e : ε) : wp (throw e : Prog ℓ σ ε α) Q E s ↔ E e s := Iff.rfl

@[simp] theorem wp_bind (p : Prog ℓ σ ε β) (f : β → Prog ℓ σ ε α) :
    wp (p >>= f) Q E s ↔ wp p (fun b s' => wp (f b) Q E s') E s := by
  simp only [wp, run_bind]
  rcases p.run s with ⟨_ | _, _⟩ <;> rfl

@[simp] theorem wp_attempt (p : Prog ℓ σ ε α) (H : ε → Prog ℓ σ ε α) :
    wp (p.attempt H) Q E s ↔ wp p Q (fun e s' => wp (H e) Q E s') s := by
  simp only [wp, run_attempt]
  rcases p.run s with ⟨_ | _, _⟩ <;> rfl

@[simp] theorem wp_query (l : ℓ) (f : σ → α) : wp (query l f : Prog ℓ σ ε α) Q E s ↔ Q (f s) s := by
  simp [wp]

@[simp] theorem wp_modify (l : ℓ) (f : σ → σ) {Q : Unit → σ → Prop} :
    wp (modify l f : Prog ℓ σ ε Unit) Q E s ↔ Q () (f s) := by
  simp [wp]

@[simp] theorem wp_atomically (l : ℓ) (p : Prog ℓ σ ε α) :
    wp (atomically l p) Q E s ↔ wp p Q E s := by
  simp [wp]

theorem wp_step (l : ℓ) (F : σ → Except ε α × σ) :
    wp (step l F) Q E s ↔ match F s with
      | (.ok a, s') => Q a s'
      | (.error e, s') => E e s' := by
  simp [wp]

/-- A weaker postcondition is easier to reach. -/
theorem wp_mono {Q' : α → σ → Prop} {E' : ε → σ → Prop} (p : Prog ℓ σ ε α)
    (hp : wp p Q E s) (hQ : ∀ a s', Q a s' → Q' a s') (hE : ∀ e s', E e s' → E' e s') :
    wp p Q' E' s := by
  simp only [wp] at hp ⊢
  rcases h : p.run s with ⟨_ | _, _⟩ <;> simp only [h] at hp ⊢
  · exact hE _ _ hp
  · exact hQ _ _ hp

/-- A postcondition that ignores the outcome is about the store that the run leaves. -/
theorem wp_store_iff {P : σ → Prop} (p : Prog ℓ σ ε α) :
    wp p (fun _ => P) (fun _ => P) s ↔ P (p.run s).2 := by
  simp only [wp]
  rcases p.run s with ⟨_ | _, _⟩ <;> rfl

/-- A postcondition may also speak about the store that the run leaves. -/
theorem wp_run (p : Prog ℓ σ ε α) (hp : wp p Q E s) :
    wp p (fun a s' => Q a s' ∧ s' = (p.run s).2) (fun e s' => E e s' ∧ s' = (p.run s).2) s := by
  simp only [wp] at hp ⊢
  rcases h : p.run s with ⟨_ | _, _⟩ <;> simp only [h] at hp ⊢
  · exact ⟨hp, trivial⟩
  · exact ⟨hp, trivial⟩

end Prog

end Interleaving
