import SRPanel.Lib.Made

/-!
# Procedures whose steps may fail

`Outcome` is the meaning of a procedure that runs alone while some of its steps throw: a step that
fails changes nothing, and its handler runs. `Ensures` is the proof rule for it, a weakest
precondition that follows the text of the procedure. As for interleavings, the steps of a run may be
promised to find the store in a certain relation to their label (`ok`), and `fails` says which steps
may fail in which store.

`Serial.Trial` chains such outcomes into runs of calls that do not overlap.
-/

namespace Interleaving

open Relation (ReflTransGen)

variable {ℓ σ ε α β : Type}

/-- The procedure, run alone from the first store, can end with the given result and the second
store. -/
inductive Outcome (ok fails : ℓ → σ → Prop) : Prog ℓ σ ε α → σ → Except ε α → σ → Prop
  | ret (a : α) (s : σ) : Outcome ok fails (.ret a) s (.ok a) s
  | fail (e : ε) (s : σ) : Outcome ok fails (.fail e) s (.error e) s
  | act {l : ℓ} {u : σ → σ} {k : σ → Prog ℓ σ ε α} {h : ε →
      Prog ℓ σ ε α} {s s' : σ} {r : Except ε α} : ok l s → Outcome ok fails (k s) (u s) r s' →
      Outcome ok fails (.act l u k h) s r s'
  | fault {l : ℓ} {u : σ → σ} {k : σ → Prog ℓ σ ε α} {h : ε →
      Prog ℓ σ ε α} {s s' : σ} {r : Except ε α} (e : ε) :
      fails l s → Outcome ok fails (h e) s r s' → Outcome ok fails (.act l u k h) s r s'

/-- However the procedure ends from the store `s`, `Q` holds of a result and `E` of an error, with
the store that is left. -/
def Ensures (ok fails : ℓ → σ → Prop) (Q : α → σ → Prop) (E : ε → σ → Prop) :
    Prog ℓ σ ε α → σ → Prop
  | .ret a, s => Q a s
  | .fail e, s => E e s
  | .act l u k h, s => (ok l s → Ensures ok fails Q E (k s) (u s)) ∧
      ∀ e, fails l s → Ensures ok fails Q E (h e) s

section Rules

variable {ok fails : ℓ → σ → Prop} {Q : α → σ → Prop} {E : ε → σ → Prop} {s : σ}

theorem ensures_pure {a : α} (h : Q a s) : Ensures ok fails Q E (pure a) s := h

theorem ensures_throw {e : ε} (h : E e s) : Ensures ok fails Q E (throw e) s := h

theorem ensures_ite {c : Prop} [Decidable c] {p q : Prog ℓ σ ε α}
    (hp : c → Ensures ok fails Q E p s) (hq : ¬c → Ensures ok fails Q E q s) :
    Ensures ok fails Q E (if c then p else q) s := by
  split
  · next h => exact hp h
  · next h => exact hq h

theorem ensures_ofExcept {r : Except ε α} (hQ : ∀ a, r = .ok a → Q a s)
    (hE : ∀ e, r = .error e → E e s) : Ensures ok fails Q E (Prog.ofExcept r) s := by
  cases r with
  | ok a => exact hQ a rfl
  | error e => exact hE e rfl

/-- The rule for one atomic step. -/
theorem ensures_step {l : ℓ} {F : σ → Except ε α × σ}
    (hdone : ok l s → (∀ a, (F s).1 = .ok a → Q a (F s).2) ∧ ∀ e, (F s).1 = .error e → E e (F s).2)
    (hfault : ∀ e, fails l s → E e s) : Ensures ok fails Q E (Prog.step l F) s := by
  refine ⟨fun hok => ?_, hfault⟩
  obtain ⟨hQ, hE⟩ := hdone hok
  exact ensures_ofExcept hQ hE

/-- A step that only reads. -/
theorem ensures_query {l : ℓ} {f : σ → α} (h : ok l s → Q (f s) s)
    (hfault : ∀ e, fails l s → E e s) : Ensures ok fails Q E (Prog.query l f) s := by
  refine ensures_step (fun hok => ⟨?_, fun _ h => nomatch h⟩) hfault
  rintro a ⟨⟩
  exact h hok

theorem ensures_mono {P : α → σ → Prop} {H : ε → σ → Prop} {p : Prog ℓ σ ε α}
    (hp : Ensures ok fails P H p s) (hQ : ∀ a s, P a s → Q a s) (hE : ∀ e s, H e s → E e s) :
    Ensures ok fails Q E p s := by
  induction p generalizing s with
  | ret a => exact hQ a s hp
  | fail e => exact hE e s hp
  | act l u k h ihk ihh => exact ⟨fun hok => ihk s (hp.1 hok), fun e he => ihh e (hp.2 e he)⟩

/-- The rule for sequencing. -/
theorem ensures_bind {P : β → σ → Prop} {p : Prog ℓ σ ε β} {f : β → Prog ℓ σ ε α}
    (hp : Ensures ok fails P E p s) (hf : ∀ b s, P b s → Ensures ok fails Q E (f b) s) :
    Ensures ok fails Q E (p >>= f) s := by
  show Ensures ok fails Q E (p.bind f) s
  induction p generalizing s with
  | ret b => exact hf b s hp
  | fail e => exact hp
  | act l u k h ihk ihh => exact ⟨fun hok => ihk s (hp.1 hok), fun e he => ihh e (hp.2 e he)⟩

/-- The rule for handlers. -/
theorem ensures_attempt {H : ε → σ → Prop} {p : Prog ℓ σ ε α} {q : ε → Prog ℓ σ ε α}
    (hp : Ensures ok fails Q H p s) (hq : ∀ e s, H e s → Ensures ok fails Q E (q e) s) :
    Ensures ok fails Q E (p.attempt q) s := by
  induction p generalizing s with
  | ret a => exact hp
  | fail e => exact hq e s hp
  | act l u k h ihk ihh => exact ⟨fun hok => ihk s (hp.1 hok), fun e he => ihh e (hp.2 e he)⟩

/-- A procedure within a frame keeps what the frame keeps, whichever of its steps fail. -/
theorem ensures_of_keeps {R : σ → σ → Prop} {P : σ → Prop} {p : Prog ℓ σ ε α} (hp : p.Keeps R)
    (hR : ∀ s s', R s s' → P s → P s') (hs : P s) :
    Ensures ok fails (fun _ s => P s) (fun _ s => P s) p s := by
  induction hp generalizing s with
  | ret a => exact hs
  | fail e => exact hs
  | act hu _ _ ihk ihh => exact ⟨fun _ => ihk s (hR _ _ (hu s) hs), fun e _ => ihh e hs⟩

/-- What all results satisfy may be used of the result at hand. -/
theorem ensures_yields {P : α → Prop} {p : Prog ℓ σ ε α} (hp : Ensures ok fails Q E p s)
    (hP : p.Yields P) : Ensures ok fails (fun a s => Q a s ∧ P a) E p s := by
  induction hP generalizing s with
  | ret h => exact ⟨hp, h⟩
  | fail e => exact hp
  | act _ _ ihk ihh => exact ⟨fun hok => ihk s (hp.1 hok), fun e he => ihh e (hp.2 e he)⟩

/-- Forgetting the outcome. -/
theorem ensures_void {P : σ → Prop} {p : Prog ℓ σ ε α}
    (hp : Ensures ok fails (fun _ s => P s) (fun _ s => P s) p s) :
    Ensures ok fails (fun _ s => P s) (fun _ s => P s) p.void s :=
  ensures_attempt (ensures_bind hp fun _ _ h => h) fun _ _ h => h

/-- A procedure keeps what its frame and its parts keep. -/
theorem Made.ensures {R : σ → σ → Prop} {K : ∀ {α : Type}, Prog ℓ σ ε α → Prop} {P : σ → Prop}
    {p : Prog ℓ σ ε α} (hp : Made R K p) (hR : ∀ s s', R s s' → P s → P s')
    (hK : ∀ {α : Type} {p : Prog ℓ σ ε α} {s : σ}, K p → P s →
      Ensures ok fails (fun _ s => P s) (fun _ s => P s) p s) (hs : P s) :
    Ensures ok fails (fun _ s => P s) (fun _ s => P s) p s := by
  induction hp generalizing s with
  | frame hp => exact ensures_of_keeps hp hR hs
  | part hp => exact hK hp hs
  | seq _ hQ _ ihp ihf => exact ensures_bind (ensures_yields (ihp hs) hQ) fun b _ h => ihf b h.2 h.1
  | attempt _ _ ihp ihH => exact ensures_attempt (ihp hs) fun e _ h => ihH e h

/-- What is ensured holds of every outcome. -/
theorem Ensures.outcome {p : Prog ℓ σ ε α} (hp : Ensures ok fails Q E p s) {r : Except ε α} {s' : σ}
    (h : Outcome ok fails p s r s') :
    (∀ a, r = .ok a → Q a s') ∧ ∀ e, r = .error e → E e s' := by
  induction h with
  | ret a s =>
      refine ⟨?_, fun _ h => nomatch h⟩
      rintro _ ⟨⟩
      exact hp
  | fail e s =>
      refine ⟨fun _ h => (nomatch h), ?_⟩
      rintro _ ⟨⟩
      exact hp
  | act hok _ ih => exact ih (hp.1 hok)
  | fault e he _ ih => exact ih (hp.2 e he)

end Rules

attribute [irreducible] Ensures

/-! ## Runs without a fault -/

section Run

variable {ok fails : ℓ → σ → Prop}

/-- Every step of the run of `p` from the store meets the condition. -/
def Prog.heeds (ok : ℓ → σ → Bool) : Prog ℓ σ ε α → σ → Bool
  | .ret _, _ => true
  | .fail _, _ => true
  | .act l u k _, s => ok l s && (k s).heeds ok (u s)

/-- A run whose steps meet the condition is an outcome. -/
theorem Outcome.run [∀ l s, Decidable (ok l s)] {p : Prog ℓ σ ε α} {s : σ}
    (h : p.heeds (fun l s => ok l s) s) : Outcome ok fails p s (p.run s).1 (p.run s).2 := by
  induction p generalizing s with
  | ret a => exact .ret a s
  | fail e => exact .fail e s
  | act l u k _ ihk _ =>
      rw [Prog.heeds, Bool.and_eq_true, decide_eq_true_eq] at h
      exact .act h.1 (ihk s h.2)

/-- A lone run is an outcome when nothing is asked of its steps. -/
theorem Outcome.run_free (p : Prog ℓ σ ε α) (s : σ) :
    Outcome (fun _ _ => True) fails p s (p.run s).1 (p.run s).2 := by
  induction p generalizing s with
  | ret a => exact .ret a s
  | fail e => exact .fail e s
  | act l u k _ ihk _ => exact .act trivial (ihk s (u s))

/-- Run a procedure alone while every step with one of the labels fails. -/
def Prog.runFailing (bad : ℓ → Bool) (e : ε) : Prog ℓ σ ε α → σ → Except ε α × σ
  | .ret a, s => (.ok a, s)
  | .fail e', s => (.error e', s)
  | .act l u k h, s => if bad l then (h e).runFailing bad e s else (k s).runFailing bad e (u s)

/-- Such a run is an outcome when any step may fail. -/
theorem Outcome.runFailing (bad : ℓ → Bool) (e : ε) (p : Prog ℓ σ ε α) (s : σ) :
    Outcome (fun _ _ => True) (fun _ _ => True) p s (p.runFailing bad e s).1
      (p.runFailing bad e s).2 := by
  induction p generalizing s with
  | ret a => exact .ret a s
  | fail e' => exact .fail e' s
  | act l u k h ihk ihh =>
      rw [Prog.runFailing]
      split
      · exact .fault e trivial (ihh e s)
      · exact .act trivial (ihk s (u s))

/-- Run a procedure alone while the steps that the list marks fail, with the error `e`. -/
def Prog.runFaults (e : ε) : List Bool → Prog ℓ σ ε α → σ → Except ε α × σ
  | _, .ret a, s => (.ok a, s)
  | _, .fail e', s => (.error e', s)
  | [], .act _ u k _, s => (k s).run (u s)
  | false :: faults, .act _ u k _, s => (k s).runFaults e faults (u s)
  | true :: faults, .act _ _ _ h, s => (h e).runFaults e faults s

/-- Every step that the list marks may fail. -/
def Prog.mayFail (fails : ℓ → σ → Bool) (e : ε) : List Bool → Prog ℓ σ ε α → σ → Bool
  | _, .ret _, _ => true
  | _, .fail _, _ => true
  | [], .act _ _ _ _, _ => true
  | false :: faults, .act _ u k _, s => (k s).mayFail fails e faults (u s)
  | true :: faults, .act l _ _ h, s => fails l s && (h e).mayFail fails e faults s

/-- A run with these faults is an outcome. -/
theorem Outcome.runFaults {fails : ℓ → σ → Prop} [∀ l s, Decidable (fails l s)] (e : ε)
    (faults : List Bool) {p : Prog ℓ σ ε α} {s : σ}
    (h : p.mayFail (fun l s => fails l s) e faults s) :
    Outcome (fun _ _ => True) fails p s (p.runFaults e faults s).1 (p.runFaults e faults s).2 := by
  induction p generalizing s faults with
  | ret a => cases faults <;> exact .ret a s
  | fail e' => cases faults <;> exact .fail e' s
  | act l u k h' ihk ihh =>
      cases faults with
      | nil => exact .act trivial (.run_free (k s) (u s))
      | cons fault faults =>
          cases fault with
          | false => exact .act trivial (ihk s faults h)
          | true =>
              rw [Prog.mayFail, Bool.and_eq_true, decide_eq_true_eq] at h
              exact .fault e h.1 (ihh e faults h.2)

end Run

/-! ## Runs of calls -/

namespace Serial

variable {κ : Type}

/-- One call runs alone to one of its outcomes, or the outside world changes the store. -/
inductive Trial (call : κ → Prog ℓ σ ε Unit) (env : σ → σ → Prop) (ok fails : ℓ → σ → Prop)
    (allow : κ → σ → Prop) : σ → σ → Prop
  | call {s s' : σ} {r : Except ε Unit} (c : κ) : allow c s → Outcome ok fails (call c) s r s' →
      Trial call env ok fails allow s s'
  | env {s s' : σ} : env s s' → Trial call env ok fails allow s s'

/-- Runs of calls that do not overlap, each to one of its outcomes. -/
def Trials (call : κ → Prog ℓ σ ε Unit) (env : σ → σ → Prop) (ok fails : ℓ → σ → Prop)
    (allow : κ → σ → Prop) : σ → σ → Prop :=
  ReflTransGen (Trial call env ok fails allow)

variable {call : κ → Prog ℓ σ ε Unit} {env : σ → σ → Prop} {ok fails : ℓ → σ → Prop}
  {allow : κ → σ → Prop}

/-- The calls in order meet the condition on their steps. -/
def heed (call : κ → Prog ℓ σ ε Unit) (ok : ℓ → σ → Bool) : List κ → σ → Bool
  | [], _ => true
  | c :: cs, s => (call c).heeds ok s && heed call ok cs ((call c).run s).2

/-- Making calls in order, none of whose steps fails, is a run. -/
theorem calls_trials [∀ l s, Decidable (ok l s)] (env : σ → σ → Prop) (cs : List κ) (s : σ)
    (h : heed call (fun l s => ok l s) cs s) :
    Trials call env ok fails (fun _ _ => True) s (calls call cs s) := by
  induction cs generalizing s with
  | nil => exact .refl
  | cons c cs ih =>
      rw [heed, Bool.and_eq_true] at h
      exact .head (.call c trivial (.run h.1)) (ih _ h.2)

/-- Nothing is asked of their steps. -/
theorem calls_trials_free (env : σ → σ → Prop) (cs : List κ) (s : σ) :
    Trials call env (fun _ _ => True) fails (fun _ _ => True) s (calls call cs s) := by
  induction cs generalizing s with
  | nil => exact .refl
  | cons c cs ih => exact .head (.call c trivial (.run_free _ s)) (ih _)

/-- What every call ensures and every outside change keeps holds after a run. -/
theorem Trials.invariant {I : σ → Prop} {s s' : σ}
    (h : Trials call env ok fails allow s s') (h0 : I s) (hcall : ∀ c s, I s → allow c s →
      Ensures ok fails (fun _ s => I s) (fun _ s => I s) (call c) s)
    (henv : ∀ s s', I s → env s s' → I s') : I s' := by
  induction h with
  | refl => exact h0
  | tail _ hstep ih =>
      cases hstep with
      | @call r c hallow hout =>
          obtain ⟨hok, herror⟩ := (hcall c _ ih hallow).outcome hout
          cases r with
          | ok a => exact hok a rfl
          | error e => exact herror e rfl
      | env he => exact henv _ _ ih he

end Serial

end Interleaving
