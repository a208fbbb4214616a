import SRPanel.Lib.Reads
import Mathlib.Order.Defs.Unbundled

/-!
# A procedure amid moves of others

`Ends R p s r s'` runs one procedure to its end while others move the store, within the preorder
`R`, before each of its steps and after the last one. `Amid` is the precondition for it, with a rule
for each way to build a procedure. A procedure that only reads ends where the others have moved the
store, whatever it has seen.
-/

namespace Interleaving

variable {ℓ ℓ' σ τ ε α β : Type}

/-- The procedure, begun on `s`, ends with the outcome `r` on `s'`. -/
inductive Ends (R : σ → σ → Prop) : Prog ℓ σ ε α → σ → Except ε α → σ → Prop
  | ret {a : α} {s s' : σ} : R s s' → Ends R (.ret a) s (.ok a) s'
  | fail {e : ε} {s s' : σ} : R s s' → Ends R (.fail e) s (.error e) s'
  | act {l : ℓ} {u : σ → σ} {k : σ → Prog ℓ σ ε α} {h : ε →
      Prog ℓ σ ε α} {s t s' : σ} {r : Except ε α} : R s t → Ends R (k t) (u t) r s' →
      Ends R (.act l u k h) s r s'

/-- Wherever the procedure ends, `Q` holds of a result and `E` of an error, with the store. -/
def Amid (R : σ → σ → Prop) (Q : α → σ → Prop) (E : ε → σ → Prop) : Prog ℓ σ ε α → σ → Prop
  | .ret a, s => ∀ s', R s s' → Q a s'
  | .fail e, s => ∀ s', R s s' → E e s'
  | .act _ u k _, s => ∀ t, R s t → Amid R Q E (k t) (u t)

variable {R : σ → σ → Prop} {Q : α → σ → Prop} {E : ε → σ → Prop} {s : σ}

theorem Amid.of_ret {a : α} (h : Amid R Q E (.ret a : Prog ℓ σ ε α) s) {s' : σ} (hR : R s s') :
    Q a s' := h s' hR

theorem Amid.of_act {l : ℓ} {u : σ → σ} {k : σ → Prog ℓ σ ε α} {f : ε → Prog ℓ σ ε α}
    (h : Amid R Q E (.act l u k f) s) {t : σ} (hR : R s t) : Amid R Q E (k t) (u t) := h t hR

/-- The precondition is one for every run amid the moves. -/
theorem Amid.ends {p : Prog ℓ σ ε α} (hp : Amid R Q E p s) {r : Except ε α} {s' : σ}
    (h : Ends R p s r s') : (∀ a, r = .ok a → Q a s') ∧ ∀ e, r = .error e → E e s' := by
  induction h with
  | ret hR =>
      refine ⟨fun a h => ?_, fun e h => by cases h⟩
      rw [← Except.ok.inj h]
      exact hp _ hR
  | fail hR =>
      refine ⟨fun a h => (by cases h), fun e h => ?_⟩
      rw [← Except.error.inj h]
      exact hp _ hR
  | act hR _ ih => exact ih (hp _ hR)

/-- A run without moves of others is a lone run. -/
theorem ends_run (hR : ∀ s, R s s) (p : Prog ℓ σ ε α) (s : σ) :
    Ends R p s (p.run s).1 (p.run s).2 := by
  induction p generalizing s with
  | ret a => exact .ret (hR s)
  | fail e => exact .fail (hR s)
  | act l u k h ih _ => exact .act (hR s) (ih s (u s))

section Rules

theorem amid_pure {a : α} (h : ∀ s', R s s' → Q a s') : Amid R Q E (pure a : Prog ℓ σ ε α) s := h

theorem amid_throw {e : ε} (h : ∀ s', R s s' → E e s') : Amid R Q E (throw e : Prog ℓ σ ε α) s := h

theorem amid_mono {Q' : α → σ → Prop} {E' : ε → σ → Prop} {p : Prog ℓ σ ε α} (hp : Amid R Q E p s)
    (hQ : ∀ a t, Q a t → Q' a t) (hE : ∀ e t, E e t → E' e t) : Amid R Q' E' p s := by
  induction p generalizing s with
  | ret a => exact fun s' h => hQ a s' (hp s' h)
  | fail e => exact fun s' h => hE e s' (hp s' h)
  | act l u k h ih _ => exact fun t hR => ih t (hp t hR)

/-- The rule for sequencing. -/
theorem amid_bind (hrefl : ∀ s, R s s) {p : Prog ℓ σ ε β} {f : β → Prog ℓ σ ε α}
    (hp : Amid R (fun b t => Amid R Q E (f b) t) E p s) : Amid R Q E (p >>= f) s := by
  show Amid R Q E (p.bind f) s
  induction p generalizing s with
  | ret b => exact hp s (hrefl s)
  | fail e => exact hp
  | act l u k h ih _ => exact fun t hR => ih t (hp t hR)

/-- A read before the rest of a procedure. -/
theorem amid_read {l : ℓ} {g : σ → β} {f : β → Prog ℓ σ ε α}
    (h : ∀ t, R s t → Amid R Q E (f (g t)) t) : Amid R Q E (Prog.query l g >>= f) s := h

/-- An atomic step before the rest of a procedure, when it is not refused. -/
theorem amid_step_bind {l : ℓ} {F : σ → Except ε β × σ} {f : β → Prog ℓ σ ε α}
    (h : ∀ t, R s t → ∃ b t', F t = (.ok b, t') ∧ Amid R Q E (f b) t') :
    Amid R Q E (Prog.step l F >>= f) s := by
  intro t hR
  obtain ⟨b, t', hF, hf⟩ := h t hR
  show Amid R Q E ((Prog.ofExcept (F t).1).bind f) (F t).2
  rw [hF]
  exact hf

/-- A procedure that only reads ends where the others have moved the store. -/
theorem Prog.Reads.amid {V : σ → σ → Prop} {p : Prog ℓ σ ε α} (hp : p.Reads V) (hrefl : ∀ s, R s s)
    (htrans : ∀ s₁ s₂ s₃, R s₁ s₂ → R s₂ s₃ → R s₁ s₃) (s : σ) :
    Amid R (fun _ t => R s t) (fun _ t => R s t) p s := by
  have aux : ∀ s₀, R s₀ s → Amid R (fun _ t => R s₀ t) (fun _ t => R s₀ t) p s := by
    induction hp generalizing s with
    | ret a => exact fun s₀ h s' h' => htrans _ _ _ h h'
    | fail e => exact fun s₀ h s' h' => htrans _ _ _ h h'
    | act hu _ _ _ ihk _ =>
        intro s₀ h t hR
        rw [hu t]
        exact ihk t t s₀ (htrans _ _ _ h hR)
  exact aux s (hrefl s)

/-- A procedure that reads only what the others leave alone has the outcome of a lone run. -/
theorem Prog.Reads.amid_run {V : σ → σ → Prop} {p : Prog ℓ σ ε α} (hp : p.Reads V)
    (hV : ∀ s t, R s t → V s t) (hrefl : ∀ s, R s s)
    (htrans : ∀ s₁ s₂ s₃, R s₁ s₂ → R s₂ s₃ → R s₁ s₃) (s : σ) :
    Amid R (fun a t => R s t ∧ (p.run s).1 = .ok a)
      (fun e t => R s t ∧ (p.run s).1 = .error e) p s := by
  have aux : ∀ s₀, R s₀ s → Amid R (fun a t => R s₀ t ∧ (p.run s₀).1 = .ok a)
      (fun e t => R s₀ t ∧ (p.run s₀).1 = .error e) p s := by
    induction hp generalizing s with
    | ret a => exact fun s₀ h s' h' => ⟨htrans _ _ _ h h', rfl⟩
    | fail e => exact fun s₀ h s' h' => ⟨htrans _ _ _ h h', rfl⟩
    | @act l u k h hu hk _ _ ihk _ =>
        intro s₀ hs t hR
        have hmoved := htrans _ _ _ hs hR
        rw [hu t, hk s₀ t (hV _ _ hmoved)]
        have hrun : ((Prog.act l u k h).run s₀).1 = ((k s₀).run s₀).1 := by
          show ((k s₀).run (u s₀)).1 = _
          rw [hu s₀]
        rw [hrun]
        exact ihk s₀ t s₀ hmoved
  exact aux s (hrefl s)

/-- A guard before the rest of a procedure. -/
theorem Prog.Reads.amid_bind {V : σ → σ → Prop} {p : Prog ℓ σ ε β} {f : β → Prog ℓ σ ε α}
    (hp : p.Reads V) (hrefl : ∀ s, R s s) (htrans : ∀ s₁ s₂ s₃, R s₁ s₂ → R s₂ s₃ → R s₁ s₃)
    (hE : ∀ e t, R s t → E e t) (hf : ∀ b t, R s t → Amid R Q E (f b) t) : Amid R Q E (p >>= f) s :=
  Interleaving.amid_bind hrefl (amid_mono (hp.amid hrefl htrans s) hf hE)

/-- A procedure keeps what its own steps and the moves of the others keep. -/
theorem Prog.Keeps.amid {I : σ → Prop} {K : σ → σ → Prop} {p : Prog ℓ σ ε α} (hp : p.Keeps K)
    (hK : ∀ s s', K s s' → I s → I s') (hR : ∀ s s', R s s' → I s → I s') (hI : I s) :
    Amid R (fun _ t => I t) (fun _ t => I t) p s := by
  induction hp generalizing s with
  | ret a => exact fun s' h => hR s s' h hI
  | fail e => exact fun s' h => hR s s' h hI
  | act hu _ _ ihk _ => exact fun t h => ihk t (hK _ _ (hu t) (hR _ _ h hI))

/-- A procedure that cannot fail does not, whatever the others do. -/
theorem Prog.Returns.amid {p : Prog ℓ σ ε α} (hp : p.Returns) (s : σ) :
    Amid R (fun _ _ => True) (fun _ _ => False) p s := by
  induction hp generalizing s with
  | ret a => exact fun _ _ => trivial
  | act _ ih => exact fun t _ => ih t _

theorem amid_and {Q' : α → σ → Prop} {E' : ε → σ → Prop} {p : Prog ℓ σ ε α} (h : Amid R Q E p s)
    (h' : Amid R Q' E' p s) :
    Amid R (fun a t => Q a t ∧ Q' a t) (fun e t => E e t ∧ E' e t) p s := by
  induction p generalizing s with
  | ret a => exact fun s' hR => ⟨h s' hR, h' s' hR⟩
  | fail e => exact fun s' hR => ⟨h s' hR, h' s' hR⟩
  | act l u k _ ih _ => exact fun t hR => ih t (h t hR) (h' t hR)

end Rules

attribute [irreducible] Amid

end Interleaving
