import SRPanel.Lib.Pool

/-!
# Procedures made of parts

`Made R K p` says that the procedure `p` consists of steps within a frame `R` and of smaller
procedures from a class `K`. One look through the text of `p` establishes it, and every proof rule
that deals with the frame and with the class then deals with `p`.
-/

namespace Interleaving

variable {ℓ σ ε α β M : Type}

/-- A procedure made of steps within the frame `R` and of parts from the class `K`. -/
inductive Made (R : σ → σ → Prop) (K : ∀ {α : Type}, Prog ℓ σ ε α → Prop) :
    ∀ {α : Type}, Prog ℓ σ ε α → Prop
  | frame {α : Type} {p : Prog ℓ σ ε α} : p.Keeps R → Made R K p
  | part {α : Type} {p : Prog ℓ σ ε α} : K p → Made R K p
  | seq {α β : Type} {Q : β → Prop} {p : Prog ℓ σ ε β} {f : β → Prog ℓ σ ε α} :
      Made R K p → p.Yields Q → (∀ b, Q b → Made R K (f b)) → Made R K (p >>= f)
  | attempt {α : Type} {p : Prog ℓ σ ε α} {H : ε → Prog ℓ σ ε α} :
      Made R K p → (∀ e, Made R K (H e)) → Made R K (p.attempt H)

namespace Made

variable {R : σ → σ → Prop} {K : ∀ {α : Type}, Prog ℓ σ ε α → Prop}

protected theorem pure (a : α) : Made R K (pure a : Prog ℓ σ ε α) := .frame (Prog.keeps_pure a)

protected theorem throw (e : ε) : Made R K (throw e : Prog ℓ σ ε α) := .frame (Prog.keeps_throw e)

protected theorem bind {p : Prog ℓ σ ε β} {f : β → Prog ℓ σ ε α} (hp : Made R K p)
    (hf : ∀ b, Made R K (f b)) : Made R K (p >>= f) := .seq hp p.yields_true fun b _ => hf b

/-- What follows a read may count on the value being one that a store has. -/
protected theorem read (hR : ∀ s, R s s) {l : ℓ} {g : σ → β} {f : β → Prog ℓ σ ε α}
    (hf : ∀ s, Made R K (f (g s))) : Made R K (.query l g >>= f) := by
  refine .seq (Q := fun b => ∃ s, b = g s) (.frame (Prog.keeps_query hR l g))
    (Prog.yields_step fun s a h => ⟨s, (Except.ok.inj h).symm⟩) ?_
  rintro _ ⟨s, rfl⟩
  exact hf s

protected theorem ite {c : Prop} [Decidable c] {p q : Prog ℓ σ ε α} (hp : c → Made R K p)
    (hq : ¬c → Made R K q) : Made R K (if c then p else q) := by
  split
  · next h => exact hp h
  · next h => exact hq h

theorem void {p : Prog ℓ σ ε α} (hp : Made R K p) : Made R K p.void :=
  .attempt (.bind hp fun _ => .pure ()) fun _ => .pure ()

end Made

section Safe

variable [AddCommMonoid M] {ok : ℓ → σ → Prop} {I : σ → M → Prop} {G : σ → σ → Prop}

/-- A procedure is safe with an unchanged ghost value if the frame and the parts are. -/
theorem Made.safe {R : σ → σ → Prop} {K : ∀ {α : Type}, Prog ℓ σ ε α → Prop}
    {p : Prog ℓ σ ε α} {g : M} (hp : Made R K p) (hR : ∀ s s' f, R s s' → I s f → I s' f ∧ G s s')
    (hK : ∀ {α : Type} {p : Prog ℓ σ ε α}, K p →
      Safe ok I G (fun _ g' => g' = g) (fun _ g' => g' = g) p g) :
    Safe ok I G (fun _ g' => g' = g) (fun _ g' => g' = g) p g := by
  induction hp with
  | frame hp => exact safe_of_keeps hp hR
  | part hp => exact hK hp
  | seq _ hQ _ ihp ihf =>
      refine safe_bind (safe_yields ihp hQ) ?_
      rintro b _ ⟨rfl, hb⟩
      exact ihf b hb
  | attempt _ _ ihp ihH =>
      refine safe_attempt ihp ?_
      rintro e _ rfl
      exact ihH e

end Safe

end Interleaving
