import SRPanel.Lib.Pool

/-!
# Labelled steps and metered runs

A `Chain` is a sequence of labelled steps; `Prog.Leads` says that a lone run amounts to one. A
metered run is a serial run that adds up what its steps measure, in a monoid: a bound on the total
is an invariant of the store and of the total so far.
-/

namespace Interleaving

open Relation (ReflTransGen)

variable {ℓ σ ε η α β M κ : Type}

/-! ## Chains -/

/-- Labelled steps one after the other, each with an allowed label. -/
def Chain (Step : η → σ → σ → Prop) (ok : η → Prop) : σ → σ → Prop :=
  ReflTransGen fun s s' => ∃ e, ok e ∧ Step e s s'

namespace Chain

variable {Step : η → σ → σ → Prop} {ok : η → Prop} {s s' s'' : σ}

theorem refl (s : σ) : Chain Step ok s s := ReflTransGen.refl

theorem single {e : η} (hok : ok e) (h : Step e s s') : Chain Step ok s s' :=
  ReflTransGen.single ⟨e, hok, h⟩

theorem trans (h : Chain Step ok s s') (h' : Chain Step ok s' s'') : Chain Step ok s s'' :=
  ReflTransGen.trans h h'

theorem mono {ok' : η → Prop} (h : Chain Step ok s s') (hok : ∀ e, ok e → ok' e) :
    Chain Step ok' s s' := by
  induction h with
  | refl => exact refl s
  | tail _ hstep ih =>
      obtain ⟨e, he, hstep⟩ := hstep
      exact ih.trans (single (hok e he) hstep)

/-- What every allowed step keeps holds after a chain. -/
theorem invariant {I : σ → Prop} (h : Chain Step ok s s') (h0 : I s)
    (hstep : ∀ e t t', ok e → I t → Step e t t' → I t') : I s' := by
  induction h with
  | refl => exact h0
  | tail _ htail ih =>
      obtain ⟨e, he, htail⟩ := htail
      exact hstep e _ _ he ih htail

end Chain

/-! ## Whole runs -/

namespace Prog

/-- From a store that satisfies `I` a lone run leads to one that `R` relates to it. -/
def Leads (I : σ → Prop) (R : σ → σ → Prop) (p : Prog ℓ σ ε α) : Prop := ∀ s, I s → R s (p.run s).2

variable {I : σ → Prop} {R : σ → σ → Prop}

theorem leads_of_wp {p : Prog ℓ σ ε α}
    (hp : ∀ s, I s → wp p (fun _ s' => R s s') (fun _ s' => R s s') s) :
    p.Leads I R := fun s hs => (wp_store_iff p).mp (hp s hs)

theorem leads_ite {c : Prop} [Decidable c] {p q : Prog ℓ σ ε α} (hp : p.Leads I R)
    (hq : q.Leads I R) : (if c then p else q).Leads I R := by
  split
  · exact hp
  · exact hq

section Transitive

variable (htrans : ∀ s₁ s₂ s₃, R s₁ s₂ → R s₂ s₃ → R s₁ s₃) (hI : ∀ s s', R s s' → I s → I s')

include htrans hI

theorem leads_bind {p : Prog ℓ σ ε β} {f : β → Prog ℓ σ ε α} (hp : p.Leads I R)
    (hf : ∀ b, (f b).Leads I R) : (p >>= f).Leads I R := by
  intro s hs
  have hfirst := hp s hs
  rw [run_bind]
  rcases hrun : p.run s with ⟨e | b, s₁⟩
  · rw [hrun] at hfirst
    exact hfirst
  · rw [hrun] at hfirst
    exact htrans _ _ _ hfirst (hf b s₁ (hI _ _ hfirst hs))

theorem leads_attempt {p : Prog ℓ σ ε α} {H : ε → Prog ℓ σ ε α} (hp : p.Leads I R)
    (hH : ∀ e, (H e).Leads I R) : (p.attempt H).Leads I R := by
  intro s hs
  have hfirst := hp s hs
  rw [run_attempt]
  rcases hrun : p.run s with ⟨e | a, s₁⟩
  · rw [hrun] at hfirst
    exact htrans _ _ _ hfirst (hH e s₁ (hI _ _ hfirst hs))
  · rw [hrun] at hfirst
    exact hfirst

end Transitive

theorem leads_void {p : Prog ℓ σ ε α} (hp : p.Leads I R) : p.void.Leads I R := by
  intro s hs
  rw [run_void]
  exact hp s hs

end Prog

/-! ## Metered runs -/

namespace Serial

variable [AddMonoid M]

/-- A serial run with what its calls and the outside changes measure. -/
inductive Metered (call : κ → Prog ℓ σ ε Unit) (env : σ → σ → Prop) (ok : κ → σ → Prop)
    (m : Option κ → σ → σ → M) : σ → σ → M → Prop
  | refl (s : σ) : Metered call env ok m s s 0
  | call {s t : σ} {n : M} (c : κ) : Metered call env ok m s t n → ok c t →
      Metered call env ok m s ((call c).run t).2 (n + m (some c) t ((call c).run t).2)
  | env {s t t' : σ} {n : M} : Metered call env ok m s t n → env t t' →
      Metered call env ok m s t' (n + m none t t')

variable {call : κ → Prog ℓ σ ε Unit} {env : σ → σ → Prop} {ok : κ → σ → Prop}
    {m : Option κ → σ → σ → M}

/-- What every call and every outside change keeps, with the total, holds after a metered run. -/
theorem Metered.invariant {I : σ → M → Prop} {s s' : σ} {n : M} (h : Metered call env ok m s s' n)
    (h0 : I s 0) (hcall : ∀ c t n, I t n → ok c t →
      I ((call c).run t).2 (n + m (some c) t ((call c).run t).2))
    (henv : ∀ t t' n, I t n → env t t' → I t' (n + m none t t')) : I s' n := by
  induction h with
  | refl => exact h0
  | call c _ hok ih => exact hcall c _ _ ih hok
  | env _ he ih => exact henv _ _ _ ih he

end Serial

end Interleaving
