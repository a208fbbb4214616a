import SRPanel.Lib.Pool
import Mathlib.Order.Defs.Unbundled

/-!
# Rely and guarantee

`Upholds` is the proof rule for interleavings in which what a procedure has seen earlier stays
useful: all procedures share a guarantee `G`, a preorder on stores, and a procedure relies on the
others for the same. Between two of its steps it knows that the store has moved within `G` since it
last looked, so every fact that `G` keeps carries over from one step to the next.
-/

namespace Interleaving

open Relation (ReflTransGen)

variable {ℓ σ ε α β : Type}

/-- From the store `s` that the procedure has seen last, every atomic step keeps the invariant `I`
and the guarantee `G`, provided that the others do; `Q` and `E` describe its outcome. -/
def Upholds (ok : ℓ → σ → Prop) (I : σ → Prop) (G : σ → σ → Prop) (Q : α → σ → Prop)
    (E : ε → σ → Prop) : Prog ℓ σ ε α → σ → Prop
  | .ret a, s => Q a s
  | .fail e, s => E e s
  | .act l u k _, s => ∀ t, G s t → I t → ok l t →
      I (u t) ∧ G t (u t) ∧ Upholds ok I G Q E (k t) (u t)

section Rules

variable {ok : ℓ → σ → Prop} {I : σ → Prop} {G : σ → σ → Prop}
variable {Q : α → σ → Prop} {E : ε → σ → Prop} {s : σ}

theorem upholds_pure {a : α} (h : Q a s) : Upholds ok I G Q E (pure a) s := h

theorem upholds_throw {e : ε} (h : E e s) : Upholds ok I G Q E (throw e) s := h

theorem upholds_ite {c : Prop} [Decidable c] {p q : Prog ℓ σ ε α}
    (hp : c → Upholds ok I G Q E p s) (hq : ¬c → Upholds ok I G Q E q s) :
    Upholds ok I G Q E (if c then p else q) s := by
  split
  · next h => exact hp h
  · next h => exact hq h

theorem upholds_ofExcept {r : Except ε α} (hQ : ∀ a, r = .ok a → Q a s)
    (hE : ∀ e, r = .error e → E e s) : Upholds ok I G Q E (Prog.ofExcept r) s := by
  cases r with
  | ok a => exact hQ a rfl
  | error e => exact hE e rfl

/-- The rule for one atomic step. -/
theorem upholds_step {l : ℓ} {F : σ → Except ε α × σ}
    (h : ∀ t, G s t → I t → ok l t → I (F t).2 ∧ G t (F t).2 ∧
      (∀ a, (F t).1 = .ok a → Q a (F t).2) ∧ ∀ e, (F t).1 = .error e → E e (F t).2) :
    Upholds ok I G Q E (Prog.step l F) s := by
  intro t hG hI hok
  obtain ⟨hI', hG', hQ, hE⟩ := h t hG hI hok
  exact ⟨hI', hG', upholds_ofExcept hQ hE⟩

theorem upholds_mono {Q' : α → σ → Prop} {E' : ε → σ → Prop} {p : Prog ℓ σ ε α}
    (hp : Upholds ok I G Q E p s) (hQ : ∀ a t, Q a t → Q' a t) (hE : ∀ e t, E e t → E' e t) :
    Upholds ok I G Q' E' p s := by
  induction p generalizing s with
  | ret a => exact hQ a s hp
  | fail e => exact hE e s hp
  | act l u k h ih _ =>
      intro t hG hI hok
      obtain ⟨hI', hG', hk⟩ := hp t hG hI hok
      exact ⟨hI', hG', ih t hk⟩

/-- The rule for handlers. -/
theorem upholds_attempt {E' : ε → σ → Prop} {p : Prog ℓ σ ε α} {H : ε → Prog ℓ σ ε α}
    (hp : Upholds ok I G Q E' p s) (hH : ∀ e t, E' e t → Upholds ok I G Q E (H e) t) :
    Upholds ok I G Q E (p.attempt H) s := by
  induction p generalizing s with
  | ret a => exact hp
  | fail e => exact hH e s hp
  | act l u k h ih _ =>
      intro t hG hI hok
      obtain ⟨hI', hG', hk⟩ := hp t hG hI hok
      exact ⟨hI', hG', ih t hk⟩

/-- A procedure within a frame that the invariant and the guarantee allow. -/
theorem upholds_of_keeps {R : σ → σ → Prop} {p : Prog ℓ σ ε α} (hp : p.Keeps R)
    (hR : ∀ t t', R t t' → I t → I t' ∧ G t t') :
    Upholds ok I G (fun _ _ => True) (fun _ _ => True) p s := by
  induction hp generalizing s with
  | ret a => trivial
  | fail e => trivial
  | act hu _ _ ih _ =>
      intro t _ hI _
      obtain ⟨hI', hG'⟩ := hR _ _ (hu t) hI
      exact ⟨hI', hG', ih t⟩

/-- A whole procedure as one step: each of its own steps may be allowed what the one step is. -/
theorem upholds_atomically {l : ℓ} {p : Prog ℓ σ ε α}
    (h : ∀ t, G s t → I t → ok l t → Prog.wp p (fun a t' => I t' ∧ G t t' ∧ Q a t')
      (fun e t' => I t' ∧ G t t' ∧ E e t') t) :
    Upholds ok I G Q E (Prog.atomically l p) s := by
  refine upholds_step fun t hG hI hok => ?_
  have hp := h t hG hI hok
  unfold Prog.wp at hp
  rcases hr : p.run t with ⟨e | a, t'⟩
  · rw [hr] at hp
    obtain ⟨hI', hG', hE⟩ := hp
    refine ⟨hI', hG', fun a h => (nomatch h), ?_⟩
    rintro e ⟨⟩
    exact hE
  · rw [hr] at hp
    obtain ⟨hI', hG', hQ⟩ := hp
    refine ⟨hI', hG', ?_, fun e h => nomatch h⟩
    rintro a ⟨⟩
    exact hQ

variable [IsPreorder σ G]

/-- A step that only reads. -/
theorem upholds_query {l : ℓ} {f : σ → α} (h : ∀ t, G s t → I t → ok l t → Q (f t) t) :
    Upholds ok I G Q E (Prog.query l f) s := by
  refine upholds_step fun t hG hI hok => ⟨hI, refl_of G t, ?_, ?_⟩
  · rintro a ⟨⟩
    exact h t hG hI hok
  · rintro e ⟨⟩

/-- The outcome is reached within the guarantee. -/
theorem upholds_since {p : Prog ℓ σ ε α} (hp : Upholds ok I G Q E p s) :
    Upholds ok I G (fun a t => G s t ∧ Q a t) (fun e t => G s t ∧ E e t) p s := by
  have aux : ∀ s₀, G s₀ s →
      Upholds ok I G (fun a t => G s₀ t ∧ Q a t) (fun e t => G s₀ t ∧ E e t) p s := by
    induction p generalizing s with
    | ret a => exact fun s₀ h => ⟨h, hp⟩
    | fail e => exact fun s₀ h => ⟨h, hp⟩
    | act l u k h ih _ =>
        intro s₀ hs t hG hI hok
        obtain ⟨hI', hG', hk⟩ := hp t hG hI hok
        exact ⟨hI', hG', ih t hk s₀ (trans_of G (trans_of G hs hG) hG')⟩
  exact aux s (refl_of G s)

/-- The rule for sequencing: the second procedure starts within the guarantee of the first one's
start. -/
theorem upholds_bind {Q' : β → σ → Prop} {p : Prog ℓ σ ε β} {f : β → Prog ℓ σ ε α}
    (hp : Upholds ok I G Q' E p s)
    (hf : ∀ b t, G s t → Q' b t → Upholds ok I G Q E (f b) t) :
    Upholds ok I G Q E (p >>= f) s := by
  have aux : ∀ {s₀}, Upholds ok I G (fun b t => G s₀ t ∧ Q' b t) (fun e t => G s₀ t ∧ E e t) p s →
      (∀ b t, G s₀ t → Q' b t → Upholds ok I G Q E (f b) t) →
      Upholds ok I G Q E (p.bind f) s := by
    clear hp hf
    induction p generalizing s with
    | ret b => exact fun h hf => hf b s h.1 h.2
    | fail e => exact fun h _ => h.2
    | act l u k h ih _ =>
        intro s₀ h hf t hG hI hok
        obtain ⟨hI', hG', hk⟩ := h t hG hI hok
        exact ⟨hI', hG', ih t hk hf⟩
  exact aux (upholds_since hp) hf

/-- A read before the rest of a procedure. -/
theorem upholds_read {l : ℓ} {g : σ → β} {f : β → Prog ℓ σ ε α}
    (h : ∀ t, G s t → I t → ok l t → Upholds ok I G Q E (f (g t)) t) :
    Upholds ok I G Q E (Prog.query l g >>= f) s := by
  intro t hG hI hok
  exact ⟨hI, refl_of G t, h t hG hI hok⟩

/-- Forgetting the outcome. -/
theorem upholds_void {p : Prog ℓ σ ε α}
    (hp : Upholds ok I G (fun _ _ => True) (fun _ _ => True) p s) :
    Upholds ok I G (fun _ _ => True) (fun _ _ => True) p.void s := by
  have hdone : Upholds ok I G (fun _ _ => True) (fun _ _ => True)
      (p.bind fun _ => Prog.ret ()) s := upholds_bind hp fun _ _ _ _ => trivial
  exact upholds_attempt hdone fun _ _ _ => trivial

/-- A lone run of a procedure whose steps need no promise. -/
theorem Upholds.wp {p : Prog ℓ σ ε α} (hp : Upholds (fun _ _ => True) I G Q E p s) (hI : I s) :
    Prog.wp p (fun a t => I t ∧ G s t ∧ Q a t) (fun e t => I t ∧ G s t ∧ E e t) s := by
  have aux : ∀ s₀, G s₀ s →
      Prog.wp p (fun a t => I t ∧ G s₀ t ∧ Q a t) (fun e t => I t ∧ G s₀ t ∧ E e t) s := by
    induction p generalizing s with
    | ret a => exact fun s₀ h => ⟨hI, h, hp⟩
    | fail e => exact fun s₀ h => ⟨hI, h, hp⟩
    | act l u k h ih _ =>
        intro s₀ hs
        obtain ⟨hI', hG', hk⟩ := hp s (refl_of G s) hI trivial
        exact ih s hk hI' s₀ (trans_of G hs hG')
  exact aux s (refl_of G s)

end Rules

/-- The guarantee of procedures that count on nothing but the invariant. -/
def Anything (_ _ : σ) : Prop := True

instance : IsPreorder σ Anything where
  refl _ := trivial
  trans _ _ _ _ _ := trivial

/-! ## Soundness -/

section Soundness

variable {ok : ℓ → σ → Prop} {I : σ → Prop} {G : σ → σ → Prop} {env : σ → σ → Prop}

/-- The invariant holds, and every procedure upholds it from a store that it has seen. -/
def Pool.Upheld (ok : ℓ → σ → Prop) (I : σ → Prop) (G : σ → σ → Prop) (c : Pool ℓ σ ε) : Prop :=
  I c.store ∧ ∀ p ∈ c.threads, ∃ s, G s c.store ∧
    Upholds ok I G (fun _ _ => True) (fun _ _ => True) p s

variable [IsPreorder σ G]

theorem Pool.Upheld.step {c c' : Pool ℓ σ ε} (hc : c.Upheld ok I G)
    (henv : ∀ s s', I s → env s s' → I s' ∧ G s s') (h : Pool.Step env ok c c') :
    c'.Upheld ok I G ∧ G c.store c'.store := by
  obtain ⟨hI, hT⟩ := hc
  cases h with
  | env he =>
      obtain ⟨hI', hG⟩ := henv _ _ hI he
      refine ⟨⟨hI', fun p hp => ?_⟩, hG⟩
      obtain ⟨s, hs, hup⟩ := hT p hp
      exact ⟨s, trans_of G hs hG, hup⟩
  | @act t T i l u k h hi hok =>
      obtain ⟨s, hs, hup⟩ := hT _ (List.mem_of_getElem? hi)
      obtain ⟨hI', hG, hk⟩ := hup t hs hI hok
      refine ⟨⟨hI', fun p hp => ?_⟩, hG⟩
      rcases List.mem_or_eq_of_mem_set hp with hp | rfl
      · obtain ⟨s, hs, hup⟩ := hT p hp
        exact ⟨s, trans_of G hs hG, hup⟩
      · exact ⟨u t, refl_of G _, hk⟩

/-- Every run keeps the invariant and stays within the guarantee. -/
theorem Pool.Upheld.run {c c' : Pool ℓ σ ε} (hc : c.Upheld ok I G)
    (henv : ∀ s s', I s → env s s' → I s' ∧ G s s') (h : Pool.Run env ok c c') :
    c'.Upheld ok I G ∧ G c.store c'.store := by
  induction h with
  | refl => exact ⟨hc, refl_of G _⟩
  | tail _ hstep ih =>
      obtain ⟨hc', hG⟩ := ih.1.step henv hstep
      exact ⟨hc', trans_of G ih.2 hG⟩

/-- The invariant holds after every run of procedures that uphold it. -/
theorem Pool.upheld_run {s : σ} {T : List (Prog ℓ σ ε Unit)} {c : Pool ℓ σ ε} (hI : I s)
    (hT : ∀ p ∈ T, Upholds ok I G (fun _ _ => True) (fun _ _ => True) p s)
    (henv : ∀ s s', I s → env s s' → I s' ∧ G s s') (h : Pool.Run env ok ⟨s, T⟩ c) :
    I c.store ∧ G s c.store := by
  have hstart : (⟨s, T⟩ : Pool ℓ σ ε).Upheld ok I G :=
    ⟨hI, fun p hp => ⟨s, refl_of G s, hT p hp⟩⟩
  obtain ⟨hc, hG⟩ := hstart.run henv h
  exact ⟨hc.1, hG⟩

/-! ### Outcomes -/

/-- The invariant holds, and every procedure leads from a store that it has seen to what is promised
of its outcome. -/
def Pool.Delivers (ok : ℓ → σ → Prop) (I : σ → Prop) (G : σ → σ → Prop)
    (promise : ℕ → Except ε Unit → σ → Prop) (c : Pool ℓ σ ε) : Prop :=
  I c.store ∧ ∀ i p, c.threads[i]? = some p → ∃ s, G s c.store ∧
    Upholds ok I G (fun a => promise i (.ok a)) (fun e => promise i (.error e)) p s

variable {promise : ℕ → Except ε Unit → σ → Prop}

theorem Pool.Delivers.step {c c' : Pool ℓ σ ε} (hc : c.Delivers ok I G promise)
    (henv : ∀ s s', I s → env s s' → I s' ∧ G s s') (h : Pool.Step env ok c c') :
    c'.Delivers ok I G promise := by
  obtain ⟨hI, hT⟩ := hc
  cases h with
  | env he =>
      obtain ⟨hI', hG⟩ := henv _ _ hI he
      refine ⟨hI', fun i p hp => ?_⟩
      obtain ⟨s, hs, hup⟩ := hT i p hp
      exact ⟨s, trans_of G hs hG, hup⟩
  | @act t T i l u k h hi hok =>
      obtain ⟨s, hs, hup⟩ := hT i _ hi
      obtain ⟨hI', hG, hk⟩ := hup t hs hI hok
      refine ⟨hI', fun j p hp => ?_⟩
      by_cases hij : i = j
      · subst hij
        obtain rfl : k t = p := by
          have hlt : i < T.length := (List.getElem?_eq_some_iff.mp hi).1
          change (T.set i (k t))[i]? = some p at hp
          rw [List.getElem?_set_self hlt] at hp
          exact Option.some.inj hp
        exact ⟨u t, refl_of G _, hk⟩
      · change (T.set i (k t))[j]? = some p at hp
        rw [List.getElem?_set_ne hij] at hp
        obtain ⟨s, hs, hup⟩ := hT j p hp
        exact ⟨s, trans_of G hs hG, hup⟩

theorem Pool.Delivers.run {c c' : Pool ℓ σ ε} (hc : c.Delivers ok I G promise)
    (henv : ∀ s s', I s → env s s' → I s' ∧ G s s') (h : Pool.Run env ok c c') :
    c'.Delivers ok I G promise := by
  induction h with
  | refl => exact hc
  | tail _ hstep ih => exact ih.step henv hstep

omit [IsPreorder σ G] in
/-- A procedure that has ended has left a store of which its promise holds. -/
theorem Pool.Delivers.ended {c : Pool ℓ σ ε} (hc : c.Delivers ok I G promise) {i : ℕ}
    {p : Prog ℓ σ ε Unit} {r : Except ε Unit} (hp : c.threads[i]? = some p)
    (hr : p.outcome = some r) :
    ∃ s, G s c.store ∧ promise i r s := by
  obtain ⟨s, hs, hup⟩ := hc.2 i p hp
  cases p with
  | ret a =>
      obtain rfl : .ok a = r := Option.some.inj hr
      exact ⟨s, hs, hup⟩
  | fail e =>
      obtain rfl : .error e = r := Option.some.inj hr
      exact ⟨s, hs, hup⟩
  | act l u k h => cases hr

end Soundness

attribute [irreducible] Upholds

end Interleaving
