import SRPanel.Lib.Zoom

/-!
# Procedures that only read, and procedures that return

`Prog.Reads V p` says that `p` changes nothing and that its course depends on no more of the store
than the relation `V` fixes: guards of other procedures have this form. `Prog.Returns p` says that
`p` cannot end with an error while its own calls do not throw. Both follow the text of the
procedure.
-/

namespace Interleaving

variable {ℓ ℓ' σ τ ε α β : Type}

namespace Prog

/-! ## Reading -/

/-- The procedure changes nothing, and sees no difference between stores that `V` relates. -/
inductive Reads (V : σ → σ → Prop) : Prog ℓ σ ε α → Prop
  | ret (a : α) : Reads V (ret a)
  | fail (e : ε) : Reads V (fail e)
  | act {l : ℓ} {u : σ → σ} {k : σ → Prog ℓ σ ε α} {h : ε → Prog ℓ σ ε α} :
      (∀ s, u s = s) → (∀ s s', V s s' → k s' = k s) → (∀ s, Reads V (k s)) → (∀ e, Reads V (h e)) →
      Reads V (act l u k h)

section Reads

variable {V : σ → σ → Prop}

theorem reads_pure (a : α) : (pure a : Prog ℓ σ ε α).Reads V := .ret a

theorem reads_throw (e : ε) : (throw e : Prog ℓ σ ε α).Reads V := .fail e

theorem reads_query {l : ℓ} {f : σ → α} (h : ∀ s s', V s s' → f s' = f s) :
    (query l f : Prog ℓ σ ε α).Reads V := by
  refine .act (fun _ => rfl) (fun s s' hV => ?_) (fun s => .ret (f s)) .fail
  show ofExcept (.ok (f s')) = ofExcept (.ok (f s))
  rw [h s s' hV]

theorem reads_bind {p : Prog ℓ σ ε β} {f : β → Prog ℓ σ ε α} (hp : p.Reads V)
    (hf : ∀ b, (f b).Reads V) : (p >>= f).Reads V := by
  show (p.bind f).Reads V
  induction hp with
  | ret b => exact hf b
  | fail e => exact .fail e
  | act hu hV _ _ ihk ihh =>
      refine .act hu (fun s s' h => ?_) ihk ihh
      rw [hV s s' h]

theorem reads_ite {c : Prop} [Decidable c] {p q : Prog ℓ σ ε α} (hp : p.Reads V) (hq : q.Reads V) :
    (if c then p else q).Reads V := by
  split
  · exact hp
  · exact hq

theorem Reads.keeps {p : Prog ℓ σ ε α} (hp : p.Reads V) {R : σ → σ → Prop} (hR : ∀ s, R s s) :
    p.Keeps R := by
  induction hp with
  | ret a => exact .ret a
  | fail e => exact .fail e
  | act hu _ _ _ ihk ihh =>
      refine .act (fun s => ?_) ihk ihh
      rw [hu s]
      exact hR s

theorem Reads.run_snd {p : Prog ℓ σ ε α} (hp : p.Reads V) (s : σ) : (p.run s).2 = s := by
  induction hp generalizing s with
  | ret a => rfl
  | fail e => rfl
  | @act l u k h hu _ _ _ ihk _ =>
      show ((k s).run (u s)).2 = s
      rw [hu s, ihk s s]

/-- Stores that `V` relates give the same outcome. -/
theorem Reads.run_fst {p : Prog ℓ σ ε α} (hp : p.Reads V) {s s' : σ} (h : V s s') :
    (p.run s').1 = (p.run s).1 := by
  induction hp with
  | ret a => rfl
  | fail e => rfl
  | @act l u k h' hu hV _ _ ihk _ =>
      show ((k s').run (u s')).1 = ((k s).run (u s)).1
      rw [hu s, hu s', hV s s' h, ihk s]

theorem Reads.mono {V' : σ → σ → Prop} {p : Prog ℓ σ ε α} (hp : p.Reads V)
    (h : ∀ s s', V' s s' → V s s') : p.Reads V' := by
  induction hp with
  | ret a => exact .ret a
  | fail e => exact .fail e
  | act hu hV _ _ ihk ihh => exact .act hu (fun s s' hs => hV s s' (h s s' hs)) ihk ihh

/-- What follows a read is run on the same store. -/
theorem Reads.bind_ok {p : Prog ℓ σ ε β} {f : β → Prog ℓ σ ε α} (hp : p.Reads V) {s : σ} {a : α}
    (h : ((p >>= f).run s).1 = .ok a) : ∃ b, (p.run s).1 = .ok b ∧ ((f b).run s).1 = .ok a := by
  have hs : p.run s = ((p.run s).1, s) := Prod.ext rfl (hp.run_snd s)
  rw [run_bind, hs] at h
  rcases hr : (p.run s).1 with e | b
  · rw [hr] at h
    cases h
  · rw [hr] at h
    exact ⟨b, rfl, h⟩

/-- A sequence after a read returns what its second part returns on the same store. -/
theorem Reads.bind_ok_iff {p : Prog ℓ σ ε β} {f : β → Prog ℓ σ ε α} (hp : p.Reads V)
    {s : σ} {a : α} : ((p >>= f).run s).1 = .ok a ↔
    ∃ b, (p.run s).1 = .ok b ∧ ((f b).run s).1 = .ok a := by
  refine ⟨hp.bind_ok, ?_⟩
  rintro ⟨b, hb, h⟩
  have hs : p.run s = (.ok b, s) := Prod.ext hb (hp.run_snd s)
  rw [run_bind, hs]
  exact h

/-- A guard that passes before a procedure. -/
theorem Reads.seq_ok_iff {p : Prog ℓ σ ε Unit} {q : Prog ℓ σ ε α} (hp : p.Reads V) {s : σ} {a : α} :
    ((p >>= fun _ => q).run s).1 = .ok a ↔ (p.run s).1 = .ok () ∧ (q.run s).1 = .ok a := by
  rw [hp.bind_ok_iff]
  constructor
  · rintro ⟨_, h⟩
    exact h
  · exact fun h => ⟨(), h⟩

theorem Reads.wp_iff {p : Prog ℓ σ ε α} (hp : p.Reads V) {Q : α → σ → Prop}
    {E : ε → σ → Prop} {s : σ} : wp p Q E s ↔ match (p.run s).1 with
      | .ok a => Q a s
      | .error e => E e s := by
  have hs : p.run s = ((p.run s).1, s) := Prod.ext rfl (hp.run_snd s)
  unfold wp
  rw [hs]
  rcases (p.run s).1 with _ | _
  · rfl
  · rfl

end Reads

/-! ## Returning -/

/-- The procedure does not end with an error unless one of its steps throws. -/
inductive Returns : Prog ℓ σ ε α → Prop
  | ret (a : α) : Returns (ret a)
  | act {l : ℓ} {u : σ → σ} {k : σ → Prog ℓ σ ε α} {h : ε → Prog ℓ σ ε α} :
      (∀ s, Returns (k s)) → Returns (act l u k h)

section Returns

theorem returns_pure (a : α) : (pure a : Prog ℓ σ ε α).Returns := .ret a

theorem returns_query (l : ℓ) (f : σ → α) : (query l f : Prog ℓ σ ε α).Returns :=
  .act fun s => .ret (f s)

theorem returns_modify (l : ℓ) (f : σ → σ) : (modify l f : Prog ℓ σ ε Unit).Returns :=
  .act fun _ => .ret ()

theorem returns_bind {p : Prog ℓ σ ε β} {f : β → Prog ℓ σ ε α} (hp : p.Returns)
    (hf : ∀ b, (f b).Returns) : (p >>= f).Returns := by
  show (p.bind f).Returns
  induction hp with
  | ret b => exact hf b
  | act _ ih => exact .act ih

/-- A handler that returns makes every procedure return. -/
theorem returns_attempt {p : Prog ℓ σ ε α} {H : ε → Prog ℓ σ ε α} (hH : ∀ e, (H e).Returns) :
    (p.attempt H).Returns := by
  induction p with
  | ret a => exact .ret a
  | fail e => exact hH e
  | act l u k h ih _ => exact .act ih

theorem returns_ite {c : Prop} [Decidable c] {p q : Prog ℓ σ ε α} (hp : p.Returns)
    (hq : q.Returns) : (if c then p else q).Returns := by
  split
  · exact hp
  · exact hq

theorem Returns.zoom {F : Focus σ τ} {lab : ℓ → ℓ'} {p : Prog ℓ σ ε α} (hp : p.Returns) :
    (p.zoom F lab).Returns := by
  induction hp with
  | ret a => exact .ret a
  | act _ ih => exact .act fun t => ih (F.get t)

theorem Returns.wp {p : Prog ℓ σ ε α} (hp : p.Returns) (s : σ) :
    wp p (fun _ _ => True) (fun _ _ => False) s := by
  induction hp generalizing s with
  | ret a => trivial
  | act _ ih => exact ih s _

end Returns

/-! ## Weakest preconditions from frames -/

theorem wp_and {Q Q' : α → σ → Prop} {E E' : ε → σ → Prop} {p : Prog ℓ σ ε α} {s : σ}
    (h : wp p Q E s) (h' : wp p Q' E' s) :
    wp p (fun a s => Q a s ∧ Q' a s) (fun e s => E e s ∧ E' e s) s := by
  unfold wp at h h' ⊢
  rcases hr : p.run s with ⟨_ | _, _⟩
  · rw [hr] at h h'
    exact ⟨h, h'⟩
  · rw [hr] at h h'
    exact ⟨h, h'⟩

/-- A procedure within a reflexive and transitive frame ends within it. -/
theorem Keeps.wp {R : σ → σ → Prop} {p : Prog ℓ σ ε α} (hp : p.Keeps R) (hrefl : ∀ s, R s s)
    (htrans : ∀ s₁ s₂ s₃, R s₁ s₂ → R s₂ s₃ → R s₁ s₃) (s : σ) :
    wp p (fun _ s' => R s s') (fun _ s' => R s s') s :=
  (wp_store_iff p).mpr (hp.run hrefl htrans s)

end Prog

end Interleaving
